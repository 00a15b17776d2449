import NoteIndex.Path.Resolve
import NoteIndex.Workspace.Folder

/-! Targets: what elements declare or refer to. -/
namespace NoteIndex.Navigation

open Markup

inductive Target where
  /-- A document by its key, or one of its headings by slug. The title stands for the document. -/
  | document (key : String) (anchor : Option String)
  /-- A label of one document. -/
  | label (path : Path) (label : String)
  deriving DecidableEq, Repr

namespace Target

/-- Targets are the same if they agree up to the way in which paths are written. -/
def same : Target → Target → Bool
  | document k a, document l b => k == l && a == b
  | label p a, label q b => p.components == q.components && a == b
  | _, _ => false

end Target

/-- The documents of a folder with their keys, in path order. -/
def keyedDocuments (folder : Folder) : List (String × Document) :=
  folder.documentList.filterMap fun document =>
    (folder.key? document.path).map fun key => (key, document)

/-- The slugs of file stems in path order, then those of titles in path order, with the keys of
their documents. The first one of several equal slugs counts. -/
def names (folder : Folder) : List (String × String) :=
  let keyed := keyedDocuments folder
  keyed.filterMap (fun (key, document) =>
      document.path.fileStem?.map fun stem => (slug stem, key))
    ++ keyed.filterMap fun (key, document) =>
      document.title?.map fun title => (title.slug, key)

/-- The key of the document with a given name. -/
def keyOfName? (folder : Folder) (name : String) : Option String :=
  ((names folder).find? (·.1 == slug name)).map Prod.snd

/-- Whether a text ends with `.md` in any letter case. -/
def hasMarkdownSuffix (text : String) : Bool :=
  ".md".toList.reverse.isPrefixOf (Text.lowercaseString text).toList.reverse

/-- A key that ends with `.md`. Names may hold dots, so nothing else counts as an extension. -/
def withMarkdownSuffix (key : String) : String :=
  if hasMarkdownSuffix key then key else key ++ ".md"

/-- A key with an extension. -/
def withExtension (key : String) : String :=
  if (Path.extension? key).isSome then key else key ++ ".md"

/-- The key that a wiki link names: its own document, a path, or the name of a document. A name
that no document has stands for a document beside the link. -/
def wikiKey? (folder : Folder) (document : Document) (target : Option String) : Option String :=
  match target with
  | none => folder.key? document.path
  | some target =>
    if target.toList.contains '/' || hasMarkdownSuffix target then
      (Path.resolve? folder.root document.path target).map withMarkdownSuffix
    else
      match keyOfName? folder target with
      | some key => some key
      | none => Path.resolve? folder.root document.path (target ++ ".md")

/-- The key that an inline link names. -/
def inlineKey? (folder : Folder) (document : Document) (url : Option String) : Option String :=
  match url with
  | none => folder.key? document.path
  | some url => (Path.resolve? folder.root document.path url).map withExtension

/-- The target of a link. -/
def linkTarget? (folder : Folder) (document : Document) : Element → Option Target
  | .wikiLink link =>
    (wikiKey? folder document link.target).map fun key => .document key (link.anchor.map slug)
  | .inlineLink link =>
    (inlineKey? folder document link.url).map fun key => .document key (link.anchor.map slug)
  | _ => none

/-- What an element of a document declares or refers to. -/
def target? (folder : Folder) (document : Document) : Element → Option Target
  | .heading heading =>
    (folder.key? document.path).map fun key =>
      .document key (if heading.isTitle then none else some heading.slug)
  | .definition definition => some (.label document.path (normalizeLabel definition.label))
  | .labelUse use => some (.label document.path (normalizeLabel use.label))
  | link => linkTarget? folder document link

/-- Whether an element declares a target. -/
def declares (folder : Folder) (document : Document) (element : Element) (target : Target) : Bool :=
  match element, target with
  | .heading heading, .document key anchor =>
    (match anchor with
      | none => heading.isTitle
      | some anchor => heading.slug == anchor)
    && folder.key? document.path == some key
  | .definition definition, .label path label =>
    document.path.components == path.components && normalizeLabel definition.label == label
  | _, _ => false

/-- Whether an element refers to a target without declaring it. -/
def refersTo (folder : Folder) (document : Document) (element : Element) (target : Target) : Bool :=
  match element, target with
  | .wikiLink _, .document .. => (linkTarget? folder document element).any (·.same target)
  | .inlineLink _, .document .. => (linkTarget? folder document element).any (·.same target)
  | .labelUse use, .label path label =>
    document.path.components == path.components && normalizeLabel use.label == label
  | _, _ => false

end NoteIndex.Navigation
