import NoteIndex.Navigation.Target

/-! The places where a target is declared, and those that refer to it. -/
namespace NoteIndex.Navigation

open Markup

/-- An element of a document. -/
structure Site where
  document : Document
  element : Element
  deriving DecidableEq

/-- The documents where a target can be declared or referred to. Labels count in their own document
only. -/
def scope (folder : Folder) (document : Document) : Target → List Document
  | .label .. => [document]
  | .document .. => folder.documentList

/-- The elements of documents that satisfy a test, in order. -/
def sites (documents : List Document) (test : Document → Element → Bool) : List Site :=
  documents.flatMap fun document => (document.elements.filter (test document)).map (⟨document, ·⟩)

/-- Two sites at one place. -/
def Site.samePlace (a b : Site) : Bool :=
  a.document.path.components == b.document.path.components && a.element.range == b.element.range

/-- The first of all sites at one place. -/
def distinct : List Site → List Site
  | [] => []
  | site :: rest => site :: (distinct rest).filter fun other => !site.samePlace other

/-- The elements that declare a target, in path and source order. -/
def declarations (folder : Folder) (document : Document) (target : Target) : List Site :=
  distinct (sites (scope folder document target) fun d e => declares folder d e target)

/-- The elements that refer to a target, in path and source order. -/
def occurrences (folder : Folder) (document : Document) (target : Target) : List Site :=
  sites (scope folder document target) fun d e => refersTo folder d e target

/-- The elements that refer to the target of a given element, after those that declare it if
these are asked for. -/
def findReferences (includeDeclarations : Bool) (folder : Folder) (document : Document)
    (element : Element) : List Site :=
  match target? folder document element with
  | none => []
  | some target =>
    (if includeDeclarations then declarations folder document target else [])
      ++ occurrences folder document target

/-- Where something is defined: at an element, or by a document without title as a whole. -/
inductive Origin where
  | element (site : Site)
  | document (document : Document)
  deriving DecidableEq

def Origin.path : Origin → Path
  | element site => site.document.path
  | document d => d.path

/-- The declarations of the target of an element. A document without any stands for itself. -/
def findDefinitions (folder : Folder) (document : Document) (element : Element) : List Origin :=
  match target? folder document element with
  | none => []
  | some target =>
    match declarations folder document target, target with
    | [], .document key none =>
      (folder.documentList.filter fun d => folder.key? d.path == some key).map .document
    | found, _ => found.map .element

end NoteIndex.Navigation
