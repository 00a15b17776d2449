import NoteIndex.Proofs.Navigation.LinkSpelling
import NoteIndex.Proofs.Workspace.Routing

/-! Names in wiki links: the file stems of all documents come before the titles of all documents, and
among several with the same slug the first one in path order that has a key counts. A name that no
document has stands for a document beside the link. -/
namespace NoteIndex

open Markup

namespace Folder

/-- Of the documents of a folder that pass a test, the one that is stored first in path order. -/
def IsFirst (folder : Folder) (test : Document → Prop) (document : Document) : Prop :=
  ∃ place : List Component, folder.documents[place]? = some document ∧ test document ∧
    ∀ (other : List Component) (found : Document), folder.documents[other]? = some found →
      test found → (compare place other).isLE = true

lemma isFirst_of_find? {folder : Folder} {test : Document → Bool} {document : Document}
    (h : folder.documentList.find? test = some document) :
    folder.IsFirst (test · = true) document := by
  rw [documentList,List.find?_map,Option.map_eq_some_iff] at h
  obtain ⟨⟨place,found⟩,hfind,rfl⟩ := h
  obtain ⟨hstored,htest,hfirst⟩ := first_of_find?_toList hfind
  exact ⟨place,hstored,htest,hfirst⟩

end Folder

namespace Navigation

/-- The slug of the file stem of a document. -/
def stemSlug? (document : Document) : Option String := document.path.fileStem?.map slug

/-- The slug of the title of a document. -/
def titleSlug? (document : Document) : Option String := document.title?.map Heading.slug

/-- Whether a name leads to a document by a slug of it. A document outside the root of the folder has
no key, and neither has one whose path below the root is no text. No name leads to such a document. -/
def IsNamed (folder : Folder) (slugOf : Document → Option String) (name : String)
    (document : Document) : Prop :=
  (folder.key? document.path).isSome = true ∧ slugOf document = some (slug name)

instance (folder : Folder) (slugOf : Document → Option String) (name : String) :
    DecidablePred (IsNamed folder slugOf name) := fun document =>
  inferInstanceAs (Decidable ((folder.key? document.path).isSome = true ∧
    slugOf document = some (slug name)))

/-- The key of the first document to which a name leads by a slug. -/
def keyBySlug? (folder : Folder) (slugOf : Document → Option String) (name : String) :
    Option String :=
  (folder.documentList.find? fun document => decide (IsNamed folder slugOf name document)).bind
    fun document => folder.key? document.path

variable {folder : Folder} {slugOf : Document → Option String} {name : String}

/-- Names that documents get from some part of them are looked up from the first document on. -/
lemma find?_keyed {α : Type} (part : Document → Option α) (nameOf : α → String)
    (documents : List Document) :
    (((documents.filterMap fun document =>
        (folder.key? document.path).map fun key => (key,document)).filterMap fun entry =>
          (part entry.2).map fun x => (nameOf x,entry.1)).find? (·.1 == slug name)).map Prod.snd =
      (documents.find? fun document =>
        decide (IsNamed folder (fun d => (part d).map nameOf) name document)).bind
          fun document => folder.key? document.path := by
  induction documents with
  | nil => rfl
  | cons document rest ih =>
    cases hkey : folder.key? document.path with
    | none => simpa [IsNamed,hkey] using ih
    | some key =>
      cases hpart : part document with
      | none => simpa [IsNamed,hkey,hpart] using ih
      | some x =>
        by_cases hname : nameOf x = slug name
        · simp [IsNamed,hkey,hpart,hname]
        · simpa [IsNamed,hkey,hpart,hname] using ih

/-- Stems come before titles. -/
lemma keyOfName?_eq (folder : Folder) (name : String) :
    keyOfName? folder name =
      (keyBySlug? folder stemSlug? name).or (keyBySlug? folder titleSlug? name) := by
  have hstems : ((stems folder).find? (·.1 == slug name)).map Prod.snd =
      keyBySlug? folder stemSlug? name :=
    find?_keyed (fun document => document.path.fileStem?) slug folder.documentList
  rw [keyOfName?,names_eq,List.find?_append,Option.map_or,hstems]
  exact congrArg _ (find?_keyed Document.title? Heading.slug folder.documentList)

lemma keyBySlug?_of_mem (h : ∃ document ∈ folder.documentList, IsNamed folder slugOf name document) :
    ∃ document key, folder.IsFirst (IsNamed folder slugOf name) document ∧
      folder.key? document.path = some key ∧ keyBySlug? folder slugOf name = some key := by
  have hsome : (folder.documentList.find? fun document =>
      decide (IsNamed folder slugOf name document)).isSome = true := by
    simpa using h
  obtain ⟨document,hfind⟩ := Option.isSome_iff_exists.1 hsome
  have hfirst := Folder.isFirst_of_find? hfind
  simp only [decide_eq_true_eq] at hfirst
  obtain ⟨place,hstored,hnamed,hleast⟩ := hfirst
  obtain ⟨key,hkey⟩ := Option.isSome_iff_exists.1 hnamed.1
  exact ⟨document,key,⟨place,hstored,hnamed,hleast⟩,hkey,
    by rw [keyBySlug?,hfind,Option.bind_some,hkey]⟩

lemma keyBySlug?_eq_none
    (h : ∀ document ∈ folder.documentList, ¬ IsNamed folder slugOf name document) :
    keyBySlug? folder slugOf name = none := by
  have hnone : (folder.documentList.find? fun document =>
      decide (IsNamed folder slugOf name document)) = none := by
    simpa using h
  rw [keyBySlug?,hnone,Option.bind_none]

/-- A wiki link that is not written as a path is looked up as a name. -/
lemma target?_wikiLink_name (folder : Folder) (source : Document) {link : WikiLink}
    (htarget : link.target = some name) (hslash : '/' ∉ name.toList)
    (hsuffix : ¬ ".md".toList <:+ name.toList.map Char.toLower) :
    target? folder source (.wikiLink link) =
      ((keyOfName? folder name).or (Path.resolve? folder.root source.path (name ++ ".md"))).map
        (.document · (link.anchor.map slug)) := by
  have hmarkdown : hasMarkdownSuffix name = false := by
    rw [Bool.eq_false_iff,ne_eq,hasMarkdownSuffix_iff]
    exact hsuffix
  have hkey : wikiKey? folder source (some name) =
      (keyOfName? folder name).or (Path.resolve? folder.root source.path (name ++ ".md")) := by
    cases hfound : keyOfName? folder name <;> simp [wikiKey?,hslash,hmarkdown,hfound]
  rw [← hkey,← htarget]
  rfl

/-- A name in a wiki link leads to the first document in path order that has a key and whose file stem
has the slug of the name, or else to the first one with a key whose title has it, or else to where the
name with `.md` leads from the document that holds the link, which may be nowhere. The anchor is the slug
of that of the link. -/
theorem target?_of_name (folder : Folder) (source : Document) {link : WikiLink} {name : String}
    (htarget : link.target = some name) (hslash : '/' ∉ name.toList)
    (hsuffix : ¬ ".md".toList <:+ name.toList.map Char.toLower) :
    ((∃ d ∈ folder.documentList, IsNamed folder stemSlug? name d) →
      ∃ d key, folder.IsFirst (IsNamed folder stemSlug? name) d ∧ folder.key? d.path = some key ∧
        target? folder source (.wikiLink link) = some (.document key (link.anchor.map slug))) ∧
    ((∀ d ∈ folder.documentList, ¬ IsNamed folder stemSlug? name d) →
      (∃ d ∈ folder.documentList, IsNamed folder titleSlug? name d) →
      ∃ d key, folder.IsFirst (IsNamed folder titleSlug? name) d ∧ folder.key? d.path = some key ∧
        target? folder source (.wikiLink link) = some (.document key (link.anchor.map slug))) ∧
    ((∀ d ∈ folder.documentList, ¬ IsNamed folder stemSlug? name d) →
      (∀ d ∈ folder.documentList, ¬ IsNamed folder titleSlug? name d) →
      target? folder source (.wikiLink link) =
        (Path.resolve? folder.root source.path (name ++ ".md")).map
          (.document · (link.anchor.map slug))) := by
  rw [target?_wikiLink_name folder source htarget hslash hsuffix,keyOfName?_eq]
  refine ⟨?_,?_,?_⟩
  · intro hstem
    obtain ⟨d,key,hfirst,hkey,hfound⟩ := keyBySlug?_of_mem hstem
    exact ⟨d,key,hfirst,hkey,by simp [hfound]⟩
  · intro hstem htitle
    obtain ⟨d,key,hfirst,hkey,hfound⟩ := keyBySlug?_of_mem htitle
    exact ⟨d,key,hfirst,hkey,by simp [keyBySlug?_eq_none hstem,hfound]⟩
  · intro hstem htitle
    rw [keyBySlug?_eq_none hstem,keyBySlug?_eq_none htitle,Option.or_none,Option.none_or]

/-- A stem counts more than a title of an earlier document, and the earlier of two stems more than the
later one. -/
theorem target?_of_name_shared : ∃ (folder : Folder) (source : Document) (link : WikiLink),
    .wikiLink link ∈ source.elements ∧ source ∈ folder.documentList ∧ link.target = some "Foo" ∧
    folder.documentList.map (fun d => (folder.key? d.path,stemSlug? d,titleSlug? d)) =
      [(some "a.md",some "a",some "foo"),(some "b/FOO.md",some "foo",none),
        (some "b/foo.md",some "foo",none),(some "c.md",some "c",none)] ∧
    (∃ d key, folder.IsFirst (IsNamed folder stemSlug? "Foo") d ∧ folder.key? d.path = some key ∧
      target? folder source (.wikiLink link) = some (.document key (link.anchor.map slug))) ∧
    target? folder source (.wikiLink link) = some (.document "b/FOO.md" (some "bar-x")) := by
  let source := Document.ofText "/n/c.md" none "[[Foo#Bar x]]"
  let folder := ((((Folder.empty "n" "/n").withDocument source).withDocument
    (.ofText "/n/b/foo.md" none "")).withDocument (.ofText "/n/b/FOO.md" none "")).withDocument
    (.ofText "/n/a.md" none "# Foo")
  let link : WikiLink := ⟨some "Foo",some "Bar x",⟨0,0⟩,⟨0,13⟩⟩
  have hstem : ∃ d ∈ folder.documentList, IsNamed folder stemSlug? "Foo" d := by decide +kernel
  obtain ⟨hfirst,-,-⟩ := target?_of_name folder source (show link.target = some "Foo" from rfl)
    (by decide) (by decide)
  exact ⟨folder,source,link,by decide +kernel,by decide +kernel,rfl,by decide +kernel,hfirst hstem,
    by decide +kernel⟩

/-- A document whose path is no text is passed over, though it comes first among those of the name. -/
theorem name_passes_over_first : ∃ (folder : Folder) (source first : Document) (link : WikiLink),
    .wikiLink link ∈ source.elements ∧ source ∈ folder.documentList ∧ link.target = some "a" ∧
    (∀ d ∈ folder.documentList, folder.owns d.path = true) ∧
    folder.IsFirst (stemSlug? · = some (slug "a")) first ∧ folder.key? first.path = none ∧
    target? folder source (.wikiLink link) = some (.document "b/a.md" none) := by
  let source := Document.ofText "/n/d.md" none "[[a]]"
  let first := Document.ofText ⟨Text.utf8 "/n/A" ++ [0xFF] ++ Text.utf8 "/a.md"⟩ none ""
  let folder := (((Folder.empty "n" "/n").withDocument source).withDocument
    (.ofText "/n/b/a.md" none "")).withDocument first
  have hfind : folder.documentList.find? (fun d => decide (stemSlug? d = some (slug "a"))) =
      some first := by
    decide +kernel
  have hfirst := Folder.isFirst_of_find? hfind
  simp only [decide_eq_true_eq] at hfirst
  exact ⟨folder,source,first,⟨some "a",none,⟨0,0⟩,⟨0,5⟩⟩,by decide +kernel,by decide +kernel,rfl,
    by decide +kernel,hfirst,by decide +kernel,by decide +kernel⟩

end Navigation

end NoteIndex
