import NoteIndex.Proofs.Markup.Order
import NoteIndex.Proofs.Navigation.Duality
import NoteIndex.Proofs.Path.Key

/-! Definitions: all that defines the target of an element lies in one document. A label is defined in
the document that uses it, and no two documents of a folder have the same key. -/
namespace NoteIndex

open Markup

namespace Folder

variable {folder : Folder} {document other : Document} {key : String}

lemma eq_of_key? (h : folder.Keyed) (hdocument : document ∈ folder.documentList)
    (hother : other ∈ folder.documentList) (hkey : folder.key? document.path = some key)
    (hkey' : folder.key? other.path = some key) : other = document :=
  Navigation.eq_of_path h hdocument hother (Path.components_eq_of_key? hkey' hkey)

lemma filter_key_eq_singleton (h : folder.Keyed) (hdocument : document ∈ folder.documentList)
    (hkey : folder.key? document.path = some key) :
    folder.documentList.filter (fun d => folder.key? d.path == some key) = [document] := by
  have hnodup : folder.documentList.Nodup := by
    refine (pairwise_documentList h).imp ?_
    rintro d _ hlt rfl
    simp at hlt
  apply List.perm_singleton.1
  refine (List.perm_ext_iff_of_nodup (hnodup.filter _) (List.nodup_singleton _)).2 ?_
  intro d
  rw [List.mem_filter,beq_iff_eq,List.mem_singleton]
  constructor
  · rintro ⟨hd,hkey'⟩
    exact eq_of_key? h hdocument hd hkey hkey'
  · rintro rfl
    exact ⟨hdocument,hkey⟩

end Folder

namespace Navigation

/-- The document that something is defined in. -/
def Origin.holder : Origin → Document
  | element site => site.document
  | document d => d

variable {folder : Folder} {document : Document} {element : Element} {target : Target} {key : String}
  {anchor : Option String}

lemma scope_of_mem_declarations {site : Site} (h : site ∈ declarations folder document target) :
    site.document ∈ scope folder document target ∧
      declares folder site.document site.element target = true := by
  obtain ⟨hdocument,-,hdeclares⟩ := (mem_sites_iff _ _ _).1 (mem_of_mem_distinct h)
  exact ⟨hdocument,hdeclares⟩

lemma key?_of_declares (h : declares folder document element (.document key anchor) = true) :
    folder.key? document.path = some key := by
  cases element with
  | heading heading =>
    simp only [declares,Bool.and_eq_true,beq_iff_eq] at h
    exact h.2
  | _ => simp [declares] at h

/-- Definitions are the declarations of a target, or documents that stand for themselves. -/
lemma findDefinitions_cases (h : target? folder document element = some target) :
    findDefinitions folder document element = (declarations folder document target).map .element ∨
    ∃ key, target = .document key none ∧ findDefinitions folder document element =
      (folder.documentList.filter fun d => folder.key? d.path == some key).map .document := by
  unfold findDefinitions
  rw [h]
  dsimp only
  split
  · exact .inr ⟨_,rfl,rfl⟩
  · exact .inl rfl

variable {origin : Origin}

lemma holder_of_label {path : Path} {label : String}
    (h : target? folder document element = some (.label path label))
    (horigin : origin ∈ findDefinitions folder document element) : origin.holder = document := by
  rcases findDefinitions_cases h with hfound | ⟨key,heq,-⟩
  · rw [hfound] at horigin
    obtain ⟨site,hsite,rfl⟩ := List.mem_map.1 horigin
    exact List.mem_singleton.1 (scope_of_mem_declarations hsite).1
  · cases heq

lemma key?_holder (h : target? folder document element = some (.document key anchor))
    (horigin : origin ∈ findDefinitions folder document element) :
    origin.holder ∈ folder.documentList ∧ folder.key? origin.holder.path = some key := by
  rcases findDefinitions_cases h with hfound | ⟨key,heq,hfound⟩
  · rw [hfound] at horigin
    obtain ⟨site,hsite,rfl⟩ := List.mem_map.1 horigin
    obtain ⟨hdocument,hdeclares⟩ := scope_of_mem_declarations hsite
    exact ⟨hdocument,key?_of_declares hdeclares⟩
  · cases heq
    rw [hfound] at horigin
    obtain ⟨d,hd,rfl⟩ := List.mem_map.1 horigin
    obtain ⟨hdocument,hkey⟩ := List.mem_filter.1 hd
    exact ⟨hdocument,beq_iff_eq.1 hkey⟩

/-- A document that stands for itself is the only definition. -/
lemma findDefinitions_eq_singleton (h : folder.Keyed) {d : Document}
    (hd : .document d ∈ findDefinitions folder document element) :
    findDefinitions folder document element = [.document d] := by
  cases htarget : target? folder document element with
  | none => simp [findDefinitions,htarget] at hd
  | some target =>
    rcases findDefinitions_cases htarget with hfound | ⟨key,rfl,hfound⟩
    · simp [hfound] at hd
    · obtain ⟨hdocument,hkey⟩ := key?_holder htarget hd
      rw [hfound,Folder.filter_key_eq_singleton h hdocument hkey]
      rfl

/-- All definitions of an element are in one document, and if one of them is a document as a whole, it
is the only one. If the target of the element is given by a key, they are in the only document of the
folder that has this key. -/
theorem findDefinitions_in_one_document (h : folder.Keyed) (document : Document)
    (element : Element) :
    (∀ origin ∈ findDefinitions folder document element,
      ∀ other ∈ findDefinitions folder document element, other.holder = origin.holder) ∧
    (∀ d, .document d ∈ findDefinitions folder document element →
      findDefinitions folder document element = [.document d]) ∧
    ∀ key anchor, target? folder document element = some (.document key anchor) →
      ∀ origin ∈ findDefinitions folder document element,
        origin.holder ∈ folder.documentList ∧ folder.key? origin.holder.path = some key ∧
        ∀ d ∈ folder.documentList, folder.key? d.path = some key → d = origin.holder := by
  refine ⟨?_,fun d hd => findDefinitions_eq_singleton h hd,?_⟩
  · intro origin horigin other hother
    cases htarget : target? folder document element with
    | none => simp [findDefinitions,htarget] at horigin
    | some target =>
      cases target with
      | label path label => rw [holder_of_label htarget hother,holder_of_label htarget horigin]
      | document key anchor =>
        obtain ⟨hmem,hkey⟩ := key?_holder htarget horigin
        obtain ⟨hmem',hkey'⟩ := key?_holder htarget hother
        exact Folder.eq_of_key? h hmem hmem' hkey hkey'
  · intro key anchor htarget origin horigin
    obtain ⟨hmem,hkey⟩ := key?_holder htarget horigin
    exact ⟨hmem,hkey,fun d hd hkey' => Folder.eq_of_key? h hmem hd hkey hkey'⟩

/-- Two headings with the same slug are two definitions, in one document. A document without title
stands for itself, though another one has the same name. -/
theorem findDefinitions_in_one_document_repeated :
    ∃ (folder : Folder) (d d' repeated untitled : Document) (link link' : Element),
    folder.Keyed ∧ link ∈ d.elements ∧ link' ∈ d'.elements ∧
    target? folder d link = some (.document "a.md" (some "b")) ∧
    (findDefinitions folder d link).length = 2 ∧
    (∀ origin ∈ findDefinitions folder d link, origin.holder = repeated) ∧
    (∀ other ∈ folder.documentList, folder.key? other.path = some "a.md" → other = repeated) ∧
    findDefinitions folder d' link' = [.document untitled] := by
  let d := Document.ofText "/n/c.md" none "[[a#b]]"
  let d' := Document.ofText "/n/e.md" none "[x](d/a.md)"
  let repeated : Document := ⟨"/n/a.md",none,"## B\n# C\n## b",_,
    (parse_of_pairwise (by decide +kernel)).symm⟩
  let untitled := Document.ofText "/n/d/a.md" none "text"
  let folder := ((((Folder.empty "n" "/n").withDocument d).withDocument d').withDocument
    repeated).withDocument untitled
  let link : Element := .wikiLink ⟨some "a",some "b",⟨0,0⟩,⟨0,7⟩⟩
  let link' : Element := .inlineLink ⟨"x",some "d/a.md",none,⟨0,0⟩,⟨0,11⟩⟩
  have hempty := (Folder.Built.empty "n" "/n").coherent.keyed
  have hkeyed : folder.Keyed :=
    (((hempty.withDocument d).withDocument d').withDocument repeated).withDocument untitled
  obtain ⟨hholder,-,hunique⟩ := findDefinitions_in_one_document hkeyed d link
  obtain ⟨-,hwhole,-⟩ := findDefinitions_in_one_document hkeyed d' link'
  have htarget : target? folder d link = some (.document "a.md" (some "b")) := by decide +kernel
  have hmem : .element ⟨repeated,.heading ⟨2,"B","b",false,⟨0,0⟩,⟨0,4⟩⟩⟩ ∈
      findDefinitions folder d link := by decide +kernel
  exact ⟨folder,d,d',repeated,untitled,link,link',hkeyed,by decide +kernel,by decide +kernel,htarget,
    by decide +kernel,fun origin horigin => hholder _ hmem origin horigin,
    (hunique _ _ htarget _ hmem).2.2,hwhole untitled (by decide +kernel)⟩

end Navigation

end NoteIndex
