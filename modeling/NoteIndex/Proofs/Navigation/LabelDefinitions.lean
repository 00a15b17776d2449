import NoteIndex.Proofs.Markup.Visibility
import NoteIndex.Proofs.Navigation.Declarations
import NoteIndex.Proofs.Navigation.Definitions

/-! Labels lead somewhere: a label that is used is defined in the same document, and its definitions there
are all that is found for the use, in source order. -/
namespace NoteIndex

open Markup

def Markup.Element.definition? : Element → Option Definition
  | .definition d => some d
  | _ => none

/-- The definitions in a document whose labels have a given normal form, in source order. -/
def Document.definitionsOf (document : Document) (label : String) : List Definition :=
  (document.elements.filterMap Element.definition?).filter fun d => normalizeLabel d.label == label

namespace Markup

lemma Element.definition?_eq_some_iff {e : Element} {d : Definition} :
    e.definition? = some d ↔ e = .definition d := by
  cases e <;> simp [definition?]

/-- Uses of labels that nothing defines are no elements. -/
lemma exists_definition_of_labelUse {text : String} {use : LabelUse}
    (h : .labelUse use ∈ parse text) : ∃ d, .definition d ∈ parse text ∧
      normalizeLabel d.label = normalizeLabel use.label := by
  obtain ⟨f,hf,heq⟩ := (mem_parse_iff text _).1 h
  rw [mem_foundElements_iff,heq] at hf
  obtain ⟨g,hg,rfl⟩ := List.mem_map.1 hf
  cases heq
  exact (mem_definedLabels_iff text _).1 (List.contains_iff_mem.1 (List.mem_filter.1 hg).2)

end Markup

namespace Document

variable {document : Document} {label : String} {d : Definition}

lemma mem_definitionsOf_iff : d ∈ document.definitionsOf label ↔
    .definition d ∈ document.elements ∧ normalizeLabel d.label = label := by
  rw [definitionsOf,List.mem_filter,List.mem_filterMap,beq_iff_eq]
  simp only [Element.definition?_eq_some_iff,exists_eq_right]

/-- As elements, they are picked out of all elements. -/
lemma map_definitionsOf (document : Document) (label : String) :
    (document.definitionsOf label).map .definition = document.elements.filter fun e =>
      e.definition?.any fun d => normalizeLabel d.label == label := by
  rw [definitionsOf]
  induction document.elements with
  | nil => rfl
  | cons e rest ih =>
    cases hkind : e.definition? with
    | none => rw [List.filterMap_cons_none hkind,List.filter_cons_of_neg (by simp [hkind]),ih]
    | some d =>
      obtain rfl := Element.definition?_eq_some_iff.1 hkind
      rw [List.filterMap_cons_some hkind]
      by_cases hlabel : normalizeLabel d.label = label <;> simp [hkind,hlabel,ih]

lemma pairwise_definitionsOf (hsize : document.text.utf8ByteSize < UInt32.size) (label : String) :
    (document.definitionsOf label).Pairwise fun d e => d.range.start < e.range.start := by
  have hordered := (pairwise_elements hsize).filter fun e =>
    e.definition?.any fun d => normalizeLabel d.label == label
  rw [← map_definitionsOf,List.pairwise_map] at hordered
  exact hordered

end Document

namespace Navigation

section Distinct

variable {all : List Site} {site : Site}

lemma distinct_sublist (all : List Site) : (distinct all).Sublist all := by
  induction all with
  | nil => exact .slnil
  | cons first rest ih => exact (List.filter_sublist.trans ih).cons_cons first

/-- Nothing is left out but for something else at its place. -/
lemma exists_mem_distinct (h : site ∈ all) : ∃ first ∈ distinct all, first.place = site.place := by
  induction all with
  | nil => simp at h
  | cons first rest ih =>
    rw [distinct]
    by_cases hplace : first.place = site.place
    · exact ⟨first,List.mem_cons_self,hplace⟩
    · have hne : site ≠ first := fun heq => hplace (heq ▸ rfl)
      obtain ⟨other,hother,hsame⟩ := ih ((List.mem_cons.1 h).resolve_left hne)
      refine ⟨other,List.mem_cons_of_mem first (List.mem_filter.2 ⟨hother,?_⟩),hsame⟩
      rw [Bool.not_eq_true',Bool.eq_false_iff,ne_eq,Site.samePlace_iff,hsame]
      exact hplace

end Distinct

variable {folder : Folder} {document : Document} {label : String}

def definitionSite (document : Document) (d : Definition) : Site := ⟨document,.definition d⟩

/-- Only definitions declare labels. -/
lemma declares_label_eq (folder : Folder) (document : Document) (label : String) (e : Element) :
    declares folder document e (.label document.path label) =
      e.definition?.any fun d => normalizeLabel d.label == label := by
  cases e <;> simp [declares,Element.definition?]

lemma sites_declares_label (folder : Folder) (document : Document) (label : String) :
    sites [document] (fun d e => declares folder d e (.label document.path label)) =
      (document.definitionsOf label).map (definitionSite document) := by
  rw [sites,List.flatMap_singleton]
  simp only [declares_label_eq]
  rw [← Document.map_definitionsOf,List.map_map]
  rfl

variable {document : Document} {use : LabelUse}

lemma findDefinitions_labelUse (folder : Folder) (document : Document) (use : LabelUse) :
    findDefinitions folder document (.labelUse use) = (distinct
      ((document.definitionsOf (normalizeLabel use.label)).map (definitionSite document))).map
        .element := by
  have htarget : target? folder document (.labelUse use) =
      some (.label document.path (normalizeLabel use.label)) := rfl
  cases findDefinitions_cases htarget with
  | inl hfound => rw [hfound,declarations,scope,sites_declares_label]
  | inr hwhole =>
    obtain ⟨key,heq,-⟩ := hwhole
    cases heq

/-- No two definitions of a document that is not too long share their place. -/
lemma distinct_definitionsOf (hsize : document.text.utf8ByteSize < UInt32.size) (label : String) :
    distinct ((document.definitionsOf label).map (definitionSite document)) =
      (document.definitionsOf label).map (definitionSite document) := by
  apply distinct_eq_self
  rw [List.map_map]
  refine List.pairwise_map.2 ((Document.pairwise_definitionsOf hsize label).imp ?_)
  intro d e hlt
  exact Site.Before.place_ne (.inr ⟨rfl,hlt⟩)

/-- The use of a label is never left without a definition. What is found for it are definitions of its
label in its own document, in source order, and each definition of the label there is found or has
another one at its place. In a text of less than four gigabytes this leaves none out. -/
theorem findDefinitions_labelUse_exact (folder : Folder) (huse : .labelUse use ∈ document.elements) :
    ∃ found : List Definition,
      findDefinitions folder document (.labelUse use) =
        found.map (fun d => .element (definitionSite document d)) ∧
      found ≠ [] ∧ (found.map Element.definition).Sublist document.elements ∧
      (∀ d ∈ found, normalizeLabel d.label = normalizeLabel use.label) ∧
      (∀ d, .definition d ∈ document.elements → normalizeLabel d.label = normalizeLabel use.label →
        ∃ first ∈ found, first.range = d.range) ∧
      (document.text.utf8ByteSize < UInt32.size →
        found.Pairwise (fun d e => d.range.start < e.range.start) ∧
        ∀ d, .definition d ∈ document.elements → normalizeLabel d.label = normalizeLabel use.label →
          d ∈ found) := by
  have hall := findDefinitions_labelUse folder document use
  obtain ⟨found,hsub,hdistinct⟩ := List.sublist_map_iff.1 (distinct_sublist
    ((document.definitionsOf (normalizeLabel use.label)).map (definitionSite document)))
  rw [hdistinct,List.map_map] at hall
  have hplace : ∀ d, .definition d ∈ document.elements →
      normalizeLabel d.label = normalizeLabel use.label → ∃ first ∈ found, first.range = d.range := by
    intro d hd hlabel
    have hsite := List.mem_map_of_mem (f := definitionSite document)
      (Document.mem_definitionsOf_iff.2 ⟨hd,hlabel⟩)
    obtain ⟨other,hother,heq⟩ := exists_mem_distinct hsite
    rw [hdistinct] at hother
    obtain ⟨first,hfirst,rfl⟩ := List.mem_map.1 hother
    exact ⟨first,hfirst,congrArg Prod.snd heq⟩
  refine ⟨found,hall,?_,?_,?_,hplace,?_⟩
  · obtain ⟨d,hd,hlabel⟩ := exists_definition_of_labelUse (document.elements_eq ▸ huse)
    obtain ⟨first,hfirst,-⟩ := hplace d (document.elements_eq ▸ hd) hlabel
    exact List.ne_nil_of_mem hfirst
  · refine (hsub.map _).trans ?_
    rw [Document.map_definitionsOf]
    exact List.filter_sublist
  · intro d hd
    exact (Document.mem_definitionsOf_iff.1 (hsub.subset hd)).2
  · intro hsize
    have hinjective : Function.Injective (definitionSite document) := by
      intro d e heq
      cases heq
      rfl
    rw [distinct_definitionsOf hsize] at hdistinct
    obtain rfl := (List.map_injective_iff.2 hinjective) hdistinct
    exact ⟨Document.pairwise_definitionsOf hsize _,
      fun d hd hlabel => Document.mem_definitionsOf_iff.2 ⟨hd,hlabel⟩⟩

/-- The label of a use is compared without regard to letter case and outer blanks. -/
theorem findDefinitions_labelUse_exact_twice :
    ∃ (folder : Folder) (document : Document) (use : LabelUse) (first second : Definition)
      (found : List Definition),
    document ∈ folder.documentList ∧ .labelUse use ∈ document.elements ∧
    document.text.utf8ByteSize < UInt32.size ∧
    use.label = " A " ∧ first.label = "a" ∧ second.label = "A" ∧
    findDefinitions folder document (.labelUse use) =
      found.map (fun d => .element (definitionSite document d)) ∧
    found.length = 2 ∧ first ∈ found ∧ second ∈ found ∧
    found.Pairwise fun d e => d.range.start < e.range.start := by
  let document : Document := ⟨"/n/a.md",none,"[a]: x\n[b]: y\n[A]: z\n[t][ A ]",_,
    (parse_of_pairwise (by decide +kernel)).symm⟩
  let folder := (Folder.empty "n" "/n").withDocument document
  let use : LabelUse := ⟨" A ",⟨3,0⟩,⟨3,8⟩⟩
  let first : Definition := ⟨"a","x",⟨0,0⟩,⟨0,6⟩⟩
  let second : Definition := ⟨"A","z",⟨2,0⟩,⟨2,6⟩⟩
  have hsize : document.text.utf8ByteSize < UInt32.size := by decide +kernel
  have huse : .labelUse use ∈ document.elements := by decide +kernel
  obtain ⟨found,hall,-,-,-,-,hexact⟩ := findDefinitions_labelUse_exact folder huse
  obtain ⟨hordered,hcomplete⟩ := hexact hsize
  have htwo : (findDefinitions folder document (.labelUse use)).length = 2 := by decide +kernel
  rw [hall,List.length_map] at htwo
  exact ⟨folder,document,use,first,second,found,by decide +kernel,huse,hsize,rfl,rfl,rfl,hall,htwo,
    hcomplete first (by decide +kernel) (by decide +kernel),
    hcomplete second (by decide +kernel) (by decide +kernel),hordered⟩

/-- In a text of four gigabytes and more, a definition of the label can be left out. -/
theorem findDefinitions_misses_definition :
    ∃ (folder : Folder) (document : Document) (use : LabelUse) (d : Definition),
    document ∈ folder.documentList ∧ .labelUse use ∈ document.elements ∧
    .definition d ∈ document.elements ∧ normalizeLabel d.label = normalizeLabel use.label ∧
    .element (definitionSite document d) ∉ findDefinitions folder document (.labelUse use) := by
  obtain ⟨folder,document,use,d,-,hdocument,huse,hd,hlabel,hmissing⟩ := exists_definition_not_found
  exact ⟨folder,document,use,d,hdocument,huse,hd,congrArg normalizeLabel hlabel,hmissing⟩

end Navigation

end NoteIndex
