import NoteIndex.Navigation.Search
import NoteIndex.Proofs.Workspace.Routing

/-! References: an element refers to a target if and only if it is a link or the use of a label and
the target is its own. The search for labels looks into one document only, and loses nothing by
it. -/
namespace NoteIndex

open Markup

/-- Links and uses of labels, which refer to something and declare nothing. -/
def Markup.Element.isReference : Element → Bool
  | .wikiLink _ => true
  | .inlineLink _ => true
  | .labelUse _ => true
  | _ => false

namespace Navigation

namespace Target

@[simp] lemma same_document (k l : String) (a b : Option String) :
    (document k a).same (document l b) = (k == l && a == b) := rfl

@[simp] lemma same_label (p q : Path) (a b : String) :
    (label p a).same (label q b) = (p.components == q.components && a == b) := rfl

@[simp] lemma same_document_label (k b : String) (a : Option String) (q : Path) :
    (document k a).same (label q b) = false := rfl

@[simp] lemma same_label_document (p : Path) (a l : String) (b : Option String) :
    (label p a).same (document l b) = false := rfl

/-- A target can be replaced by the same one in another writing. -/
lemma same_congr {s t : Target} (h : s.same t = true) (u : Target) :
    u.same s = u.same t := by
  cases s with
  | document k a =>
    cases t with
    | document l b =>
      obtain ⟨rfl,rfl⟩ : k = l ∧ a = b := by simpa using h
      rfl
    | label q b => simp at h
  | label p a =>
    cases t with
    | document l b => simp at h
    | label q b =>
      obtain ⟨hpath,rfl⟩ : p.components = q.components ∧ a = b := by simpa using h
      cases u <;> simp [hpath]

end Target

variable {folder : Folder} {document : Document} {element : Element} {target : Target}

lemma refersTo_eq (folder : Folder) (document : Document) (element : Element) (target : Target) :
    refersTo folder document element target =
      (element.isReference && (target? folder document element).any (·.same target)) := by
  cases element with
  | heading heading => simp [refersTo,Element.isReference]
  | definition definition => simp [refersTo,Element.isReference]
  | wikiLink link =>
    cases target with
    | document key anchor => simp [refersTo,Element.isReference,target?]
    | label path label =>
      cases hkey : wikiKey? folder document link.target <;> simp [refersTo,target?,linkTarget?,hkey]
  | inlineLink link =>
    cases target with
    | document key anchor => simp [refersTo,Element.isReference,target?]
    | label path label =>
      cases hkey : inlineKey? folder document link.url <;> simp [refersTo,target?,linkTarget?,hkey]
  | labelUse use =>
    cases target with
    | document key anchor => simp [refersTo,target?]
    | label path label => simp [refersTo,Element.isReference,target?]

/-- Labels belong to the document of the element. -/
lemma path_of_target?_eq_label {path : Path} {label : String}
    (h : target? folder document element = some (.label path label)) : path = document.path := by
  cases element with
  | heading heading => simp [target?] at h
  | wikiLink link => simp [target?,linkTarget?] at h
  | inlineLink link => simp [target?,linkTarget?] at h
  | definition definition =>
    cases h
    rfl
  | labelUse use =>
    cases h
    rfl

lemma refersTo_label_eq_false {path : Path} {label : String}
    (h : document.path.components ≠ path.components) (element : Element) :
    refersTo folder document element (.label path label) = false := by
  cases element <;> simp [refersTo,h]

/-- What only one document of a folder can have is found there. -/
lemma sites_documentList (h : folder.Keyed) (hdocument : document ∈ folder.documentList)
    {test : Document → Element → Bool}
    (htest : ∀ other : Document, other.path.components ≠ document.path.components →
      ∀ e, test other e = false) :
    sites folder.documentList test = sites [document] test := by
  have hsorted := Folder.pairwise_documentList h
  obtain ⟨front,back,hsplit⟩ := List.append_of_mem hdocument
  rw [hsplit] at hsorted ⊢
  obtain ⟨-,hrest,hfront⟩ := List.pairwise_append.1 hsorted
  have hnone : ∀ others : List Document,
      (∀ other ∈ others, other.path.components ≠ document.path.components) →
        sites others test = [] := by
    intro others hothers
    rw [sites,List.flatMap_eq_nil_iff]
    intro other hother
    simp [htest other (hothers other hother)]
  have hleft : sites front test = [] := by
    apply hnone
    intro other hother heq
    simpa [heq] using hfront other hother document List.mem_cons_self
  have hright : sites back test = [] := by
    apply hnone
    intro other hother heq
    simpa [heq] using (List.pairwise_cons.1 hrest).1 other hother
  calc sites (front ++ document :: back) test
      = sites front test ++ (sites [document] test ++ sites back test) := by simp [sites]
    _ = sites [document] test := by rw [hleft,hright,List.nil_append,List.append_nil]

/-- Looking for a label in the document of the element only loses nothing. -/
lemma occurrences_eq (h : folder.Keyed) (hdocument : document ∈ folder.documentList)
    (htarget : target? folder document element = some target) :
    occurrences folder document target =
      sites folder.documentList fun d e => refersTo folder d e target := by
  cases target with
  | document key anchor => rfl
  | label path label =>
    obtain rfl := path_of_target?_eq_label htarget
    exact (sites_documentList h hdocument fun other hother e =>
      refersTo_label_eq_false hother e).symm

lemma findReferences_eq (h : folder.Keyed) (hdocument : document ∈ folder.documentList)
    (htarget : target? folder document element = some target) :
    findReferences false folder document element = folder.documentList.flatMap fun other =>
      (other.elements.filter fun found => found.isReference &&
        (target? folder other found).any (·.same target)).map (⟨other,·⟩) := by
  simp only [findReferences,htarget,Bool.false_eq_true,if_false,List.nil_append,
    occurrences_eq h hdocument htarget,sites,refersTo_eq]

/-- The references of an element are all links and uses of labels with its target, from all
documents in path order and from each in source order, wherever the element itself stands. -/
theorem findReferences_exact (h : folder.Keyed) :
    (folder.documentList.Pairwise fun d e => compare d.path.components e.path.components = .lt) ∧
    (∀ d, d ∈ folder.documentList ↔ folder.documents[d.path.components]? = some d) ∧
    (∀ d ∈ folder.documentList, ∀ e, target? folder d e = none →
      findReferences false folder d e = []) ∧
    (∀ d ∈ folder.documentList, ∀ e t, target? folder d e = some t →
      findReferences false folder d e = folder.documentList.flatMap fun other =>
        (other.elements.filter fun found => found.isReference &&
          (target? folder other found).any (·.same t)).map (⟨other,·⟩)) ∧
    ∀ d ∈ folder.documentList, ∀ d' ∈ folder.documentList, ∀ e e' t t',
      target? folder d e = some t → target? folder d' e' = some t' → t.same t' = true →
        findReferences false folder d e = findReferences false folder d' e' := by
  refine ⟨Folder.pairwise_documentList h,Folder.mem_documentList_iff h,?_,?_,?_⟩
  · intro d _ e ht
    simp [findReferences,ht]
  · intro d hd e t ht
    exact findReferences_eq h hd ht
  · intro d hd d' hd' e e' t t' ht ht' hsame
    rw [findReferences_eq h hd ht,findReferences_eq h hd' ht']
    simp only [Target.same_congr hsame]

theorem findReferences_exact_linked :
    ∃ (folder : Folder) (d d' : Document) (e : Element) (t : Target),
    folder.Keyed ∧ d ∈ folder.documentList ∧ d' ∈ folder.documentList ∧ d.path ≠ d'.path ∧
    e ∈ d.elements ∧ target? folder d e = some t ∧
    (findReferences false folder d e).map Site.document = [d'] ∧
    findReferences false folder d e = folder.documentList.flatMap fun other =>
      (other.elements.filter fun found => found.isReference &&
        (target? folder other found).any (·.same t)).map (⟨other,·⟩) := by
  have hempty : (Folder.empty "n" "/n").Keyed := by
    intro key document hdocument
    simp [Folder.empty] at hdocument
  have hkeyed := (hempty.withDocument (.ofText "/n/a.md" none "# A")).withDocument
    (.ofText "/n/b.md" none "[[a]]")
  refine ⟨_,.ofText "/n/a.md" none "# A",.ofText "/n/b.md" none "[[a]]",
    .heading ⟨1,"A","a",true,⟨0,0⟩,⟨0,3⟩⟩,.document "a.md" none,hkeyed,?_,?_,?_,?_,?_,?_,
    (findReferences_exact hkeyed).2.2.2.1 _ ?_ _ _ ?_⟩
  all_goals decide +kernel

end Navigation

end NoteIndex
