import NoteIndex.Proofs.Markup.Order
import NoteIndex.Proofs.Navigation.Duality

/-! Declarations and references in one list: first all declarations of a target, then all references to
it, both in path and source order. No place is listed twice, because no two elements of a document have
the same range and nothing both declares a target and refers to it. -/
namespace NoteIndex

open Text Markup

namespace Document

/-- In a text of less than four gigabytes, elements start one after the other. -/
lemma pairwise_elements {document : Document} (hsize : document.text.utf8ByteSize < UInt32.size) :
    document.elements.Pairwise fun a b => a.range.start < b.range.start := by
  rw [document.elements_eq]
  exact pairwise_parse hsize

end Document

namespace Navigation

namespace Site

/-- Where a site is: the path of its document, however it is written, and the range of its element. -/
def place (site : Site) : List Component × Range :=
  (site.document.path.components,site.element.range)

/-- Path order, and source order within a document. -/
def Before (a b : Site) : Prop :=
  compare a.document.path.components b.document.path.components = .lt ∨
    a.document = b.document ∧ a.element.range.start < b.element.range.start

lemma samePlace_iff (a b : Site) : a.samePlace b = true ↔ a.place = b.place := by
  simp [samePlace,place]

lemma Before.place_ne {a b : Site} (h : a.Before b) : a.place ≠ b.place := by
  intro hplace
  obtain ⟨hpath,hrange⟩ := Prod.mk.inj hplace
  rcases h with hlt | ⟨-,hlt⟩
  · rw [hpath,Std.ReflOrd.compare_self] at hlt
    cases hlt
  · exact Position.ne_of_lt hlt (congrArg Range.start hrange)

end Site

lemma distinct_eq_self {all : List Site} (h : (all.map Site.place).Nodup) : distinct all = all := by
  induction all with
  | nil => rfl
  | cons site rest ih =>
    rw [List.map_cons,List.nodup_cons] at h
    rw [distinct,ih h.2,List.filter_eq_self.2]
    intro other hother
    rw [Bool.not_eq_true',Bool.eq_false_iff,ne_eq,Site.samePlace_iff]
    exact fun heq => h.1 (heq ▸ List.mem_map_of_mem hother)

variable {folder : Folder} {document : Document} {element : Element} {target : Target}

lemma isReference_of_declares (h : declares folder document element target = true) :
    element.isReference = false := by
  cases element with
  | heading heading => rfl
  | definition definition => rfl
  | _ => simp [declares] at h

/-- What is no reference declares its own target. -/
lemma declares_target (hreference : element.isReference = false)
    (htarget : target? folder document element = some target) :
    declares folder document element target = true := by
  cases element with
  | heading heading =>
    obtain ⟨key,hkey,heq⟩ := Option.map_eq_some_iff.1 htarget
    subst heq
    cases htitle : heading.isTitle <;> simp [declares,hkey,htitle]
  | definition definition =>
    cases htarget
    simp [declares]
  | _ => cases hreference

lemma findReferences_eq_sites (h : folder.Keyed) (hdocument : document ∈ folder.documentList)
    (htarget : target? folder document element = some target) :
    findReferences false folder document element = sites folder.documentList fun d e =>
      e.isReference && (target? folder d e).any (·.same target) :=
  findReferences_eq h hdocument htarget

lemma isReference_of_mem_findReferences (h : folder.Keyed)
    (hdocument : document ∈ folder.documentList)
    (htarget : target? folder document element = some target) {site : Site}
    (hsite : site ∈ findReferences false folder document element) :
    site.element.isReference = true := by
  rw [findReferences_eq_sites h hdocument htarget] at hsite
  have htest := ((mem_sites_iff _ _ _).1 hsite).2.2
  rw [Bool.and_eq_true] at htest
  exact htest.1

section Sites

variable (h : folder.Keyed)
  (hsize : ∀ d ∈ folder.documentList, d.text.utf8ByteSize < UInt32.size)

include h hsize

lemma pairwise_sites (test : Document → Element → Bool) :
    (sites folder.documentList test).Pairwise Site.Before := by
  rw [sites,List.pairwise_flatMap]
  constructor
  · intro d hd
    rw [List.pairwise_map]
    refine ((Document.pairwise_elements (hsize d hd)).filter _).imp ?_
    intro a b hlt
    exact .inr ⟨rfl,hlt⟩
  · refine (Folder.pairwise_documentList h).imp ?_
    intro d other hlt a ha b hb
    obtain ⟨_,-,rfl⟩ := List.mem_map.1 ha
    obtain ⟨_,-,rfl⟩ := List.mem_map.1 hb
    exact .inl hlt

lemma nodup_place_sites (test : Document → Element → Bool) :
    ((sites folder.documentList test).map Site.place).Nodup :=
  List.pairwise_map.2 ((pairwise_sites h hsize test).imp Site.Before.place_ne)

/-- A place of a folder has one element. -/
lemma eq_of_place {a b : Site} (ha : a.document ∈ folder.documentList)
    (hb : b.document ∈ folder.documentList) (haElement : a.element ∈ a.document.elements)
    (hbElement : b.element ∈ b.document.elements) (hplace : a.place = b.place) : a = b :=
  List.inj_on_of_nodup_map (nodup_place_sites h hsize fun _ _ => true)
    ((mem_sites_iff _ _ _).2 ⟨ha,haElement,rfl⟩) ((mem_sites_iff _ _ _).2 ⟨hb,hbElement,rfl⟩) hplace

variable (hdocument : document ∈ folder.documentList)
  (htarget : target? folder document element = some target)

include hdocument htarget

/-- No declaration shares its place with another one. -/
lemma declarations_eq_sites : declarations folder document target =
    sites folder.documentList fun d e => declares folder d e target := by
  rw [declarations_eq h hdocument htarget,distinct_eq_self (nodup_place_sites h hsize _)]

lemma findReferences_true_eq : findReferences true folder document element =
    (sites folder.documentList fun d e => declares folder d e target) ++
      findReferences false folder document element := by
  simp only [findReferences,htarget,if_true,Bool.false_eq_true,if_false,List.nil_append,
    declarations_eq_sites h hsize hdocument htarget]

/-- What declares a target is not at the place of something that refers to it. -/
lemma nodup_place_findReferences :
    ((findReferences true folder document element).map Site.place).Nodup := by
  have hreferences := findReferences_eq_sites h hdocument htarget
  rw [findReferences_true_eq h hsize hdocument htarget,List.map_append,List.nodup_append]
  refine ⟨nodup_place_sites h hsize _,hreferences ▸ nodup_place_sites h hsize _,?_⟩
  intro place hplace place' hplace' heq
  obtain ⟨a,ha,rfl⟩ := List.mem_map.1 hplace
  obtain ⟨b,hb,rfl⟩ := List.mem_map.1 hplace'
  have hrefers := isReference_of_mem_findReferences h hdocument htarget hb
  rw [hreferences] at hb
  obtain ⟨hmem,hin,hdeclares⟩ := (mem_sites_iff _ _ _).1 ha
  obtain ⟨hmem',hin',-⟩ := (mem_sites_iff _ _ _).1 hb
  obtain rfl := eq_of_place h hsize hmem hmem' hin hin' heq
  rw [isReference_of_declares hdeclares] at hrefers
  cases hrefers

end Sites

/-- With declarations asked for, the references of an element come after all headings and definitions of
the folder that declare its target, in path and source order and without exception, the element itself
among them if it is one. Without declarations, only links and uses of labels are listed. No path and
range are listed twice. Ranges tell elements apart in texts of less than four gigabytes. -/
theorem findReferences_declarations_first (h : folder.Keyed)
    (hsize : ∀ d ∈ folder.documentList, d.text.utf8ByteSize < UInt32.size)
    (hdocument : document ∈ folder.documentList) (helement : element ∈ document.elements)
    (htarget : target? folder document element = some target) : ∃ declaring : List Site,
    findReferences true folder document element =
      declaring ++ findReferences false folder document element ∧
    (∀ site, site ∈ declaring ↔ site.document ∈ folder.documentList ∧
      site.element ∈ site.document.elements ∧ site.element.isReference = false ∧
      declares folder site.document site.element target = true) ∧
    declaring.Pairwise Site.Before ∧
    (element.isReference = false → ⟨document,element⟩ ∈ declaring) ∧
    (∀ site ∈ findReferences false folder document element, site.element.isReference = true) ∧
    ((findReferences true folder document element).map Site.place).Nodup := by
  refine ⟨sites folder.documentList fun d e => declares folder d e target,
    findReferences_true_eq h hsize hdocument htarget,?_,pairwise_sites h hsize _,?_,
    fun site hsite => isReference_of_mem_findReferences h hdocument htarget hsite,
    nodup_place_findReferences h hsize hdocument htarget⟩
  · intro site
    rw [mem_sites_iff]
    constructor
    · rintro ⟨hmem,hin,hdeclares⟩
      exact ⟨hmem,hin,isReference_of_declares hdeclares,hdeclares⟩
    · rintro ⟨hmem,hin,-,hdeclares⟩
      exact ⟨hmem,hin,hdeclares⟩
  · intro hkind
    exact (mem_sites_iff _ _ _).2 ⟨hdocument,helement,declares_target hkind htarget⟩

/-- A title declares its slug as well as its document, so a heading of the same text is the second
declaration of their slug. -/
theorem findReferences_declarations_first_titled :
    ∃ (folder : Folder) (document : Document) (element : Element) (target : Target)
      (declaring : List Site),
    folder.Keyed ∧ (∀ d ∈ folder.documentList, d.text.utf8ByteSize < UInt32.size) ∧
    document ∈ folder.documentList ∧ element ∈ document.elements ∧
    target? folder document element = some target ∧ element.isReference = false ∧
    findReferences true folder document element =
      declaring ++ findReferences false folder document element ∧
    declaring.length = 2 ∧ declaring.Pairwise Site.Before ∧ ⟨document,element⟩ ∈ declaring ∧
    (findReferences false folder document element).length = 2 ∧
    (∀ site ∈ findReferences false folder document element, site.element.isReference = true) ∧
    ((findReferences true folder document element).map Site.place).Nodup := by
  let document : Document := ⟨"/n/a.md",none,"# A\n## a\n[[#A]]",_,
    (parse_of_pairwise (by decide +kernel)).symm⟩
  let other := Document.ofText "/n/b.md" none "[[a#a]]"
  let folder := ((Folder.empty "n" "/n").withDocument document).withDocument other
  let element : Element := .heading ⟨2,"a","a",false,⟨1,0⟩,⟨1,4⟩⟩
  have hempty := (Folder.Built.empty "n" "/n").coherent.keyed
  have hkeyed : folder.Keyed := (hempty.withDocument document).withDocument other
  have hsize : ∀ d ∈ folder.documentList, d.text.utf8ByteSize < UInt32.size := by decide +kernel
  have hdocument : document ∈ folder.documentList := by decide +kernel
  have helement : element ∈ document.elements := by decide +kernel
  have htarget : target? folder document element = some (.document "a.md" (some "a")) := by
    decide +kernel
  obtain ⟨declaring,hall,-,hordered,hown,hreferences,hnodup⟩ :=
    findReferences_declarations_first hkeyed hsize hdocument helement htarget
  have hfour : (findReferences true folder document element).length = 4 := by decide +kernel
  have htwo : (findReferences false folder document element).length = 2 := by decide +kernel
  rw [hall,List.length_append] at hfour
  exact ⟨folder,document,element,_,declaring,hkeyed,hsize,hdocument,helement,htarget,rfl,hall,by omega,
    hordered,hown rfl,htwo,hreferences,hnodup⟩

end Navigation

end NoteIndex
