import NoteIndex.Proofs.Markup.Distance
import NoteIndex.Proofs.Navigation.References
import NoteIndex.Proofs.Workspace.Coherence

/-! Duality: an element is a definition of what a link or the use of a label refers to if and only
if the link or the use is among the references of the element. Titles have links with an anchor as
well, which lead to them but do not stand for the document as a whole. -/
namespace NoteIndex

open Markup

def Markup.Element.isTitle : Element → Bool
  | .heading h => h.isTitle
  | _ => false

/-- The anchor of a link. -/
def Markup.Element.anchor? : Element → Option String
  | .wikiLink link => link.anchor
  | .inlineLink link => link.anchor
  | _ => none

namespace Navigation

namespace Target

lemma same_comm (s t : Target) : s.same t = t.same s := by
  cases s <;> cases t <;> simp [Bool.beq_comm]

end Target

variable {folder : Folder} {document other : Document} {element e r : Element} {target t : Target}

lemma mem_sites_iff (documents : List Document) (test : Document → Element → Bool) (site : Site) :
    site ∈ sites documents test ↔ site.document ∈ documents ∧
      site.element ∈ site.document.elements ∧ test site.document site.element = true := by
  simp only [sites,List.mem_flatMap,List.mem_map,List.mem_filter]
  constructor
  · rintro ⟨d,hd,e,⟨he,htest⟩,rfl⟩
    exact ⟨hd,he,htest⟩
  · rintro ⟨hd,he,htest⟩
    exact ⟨site.document,hd,site.element,⟨he,htest⟩,rfl⟩

lemma mem_of_mem_distinct {site : Site} {all : List Site} (h : site ∈ distinct all) :
    site ∈ all := by
  induction all with
  | nil => simp [distinct] at h
  | cons first rest ih =>
    rcases List.mem_cons.1 h with rfl | h
    · exact List.mem_cons_self
    · exact List.mem_cons_of_mem first (ih (List.mem_filter.1 h).1)

/-- Of several sites at one place only one is left. -/
lemma eq_of_mem_distinct {a b : Site} {all : List Site} (ha : a ∈ distinct all)
    (hb : b ∈ distinct all) (hplace : a.samePlace b = true) : a = b := by
  induction all with
  | nil => simp [distinct] at ha
  | cons first rest ih =>
    rw [distinct,List.mem_cons,List.mem_filter] at ha hb
    rcases ha with rfl | ⟨ha,hafirst⟩ <;> rcases hb with rfl | ⟨hb,hbfirst⟩
    · rfl
    · simp [hplace] at hbfirst
    · rw [Site.samePlace,Bool.and_eq_true,beq_iff_eq,beq_iff_eq] at hplace
      simp [Site.samePlace,hplace] at hafirst
    · exact ih ha hb

/-- What is alone at its place is not left out. -/
lemma mem_distinct {site : Site} {all : List Site} (h : site ∈ all)
    (halone : ∀ found ∈ all, found.samePlace site = true → found = site) : site ∈ distinct all := by
  induction all with
  | nil => simp at h
  | cons first rest ih =>
    rw [distinct]
    by_cases hfirst : first.samePlace site = true
    · rw [halone first List.mem_cons_self hfirst]
      exact List.mem_cons_self
    · have hne : site ≠ first := by
        rintro rfl
        simp [Site.samePlace] at hfirst
      have hrest := (List.mem_cons.1 h).resolve_left hne
      apply List.mem_cons_of_mem first
      refine List.mem_filter.2 ⟨ih hrest fun found hfound => halone found ?_,by simpa using hfirst⟩
      exact List.mem_cons_of_mem first hfound

lemma eq_of_path (h : folder.Keyed) (hd : document ∈ folder.documentList)
    (ho : other ∈ folder.documentList) (hpath : other.path.components = document.path.components) :
    other = document := by
  rw [Folder.mem_documentList_iff h] at hd ho
  rw [hpath,hd] at ho
  exact (Option.some.inj ho).symm

lemma declares_label_eq_false {path : Path} {label : String}
    (h : document.path.components ≠ path.components) (element : Element) :
    declares folder document element (.label path label) = false := by
  cases element <;> simp [declares,h]

/-- Looking for the declarations of a label in one document only loses nothing. -/
lemma declarations_eq (h : folder.Keyed) (hdocument : document ∈ folder.documentList)
    (htarget : target? folder document element = some target) :
    declarations folder document target =
      distinct (sites folder.documentList fun d e => declares folder d e target) := by
  unfold declarations
  cases target with
  | document key anchor => rfl
  | label path label =>
    obtain rfl := path_of_target?_eq_label htarget
    rw [sites_documentList h hdocument fun other hother e => declares_label_eq_false hother e]
    rfl

/-- Definitions and headings other than titles declare their own target, and nothing else. -/
lemma declares_eq (hdeclares : e.isReference = false) (htitle : e.isTitle = false) (t : Target) :
    declares folder document e t = (target? folder document e).any (·.same t) := by
  cases e with
  | heading heading =>
    have htitle : heading.isTitle = false := htitle
    cases hkey : folder.key? document.path with
    | none => cases t <;> simp [declares,target?,hkey]
    | some key =>
      cases t with
      | document k anchor =>
        cases anchor <;> simp [declares,target?,hkey,htitle,Bool.and_comm]
      | label path label => simp [declares,target?,hkey]
  | definition definition => cases t <;> simp [declares,target?]
  | wikiLink link => simp [Element.isReference] at hdeclares
  | inlineLink link => simp [Element.isReference] at hdeclares
  | labelUse use => simp [Element.isReference] at hdeclares

lemma isTitle_iff (e : Element) :
    e.isTitle = true ↔ ∃ heading, e = .heading heading ∧ heading.isTitle = true := by
  cases e <;> simp [Element.isTitle]

lemma anchor_of_target? (href : r.isReference = true) {key : String} {anchor : Option String}
    (h : target? folder document r = some (.document key anchor)) :
    anchor = r.anchor?.map slug := by
  cases r with
  | heading heading => simp [Element.isReference] at href
  | definition definition => simp [Element.isReference] at href
  | labelUse use => simp [target?] at h
  | wikiLink link =>
    obtain ⟨found,-,heq⟩ := Option.map_eq_some_iff.1 h
    cases heq
    rfl
  | inlineLink link =>
    obtain ⟨found,-,heq⟩ := Option.map_eq_some_iff.1 h
    cases heq
    rfl

/-- A title declares its document for links without anchor, and is not the target of any others. -/
lemma same_title_eq (htitle : e.isTitle = true) (href : r.isReference = true)
    (htarget : target? folder other r = some t) :
    (target? folder document e).any (·.same t) =
      (declares folder document e t && r.anchor?.isNone) := by
  obtain ⟨heading,rfl,hheading⟩ := (isTitle_iff e).1 htitle
  cases hkey : folder.key? document.path with
  | none => cases t <;> simp [declares,target?,hkey]
  | some found =>
    cases t with
    | label path label => simp [declares,target?,hkey]
    | document key anchor =>
      rw [anchor_of_target? href htarget]
      cases r.anchor? <;> simp [declares,target?,hkey,hheading]

lemma mem_findReferences_iff (h : folder.Keyed) (hdocument : document ∈ folder.documentList)
    (hother : other ∈ folder.documentList) (hr : r ∈ other.elements) (href : r.isReference = true) :
    ⟨other,r⟩ ∈ findReferences false folder document e ↔
      ∃ t, target? folder other r = some t ∧ (target? folder document e).any (·.same t) = true := by
  cases htarget : target? folder document e with
  | none => simp [findReferences,htarget]
  | some t =>
    cases hown : target? folder other r <;>
      simp [findReferences_eq h hdocument htarget,hother,hr,href,hown,t.same_comm]

/-- A document as a whole is no element, so only declarations count. -/
lemma element_mem_findDefinitions_iff (site : Site) :
    .element site ∈ findDefinitions folder document element ↔
      ∃ t, target? folder document element = some t ∧ site ∈ declarations folder document t := by
  unfold findDefinitions
  cases htarget : target? folder document element with
  | none => simp
  | some t =>
    dsimp only
    split
    · rename_i hnone
      simp [hnone]
    · simp

lemma not_mem_findDefinitions_or {a b : Site} (hplace : a.samePlace b = true) (hne : a ≠ b) :
    .element a ∉ findDefinitions folder document element ∨
      .element b ∉ findDefinitions folder document element := by
  rw [← not_and_or,element_mem_findDefinitions_iff,element_mem_findDefinitions_iff]
  rintro ⟨⟨t,ht,ha⟩,⟨t',ht',hb⟩⟩
  obtain rfl : t = t' := Option.some.inj (ht.symm.trans ht')
  exact hne (eq_of_mem_distinct ha hb hplace)

/-- Elements at one place that declare the same target are the same, if the text is not too
long. -/
lemma eq_of_declares (hsize : document.text.utf8ByteSize < UInt32.size)
    {found : Element} (he : e ∈ document.elements) (hfound : found ∈ document.elements)
    (hrange : found.range = e.range) (hdeclares : declares folder document e t = true)
    (hdeclares' : declares folder document found t = true) : found = e := by
  rw [document.elements_eq] at he hfound
  cases e with
  | heading a =>
    cases found with
    | heading b => rw [heading_eq_of_range hsize hfound he hrange]
    | definition b => cases t <;> simp [declares] at hdeclares hdeclares'
    | _ => simp [declares] at hdeclares'
  | definition a =>
    cases found with
    | heading b => cases t <;> simp [declares] at hdeclares hdeclares'
    | definition b => rw [definition_eq_of_range hsize hfound he hrange]
    | _ => simp [declares] at hdeclares'
  | _ => simp [declares] at hdeclares

lemma declares_of_mem_declarations (h : folder.Keyed) (hdocument : document ∈ folder.documentList)
    (htarget : target? folder document element = some t)
    (hmem : ⟨other,e⟩ ∈ declarations folder document t) : declares folder other e t = true := by
  rw [declarations_eq h hdocument htarget] at hmem
  exact ((mem_sites_iff _ _ _).1 (mem_of_mem_distinct hmem)).2.2

/-- What declares a target is among its declarations, unless something else declares the same
target at the same place. -/
lemma mem_declarations (h : folder.Keyed) (hdocument : document ∈ folder.documentList)
    (htarget : target? folder document element = some t) (hother : other ∈ folder.documentList)
    (he : e ∈ other.elements) (hdeclares : declares folder other e t = true)
    (halone : ∀ found ∈ other.elements, found.range = e.range →
      declares folder other found t = true → found = e) :
    ⟨other,e⟩ ∈ declarations folder document t := by
  rw [declarations_eq h hdocument htarget]
  refine mem_distinct ((mem_sites_iff _ _ _).2 ⟨hother,he,hdeclares⟩) ?_
  rintro ⟨d,found⟩ hsite hplace
  obtain ⟨hd,hfound,hfoundDeclares⟩ := (mem_sites_iff _ _ _).1 hsite
  obtain ⟨hpath,hrange⟩ : d.path.components = other.path.components ∧ found.range = e.range := by
    simpa [Site.samePlace] using hplace
  obtain rfl := eq_of_path h hother hd hpath
  rw [halone found hfound hrange hfoundDeclares]

/-- Only the title of a document declares what a link without anchor refers to. -/
lemma eq_of_declares_title (htitle : e.isTitle = true) (href : r.isReference = true)
    (hanchor : r.anchor? = none) (htarget : target? folder other r = some t)
    {found : Element} (he : e ∈ document.elements) (hfound : found ∈ document.elements)
    (hdeclares : declares folder document found t = true)
    (hdeclares' : declares folder document e t = true) : found = e := by
  rw [document.elements_eq] at he hfound
  obtain ⟨a,rfl,ha⟩ := (isTitle_iff e).1 htitle
  cases t with
  | label path label => simp [declares] at hdeclares'
  | document key anchor =>
    obtain rfl : anchor = none := by rw [anchor_of_target? href htarget,hanchor]; rfl
    cases found with
    | heading b =>
      have hb : b.isTitle = true := by
        simp only [declares,Bool.and_eq_true] at hdeclares
        exact hdeclares.1
      rw [title_unique hfound he hb ha]
    | _ => simp [declares] at hdeclares

/-- A definition or a heading is a definition of what a link or the use of a label refers to if and
only if the link or the use is among its references. Definitions are told apart by their ranges,
which takes a text of less than four gigabytes. For the title of a document, links with an anchor
are left out: they refer to a part of the document. -/
theorem definition_iff_reference (h : folder.Keyed) {dr dh : Document}
    (hdr : dr ∈ folder.documentList) (hdh : dh ∈ folder.documentList) (hr : r ∈ dr.elements)
    (he : e ∈ dh.elements) (href : r.isReference = true) (hdeclares : e.isReference = false) :
    (e.isTitle = false →
      (.element ⟨dh,e⟩ ∈ findDefinitions folder dr r →
        ⟨dr,r⟩ ∈ findReferences false folder dh e) ∧
      (dh.text.utf8ByteSize < UInt32.size → ⟨dr,r⟩ ∈ findReferences false folder dh e →
        .element ⟨dh,e⟩ ∈ findDefinitions folder dr r)) ∧
    (e.isTitle = true →
      (⟨dr,r⟩ ∈ findReferences false folder dh e ↔
        .element ⟨dh,e⟩ ∈ findDefinitions folder dr r ∧ r.anchor? = none)) := by
  rw [mem_findReferences_iff h hdh hdr hr href,element_mem_findDefinitions_iff]
  refine ⟨fun htitle => ⟨?_,?_⟩,fun htitle => ⟨?_,?_⟩⟩
  · rintro ⟨t,htarget,hmem⟩
    have hdeclared := declares_of_mem_declarations h hdr htarget hmem
    exact ⟨t,htarget,declares_eq hdeclares htitle t ▸ hdeclared⟩
  · rintro hsize ⟨t,htarget,hsame⟩
    rw [← declares_eq hdeclares htitle] at hsame
    refine ⟨t,htarget,mem_declarations h hdr htarget hdh he hsame ?_⟩
    intro found hfound hrange hfoundDeclares
    exact eq_of_declares hsize he hfound hrange hsame hfoundDeclares
  · rintro ⟨t,htarget,hsame⟩
    rw [same_title_eq htitle href htarget,Bool.and_eq_true,Option.isNone_iff_eq_none] at hsame
    obtain ⟨hdeclared,hanchor⟩ := hsame
    refine ⟨⟨t,htarget,mem_declarations h hdr htarget hdh he hdeclared ?_⟩,hanchor⟩
    intro found hfound _ hfoundDeclares
    exact eq_of_declares_title htitle href hanchor htarget he hfound hfoundDeclares hdeclared
  · rintro ⟨⟨t,htarget,hmem⟩,hanchor⟩
    refine ⟨t,htarget,?_⟩
    rw [same_title_eq htitle href htarget,declares_of_mem_declarations h hdr htarget hmem,hanchor]
    rfl

theorem definition_iff_reference_linked :
    ∃ (folder : Folder) (dr dh dt : Document) (r e title : Element),
    folder.Keyed ∧ dr ∈ folder.documentList ∧ dh ∈ folder.documentList ∧
    dt ∈ folder.documentList ∧ r ∈ dr.elements ∧ e ∈ dh.elements ∧ title ∈ dt.elements ∧
    r.anchor?.isSome = true ∧ e.isTitle = false ∧ title.isTitle = true ∧
    dh.text.utf8ByteSize < UInt32.size ∧ ⟨dr,r⟩ ∈ findReferences false folder dh e ∧
    .element ⟨dh,e⟩ ∈ findDefinitions folder dr r ∧
    ⟨dr,r⟩ ∉ findReferences false folder dt title := by
  have hempty := (Folder.Built.empty "n" "/n").coherent
  have hkeyed := ((hempty.keyed.withDocument (.ofText "/n/a.md" none "## B")).withDocument
    (.ofText "/n/b.md" none "[[a#b]]")).withDocument (.ofText "/n/c.md" none "# C")
  refine ⟨_,.ofText "/n/b.md" none "[[a#b]]",.ofText "/n/a.md" none "## B",
    .ofText "/n/c.md" none "# C",.wikiLink ⟨some "a",some "b",⟨0,0⟩,⟨0,7⟩⟩,
    .heading ⟨2,"B","b",false,⟨0,0⟩,⟨0,4⟩⟩,.heading ⟨1,"C","c",true,⟨0,0⟩,⟨0,3⟩⟩,hkeyed,
    ?_,?_,?_,?_,?_,?_,?_,?_,?_,?_,?_,
    ((definition_iff_reference hkeyed ?_ ?_ ?_ ?_ ?_ ?_).1 ?_).2 ?_ ?_,
    fun hmem => absurd (((definition_iff_reference hkeyed ?_ ?_ ?_ ?_ ?_ ?_).2 ?_).1 hmem).2 ?_⟩
  all_goals decide +kernel

/-- Of two definitions of a label that have one range, the use of the label finds one only. -/
lemma exists_definition_not_found :
    ∃ (folder : Folder) (document : Document) (use : LabelUse) (d : Definition),
    folder.Keyed ∧ document ∈ folder.documentList ∧ .labelUse use ∈ document.elements ∧
    .definition d ∈ document.elements ∧ d.label = use.label ∧
    .element ⟨document,.definition d⟩ ∉ findDefinitions folder document (.labelUse use) := by
  obtain ⟨text,a,b,use,ha,hb,huse,halabel,hblabel,hrange,hne⟩ := exists_definitions_at_one_place
  let document : Document := .ofText "/n/a.md" none text
  have hkeyed := (Folder.Built.empty "n" "/n").coherent.keyed.withDocument document
  have hdocument : document ∈ ((Folder.empty "n" "/n").withDocument document).documentList :=
    (Folder.mem_documentList_iff hkeyed document).2 Std.ExtTreeMap.getElem?_insert_self
  have hplace : Site.samePlace ⟨document,.definition a⟩ ⟨document,.definition b⟩ = true := by
    simp [Site.samePlace,Element.range,hrange]
  have hsites : (⟨document,.definition a⟩ : Site) ≠ ⟨document,.definition b⟩ := by
    simpa using hne
  rcases not_mem_findDefinitions_or hplace hsites with hmissing | hmissing
  · exact ⟨_,document,use,a,hkeyed,hdocument,huse,ha,halabel,hmissing⟩
  · exact ⟨_,document,use,b,hkeyed,hdocument,huse,hb,hblabel,hmissing⟩

/-- In a text of four gigabytes and more, a definition can have a reference from which it is not
found. -/
theorem reference_without_definition :
    ∃ (folder : Folder) (document : Document) (r e : Element),
    folder.Keyed ∧ document ∈ folder.documentList ∧ r ∈ document.elements ∧ e ∈ document.elements ∧
    r.isReference = true ∧ e.isReference = false ∧ e.isTitle = false ∧
    ⟨document,r⟩ ∈ findReferences false folder document e ∧
    .element ⟨document,e⟩ ∉ findDefinitions folder document r := by
  obtain ⟨folder,document,use,d,hkeyed,hdocument,huse,hd,hlabel,hmissing⟩ :=
    exists_definition_not_found
  refine ⟨folder,document,.labelUse use,.definition d,hkeyed,hdocument,huse,hd,rfl,rfl,rfl,?_,
    hmissing⟩
  rw [mem_findReferences_iff hkeyed hdocument hdocument huse rfl]
  exact ⟨_,rfl,by simp [target?,hlabel]⟩

end Navigation

end NoteIndex
