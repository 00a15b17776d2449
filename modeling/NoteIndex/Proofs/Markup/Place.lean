import Mathlib.Data.List.Nodup
import NoteIndex.Markup.Element
import NoteIndex.Proofs.Text.Position

/-! Places of elements: forms are found from left to right, so two headings or two definitions never
have the same place, and a text has at most one title. -/
namespace NoteIndex.Markup

open Text

section Found

variable {α : Type}

lemma start_of_mem_findFrom {form : Form α} {skip index : Nat} {before : Option Char}
    {text : List Char} {f : Found α} (h : f ∈ findFrom form skip before index text) :
    index ≤ f.span.start ∧ f.span.start < index+text.length := by
  fun_induction findFrom form skip before index text with
  | case1 => simp at h
  | case2 before index c rest skip ih =>
    have hrest := ih h
    simp only [List.length_cons]
    omega
  | case3 before index c rest hform ih =>
    have hrest := ih h
    simp only [List.length_cons]
    omega
  | case4 before index c rest length hform ih =>
    have hrest := ih h
    simp only [List.length_cons]
    omega
  | case5 before index c rest length value hform ih =>
    simp only [List.length_cons]
    rcases List.mem_cons.1 h with rfl | h
    · dsimp only
      omega
    · have hrest := ih h
      omega

/-- Forms are found in the order of their starts. -/
lemma pairwise_findFrom (form : Form α) (skip index : Nat) (before : Option Char)
    (text : List Char) :
    (findFrom form skip before index text).Pairwise fun f g => f.span.start < g.span.start := by
  fun_induction findFrom form skip before index text with
  | case1 => exact .nil
  | case2 before index c rest skip ih => exact ih
  | case3 before index c rest hform ih => exact ih
  | case4 before index c rest length hform ih => exact ih
  | case5 before index c rest length value hform ih =>
    refine List.pairwise_cons.2 ⟨?_,ih⟩
    intro g hg
    have hstart := (start_of_mem_findFrom hg).1
    dsimp only
    omega

/-- Things found in a text one after the other. -/
structure Ordered (text : List Char) (found : List (Found α)) : Prop where
  inside : ∀ f ∈ found, f.span.start < text.length
  increasing : found.Pairwise fun f g => f.span.start < g.span.start

lemma ordered_find (form : Form α) (text : List Char) : Ordered text (find form text) := by
  refine ⟨?_,pairwise_findFrom form 0 0 none text⟩
  intro f hf
  have hstart := (start_of_mem_findFrom hf).2
  omega

lemma Ordered.outside {text : List Char} {found : List (Found α)} (h : Ordered text found)
    (code : List Span) : Ordered text (outside code found) :=
  ⟨fun f hf => h.inside f (List.mem_filter.1 hf).1,h.increasing.filter _⟩

/-- In a text of less than four gigabytes, things found one after the other have different
ranges. -/
lemma Ordered.eq_of_range {text : String} (hsize : text.utf8ByteSize < UInt32.size)
    {found : List (Found α)} (h : Ordered text.toList found) {f g : Found α} (hf : f ∈ found)
    (hg : g ∈ found) (hrange : f.span.range text.toList = g.span.range text.toList) : f = g := by
  have hstart : f.span.start = g.span.start :=
    positionOfChar_injective hsize (Nat.le_of_lt (h.inside f hf)) (Nat.le_of_lt (h.inside g hg))
      (Range.mk.inj hrange).1
  have hstarts : (found.map (·.span.start)).Nodup :=
    List.pairwise_map.2 (h.increasing.imp fun hlt => Nat.ne_of_lt hlt)
  exact List.inj_on_of_nodup_map hstarts hf hg hstart

end Found

lemma mem_parse_iff (text : String) (element : Element) :
    element ∈ parse text ↔ ∃ f ∈ foundElements text.toList, f.value = element := by
  simp [parse]

/-- Marking the title leaves the headings where they are. -/
lemma map_withTitle (seen : Bool) (found : List (Found RawHeading)) :
    (withTitle seen found).map (fun f => ⟨f.span,f.value.1⟩) = found := by
  induction found generalizing seen with
  | nil => rfl
  | cons f rest ih => simp [withTitle,ih]

lemma Ordered.withTitle {text : List Char} {found : List (Found RawHeading)}
    (h : Ordered text found) (seen : Bool) : Ordered text (withTitle seen found) := by
  rw [← map_withTitle seen found] at h
  obtain ⟨hinside,hincreasing⟩ := h
  rw [List.pairwise_map] at hincreasing
  exact ⟨fun f hf => hinside _ (List.mem_map_of_mem hf),hincreasing⟩

lemma isTitle_eq_false_of_seen (found : List (Found RawHeading)) :
    ∀ f ∈ withTitle true found, f.value.2 = false := by
  induction found with
  | nil => simp [withTitle]
  | cons f rest ih => simpa [withTitle] using ih

/-- No two headings are titles. -/
lemma eq_of_isTitle {seen : Bool} {found : List (Found RawHeading)}
    {f g : Found (RawHeading × Bool)} (hf : f ∈ withTitle seen found)
    (hg : g ∈ withTitle seen found) (hft : f.value.2 = true) (hgt : g.value.2 = true) : f = g := by
  induction found generalizing seen with
  | nil => simp [withTitle] at hf
  | cons first rest ih =>
    rw [withTitle] at hf hg
    cases htitle : first.value.level == 1 && !seen with
    | true =>
      -- After a title no heading is one.
      simp only [htitle,Bool.or_true] at hf hg
      have hrest := isTitle_eq_false_of_seen rest
      rcases List.mem_cons.1 hf with rfl | hf
      · rcases List.mem_cons.1 hg with rfl | hg
        · rfl
        · simp [hrest g hg] at hgt
      · simp [hrest f hf] at hft
    | false =>
      simp only [htitle,Bool.or_false] at hf hg
      rcases List.mem_cons.1 hf with rfl | hf
      · simp at hft
      · rcases List.mem_cons.1 hg with rfl | hg
        · simp at hgt
        · exact ih hf hg

/-- The headings of a text before they become elements. -/
def titledHeadings (text : List Char) : List (Found (RawHeading × Bool)) :=
  withTitle false (outside (code text) (headings text))

lemma ordered_titledHeadings (text : List Char) : Ordered text (titledHeadings text) :=
  ((ordered_find headingForm text).outside _).withTitle false

lemma heading_mem_parse_iff (text : String) (heading : Heading) :
    .heading heading ∈ parse text ↔
      ∃ f ∈ titledHeadings text.toList, (headingElement text.toList f).value = .heading heading := by
  rw [mem_parse_iff]
  simp [foundElements,titledHeadings,or_and_right,exists_or,headingElement,wikiLinkElement,
    inlineLinkElement,definitionElement,labelUseElement]

lemma definition_mem_parse_iff (text : String) (definition : Definition) :
    .definition definition ∈ parse text ↔
      ∃ f ∈ outside (code text.toList) (definitions text.toList),
        (definitionElement text.toList f).value = .definition definition := by
  rw [mem_parse_iff]
  simp [foundElements,or_and_right,exists_or,headingElement,wikiLinkElement,
    inlineLinkElement,definitionElement,labelUseElement]

/-- A text has at most one title. -/
theorem title_unique {text : String} {a b : Heading} (ha : .heading a ∈ parse text)
    (hb : .heading b ∈ parse text) (hat : a.isTitle = true) (hbt : b.isTitle = true) : a = b := by
  obtain ⟨f,hf,hfa⟩ := (heading_mem_parse_iff text a).1 ha
  obtain ⟨g,hg,hgb⟩ := (heading_mem_parse_iff text b).1 hb
  cases hfa
  cases hgb
  rw [eq_of_isTitle hf hg hat hbt]

theorem heading_eq_of_range {text : String} (hsize : text.utf8ByteSize < UInt32.size)
    {a b : Heading} (ha : .heading a ∈ parse text) (hb : .heading b ∈ parse text)
    (hrange : a.range = b.range) : a = b := by
  obtain ⟨f,hf,hfa⟩ := (heading_mem_parse_iff text a).1 ha
  obtain ⟨g,hg,hgb⟩ := (heading_mem_parse_iff text b).1 hb
  cases hfa
  cases hgb
  rw [(ordered_titledHeadings text.toList).eq_of_range hsize hf hg hrange]

theorem definition_eq_of_range {text : String} (hsize : text.utf8ByteSize < UInt32.size)
    {a b : Definition} (ha : .definition a ∈ parse text) (hb : .definition b ∈ parse text)
    (hrange : a.range = b.range) : a = b := by
  have hordered := (ordered_find definitionForm text.toList).outside (code text.toList)
  obtain ⟨f,hf,hfa⟩ := (definition_mem_parse_iff text a).1 ha
  obtain ⟨g,hg,hgb⟩ := (definition_mem_parse_iff text b).1 hb
  cases hfa
  cases hgb
  rw [hordered.eq_of_range hsize hf hg hrange]

end NoteIndex.Markup
