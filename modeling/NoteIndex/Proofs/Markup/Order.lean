import NoteIndex.Proofs.Markup.Line
import NoteIndex.Proofs.Markup.Place

/-! Source order: what stands at a place tells what kind of element can start there, so no two elements
start at the same place. -/
namespace NoteIndex.Markup

open Text

inductive Kind where
  | heading
  | wikiLink
  | inlineLink
  | definition
  | labelUse
  deriving DecidableEq

def Kind.all : List Kind := [heading,wikiLink,inlineLink,definition,labelUse]

/-- The only kind of element that a text can start with. -/
def kindOf (text : List Char) : Kind :=
  match text with
  | '#' :: _ => .heading
  | '[' :: body =>
    match body.dropWhile isBracketChar with
    | ']' :: '(' :: _ => .inlineLink
    | ']' :: ':' :: _ => .definition
    | ']' :: _ => .labelUse
    | _ => .wikiLink
  | _ => .definition

section Kind

variable {before : Option Char} {text : List Char} {length : Nat}

lemma kindOf_of_headingForm {value : RawHeading}
    (h : headingForm before text = some (length,some value)) : kindOf text = .heading := by
  obtain ⟨line,-,hone,-⟩ := headingForm_eq_some_iff.1 h
  cases text with
  | nil => simp at hone
  | cons c rest =>
    by_cases hc : c = '#'
    · subst hc
      rfl
    · simp [hc] at hone

lemma kindOf_of_wikiLinkForm {value : RawWikiLink}
    (h : wikiLinkForm before text = some (length,some value)) : kindOf text = .wikiLink := by
  obtain ⟨body,-,-,-,rfl,-⟩ := wikiLinkForm_eq_some_iff.1 h
  rfl

lemma kindOf_of_inlineLinkForm {value : RawInlineLink}
    (h : inlineLinkForm before text = some (length,some value)) : kindOf text = .inlineLink := by
  obtain ⟨body,rest,-,-,rfl,hclose,-⟩ := inlineLinkForm_eq_some_iff.1 h
  simp [kindOf,hclose]

lemma kindOf_of_definitionForm {value : RawDefinition}
    (h : definitionForm before text = some (length,some value)) : kindOf text = .definition := by
  obtain ⟨body,rest,-,-,-,-,hopen,-,hclose,-⟩ := definitionForm_eq_some_iff.1 h
  cases text with
  | nil => simp at hopen
  | cons c tail =>
    by_cases hc : c = ' '
    · subst hc
      rfl
    · obtain ⟨rfl,rfl⟩ : c = '[' ∧ tail = body := by simpa [hc] using hopen
      simp [kindOf,hclose]

lemma kindOf_of_labelUseForm {value : List Char}
    (h : labelUseForm before text = some (length,some value)) : kindOf text = .labelUse := by
  obtain ⟨body,rest,label,rfl,-,hclose,-,heq⟩ := labelUseForm_eq_some_iff.1 h
  have huse : labelUse? before label (secondLabel? rest) rest.head? = some value :=
    (congrArg Prod.snd heq).symm
  cases rest with
  | nil => simp [kindOf,hclose]
  | cons c tail =>
    -- Brackets before a parenthesis or colon are not uses, and those have no second pair.
    have hopen : c ≠ '(' := by
      rintro rfl
      simp [labelUse?,secondLabel?] at huse
    have hcolon : c ≠ ':' := by
      rintro rfl
      simp [labelUse?,secondLabel?] at huse
    simp [kindOf,hclose,hopen,hcolon]

end Kind

section Found

variable {α : Type} {form : Form α} {text : List Char}

/-- The character before a place, in a text that goes on from its first character. -/
lemma getLast?_take_succ (c : Char) (rest : List Char) (place : Nat) (before : Option Char) :
    ((c :: rest).take (place+1)).getLast?.or before = (rest.take place).getLast?.or (some c) := by
  rw [List.take_succ_cons,List.getLast?_cons]
  cases (rest.take place).getLast? <;> simp

/-- A form that is found stands at its place, after the character that it has to follow, and its span is
as long as it is. -/
lemma form_of_mem_findFrom {skip index : Nat} {before : Option Char} {f : Found α}
    (hf : f ∈ findFrom form skip before index text) : ∃ length,
      form ((text.take (f.span.start-index)).getLast?.or before) (text.drop (f.span.start-index)) =
        some (length,some f.value) ∧ f.span.stop = f.span.start+length := by
  have hnext : ∀ (c : Char) (rest : List Char) (start index : Nat) (before : Option Char),
      index+1 ≤ start →
      ((c :: rest).take (start-index)).getLast?.or before =
        (rest.take (start-(index+1))).getLast?.or (some c) ∧
      (c :: rest).drop (start-index) = rest.drop (start-(index+1)) := by
    intro c rest start index before hstart
    rw [show start-index = (start-(index+1))+1 by omega,getLast?_take_succ,List.drop_succ_cons]
    exact ⟨rfl,rfl⟩
  fun_induction findFrom form skip before index text with
  | case1 => simp at hf
  | case2 before index c rest skip ih =>
    obtain ⟨hbefore,hdrop⟩ := hnext c rest _ _ before (start_of_mem_findFrom hf).1
    rw [hbefore,hdrop]
    exact ih hf
  | case3 before index c rest hform ih =>
    obtain ⟨hbefore,hdrop⟩ := hnext c rest _ _ before (start_of_mem_findFrom hf).1
    rw [hbefore,hdrop]
    exact ih hf
  | case4 before index c rest length hform ih =>
    obtain ⟨hbefore,hdrop⟩ := hnext c rest _ _ before (start_of_mem_findFrom hf).1
    rw [hbefore,hdrop]
    exact ih hf
  | case5 before index c rest length value hform ih =>
    rcases List.mem_cons.1 hf with rfl | hf
    · exact ⟨length,by simpa using hform,rfl⟩
    · obtain ⟨hbefore,hdrop⟩ := hnext c rest _ _ before (start_of_mem_findFrom hf).1
      rw [hbefore,hdrop]
      exact ih hf

lemma form_of_mem_find {f : Found α} (hf : f ∈ find form text) : ∃ length,
    form (text.take f.span.start).getLast? (text.drop f.span.start) = some (length,some f.value) ∧
      f.span.stop = f.span.start+length := by
  simpa using form_of_mem_findFrom hf

end Found

/-- The elements of one kind with their spans. -/
def elementsOf (text : List Char) : Kind → List (Found Element)
  | .heading => (titledHeadings text).map (headingElement text)
  | .wikiLink => (outside (code text) (wikiLinks text)).map (wikiLinkElement text)
  | .inlineLink => (outside (code text) (inlineLinks text)).map (inlineLinkElement text)
  | .definition => (outside (code text) (definitions text)).map (definitionElement text)
  | .labelUse =>
    ((outside (code text) (labelUses text)).filter fun f =>
      (definedLabels (outside (code text) (definitions text))).contains
        (normalizeLabel (String.ofList f.value))).map (labelUseElement text)

lemma foundElements_eq (text : List Char) :
    foundElements text = Kind.all.flatMap (elementsOf text) := by
  simp [foundElements,elementsOf,titledHeadings,Kind.all]

def Element.kind : Element → Kind
  | .heading _ => .heading
  | .wikiLink _ => .wikiLink
  | .inlineLink _ => .inlineLink
  | .definition _ => .definition
  | .labelUse _ => .labelUse

lemma kind_of_mem_elementsOf {text : List Char} {kind : Kind} {f : Found Element}
    (hf : f ∈ elementsOf text kind) : f.value.kind = kind := by
  cases kind <;> obtain ⟨g,-,rfl⟩ := List.mem_map.1 hf <;> rfl

/-- An element is found among those of its kind. -/
lemma mem_foundElements_iff {text : List Char} {f : Found Element} :
    f ∈ foundElements text ↔ f ∈ elementsOf text f.value.kind := by
  rw [foundElements_eq,List.mem_flatMap]
  constructor
  · rintro ⟨kind,-,hf⟩
    rw [kind_of_mem_elementsOf hf]
    exact hf
  · intro hf
    exact ⟨f.value.kind,by cases f.value.kind <;> decide,hf⟩

/-- An element with its span as it has to be: the span is not empty, lies in the text, starts as
elements of the kind do, and gives the range of the element. -/
structure Placed (text : List Char) (kind : Kind) (f : Found Element) : Prop where
  nonempty : f.span.start < f.span.stop
  inside : f.span.stop ≤ text.length
  kind : kindOf (text.drop f.span.start) = kind
  range : f.value.range = f.span.range text

lemma placed_of_mem {α : Type} {form : Form α} {text : List Char} {kind : Kind} {f : Found α}
    (hform : LineLocal form)
    (hkind : ∀ {before text length value}, form before text = some (length,some value) →
      kindOf text = kind)
    (hf : f ∈ outside (code text) (find form text)) {element : Found Element}
    (hspan : element.span = f.span) (hrange : element.value.range = f.span.range text) :
    Placed text kind element := by
  have hfound := (List.mem_filter.1 hf).1
  obtain ⟨hnonempty,hinside⟩ := span_of_mem_find hform hfound
  obtain ⟨length,hplace,-⟩ := form_of_mem_find hfound
  exact ⟨hspan ▸ hnonempty,hspan ▸ hinside,hspan ▸ hkind hplace,hspan ▸ hrange⟩

lemma raw_of_mem_titledHeadings {text : List Char} {f : Found (RawHeading × Bool)}
    (hf : f ∈ titledHeadings text) :
    (⟨f.span,f.value.1⟩ : Found RawHeading) ∈ outside (code text) (headings text) := by
  rw [← map_withTitle false (outside (code text) (headings text))]
  exact List.mem_map_of_mem hf

lemma exists_titled {text : List Char} {f : Found RawHeading}
    (hf : f ∈ outside (code text) (headings text)) :
    ∃ g ∈ titledHeadings text, g.span = f.span ∧ g.value.1 = f.value := by
  rw [← map_withTitle false (outside (code text) (headings text))] at hf
  obtain ⟨g,hg,rfl⟩ := List.mem_map.1 hf
  exact ⟨g,hg,rfl,rfl⟩

lemma placed_of_mem_elementsOf {text : List Char} {kind : Kind} {f : Found Element}
    (hf : f ∈ elementsOf text kind) : Placed text kind f := by
  cases kind with
  | heading =>
    obtain ⟨g,hg,rfl⟩ := List.mem_map.1 hf
    exact placed_of_mem lineLocal_headingForm kindOf_of_headingForm (raw_of_mem_titledHeadings hg)
      rfl rfl
  | wikiLink =>
    obtain ⟨g,hg,rfl⟩ := List.mem_map.1 hf
    exact placed_of_mem lineLocal_wikiLinkForm kindOf_of_wikiLinkForm hg rfl rfl
  | inlineLink =>
    obtain ⟨g,hg,rfl⟩ := List.mem_map.1 hf
    exact placed_of_mem lineLocal_inlineLinkForm kindOf_of_inlineLinkForm hg rfl rfl
  | definition =>
    obtain ⟨g,hg,rfl⟩ := List.mem_map.1 hf
    exact placed_of_mem lineLocal_definitionForm kindOf_of_definitionForm hg rfl rfl
  | labelUse =>
    obtain ⟨g,hg,rfl⟩ := List.mem_map.1 hf
    exact placed_of_mem lineLocal_labelUseForm kindOf_of_labelUseForm (List.mem_filter.1 hg).1 rfl rfl

lemma pairwise_elementsOf (text : List Char) (kind : Kind) :
    (elementsOf text kind).Pairwise fun f g => f.span.start < g.span.start := by
  cases kind with
  | heading => exact List.pairwise_map.2 (ordered_titledHeadings text).increasing
  | wikiLink => exact List.pairwise_map.2 ((ordered_find wikiLinkForm text).outside _).increasing
  | inlineLink =>
    exact List.pairwise_map.2 ((ordered_find inlineLinkForm text).outside _).increasing
  | definition =>
    exact List.pairwise_map.2 ((ordered_find definitionForm text).outside _).increasing
  | labelUse =>
    exact List.pairwise_map.2 (((ordered_find labelUseForm text).outside _).increasing.filter _)

/-- No two elements start at the same place: two of one kind are found one after the other, and two
of different kinds start with different texts. -/
lemma pairwise_foundElements (text : List Char) :
    (foundElements text).Pairwise fun f g => f.span.start ≠ g.span.start := by
  rw [foundElements_eq,List.pairwise_flatMap]
  constructor
  · intro kind _
    exact (pairwise_elementsOf text kind).imp Nat.ne_of_lt
  · have hkinds : Kind.all.Pairwise (· ≠ ·) := by decide
    refine hkinds.imp ?_
    intro kind other hne f hf g hg hstart
    apply hne
    rw [← (placed_of_mem_elementsOf hf).kind,← (placed_of_mem_elementsOf hg).kind,hstart]

/-- The elements of a text with their spans, in the order of their starts. -/
def sortedElements (text : List Char) : List (Found Element) :=
  (foundElements text).mergeSort fun a b => a.span.start ≤ b.span.start

lemma parse_eq (text : String) : parse text = (sortedElements text.toList).map Found.value := rfl

/-- Elements that are found in the order of their starts stay as they are. -/
lemma parse_of_pairwise {text : String}
    (h : (foundElements text.toList).Pairwise fun f g => f.span.start ≤ g.span.start) :
    parse text = (foundElements text.toList).map Found.value := by
  rw [parse,List.mergeSort_of_pairwise (by simpa using h)]

lemma perm_sortedElements (text : List Char) : (sortedElements text).Perm (foundElements text) :=
  List.mergeSort_perm _ _

lemma pairwise_sortedElements (text : List Char) :
    (sortedElements text).Pairwise fun f g => f.span.start < g.span.start := by
  have hle : (sortedElements text).Pairwise fun f g => decide (f.span.start ≤ g.span.start) = true := by
    apply List.pairwise_mergeSort
    · intro f g h
      simpa using Nat.le_trans
    · intro f g
      simpa using Nat.le_total f.span.start g.span.start
  have hne : (sortedElements text).Pairwise fun f g => f.span.start ≠ g.span.start :=
    ((perm_sortedElements text).pairwise_iff Ne.symm).2 (pairwise_foundElements text)
  refine (hle.and hne).imp ?_
  rintro f g ⟨hle,hne⟩
  exact Nat.lt_of_le_of_ne (of_decide_eq_true hle) hne

lemma placed_of_mem_foundElements {text : List Char} {f : Found Element}
    (hf : f ∈ foundElements text) : ∃ kind, Placed text kind f := by
  rw [foundElements_eq,List.mem_flatMap] at hf
  obtain ⟨kind,-,hf⟩ := hf
  exact ⟨kind,placed_of_mem_elementsOf hf⟩

/-- In a text of less than four gigabytes, elements start one after the other. -/
lemma pairwise_parse {text : String} (hsize : text.utf8ByteSize < UInt32.size) :
    (parse text).Pairwise fun a b => a.range.start < b.range.start := by
  rw [parse_eq,List.pairwise_map]
  refine (pairwise_sortedElements text.toList).imp_of_mem ?_
  intro f g hf hg hlt
  obtain ⟨_,hf⟩ := placed_of_mem_foundElements ((perm_sortedElements _).mem_iff.1 hf)
  obtain ⟨_,hg⟩ := placed_of_mem_foundElements ((perm_sortedElements _).mem_iff.1 hg)
  rw [hf.range,hg.range]
  exact positionOfChar_lt hsize hlt (Nat.le_trans (Nat.le_of_lt hg.nonempty) hg.inside)

/-- The elements of a text of less than four gigabytes start one after the other, each before its own
end, so that no two of them start at the same place or have the same range. -/
theorem parse_strictly_ordered {text : String} (hsize : text.utf8ByteSize < UInt32.size) :
    ((parse text).Pairwise fun a b => a.range.start < b.range.start) ∧
    (∀ e ∈ parse text, e.range.start < e.range.stop) ∧
    (parse text).Pairwise fun a b => a.range.start ≠ b.range.start ∧ a.range ≠ b.range := by
  have hstarts := pairwise_parse hsize
  refine ⟨hstarts,?_,hstarts.imp ?_⟩
  · intro e he
    obtain ⟨f,hf,rfl⟩ := (mem_parse_iff text e).1 he
    obtain ⟨_,hplaced⟩ := placed_of_mem_foundElements hf
    rw [hplaced.range]
    exact positionOfChar_lt hsize hplaced.nonempty hplaced.inside
  · intro a b hlt
    have hne := Position.ne_of_lt hlt
    exact ⟨hne,fun heq => hne (congrArg Range.start heq)⟩

theorem parse_strictly_ordered_mixed :
    ∃ text : String, text.utf8ByteSize < UInt32.size ∧ (parse text).length = 6 ∧
    ((parse text).Pairwise fun a b => a.range.start < b.range.start) ∧
    (∀ e ∈ parse text, e.range.start < e.range.stop) ∧
    (parse text).Pairwise fun a b => a.range.start ≠ b.range.start ∧ a.range ≠ b.range := by
  refine ⟨"# [a] 😀[[b]]\r\n[a](c) [a][a]\n  [a]: d",by decide +kernel,?_,
    parse_strictly_ordered (by decide +kernel)⟩
  rw [parse_eq,List.length_map,(perm_sortedElements _).length_eq]
  decide +kernel

end NoteIndex.Markup
