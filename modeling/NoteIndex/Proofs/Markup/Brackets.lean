import NoteIndex.Proofs.Markup.Shortcut
import NoteIndex.Proofs.Markup.WikiLink

/-! Uses of labels beside other brackets: a use never meets a wiki link. It meets an inline link in two
ways only: its second pair of brackets is the pair that the link starts with, or it starts between the
parentheses of the link. -/
namespace NoteIndex.Markup

open Text

/-- The second pair of brackets of a use of a label is the pair that an inline link starts with. -/
def EndsInLink (text : List Char) (use link : Span) : Prop :=
  ∃ before first second after,
    text = before ++ '[' :: (first ++ ']' :: '[' :: (second ++ ']' :: '(' :: after)) ∧
    (∀ c ∈ first ++ second, c ∉ ['[',']','\n']) ∧
    use = ⟨before.length,before.length+(first.length+2+(second.length+2))⟩ ∧
    link.start = before.length+(first.length+2)

/-- A use of a label starts after the opening parenthesis of an inline link, and before the end of the
link. -/
def StartsInLink (text : List Char) (use link : Span) : Prop :=
  ∃ before label after, text = before ++ '[' :: (label ++ ']' :: '(' :: after) ∧
    (∀ c ∈ label, c ∉ ['[',']','\n']) ∧ link.start = before.length ∧
    before.length+(label.length+3) ≤ use.start ∧ use.start < link.stop

section Place

variable {text : List Char} {place : Nat}

lemma getElem?_of_drop {c : Char} {rest : List Char} (h : text.drop place = c :: rest) :
    text[place]? = some c := by
  rw [← List.head?_drop,h,List.head?_cons]

/-- A text is cut at a place where something stands. -/
lemma exists_before {c : Char} {rest : List Char} (h : text.drop place = c :: rest) :
    ∃ before, text = before ++ c :: rest ∧ place = before.length := by
  have hinside : place < text.length := (List.getElem?_eq_some_iff.1 (getElem?_of_drop h)).1
  refine ⟨text.take place,by rw [← h,List.take_append_drop],?_⟩
  rw [List.length_take,Nat.min_eq_left (Nat.le_of_lt hinside)]

end Place

section Form

variable {text : List Char} {place length : Nat}

/-- No bracket comes right before the use of a label. -/
lemma before_ne_bracket {before : Option Char} {value : List Char}
    (h : labelUseForm before text = some (length,some value)) :
    before ≠ some '[' ∧ before ≠ some ']' := by
  obtain ⟨body,rest,label,-,-,-,-,heq⟩ := labelUseForm_eq_some_iff.1 h
  have huse : labelUse? before label (secondLabel? rest) rest.head? = some value :=
    (congrArg Prod.snd heq).symm
  unfold labelUse? at huse
  split at huse
  · cases huse
  · rename_i hbeside
    simpa using hbeside

/-- An inline link starts with a pair of brackets, and a parenthesis right after it. -/
lemma exists_linkText {value : Option RawInlineLink}
    (h : formAt inlineLinkForm text place = some (length,value)) : ∃ label rest,
      (∀ c ∈ label, isBracketChar c = true) ∧
      text.drop place = '[' :: (label ++ ']' :: '(' :: rest) := by
  obtain ⟨body,rest,-,-,htext,hclose,-⟩ := inlineLinkForm_eq_some_iff.1 h
  refine ⟨body.takeWhile isBracketChar,rest,fun c hc => List.mem_takeWhile_imp hc,?_⟩
  rw [htext,← hclose,List.takeWhile_append_dropWhile]

end Form

section Found

variable {text : List Char} {f : Found (List Char)} (hf : f ∈ labelUses text)

include hf

lemma bracket_of_labelUse : text[f.span.start]? = some '[' := by
  obtain ⟨length,hform,-⟩ := form_of_mem_find hf
  obtain ⟨label,rest,-,hdrop,-⟩ := exists_brackets hform
  exact getElem?_of_drop hdrop

/-- The two brackets that open a wiki link leave no room for a use: one that comes to the first of them
would have an empty second label, and before the second one a bracket stands. -/
lemma not_meets_wikiLink {g : Found RawWikiLink} (hg : g ∈ wikiLinks text) :
    f.span.meets g.span = false := by
  obtain ⟨length,hform,hstop⟩ := form_of_mem_find hf
  obtain ⟨length',hform',hstop'⟩ := form_of_mem_find hg
  obtain ⟨hfour,hbrackets⟩ := brackets_of_wikiLinkForm hform'
  have hfirst : text[g.span.start]? = some '[' := (hbrackets 0 (by omega)).2 (by omega)
  have hsecond := (hbrackets 1 (by omega)).2 (by omega)
  rw [Bool.eq_false_iff,ne_eq,Span.meets,Bool.and_eq_true,decide_eq_true_eq,decide_eq_true_eq]
  rintro ⟨hbefore,hafter⟩
  obtain hlt | heq | hgt := Nat.lt_trichotomy f.span.start g.span.start
  · obtain ⟨label,second,rest,-,hchars,hdrop,hplace,-⟩ :=
      exists_second hform hfirst hlt (by omega)
    have hnext : text.drop g.span.start = '[' :: (second ++ ']' :: rest) := by
      rw [hplace,← List.drop_drop,hdrop]
      simp
    have hbehind := le_of_bracket hnext hchars hsecond (by omega)
    omega
  · obtain ⟨label,rest,hchars,hdrop,-⟩ := exists_brackets hform
    have hbehind := le_of_bracket hdrop hchars (heq ▸ hsecond) (by omega)
    omega
  · obtain ⟨k,hk⟩ : ∃ k, f.span.start = g.span.start+k := ⟨f.span.start-g.span.start,by omega⟩
    have htwo := (hbrackets k (by omega)).1 (hk ▸ bracket_of_labelUse hf)
    obtain rfl : k = 1 := by omega
    have hlast := (before_ne_bracket hform).1
    rw [hk,List.getLast?_take,if_neg (by omega),Nat.add_sub_cancel,hfirst,Option.some_or] at hlast
    exact hlast rfl

variable {g : Found RawInlineLink} (hg : g ∈ inlineLinks text)

include hg

/-- A use from before the link takes in the brackets of the link as its second pair. -/
lemma endsInLink_of_lt (hlt : f.span.start < g.span.start) (hreach : g.span.start < f.span.stop) :
    EndsInLink text f.span g.span := by
  obtain ⟨length,hform,hstop⟩ := form_of_mem_find hf
  obtain ⟨_,hlink,-⟩ := form_of_mem_find hg
  obtain ⟨label,rest,hlabel,hdrop⟩ := exists_linkText hlink
  obtain ⟨first,second,tail,hfirst,hsecond,hwhole,hplace,hlength⟩ :=
    exists_second hform (getElem?_of_drop hdrop) hlt (by omega)
  -- Read from the same bracket, the second label is the text of the link.
  have hbody : label ++ ']' :: '(' :: rest = second ++ ']' :: tail := by
    rw [hplace,← List.drop_drop,hwhole] at hdrop
    simpa using hdrop.symm
  have htail : ']' :: '(' :: rest = ']' :: tail := by
    rw [← dropWhile_bracket hlabel ('(' :: rest),hbody,dropWhile_bracket hsecond]
  cases htail
  obtain ⟨before,htext,hstart⟩ := exists_before hwhole
  refine ⟨before,first,second,rest,htext,?_,?_,by omega⟩
  · intro c hc
    exact isBracketChar_iff.1 ((List.mem_append.1 hc).elim (hfirst c) (hsecond c))
  · rw [← hstart,← hlength,← hstop]

/-- The text of the link holds no bracket, so a use that starts in the link starts after its
parenthesis. -/
lemma startsInLink_of_lt (hlt : g.span.start < f.span.start) (hreach : f.span.start < g.span.stop) :
    StartsInLink text f.span g.span := by
  obtain ⟨_,hlink,-⟩ := form_of_mem_find hg
  obtain ⟨label,rest,hlabel,hdrop⟩ := exists_linkText hlink
  have hopen := bracket_of_labelUse hf
  have hbehind := le_of_bracket hdrop hlabel hopen hlt
  have hparenthesis : text[g.span.start+(label.length+2)]? = some '(' := by
    rw [← List.getElem?_drop,hdrop]
    simp
  have hne : f.span.start ≠ g.span.start+(label.length+2) := by
    intro heq
    rw [heq,hparenthesis] at hopen
    cases hopen
  obtain ⟨before,htext,hstart⟩ := exists_before hdrop
  exact ⟨before,label,rest,htext,fun c hc => isBracketChar_iff.1 (hlabel c hc),hstart,by omega,hreach⟩

lemma meets_inlineLink_iff :
    f.span.meets g.span = true ↔ EndsInLink text f.span g.span ∨ StartsInLink text f.span g.span := by
  obtain ⟨hnonempty,-⟩ := span_of_mem_find lineLocal_labelUseForm hf
  obtain ⟨hnonempty',-⟩ := span_of_mem_find lineLocal_inlineLinkForm hg
  rw [Span.meets,Bool.and_eq_true,decide_eq_true_eq,decide_eq_true_eq]
  constructor
  · rintro ⟨hbefore,hafter⟩
    obtain hlt | heq | hgt := Nat.lt_trichotomy f.span.start g.span.start
    · exact .inl (endsInLink_of_lt hf hg hlt hafter)
    · obtain ⟨_,hform,-⟩ := form_of_mem_find hf
      obtain ⟨_,hlink,-⟩ := form_of_mem_find hg
      have hkind := kindOf_of_labelUseForm hform
      rw [heq,kindOf_of_inlineLinkForm hlink] at hkind
      cases hkind
    · exact .inr (startsInLink_of_lt hf hg hgt hbefore)
  · rintro (⟨before,first,second,after,-,-,hspan,hstart⟩ | ⟨before,label,after,-,-,hstart,hle,hlt⟩)
    · rw [hspan]
      dsimp only
      omega
    · omega

end Found

/-- No use of a label overlaps a wiki link. A use overlaps an inline link exactly if its second pair of
brackets is the pair that the link starts with, or if it starts between the parentheses of the link. -/
theorem labelUse_overlaps_exactly (text : String) :
    parse text = (sortedElements text.toList).map Found.value ∧
    (∀ f ∈ sortedElements text.toList, f.value.range = f.span.range text.toList) ∧
    ∀ use ∈ sortedElements text.toList, use.value.kind = .labelUse →
      ∀ link ∈ sortedElements text.toList,
        (link.value.kind = .wikiLink → use.span.meets link.span = false) ∧
        (link.value.kind = .inlineLink → (use.span.meets link.span = true ↔
          EndsInLink text.toList use.span link.span ∨
          StartsInLink text.toList use.span link.span)) := by
  refine ⟨parse_eq text,?_,?_⟩
  · intro f hf
    obtain ⟨kind,hplaced⟩ := placed_of_mem_foundElements ((perm_sortedElements _).mem_iff.1 hf)
    exact hplaced.range
  · intro use huse hkind link hlink
    rw [mem_sortedElements_iff,hkind] at huse
    obtain ⟨f,hf,rfl⟩ := List.mem_map.1 huse
    have hf := (List.mem_filter.1 (List.mem_filter.1 hf).1).1
    rw [mem_sortedElements_iff] at hlink
    constructor
    · intro hwiki
      rw [hwiki] at hlink
      obtain ⟨g,hg,rfl⟩ := List.mem_map.1 hlink
      exact not_meets_wikiLink hf (List.mem_filter.1 hg).1
    · intro hinline
      rw [hinline] at hlink
      obtain ⟨g,hg,rfl⟩ := List.mem_map.1 hlink
      exact meets_inlineLink_iff hf (List.mem_filter.1 hg).1

/-- Brackets in the title of an inline link are taken for a use of their label, and so is a pair of brackets
together with the pair of the link behind it. -/
theorem labelUse_overlaps_inlineLink :
    (∃ (use : LabelUse) (link : InlineLink),
      .labelUse use ∈ parse "[x](u \"see [b]\")\n\n[b]: d" ∧
      .inlineLink link ∈ parse "[x](u \"see [b]\")\n\n[b]: d" ∧
      link.range.start < use.range.start ∧ use.range.stop < link.range.stop) ∧
    ∃ (use : LabelUse) (link : InlineLink), .labelUse use ∈ parse "[a][b](c)\n\n[b]: d" ∧
      .inlineLink link ∈ parse "[a][b](c)\n\n[b]: d" ∧
      use.range.start < link.range.start ∧ link.range.start < use.range.stop := by
  have hcolumn : ∀ i j : UInt32, i < j → (⟨0,i⟩ : Position) < ⟨0,j⟩ := fun i j hlt => .inr ⟨rfl,hlt⟩
  constructor
  · refine ⟨⟨"b",⟨0,11⟩,⟨0,14⟩⟩,⟨"x",some "u",none,⟨0,0⟩,⟨0,16⟩⟩,?_,?_,hcolumn 0 11 (by decide),
      hcolumn 14 16 (by decide)⟩
    · exact (mem_parse_iff _ _).2 ⟨⟨⟨11,14⟩,_⟩,by decide +kernel,rfl⟩
    · exact (mem_parse_iff _ _).2 ⟨⟨⟨0,16⟩,_⟩,by decide +kernel,rfl⟩
  · refine ⟨⟨"b",⟨0,0⟩,⟨0,6⟩⟩,⟨"b",some "c",none,⟨0,3⟩,⟨0,9⟩⟩,?_,?_,hcolumn 0 3 (by decide),
      hcolumn 3 6 (by decide)⟩
    · exact (mem_parse_iff _ _).2 ⟨⟨⟨0,6⟩,_⟩,by decide +kernel,rfl⟩
    · exact (mem_parse_iff _ _).2 ⟨⟨⟨3,9⟩,_⟩,by decide +kernel,rfl⟩

end NoteIndex.Markup
