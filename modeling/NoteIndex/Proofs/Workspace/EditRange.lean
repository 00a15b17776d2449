import NoteIndex.Proofs.Markup.Cursor
import NoteIndex.Proofs.Markup.Extent
import NoteIndex.Proofs.Text.Clamp

/-! Ranges of edits: whatever positions an edit comes with, it replaces a span of the text, and no return
is parted from its line feed. -/
namespace NoteIndex.Markup

open Text

/-- Every return with its line feed is before a span, in it or behind it. -/
def KeepsBreaks (text : List Char) (span : Span) : Prop :=
  ∀ before after, text = before ++ '\r' :: '\n' :: after →
    before.length+2 ≤ span.start ∨
    span.start ≤ before.length ∧ before.length+2 ≤ span.stop ∨
    span.stop ≤ before.length

lemma Whole.keepsBreaks {text : List Char} {span : Span} (h : Whole text span) :
    KeepsBreaks text span := by
  intro before after hbreak
  have hinside : InsideBreak text (before.length+1) := by
    rw [hbreak]
    exact insideBreak_append before after
  have hstart : span.start ≠ before.length+1 := by
    intro heq
    exact h.start (heq ▸ hinside)
  have hstop : span.stop ≠ before.length+1 := by
    intro heq
    exact h.stop (heq ▸ hinside)
  have hordered := h.ordered
  omega

end NoteIndex.Markup

namespace NoteIndex.Edit

open Text Markup

/-- The span between the places that the ends of a range lead to. A range that ends before its start is
empty. -/
def spanOfRange (text : List Char) (range : Range) : Span :=
  ⟨charOfPosition text range.start,
    if range.start ≤ range.stop then charOfPosition text range.stop
    else charOfPosition text range.start⟩

section Span

variable (text : List Char) (range : Range)

/-- The later one of the two places is the one of the later position. -/
lemma max_charOfPosition : max (charOfPosition text range.stop) (charOfPosition text range.start) =
    (spanOfRange text range).stop := by
  rw [spanOfRange]
  split
  · rename_i hle
    exact Nat.max_eq_left (charOfPosition_mono text hle)
  · rename_i hreversed
    have hle : range.stop ≤ range.start := by
      rw [Position.le_iff_place] at hreversed ⊢
      exact le_of_not_ge hreversed
    exact Nat.max_eq_right (charOfPosition_mono text hle)

lemma exists_stop_spanOfRange : ∃ p, (spanOfRange text range).stop = charOfPosition text p := by
  rw [spanOfRange]
  split
  · exact ⟨range.stop,rfl⟩
  · exact ⟨range.start,rfl⟩

lemma whole_spanOfRange : Whole text (spanOfRange text range) := by
  obtain ⟨p,hstop⟩ := exists_stop_spanOfRange text range
  constructor
  · rw [← max_charOfPosition]
    exact Nat.le_max_right _ _
  · rw [hstop]
    exact charOfPosition_le_length text p
  · exact not_insideBreak_charOfPosition text range.start
  · rw [hstop]
    exact not_insideBreak_charOfPosition text p

end Span

lemma toList_apply {edit : Edit} {range : Range} (h : edit.range = some range) (text : String) :
    (edit.apply text).toList = splice text.toList (spanOfRange text.toList range).start
      (spanOfRange text.toList range).stop edit.text.toList := by
  simp only [apply,h,max_charOfPosition,String.toList_ofList]
  rfl

/-- Later positions lead to no earlier places. They lead to places of the text that are not between a
return and its line feed, and to every one of these that has a position. So an edit replaces a span of
the text that parts no return from its line feed, from where the range starts to where it ends, or
nothing at its start if the range ends before it starts. -/
theorem positions_monotone_safe (text : String) :
    (∀ p q : Position, p ≤ q → charOfPosition text.toList p ≤ charOfPosition text.toList q) ∧
    (∀ p : Position, charOfPosition text.toList p ≤ text.toList.length ∧
      ¬ InsideBreak text.toList (charOfPosition text.toList p)) ∧
    (∀ index ≤ text.toList.length, HasPosition text.toList index →
      ¬ InsideBreak text.toList index → ∃ p, charOfPosition text.toList p = index) ∧
    ∀ (edit : Edit) (range : Range), edit.range = some range →
      Whole text.toList (spanOfRange text.toList range) ∧
      KeepsBreaks text.toList (spanOfRange text.toList range) ∧
      (edit.apply text).toList = splice text.toList (spanOfRange text.toList range).start
        (spanOfRange text.toList range).stop edit.text.toList := by
  refine ⟨?_,?_,?_,?_⟩
  · intro p q hle
    exact charOfPosition_mono text.toList hle
  · intro p
    exact ⟨charOfPosition_le_length text.toList p,not_insideBreak_charOfPosition text.toList p⟩
  · intro index hindex hposition hinside
    exact ⟨positionOfChar text.toList index,
      charOfPosition_positionOfChar hindex hposition hinside⟩
  · intro edit range hrange
    have hwhole := whole_spanOfRange text.toList range
    exact ⟨hwhole,hwhole.keepsBreaks,toList_apply hrange text⟩

/-- From the middle of a character of two code units to a column past the end of its line. -/
theorem positions_monotone_safe_clamped : ∃ text : String, text = "a😀\r\nb" ∧
    (⟨0,2⟩ : Position) ≤ ⟨0,9⟩ ∧
    charOfPosition text.toList ⟨0,2⟩ ≤ charOfPosition text.toList ⟨0,9⟩ ∧
    (∃ p, charOfPosition text.toList p = 4) ∧
    Whole text.toList ⟨1,2⟩ ∧ KeepsBreaks text.toList ⟨1,2⟩ ∧
    (Edit.apply ⟨some ⟨⟨0,2⟩,⟨0,9⟩⟩,"é"⟩ text).toList = "aé\r\nb".toList := by
  obtain ⟨hmono,-,hreach,hedit⟩ := positions_monotone_safe "a😀\r\nb"
  have hle : (⟨0,2⟩ : Position) ≤ ⟨0,9⟩ := by decide
  have hspan : spanOfRange "a😀\r\nb".toList ⟨⟨0,2⟩,⟨0,9⟩⟩ = ⟨1,2⟩ := by decide
  obtain ⟨hwhole,hkeeps,hresult⟩ := hedit ⟨some ⟨⟨0,2⟩,⟨0,9⟩⟩,"é"⟩ ⟨⟨0,2⟩,⟨0,9⟩⟩ rfl
  rw [hspan] at hwhole hkeeps hresult
  refine ⟨_,rfl,hle,hmono _ _ hle,hreach 4 (by decide) (by decide) (by decide),hwhole,hkeeps,?_⟩
  rw [hresult]
  decide

end NoteIndex.Edit
