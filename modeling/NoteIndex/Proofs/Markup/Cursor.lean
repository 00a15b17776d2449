import Mathlib.Data.Prod.Lex
import NoteIndex.Proofs.Markup.Order

/-! The element under a cursor: elements start one after the other, so none of those whose ranges hold a
position lies in the last of them. -/
namespace NoteIndex.Text

/-- Line and column of a position. Places are compared by line, then by column. -/
def Position.place (p : Position) : ℕ ×ₗ ℕ := toLex (p.line.toNat,p.character.toNat)

lemma Position.le_iff_place (p q : Position) : p ≤ q ↔ p.place ≤ q.place := by
  rw [Position.le_iff,place,place,Prod.Lex.toLex_le_toLex]
  simp [UInt32.lt_iff_toNat_lt,UInt32.le_iff_toNat_le,← UInt32.toNat_inj]

lemma Position.lt_iff_place (p q : Position) : p < q ↔ p.place < q.place := by
  rw [Position.lt_iff,place,place,Prod.Lex.toLex_lt_toLex]
  simp [UInt32.lt_iff_toNat_lt,← UInt32.toNat_inj]

/-- A position lies in a range, both ends included. -/
def Range.Holds (range : Range) (p : Position) : Prop :=
  range.start.place ≤ p.place ∧ p.place ≤ range.stop.place

/-- One range lies in another one. -/
def Range.Within (inner outer : Range) : Prop :=
  outer.start.place ≤ inner.start.place ∧ inner.stop.place ≤ outer.stop.place

lemma Range.includes_iff (range : Range) (p : Position) :
    range.includes p = true ↔ range.Holds p := by
  simp [Range.includes,Range.Holds,Position.le_iff_place]

end NoteIndex.Text

namespace NoteIndex.Markup

open Text

/-- The last of the entries that pass a test: none behind it passes. -/
lemma exists_of_getLast?_filter {α : Type} {test : α → Bool} {xs : List α} {x : α}
    (h : (xs.filter test).getLast? = some x) :
    ∃ front back, xs = front ++ x :: back ∧ test x = true ∧ ∀ y ∈ back, test y = false := by
  obtain ⟨passed,hpassed⟩ := List.getLast?_eq_some_iff.1 h
  obtain ⟨first,second,rfl,-,hsecond⟩ := List.filter_eq_append_iff.1 hpassed
  obtain ⟨skipped,back,rfl,-,htest,hback⟩ := List.filter_eq_cons_iff.1 hsecond
  refine ⟨first ++ skipped,back,by simp,htest,?_⟩
  simpa using hback

lemma elementAt?_eq_none_iff {p : Position} {elements : List Element} :
    elementAt? p elements = none ↔ ∀ e ∈ elements, ¬e.range.Holds p := by
  simp [elementAt?,← Range.includes_iff]

/-- In a text of less than four gigabytes, there is no element at a position if and only if no element's
range holds the position. Otherwise the element at the position is one whose range holds it, and none of
the others whose ranges hold it has its range in the range of that one. -/
theorem elementAt?_innermost {text : String} (hsize : text.utf8ByteSize < UInt32.size) (p : Position) :
    (elementAt? p (parse text) = none ↔ ∀ e ∈ parse text, ¬e.range.Holds p) ∧
    ∀ e, elementAt? p (parse text) = some e → e.range.Holds p ∧
      ∃ front back, parse text = front ++ e :: back ∧
        ∀ other ∈ front ++ back, other.range.Holds p → ¬other.range.Within e.range := by
  refine ⟨elementAt?_eq_none_iff,?_⟩
  intro e he
  obtain ⟨front,back,hsplit,hholds,hback⟩ := exists_of_getLast?_filter he
  refine ⟨(Range.includes_iff _ _).1 hholds,front,back,hsplit,?_⟩
  have hstarts := pairwise_parse hsize
  rw [hsplit,List.pairwise_append] at hstarts
  intro other hother hin hwithin
  rcases List.mem_append.1 hother with hfront | hlater
  · have hbefore := hstarts.2.2 other hfront e List.mem_cons_self
    rw [Position.lt_iff_place] at hbefore
    exact absurd hwithin.1 (not_le_of_gt hbefore)
  · rw [← Range.includes_iff,hback other hlater] at hin
    cases hin

/-- Where two links touch, in a heading that holds both, the second one is at the cursor. -/
theorem elementAt?_innermost_touching : ∃ text e,
    text.utf8ByteSize < UInt32.size ∧
    ((parse text).filter fun e => e.range.includes ⟨0,7⟩).length = 3 ∧
    elementAt? ⟨0,7⟩ (parse text) = some e ∧ e.range = ⟨⟨0,7⟩,⟨0,13⟩⟩ ∧ e.range.Holds ⟨0,7⟩ ∧
    ∃ front back, parse text = front ++ e :: back ∧
      ∀ other ∈ front ++ back, other.range.Holds ⟨0,7⟩ → ¬other.range.Within e.range := by
  have hsize : "# [[a]][b](c)".utf8ByteSize < UInt32.size := by decide +kernel
  have hparse : parse "# [[a]][b](c)" = (foundElements "# [[a]][b](c)".toList).map Found.value :=
    parse_of_pairwise (by decide +kernel)
  have helement : elementAt? ⟨0,7⟩ (parse "# [[a]][b](c)") =
      some (.inlineLink ⟨"b",some "c",none,⟨0,7⟩,⟨0,13⟩⟩) := by
    rw [hparse]
    decide +kernel
  refine ⟨_,_,hsize,?_,helement,rfl,(elementAt?_innermost hsize _).2 _ helement⟩
  rw [hparse]
  decide +kernel

end NoteIndex.Markup
