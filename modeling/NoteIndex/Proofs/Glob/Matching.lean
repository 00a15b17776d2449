import Mathlib.Tactic.Common
import NoteIndex.Glob.Basic

/-! What the tokens of a glob match, one after the other. Leading directories end with a slash, and what
is below a directory comes after one. -/
namespace NoteIndex.Glob

open Text

namespace ByteSet

@[simp] lemma has_every (b : UInt8) : every.has b = true := rfl

@[simp] lemma has_single (a b : UInt8) : (single a).has b = true ↔ b = a := by
  have hsame : (single a).has b = (decide (a ≤ b) && decide (b ≤ a)) := by simp [has,single]
  rw [hsame,Bool.and_eq_true,decide_eq_true_eq,decide_eq_true_eq]
  constructor
  · rintro ⟨hab,hba⟩
    exact UInt8.le_antisymm hba hab
  · rintro rfl
    exact ⟨UInt8.le_refl b,UInt8.le_refl b⟩

end ByteSet

namespace Shape

lemma matches_single (a : UInt8) (w : List UInt8) : (byte (.single a)).Matches w ↔ w = [a] := by
  simp only [Matches,ByteSet.has_single]
  constructor
  · rintro ⟨b,rfl,rfl⟩
    rfl
  · intro hw
    exact ⟨a,hw,rfl⟩

lemma matches_every (w : List UInt8) : (many .every).Matches w := by
  simp [Matches]

lemma matches_sequence_cons (shape : Shape) (rest : List Shape) (w : List UInt8) :
    (sequence (shape :: rest)).Matches w ↔
      ∃ u v, w = u ++ v ∧ shape.Matches u ∧ (sequence rest).Matches v := by
  cases rest with
  | nil =>
    simp only [sequence,Matches]
    constructor
    · intro h
      exact ⟨w,[],by simp,h,rfl⟩
    · rintro ⟨u,v,rfl,h,rfl⟩
      simpa using h
  | cons second rest => rfl

lemma matches_sequence_append (front back : List Shape) (w : List UInt8) :
    (sequence (front ++ back)).Matches w ↔
      ∃ u v, w = u ++ v ∧ (sequence front).Matches u ∧ (sequence back).Matches v := by
  induction front generalizing w with
  | nil =>
    simp only [List.nil_append,sequence,Matches]
    constructor
    · intro h
      exact ⟨[],w,rfl,rfl,h⟩
    · rintro ⟨u,v,rfl,rfl,h⟩
      exact h
  | cons shape front ih =>
    simp only [List.cons_append,matches_sequence_cons,ih]
    constructor
    · rintro ⟨u,v,rfl,hu,v₁,v₂,rfl,h₁,h₂⟩
      exact ⟨u ++ v₁,v₂,by simp,⟨u,v₁,rfl,hu,h₁⟩,h₂⟩
    · rintro ⟨u,v,rfl,⟨u₁,u₂,rfl,h₁,h₂⟩,hv⟩
      exact ⟨u₁,u₂ ++ v,by simp,h₁,u₂,v,rfl,h₂,hv⟩

/-- Bytes that stand for themselves. -/
lemma matches_sequence_bytes (bytes w : List UInt8) :
    (sequence (bytes.map fun b => byte (.single b))).Matches w ↔ w = bytes := by
  induction bytes generalizing w with
  | nil => rfl
  | cons b bytes ih =>
    simp only [List.map_cons,matches_sequence_cons,matches_single,ih]
    constructor
    · rintro ⟨u,v,rfl,rfl,rfl⟩
      rfl
    · rintro rfl
      exact ⟨[b],bytes,rfl,rfl,rfl⟩

end Shape

/-- The texts that tokens match one after the other. -/
def Spells (tokens : List Token) (w : List UInt8) : Prop :=
  (Shape.sequence (tokenShapes tokens)).Matches w

lemma tokenShapes_append (front back : List Token) :
    tokenShapes (front ++ back) = tokenShapes front ++ tokenShapes back := by
  induction front with
  | nil => rfl
  | cons token front ih => simp [tokenShapes,ih]

lemma spells_append (front back : List Token) (w : List UInt8) :
    Spells (front ++ back) w ↔ ∃ u v, w = u ++ v ∧ Spells front u ∧ Spells back v := by
  rw [Spells,tokenShapes_append,Shape.matches_sequence_append]
  rfl

lemma spells_literals (text : List Char) (w : List UInt8) :
    Spells (text.map .literal) w ↔ w = encodeUtf8 text := by
  induction text generalizing w with
  | nil => rfl
  | cons c text ih =>
    have hchar : ∀ u, Spells [.literal c] u ↔ u = encodeChar c := Shape.matches_sequence_bytes _
    rw [List.map_cons,← List.singleton_append,spells_append]
    simp only [hchar,ih,encodeUtf8,List.flatMap_cons]
    constructor
    · rintro ⟨u,v,rfl,rfl,rfl⟩
      rfl
    · rintro rfl
      exact ⟨_,_,rfl,rfl,rfl⟩

lemma matches_throughSlash (w : List UInt8) :
    throughSlash.Matches w ↔ ∃ front, w = front ++ [0x2F] := by
  constructor
  · rintro ⟨u,v,rfl,-,hv⟩
    exact ⟨u,by rw [(Shape.matches_single _ _).1 hv]⟩
  · rintro ⟨front,rfl⟩
    exact ⟨front,[0x2F],rfl,Shape.matches_every front,(Shape.matches_single _ _).2 rfl⟩

/-- Leading directories are none, or end with a slash. -/
lemma spells_leading (w : List UInt8) :
    Spells [.leading] w ↔ w = [] ∨ ∃ front, w = front ++ [0x2F] := by
  simp only [Spells,tokenShapes,Token.shape?,Option.toList_some,List.append_nil,Shape.sequence,
    Shape.Matches,matches_throughSlash]
  constructor
  · rintro ((hslash | hnone) | hfront)
    · exact .inr ⟨[],(Shape.matches_single _ _).1 hslash⟩
    · exact .inl hnone
    · exact .inr hfront
  · rintro (hnone | hfront)
    · exact .inl (.inr hnone)
    · exact .inr hfront

/-- What is below a directory comes after a slash. -/
lemma spells_trailing (w : List UInt8) : Spells [.trailing] w ↔ ∃ rest, w = 0x2F :: rest := by
  simp only [Spells,tokenShapes,Token.shape?,Option.toList_some,List.append_nil,Shape.sequence]
  constructor
  · rintro ⟨u,v,rfl,hu,-⟩
    exact ⟨v,by rw [(Shape.matches_single _ _).1 hu]; rfl⟩
  · rintro ⟨rest,rfl⟩
    exact ⟨[0x2F],rest,rfl,(Shape.matches_single _ _).2 rfl,Shape.matches_every rest⟩

lemma shapeOf_of_ne {tokens : List Token} (h : tokens ≠ [.leading]) :
    shapeOf tokens = .sequence (tokenShapes tokens) := by
  unfold shapeOf
  split
  · exact absurd rfl h
  · rfl

/-- Leading directories alone match more than they spell. -/
lemma matches_of_spells {tokens : List Token} {w : List UInt8} (h : Spells tokens w) :
    (shapeOf tokens).Matches w := by
  by_cases hleading : tokens = [.leading]
  · subst hleading
    exact Shape.matches_every w
  · rwa [shapeOf_of_ne hleading]

/-- Whether the empty text is matched does not depend on what leading directories alone stand for. -/
lemma spells_nil_iff (tokens : List Token) :
    Spells tokens [] ↔ (shapeOf tokens).Matches [] := by
  constructor
  · exact matches_of_spells
  · intro h
    by_cases hleading : tokens = [.leading]
    · rw [hleading,spells_leading]
      exact .inl rfl
    · rwa [shapeOf_of_ne hleading] at h

/-- A glob for everything below a directory matches what has a slash after a text for the directory. -/
theorem matches_trailing_iff (tokens : List Token) (w : List UInt8) :
    (shapeOf (tokens ++ [.trailing])).Matches w ↔ ∃ u v, w = u ++ 0x2F :: v ∧ Spells tokens u := by
  have hne : tokens ++ [.trailing] ≠ [.leading] := by
    intro h
    have hlast := congrArg List.getLast? h
    simp at hlast
  rw [shapeOf_of_ne hne]
  change Spells _ w ↔ _
  simp only [spells_append,spells_trailing]
  constructor
  · rintro ⟨u,v,rfl,hu,rest,rfl⟩
    exact ⟨u,rest,rfl,hu⟩
  · rintro ⟨u,v,rfl,hu⟩
    exact ⟨u,_,rfl,hu,v,rfl⟩

/-- A name in any directory is what a text ends with after its last slash. -/
theorem matches_anywhere_iff {name : List Char} (hne : name ≠ []) (w : List UInt8) :
    (shapeOf (.leading :: name.map .literal)).Matches w ↔
      w = encodeUtf8 name ∨ ∃ front, w = front ++ 0x2F :: encodeUtf8 name := by
  rw [shapeOf_of_ne (by simpa using hne)]
  change Spells _ w ↔ _
  rw [← List.singleton_append,spells_append]
  simp only [spells_leading,spells_literals]
  constructor
  · rintro ⟨u,v,rfl,rfl | ⟨front,rfl⟩,rfl⟩
    · exact .inl rfl
    · exact .inr ⟨front,by simp⟩
  · rintro (rfl | ⟨front,rfl⟩)
    · exact ⟨[],_,rfl,.inl rfl,rfl⟩
    · exact ⟨front ++ [0x2F],_,by simp,.inr ⟨front,rfl⟩,rfl⟩

end NoteIndex.Glob
