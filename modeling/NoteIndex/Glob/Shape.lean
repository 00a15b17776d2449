/-! Shapes of byte strings: sequences, choices and repeated bytes, with a matcher that keeps the
shapes which the rest of a string may still have. -/
namespace NoteIndex.Glob

/-- A set of bytes: those in one of the closed intervals, or those in none. -/
structure ByteSet where
  negated : Bool
  intervals : List (UInt8 × UInt8)
  deriving DecidableEq, Repr

def ByteSet.has (set : ByteSet) (b : UInt8) : Bool :=
  set.intervals.any (fun i => decide (i.1 ≤ b) && decide (b ≤ i.2)) != set.negated

def ByteSet.every : ByteSet := ⟨true, []⟩

/-- Every byte but a slash. -/
def ByteSet.noSlash : ByteSet := ⟨true, [(0x2F, 0x2F)]⟩

def ByteSet.single (b : UInt8) : ByteSet := ⟨false, [(b, b)]⟩

inductive Shape where
  /-- The empty string. -/
  | empty
  | byte (set : ByteSet)
  /-- Any number of bytes of a set. -/
  | many (set : ByteSet)
  | seq (first second : Shape)
  | either (left right : Shape)
  deriving DecidableEq, Repr

namespace Shape

/-- The byte strings of a shape. -/
def Matches : Shape → List UInt8 → Prop
  | empty, w => w = []
  | byte set, w => ∃ b, w = [b] ∧ set.has b = true
  | many set, w => ∀ b ∈ w, set.has b = true
  | seq first second, w => ∃ u v, w = u ++ v ∧ first.Matches u ∧ second.Matches v
  | either left right, w => left.Matches w ∨ right.Matches w

def nullable : Shape → Bool
  | empty => true
  | byte _ => false
  | many _ => true
  | seq first second => first.nullable && second.nullable
  | either left right => left.nullable || right.nullable

/-- A sequence, without an empty first part. -/
def followedBy (first second : Shape) : Shape :=
  match first with
  | empty => second
  | first => seq first second

/-- The shapes that the rest of a string may have after a byte. -/
def after (b : UInt8) : Shape → List Shape
  | empty => []
  | byte set => if set.has b then [empty] else []
  | many set => if set.has b then [many set] else []
  | seq first second =>
    (first.after b).map (·.followedBy second) ++ if first.nullable then second.after b else []
  | either left right => left.after b ++ right.after b

/-- Whether a string has one of the shapes. -/
def acceptsAny : List Shape → List UInt8 → Bool
  | shapes, [] => shapes.any nullable
  | shapes, b :: rest => acceptsAny (shapes.flatMap (after b)).eraseDups rest

/-- Whether a string has a shape. -/
def accepts (shape : Shape) (w : List UInt8) : Bool := acceptsAny [shape] w

/-- One shape after the other. -/
def sequence : List Shape → Shape
  | [] => empty
  | [shape] => shape
  | shape :: rest => seq shape (sequence rest)

/-- Any of one or more shapes. -/
def choice (first : Shape) : List Shape → Shape
  | [] => first
  | second :: rest => either first (choice second rest)

theorem matches_followedBy (first second : Shape) (w : List UInt8) :
    (first.followedBy second).Matches w ↔ (seq first second).Matches w := by
  cases first with
  | empty =>
    constructor
    · exact fun h => ⟨[], w, rfl, rfl, h⟩
    · rintro ⟨u, v, rfl, rfl, h⟩
      exact h
  | _ => rfl

theorem nullable_iff (shape : Shape) : shape.nullable = true ↔ shape.Matches [] := by
  induction shape with
  | empty => simp [nullable, Matches]
  | byte set => simp [nullable, Matches]
  | many set => simp [nullable, Matches]
  | seq first second ih₁ ih₂ =>
    simp only [nullable, Bool.and_eq_true, ih₁, ih₂, Matches]
    constructor
    · exact fun h => ⟨[], [], rfl, h⟩
    · rintro ⟨u, v, h, hu, hv⟩
      obtain ⟨rfl, rfl⟩ := List.append_eq_nil_iff.1 h.symm
      exact ⟨hu, hv⟩
  | either left right ih₁ ih₂ => simp [nullable, Matches, ih₁, ih₂]

theorem matches_cons_iff (shape : Shape) (b : UInt8) (w : List UInt8) :
    shape.Matches (b :: w) ↔ ∃ s ∈ shape.after b, s.Matches w := by
  induction shape generalizing w with
  | empty => simp [after, Matches]
  | byte set =>
    by_cases h : set.has b
    · simp only [after, h, if_true, List.mem_singleton, exists_eq_left, Matches]
      constructor
      · rintro ⟨c, hc, -⟩
        exact (List.cons.inj hc).2
      · rintro rfl
        exact ⟨b, rfl, h⟩
    · simp only [after, h, Matches]
      constructor
      · rintro ⟨c, hc, hb⟩
        exact absurd ((List.cons.inj hc).1 ▸ hb) h
      · simp
  | many set => by_cases h : set.has b <;> simp [after, Matches, h]
  | either left right ih₁ ih₂ =>
    simp only [Matches, ih₁, ih₂, after, List.mem_append]
    grind
  | seq first second ih₁ ih₂ =>
    simp only [after, List.mem_append, List.mem_map]
    constructor
    · rintro ⟨u, v, h, hu, hv⟩
      cases u with
      | nil =>
        have hn : first.nullable = true := (nullable_iff first).2 hu
        obtain ⟨s, hs, hw⟩ := (ih₂ w).1 (by rw [h]; exact hv)
        exact ⟨s, Or.inr (by simp [hn, hs]), hw⟩
      | cons c u =>
        simp only [List.cons_append, List.cons.injEq] at h
        obtain ⟨rfl, rfl⟩ := h
        obtain ⟨s, hs, hw⟩ := (ih₁ u).1 hu
        exact ⟨s.followedBy second, Or.inl ⟨s, hs, rfl⟩,
          (matches_followedBy s second _).2 ⟨u, v, rfl, hw, hv⟩⟩
    · rintro ⟨s, ⟨t, ht, rfl⟩ | hs, hw⟩
      · obtain ⟨u, v, rfl, hu, hv⟩ := (matches_followedBy t second w).1 hw
        exact ⟨b :: u, v, rfl, (ih₁ u).2 ⟨t, ht, hu⟩, hv⟩
      · by_cases hn : first.nullable
        · simp only [hn, if_true] at hs
          exact ⟨[], b :: w, rfl, (nullable_iff first).1 hn, (ih₂ w).2 ⟨s, hs, hw⟩⟩
        · simp [hn] at hs

theorem acceptsAny_iff (shapes : List Shape) (w : List UInt8) :
    acceptsAny shapes w = true ↔ ∃ s ∈ shapes, s.Matches w := by
  induction w generalizing shapes with
  | nil => simp [acceptsAny, nullable_iff]
  | cons b w ih =>
    simp only [acceptsAny, ih, List.mem_eraseDups, List.mem_flatMap, matches_cons_iff]
    grind

/-- The matcher decides what a shape describes. -/
theorem accepts_iff (shape : Shape) (w : List UInt8) :
    shape.accepts w = true ↔ shape.Matches w := by
  simp [accepts, acceptsAny_iff]

end Shape

end NoteIndex.Glob
