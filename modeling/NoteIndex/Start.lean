/-! Starts of lists. -/
namespace NoteIndex

/-- The remainder of a list after a given start. -/
def dropStart? {α : Type} [DecidableEq α] : List α → List α → Option (List α)
  | [], ys => some ys
  | _ :: _, [] => none
  | x :: xs, y :: ys => if x = y then dropStart? xs ys else none

/-- The non-empty starts of a list, from short to long. -/
def starts {α : Type} : List α → List (List α)
  | [] => []
  | x :: rest => [x] :: (starts rest).map (x :: ·)

theorem dropStart?_eq_some_iff {α : Type} [DecidableEq α] (xs ys zs : List α) :
    dropStart? xs ys = some zs ↔ ys = xs ++ zs := by
  induction xs generalizing ys with
  | nil => simp [dropStart?, eq_comm]
  | cons x xs ih =>
    cases ys with
    | nil => simp [dropStart?]
    | cons y ys => by_cases h : x = y <;> simp [dropStart?, h, ih, eq_comm]

theorem mem_starts_iff {α : Type} (xs ys : List α) :
    ys ∈ starts xs ↔ ys ≠ [] ∧ ys <+: xs := by
  induction xs generalizing ys with
  | nil => simp [starts]
  | cons x xs ih =>
    cases ys with
    | nil => simp [starts]
    | cons y ys =>
      by_cases h : ys = []
      · simp [starts, h, ih, eq_comm]
      · simp only [starts, List.mem_cons, List.cons.injEq, h, and_false, false_or, List.mem_map,
          ih, List.cons_prefix_cons, ne_eq, reduceCtorEq, not_false_eq_true, true_and]
        constructor
        · rintro ⟨zs, ⟨_, hzs⟩, rfl, rfl⟩
          exact ⟨rfl, hzs⟩
        · rintro ⟨rfl, hys⟩
          exact ⟨ys, ⟨h, hys⟩, rfl, rfl⟩

end NoteIndex
