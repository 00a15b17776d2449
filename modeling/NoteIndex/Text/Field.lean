/-! Stretches of a text, or of bytes, between separators. -/
namespace NoteIndex.Text

variable {α : Type}

/-- The stretches between separators, in order and empty ones included. -/
def fields (isSeparator : α → Bool) : List α → List (List α)
  | [] => [[]]
  | c :: cs =>
    if isSeparator c then [] :: fields isSeparator cs
    else
      match fields isSeparator cs with
      | [] => [[c]]
      | first :: rest => (c :: first) :: rest

/-- The non-empty stretches between separators, in order. -/
def wordsBy (isSeparator : α → Bool) (cs : List α) : List (List α) :=
  (fields isSeparator cs).filter (!·.isEmpty)

/-- Removes the longest suffix of elements that satisfy `p`. -/
def dropEndWhile (p : α → Bool) (cs : List α) : List α :=
  (cs.reverse.dropWhile p).reverse

theorem fields_ne_nil (isSeparator : α → Bool) (cs : List α) :
    fields isSeparator cs ≠ [] := by
  cases cs with
  | nil => simp [fields]
  | cons c cs =>
    unfold fields
    split
    · simp
    · split <;> simp

/-- A text is cut at each of its separators. -/
theorem fields_append_separator {isSeparator : α → Bool} {c : α} (hc : isSeparator c = true)
    (xs ys : List α) :
    fields isSeparator (xs ++ c :: ys) = fields isSeparator xs ++ fields isSeparator ys := by
  induction xs with
  | nil => simp [fields, hc]
  | cons x xs ih =>
    rw [List.cons_append, fields, fields, ih]
    by_cases hx : isSeparator x = true
    · simp [hx]
    · cases h : fields isSeparator xs with
      | nil => exact absurd h (fields_ne_nil isSeparator xs)
      | cons first rest => simp [hx]

/-- What has no separator goes to the first field. -/
theorem fields_append_left {isSeparator : α → Bool} {xs : List α}
    (h : ∀ x ∈ xs, isSeparator x = false) (ys : List α) : ∃ first rest,
    fields isSeparator ys = first :: rest ∧ fields isSeparator (xs ++ ys) = (xs ++ first) :: rest := by
  obtain ⟨first, rest, hys⟩ := List.exists_cons_of_ne_nil (fields_ne_nil isSeparator ys)
  refine ⟨first, rest, hys, ?_⟩
  induction xs with
  | nil => exact hys
  | cons x xs ih =>
    obtain ⟨hx, hxs⟩ := List.forall_mem_cons.1 h
    rw [List.cons_append, fields, ih hxs]
    simp [hx]

/-- A text without separators is one field. -/
theorem fields_eq_singleton {isSeparator : α → Bool} {cs : List α}
    (h : ∀ c ∈ cs, isSeparator c = false) : fields isSeparator cs = [cs] := by
  induction cs with
  | nil => rfl
  | cons c cs ih =>
    have hc := h c List.mem_cons_self
    have hcs := ih fun x hx => h x (List.mem_cons_of_mem c hx)
    simp [fields, hc, hcs]

/-- No field holds a separator. -/
theorem isSeparator_eq_false_of_mem_fields {isSeparator : α → Bool} {cs field : List α}
    (h : field ∈ fields isSeparator cs) : ∀ c ∈ field, isSeparator c = false := by
  induction cs generalizing field with
  | nil => simp_all [fields]
  | cons x cs ih =>
    rw [fields] at h
    split at h
    · rcases List.mem_cons.1 h with rfl | h
      · simp
      · exact ih h
    · rename_i hx
      cases hf : fields isSeparator cs with
      | nil => exact absurd hf (fields_ne_nil isSeparator cs)
      | cons first rest =>
        rw [hf] at h ih
        rcases List.mem_cons.1 h with rfl | h
        · intro c hc
          rcases List.mem_cons.1 hc with rfl | hc
          · simpa using hx
          · exact ih List.mem_cons_self c hc
        · exact ih (List.mem_cons_of_mem first h)

theorem wordsBy_append_separator {isSeparator : α → Bool} {c : α} (hc : isSeparator c = true)
    (xs ys : List α) :
    wordsBy isSeparator (xs ++ c :: ys) = wordsBy isSeparator xs ++ wordsBy isSeparator ys := by
  rw [wordsBy, fields_append_separator hc, List.filter_append, wordsBy, wordsBy]

example : fields (· == '/') "/a//b".toList = [[], ['a'], [], ['b']] := by decide

end NoteIndex.Text
