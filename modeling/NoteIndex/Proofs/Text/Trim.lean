import Mathlib.Data.List.DropRight
import Mathlib.Data.List.TakeWhile
import NoteIndex.Text.Blank

/-! Ends of texts: what is left of a text without a run of characters at its end, or without white space
at both ends, said by how the text is put together. -/
namespace NoteIndex.Text

/-- `kept` is left of a text when the longest run of some characters is taken off its end. -/
structure Stripped (p : Char → Bool) (cs kept : List Char) : Prop where
  split : ∃ tail, cs = kept ++ tail ∧ ∀ c ∈ tail, p c = true
  last : ∀ c, kept.getLast? = some c → p c = false

lemma dropWhile_of_head? {p : Char → Bool} {cs : List Char}
    (h : ∀ c, cs.head? = some c → p c = false) : cs.dropWhile p = cs := by
  cases cs with
  | nil => rfl
  | cons c rest => simp [h c rfl]

lemma dropEndWhile_eq_iff {p : Char → Bool} {cs kept : List Char} :
    dropEndWhile p cs = kept ↔ Stripped p cs kept := by
  constructor
  · intro h
    constructor
    · refine ⟨cs.rtakeWhile p,?_,fun c hc => List.mem_rtakeWhile_imp hc⟩
      rw [← h]
      exact List.rdropWhile_append_rtakeWhile.symm
    · intro c hc
      have hlast := List.head?_dropWhile_not p cs.reverse
      rw [← h,dropEndWhile,List.getLast?_reverse] at hc
      simpa [hc] using hlast
  · intro h
    obtain ⟨tail,rfl,htail⟩ := h.split
    have hkept : kept.reverse.dropWhile p = kept.reverse := by
      apply dropWhile_of_head?
      intro c hc
      rw [List.head?_reverse] at hc
      exact h.last c hc
    rw [dropEndWhile,List.reverse_append,
      List.dropWhile_append_of_pos (fun c hc => htail c (List.mem_reverse.1 hc)),hkept,
      List.reverse_reverse]

/-- What is left of a text without white space at both ends, if anything is left. -/
def Trimmed (cs : List Char) : Option (List Char) → Prop
  | none => ∀ c ∈ cs, isBlank c = true
  | some core => core ≠ [] ∧
      (∃ lead tail, cs = lead ++ core ++ tail ∧ (∀ c ∈ lead, isBlank c = true) ∧
        ∀ c ∈ tail, isBlank c = true) ∧
      (∀ c, core.head? = some c → isBlank c = false) ∧
      ∀ c, core.getLast? = some c → isBlank c = false

lemma trim_eq_nil_iff {cs : List Char} : trim cs = [] ↔ ∀ c ∈ cs, isBlank c = true := by
  constructor
  · intro h
    have hall : ∀ c ∈ cs.dropWhile isBlank, isBlank c = true := List.rdropWhile_eq_nil_iff.1 h
    apply List.dropWhile_eq_nil_iff.1
    cases hdrop : cs.dropWhile isBlank with
    | nil => rfl
    | cons c rest =>
      have hhead := List.head?_dropWhile_not isBlank cs
      rw [hdrop] at hall hhead
      simp [hall c List.mem_cons_self] at hhead
  · intro h
    rw [trim,List.dropWhile_eq_nil_iff.2 h]
    rfl

lemma trim_eq_iff {cs core : List Char} (hcore : core ≠ []) :
    trim cs = core ↔ Trimmed cs (some core) := by
  constructor
  · intro h
    obtain ⟨⟨tail,hsplit,htail⟩,hlast⟩ := dropEndWhile_eq_iff.1 h
    refine ⟨hcore,⟨cs.takeWhile isBlank,tail,?_,fun c hc => List.mem_takeWhile_imp hc,htail⟩,?_,hlast⟩
    · rw [List.append_assoc,← hsplit,List.takeWhile_append_dropWhile]
    · intro c hc
      have hhead := List.head?_dropWhile_not isBlank cs
      rw [hsplit,List.head?_append_of_ne_nil _ hcore,hc] at hhead
      simpa using hhead
  · rintro ⟨-,⟨lead,tail,rfl,hlead,htail⟩,hhead,hlast⟩
    have hdrop : (core ++ tail).dropWhile isBlank = core ++ tail := by
      apply dropWhile_of_head?
      intro c hc
      rw [List.head?_append_of_ne_nil _ hcore] at hc
      exact hhead c hc
    rw [trim,List.append_assoc,List.dropWhile_append_of_pos hlead,hdrop]
    exact dropEndWhile_eq_iff.2 ⟨⟨tail,rfl,htail⟩,hlast⟩

/-- Trimming takes white space off both ends, and nothing else. -/
lemma exists_trim_split (cs : List Char) : ∃ lead tail, cs = lead ++ trim cs ++ tail ∧
    (∀ c ∈ lead, isBlank c = true) ∧ ∀ c ∈ tail, isBlank c = true := by
  by_cases hcore : trim cs = []
  · exact ⟨cs,[],by simp [hcore],trim_eq_nil_iff.1 hcore,by simp⟩
  · obtain ⟨-,hsplit,-⟩ := (trim_eq_iff hcore).1 rfl
    exact hsplit

lemma trimmed?_eq_iff {cs : List Char} {part : Option (List Char)} :
    trimmed? cs = part ↔ Trimmed cs part := by
  cases part with
  | none =>
    rw [Trimmed,← trim_eq_nil_iff,trimmed?]
    cases trim cs <;> simp
  | some core =>
    constructor
    · intro h
      rw [trimmed?] at h
      cases htrim : trim cs with
      | nil => simp [htrim] at h
      | cons c rest =>
        rw [htrim] at h
        obtain rfl : c :: rest = core := by simpa using h
        exact (trim_eq_iff (by simp)).1 htrim
    · intro h
      rw [trimmed?,(trim_eq_iff h.1).2 h]
      cases core with
      | nil => exact absurd rfl h.1
      | cons c rest => rfl

end NoteIndex.Text
