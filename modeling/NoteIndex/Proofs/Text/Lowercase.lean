import Mathlib.Tactic.Common
import NoteIndex.Text.Lowercase

/-! Endings in any letter case. The lowercase form of a text depends on tables and on the place of
each sigma, but whether it ends with `.md` can be read off the last three characters. -/
namespace NoteIndex.Text

/-- A lowercase form is the code point itself or comes from a run. -/
lemma lowercasePoint_cases (runs : List CaseRun) (n : Nat) :
    lowercasePoint runs n = n ∨ ∃ run ∈ runs, run.first ≤ n ∧ n ≤ run.last ∧
      (n - run.first) % run.step = 0 ∧ lowercasePoint runs n = run.image + (n - run.first) := by
  induction runs with
  | nil => exact .inl rfl
  | cons run rest ih =>
    rw [lowercasePoint]
    split
    · exact .inl rfl
    · split
      · rename_i hfirst hlast
        simp only [Bool.and_eq_true,decide_eq_true_eq,beq_iff_eq] at hlast
        exact .inr ⟨run,List.mem_cons_self,by omega,hlast.1,hlast.2,rfl⟩
      · rcases ih with hsame | ⟨found,hfound,hrun⟩
        · exact .inl hsame
        · exact .inr ⟨found,List.mem_cons_of_mem run hfound,hrun⟩

/-- Above ASCII, no run of lowercase forms reaches a character of the ending. -/
lemma image_avoids_ending : ∀ run ∈ lowercaseRuns, 128 ≤ run.last →
    ∀ n ∈ ".md".toList.map Char.toNat,
      n < run.image ∨ run.image + (run.last - run.first) < n := by
  decide +kernel

lemma lowercasePoint_of_ascii : ∀ n < 128,
    Char.ofNat (lowercasePoint lowercaseRuns n) = (Char.ofNat n).toLower := by
  decide +kernel

lemma ascii_of_mem_ending : ∀ y ∈ ".md".toList, y ≠ '\x00' ∧ y.toNat < 128 := by
  simp

lemma lowercasePoint_ne {n : Nat} (hn : 128 ≤ n) {y : Char} (hy : y ∈ ".md".toList) :
    lowercasePoint lowercaseRuns n ≠ y.toNat := by
  rcases lowercasePoint_cases lowercaseRuns n with hsame | ⟨run,hrun,hfirst,hlast,-,himage⟩
  · have := (ascii_of_mem_ending y hy).2
    omega
  · have := image_avoids_ending run hrun (by omega) y.toNat (List.mem_map_of_mem hy)
    omega

lemma toNat_ofNat {n : Nat} (h : n.isValidChar) : (Char.ofNat n).toNat = n := by
  have hof : Char.ofNat n = Char.ofNatAux n h := dif_pos h
  rw [hof]
  rfl

lemma toNat_of_ofNat_eq {n : Nat} {y : Char} (h : Char.ofNat n = y) (hy : y ≠ '\x00') :
    n = y.toNat := by
  by_cases hvalid : n.isValidChar
  · rw [← h,toNat_ofNat hvalid]
  · exact absurd (h.symm.trans (dif_neg hvalid)) hy

lemma toLower_of_not_ascii {c : Char} (h : 128 ≤ c.toNat) : c.toLower = c := by
  unfold Char.toLower
  split
  · rename_i hupper
    have hz : c.toNat ≤ 90 := hupper.2
    omega
  · rfl

/-- Only ASCII letters have a character of the ending as their lowercase form. -/
lemma ofNat_lowercasePoint_eq_iff (c : Char) {y : Char} (hy : y ∈ ".md".toList) :
    Char.ofNat (lowercasePoint lowercaseRuns c.toNat) = y ↔ c.toLower = y := by
  obtain ⟨hzero,hsmall⟩ := ascii_of_mem_ending y hy
  by_cases hc : c.toNat < 128
  · rw [lowercasePoint_of_ascii _ hc,Char.ofNat_toNat]
  · constructor
    · intro h
      exact absurd (toNat_of_ofNat_eq h hzero) (lowercasePoint_ne (by omega) hy)
    · rw [toLower_of_not_ascii (by omega)]
      rintro rfl
      omega

lemma lowercaseAfter_dotted (before rest : List Char) : lowercaseAfter before ('İ' :: rest) =
    'i' :: '\u0307' :: lowercaseAfter ('İ' :: before) rest := by
  simp [lowercaseAfter,lowercaseChar]

/-- Every other character has a lowercase form of one character. As far as the ending goes, it
agrees with the ASCII form. -/
lemma exists_lowercaseAfter_cons (before : List Char) {c : Char} (hc : c ≠ 'İ') (rest : List Char) :
    ∃ head, lowercaseAfter before (c :: rest) = head :: lowercaseAfter (c :: before) rest ∧
      ∀ y ∈ ".md".toList, y = head ↔ y = c.toLower := by
  by_cases hsigma : c = 'Σ'
  · subst hsigma
    refine ⟨if sigmaIsFinal before rest then 'ς' else 'σ',by simp [lowercaseAfter],?_⟩
    cases sigmaIsFinal before rest <;> simp
  · refine ⟨Char.ofNat (lowercasePoint lowercaseRuns c.toNat),
      by simp [lowercaseAfter,lowercaseChar,hsigma,hc],?_⟩
    intro y hy
    rw [@eq_comm _ y,@eq_comm _ y]
    exact ofNat_lowercasePoint_eq_iff c hy

lemma eq_lowercaseAfter_iff {ending : List Char} (h : ∀ y ∈ ending, y ∈ ".md".toList)
    (before cs : List Char) :
    ending = lowercaseAfter before cs ↔ ending = cs.map Char.toLower := by
  induction cs generalizing before ending with
  | nil => rfl
  | cons c rest ih =>
    cases ending with
    | nil =>
      by_cases hc : c = 'İ'
      · simp [hc,lowercaseAfter_dotted]
      · obtain ⟨head,hcons,-⟩ := exists_lowercaseAfter_cons before hc rest
        simp [hcons]
    | cons y ending =>
      obtain ⟨hy,hending⟩ := List.forall_mem_cons.1 h
      by_cases hc : c = 'İ'
      · have hne : ∀ z ∈ ".md".toList, z ≠ 'i' ∧ z ≠ 'İ' := by simp
        obtain ⟨hi,hdotted⟩ := hne y hy
        simp [hc,lowercaseAfter_dotted,hi,hdotted]
      · obtain ⟨head,hcons,hhead⟩ := exists_lowercaseAfter_cons before hc rest
        rw [hcons,List.map_cons,List.cons.injEq,List.cons.injEq,hhead y hy,ih hending]

lemma suffix_lowercase_iff (cs : List Char) :
    ".md".toList <:+ lowercase cs ↔ ".md".toList <:+ cs.map Char.toLower := by
  unfold lowercase
  generalize ([] : List Char) = before
  induction cs generalizing before with
  | nil => rfl
  | cons c rest ih =>
    -- The ending is all that there is, or the rest of the text has it.
    have hwhole := eq_lowercaseAfter_iff (fun _ hy => hy) before (c :: rest)
    rw [List.map_cons,List.suffix_cons_iff,← List.map_cons,← hwhole,← ih (c :: before)]
    by_cases hc : c = 'İ'
    · subst hc
      rw [lowercaseAfter_dotted,List.suffix_cons_iff,List.suffix_cons_iff]
      simp
    · obtain ⟨head,hcons,-⟩ := exists_lowercaseAfter_cons before hc rest
      rw [hcons,List.suffix_cons_iff]

end NoteIndex.Text
