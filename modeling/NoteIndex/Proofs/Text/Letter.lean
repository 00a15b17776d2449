import NoteIndex.Text.Alphanumeric
import NoteIndex.Text.Blank
import NoteIndex.Proofs.Text.Lowercase

/-! Lowercase letters. A lowercase form has no other lowercase form, and it is a letter or number unless it
is the character itself. The one exception is the dot that is split off `İ`, which is neither. White space
is left alone, and separates words for the rules of letter case as well. -/
namespace NoteIndex.Text

/-- Whether all code points from `first` to `last` lie in one of the intervals. -/
def coversRange (first last : Nat) : List (Nat × Nat) → Bool
  | [] => false
  | (lo, hi) :: rest => Nat.ble lo first && (Nat.ble last hi || coversRange first last rest)

lemma inIntervals_of_coversRange {first last n : Nat} (hfirst : first ≤ n) (hlast : n ≤ last)
    {intervals : List (Nat × Nat)} (h : coversRange first last intervals = true) :
    inIntervals intervals n = true := by
  induction intervals with
  | nil => simp [coversRange] at h
  | cons interval rest ih =>
    obtain ⟨lo,hi⟩ := interval
    simp only [coversRange,Bool.and_eq_true,Bool.or_eq_true,Nat.ble_eq] at h
    simp only [inIntervals_cons,Bool.and_eq_true,Bool.or_eq_true,decide_eq_true_eq]
    exact ⟨Nat.le_trans h.1 hfirst,h.2.imp (Nat.le_trans hlast) ih⟩

/-- Whether the code points from `first` to `last` are outside all runs. With `alternate`, only those
count that are an even number apart from `first`. -/
def avoidsRuns (alternate : Bool) (first last : Nat) : List CaseRun → Bool
  | [] => true
  | run :: rest =>
    Nat.blt last run.first ||
      (Nat.blt run.last first || (alternate && run.step == 2 && (first + run.first) % 2 == 1)) &&
        avoidsRuns alternate first last rest

lemma lowercasePoint_of_avoidsRuns {alternate : Bool} {first last n : Nat} (hfirst : first ≤ n)
    (hlast : n ≤ last) (hparity : alternate = true → (n - first) % 2 = 0) {runs : List CaseRun}
    (h : avoidsRuns alternate first last runs = true) : lowercasePoint runs n = n := by
  induction runs with
  | nil => rfl
  | cons run rest ih =>
    simp only [avoidsRuns,Bool.or_eq_true,Bool.and_eq_true,Nat.blt_eq,beq_iff_eq] at h
    rw [lowercasePoint]
    rcases h with habove | ⟨hrun,hrest⟩
    · rw [if_pos (by omega)]
    · have houtside : ¬ (run.first ≤ n ∧ n ≤ run.last ∧ (n - run.first) % run.step = 0) := by
        rintro ⟨hlow,hhigh,hstep⟩
        rcases hrun with hbelow | ⟨⟨halternate,htwo⟩,hodd⟩
        · omega
        · have heven := hparity halternate
          rw [htwo] at hstep
          omega
      split
      · rfl
      · rw [if_neg (by simp only [Bool.and_eq_true,decide_eq_true_eq,beq_iff_eq]; omega)]
        exact ih hrest

/-- The last lowercase form of a run. -/
def CaseRun.lastImage (run : CaseRun) : Nat := run.image + (run.last - run.first)

/-- Whether the lowercase forms of a run are letters or numbers without another lowercase form. -/
def CaseRun.isSettled (run : CaseRun) : Bool :=
  coversRange run.image run.lastImage alphanumericIntervals &&
    avoidsRuns (run.step == 2 || run.first == run.last) run.image run.lastImage lowercaseRuns &&
    (Nat.blt run.lastImage 'İ'.toNat || Nat.blt 'İ'.toNat run.image) &&
    (Nat.blt run.lastImage 0xD800 || Nat.blt 0xDFFF run.image && Nat.blt run.lastImage 0x110000)

lemma isSettled_of_mem : ∀ run ∈ lowercaseRuns, run.isSettled = true := by
  decide +kernel

/-- A character that is its own lowercase form. -/
def IsLower (c : Char) : Prop := lowercaseChar c = [c]

instance (c : Char) : Decidable (IsLower c) := inferInstanceAs (Decidable (_ = _))

/-- Apart from `İ`, a character has a lowercase form of one character. If that is another one, it is a
letter or number. -/
lemma exists_lowercaseChar {c : Char} (hc : c ≠ 'İ') :
    ∃ d, lowercaseChar c = [d] ∧ IsLower d ∧ (d = c ∨ isAlphanumeric d = true) := by
  have hform : lowercaseChar c = [Char.ofNat (lowercasePoint lowercaseRuns c.toNat)] := by
    rw [lowercaseChar,if_neg hc]
  rcases lowercasePoint_cases lowercaseRuns c.toNat with hsame | ⟨run,hrun,hfirst,hlast,hstep,himage⟩
  · rw [hsame,Char.ofNat_toNat] at hform
    exact ⟨c,hform,hform,.inl rfl⟩
  · have hsettled := isSettled_of_mem run hrun
    simp only [CaseRun.isSettled,CaseRun.lastImage,Bool.and_eq_true,Bool.or_eq_true,Nat.blt_eq] at hsettled
    obtain ⟨⟨⟨hletters,havoids⟩,hdotted⟩,hvalid⟩ := hsettled
    rw [himage] at hform
    generalize hpoint : run.image + (c.toNat - run.first) = point at hform
    have hlow : run.image ≤ point := by omega
    have hhigh : point ≤ run.image + (run.last - run.first) := by omega
    have hparity : (run.step == 2 || run.first == run.last) = true →
        (point - run.image) % 2 = 0 := by
      simp only [Bool.or_eq_true,beq_iff_eq]
      rintro (htwo | halone)
      · rw [htwo] at hstep
        omega
      · omega
    have hnat : (Char.ofNat point).toNat = point := toNat_ofNat (by unfold Nat.isValidChar; omega)
    have hother : Char.ofNat point ≠ 'İ' := by
      intro heq
      rw [heq] at hnat
      omega
    refine ⟨Char.ofNat point,hform,?_,.inr ?_⟩
    · rw [IsLower,lowercaseChar,if_neg hother,hnat,
        lowercasePoint_of_avoidsRuns hlow hhigh hparity havoids]
    · rw [isAlphanumeric,hnat]
      exact inIntervals_of_coversRange hlow hhigh hletters

lemma lowercaseChar_ne_nil (c : Char) : lowercaseChar c ≠ [] := by
  unfold lowercaseChar
  split
  · simp
  · simp

lemma lowercaseChar_dotted : lowercaseChar 'İ' = ['i','\u0307'] := if_pos rfl

/-- What a lowercase form can hold: the character itself, a letter or number, or the dot of `İ`. -/
lemma mem_lowercaseChar_cases {c d : Char} (h : d ∈ lowercaseChar c) :
    IsLower d ∧ (d = c ∨ isAlphanumeric d = true ∨ d = '\u0307' ∧ c = 'İ') := by
  by_cases hc : c = 'İ'
  · rw [hc,lowercaseChar_dotted] at h
    simp only [List.mem_cons,List.not_mem_nil,or_false] at h
    rcases h with rfl | rfl
    · exact ⟨by decide,.inr (.inl (by decide))⟩
    · exact ⟨by decide +kernel,.inr (.inr ⟨rfl,hc⟩)⟩
  · obtain ⟨e,hform,hlower,hletter⟩ := exists_lowercaseChar hc
    rw [hform,List.mem_singleton] at h
    subst h
    exact ⟨hlower,hletter.imp_right .inl⟩

/-- A character of an interval is one of its first ones. -/
lemma exists_offset_of_inIntervals {intervals : List (Nat × Nat)} {n : Nat}
    (h : inIntervals intervals n = true) :
    ∃ interval ∈ intervals, ∃ i < interval.2 - interval.1 + 1, n = interval.1 + i := by
  induction intervals with
  | nil => simp at h
  | cons interval rest ih =>
    obtain ⟨lo,hi⟩ := interval
    simp only [inIntervals_cons,Bool.and_eq_true,Bool.or_eq_true,decide_eq_true_eq] at h
    obtain ⟨hlow,hhigh | hrest⟩ := h
    · exact ⟨(lo,hi),List.mem_cons_self,n - lo,by dsimp only; omega,by dsimp only; omega⟩
    · obtain ⟨found,hfound,hoffset⟩ := ih hrest
      exact ⟨found,List.mem_cons_of_mem (lo,hi) hfound,hoffset⟩

lemma blankIntervals_not_alphanumeric : ∀ interval ∈ blankIntervals,
    ∀ i < interval.2 - interval.1 + 1,
      inIntervals alphanumericIntervals (interval.1 + i) = false := by
  decide +kernel

lemma isBlank_eq_false_of_isAlphanumeric {c : Char} (h : isAlphanumeric c = true) :
    isBlank c = false := by
  rw [← Bool.not_eq_true]
  intro hblank
  obtain ⟨interval,hinterval,i,hi,hoffset⟩ := exists_offset_of_inIntervals hblank
  have hnot := blankIntervals_not_alphanumeric interval hinterval i hi
  rw [← hoffset] at hnot
  exact Bool.false_ne_true (hnot.symm.trans h)

/-- No character but white space has white space as its lowercase form. -/
lemma isBlank_of_mem_lowercaseChar {c d : Char} (h : d ∈ lowercaseChar c) (hd : isBlank d = true) :
    isBlank c = true := by
  rcases (mem_lowercaseChar_cases h).2 with rfl | hletter | ⟨rfl,-⟩
  · exact hd
  · simp [isBlank_eq_false_of_isAlphanumeric hletter] at hd
  · have hdot : isBlank '\u0307' = false := by decide
    simp [hdot] at hd

section Text

variable {before cs : List Char} {c : Char}

/-- A lowercase text is made of the lowercase forms of its characters, but for sigmas at the end. -/
lemma exists_of_mem_lowercaseAfter {d : Char} (h : d ∈ lowercaseAfter before cs) :
    ∃ c ∈ cs, d ∈ lowercaseChar c ∨ d = 'ς' ∧ c = 'Σ' := by
  induction cs generalizing before with
  | nil => simp [lowercaseAfter] at h
  | cons c rest ih =>
    rw [lowercaseAfter,List.mem_append] at h
    rcases h with hform | hrest
    · refine ⟨c,List.mem_cons_self,?_⟩
      by_cases hsigma : c = 'Σ'
      · subst hsigma
        have hplain : lowercaseChar 'Σ' = ['σ'] := by decide +kernel
        rw [if_pos rfl,List.mem_singleton] at hform
        rw [hplain,List.mem_singleton]
        cases hfinal : sigmaIsFinal before rest with
        | false => exact .inl (by simpa [hfinal] using hform)
        | true => exact .inr ⟨by simpa [hfinal] using hform,rfl⟩
      · rw [if_neg hsigma] at hform
        exact .inl hform
    · obtain ⟨found,hfound,hd⟩ := ih hrest
      exact ⟨found,List.mem_cons_of_mem c hfound,hd⟩

lemma isLower_of_mem_lowercase {d : Char} (h : d ∈ lowercase cs) : IsLower d := by
  have hfinal : IsLower 'ς' := by decide +kernel
  obtain ⟨c,-,hd | ⟨rfl,-⟩⟩ := exists_of_mem_lowercaseAfter h
  · exact (mem_lowercaseChar_cases hd).1
  · exact hfinal

lemma lowercaseAfter_of_isLower (h : ∀ c ∈ cs, IsLower c) : lowercaseAfter before cs = cs := by
  induction cs generalizing before with
  | nil => rfl
  | cons c rest ih =>
    obtain ⟨hc,hrest⟩ := List.forall_mem_cons.1 h
    have hsigma : c ≠ 'Σ' := by
      rintro rfl
      have hupper : ¬ IsLower 'Σ' := by decide +kernel
      exact hupper hc
    rw [lowercaseAfter,if_neg hsigma,hc,ih hrest]
    rfl

theorem lowercase_lowercase (cs : List Char) : lowercase (lowercase cs) = lowercase cs :=
  lowercaseAfter_of_isLower fun _ hd => isLower_of_mem_lowercase hd

lemma lowercase_ne_nil (h : cs ≠ []) : lowercase cs ≠ [] := by
  cases cs with
  | nil => exact absurd rfl h
  | cons c rest =>
    rw [lowercase,lowercaseAfter]
    split
    · simp
    · simp [lowercaseChar_ne_nil]

lemma isBlank_eq_false_of_mem_lowercase (h : ∀ c ∈ cs, isBlank c = false) {d : Char}
    (hd : d ∈ lowercase cs) : isBlank d = false := by
  obtain ⟨c,hc,hform | ⟨rfl,-⟩⟩ := exists_of_mem_lowercaseAfter hd
  · rw [← Bool.not_eq_true]
    intro hblank
    have := isBlank_of_mem_lowercaseChar hform hblank
    simp [h c hc] at this
  · decide

/-- A character that ends words for the rules of letter case: what is on one side of it has no bearing on
the other. -/
structure IsStop (c : Char) : Prop where
  uncased : isCased c = false
  counted : isCaseIgnorable c = false
  lower : IsLower c

lemma startsCased_append_stop (hc : IsStop c) (xs ys : List Char) :
    startsCased (xs ++ c :: ys) = startsCased xs := by
  unfold startsCased
  induction xs with
  | nil => simp [hc.counted,hc.uncased]
  | cons x xs ih =>
    rw [List.cons_append,List.dropWhile_cons,List.dropWhile_cons]
    by_cases hx : isCaseIgnorable x = true
    · rw [if_pos hx,if_pos hx]
      exact ih
    · rw [if_neg hx,if_neg hx]

/-- A sigma looks back no further than to a stop. -/
lemma lowercaseAfter_stop (hc : IsStop c) (near far cs : List Char) :
    lowercaseAfter (near ++ c :: far) cs = lowercaseAfter near cs := by
  induction cs generalizing near with
  | nil => rfl
  | cons x rest ih =>
    rw [lowercaseAfter,lowercaseAfter,sigmaIsFinal,startsCased_append_stop hc,← sigmaIsFinal,
      ← List.cons_append,ih]

/-- Nor does it look ahead further. -/
lemma lowercaseAfter_append_stop (hc : IsStop c) (before cs rest : List Char) :
    lowercaseAfter before (cs ++ c :: rest) = lowercaseAfter before cs ++ c :: lowercase rest := by
  induction cs generalizing before with
  | nil =>
    have hsigma : c ≠ 'Σ' := by
      rintro rfl
      have hcased : isCased 'Σ' = true := by decide +kernel
      simp [hc.uncased] at hcased
    have hhead : lowercaseAfter before (c :: rest) = [c] ++ lowercaseAfter (c :: before) rest := by
      rw [lowercaseAfter,if_neg hsigma,hc.lower]
    rw [List.nil_append,hhead]
    exact congrArg (c :: ·) (lowercaseAfter_stop hc [] before rest)
  | cons x cs ih =>
    rw [List.cons_append,lowercaseAfter,lowercaseAfter,sigmaIsFinal,startsCased_append_stop hc,
      ← sigmaIsFinal,ih,List.append_assoc]

/-- Words that are joined by a stop are put in lowercase one by one. -/
theorem lowercase_intercalate (hc : IsStop c) (words : List (List Char)) :
    lowercase ([c].intercalate words) = [c].intercalate (words.map lowercase) := by
  induction words with
  | nil => rfl
  | cons first rest ih =>
    cases rest with
    | nil => simp
    | cons second rest =>
      rw [List.map_cons] at ih
      rw [List.intercalate_cons_cons,List.append_assoc,List.singleton_append,lowercase,
        lowercaseAfter_append_stop hc,ih,List.map_cons,List.map_cons,List.intercalate_cons_cons]
      simp [lowercase]

end Text

end NoteIndex.Text
