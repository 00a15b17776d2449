import Mathlib.Tactic.Common
import NoteIndex.Text.Field

/-! Words of a text. Separators around words do not count, and words that are joined by a separator can be
told apart again. -/
namespace NoteIndex.Text

variable {isSeparator : Char → Bool} {c : Char} {cs word : List Char} {words : List (List Char)}

/-- A word is not empty and holds no separator. -/
structure IsWord (isSeparator : Char → Bool) (word : List Char) : Prop where
  ne_nil : word ≠ []
  free : ∀ c ∈ word, isSeparator c = false

lemma isWord_of_mem_wordsBy (h : word ∈ wordsBy isSeparator cs) : IsWord isSeparator word := by
  obtain ⟨hfield,hne⟩ := List.mem_filter.1 h
  exact ⟨by simpa using hne,isSeparator_eq_false_of_mem_fields hfield⟩

/-- A character that is no separator goes to the field after it. -/
lemma exists_fields_cons (hc : isSeparator c = false) (cs : List Char) : ∃ first rest,
    fields isSeparator cs = first :: rest ∧ fields isSeparator (c :: cs) = (c :: first) :: rest :=
  fields_append_left (List.forall_mem_singleton.2 hc) cs

lemma wordsBy_cons_separator (hc : isSeparator c = true) (cs : List Char) :
    wordsBy isSeparator (c :: cs) = wordsBy isSeparator cs := by
  simp [wordsBy,fields,hc]

/-- The words of a text hold all its characters but the separators. -/
lemma flatten_wordsBy (isSeparator : Char → Bool) (cs : List Char) :
    (wordsBy isSeparator cs).flatten = cs.filter fun c => !isSeparator c := by
  rw [wordsBy,List.flatten_filter_not_isEmpty]
  induction cs with
  | nil => rfl
  | cons c cs ih =>
    cases hc : isSeparator c with
    | true => simp [fields,hc,ih]
    | false =>
      obtain ⟨first,rest,hcut,hfields⟩ := exists_fields_cons hc cs
      rw [hcut] at ih
      simp [hfields,hc,← ih]

lemma wordsBy_of_separators (h : ∀ c ∈ cs, isSeparator c = true) : wordsBy isSeparator cs = [] := by
  induction cs with
  | nil => rfl
  | cons c cs ih =>
    obtain ⟨hc,hcs⟩ := List.forall_mem_cons.1 h
    rw [wordsBy_cons_separator hc,ih hcs]

/-- Separators before and after a text make no difference to its words. -/
lemma wordsBy_between {lead tail : List Char} (hlead : ∀ c ∈ lead, isSeparator c = true)
    (htail : ∀ c ∈ tail, isSeparator c = true) (cs : List Char) :
    wordsBy isSeparator (lead ++ cs ++ tail) = wordsBy isSeparator cs := by
  have hafter : wordsBy isSeparator (cs ++ tail) = wordsBy isSeparator cs := by
    cases tail with
    | nil => rw [List.append_nil]
    | cons c tail =>
      obtain ⟨hc,htail⟩ := List.forall_mem_cons.1 htail
      rw [wordsBy_append_separator hc,wordsBy_of_separators htail,List.append_nil]
  rw [List.append_assoc]
  rcases List.eq_nil_or_concat lead with rfl | ⟨front,c,rfl⟩
  · exact hafter
  · simp only [List.concat_eq_append,List.forall_mem_append,List.forall_mem_singleton] at hlead
    rw [List.concat_eq_append,List.append_assoc,List.singleton_append,
      wordsBy_append_separator hlead.2,wordsBy_of_separators hlead.1,List.nil_append,hafter]

section Join

/-- A separator goes before every word but the first. -/
lemma intercalate_cons (c : Char) (first : List Char) (rest : List (List Char)) :
    [c].intercalate (first :: rest) = first ++ rest.flatMap (c :: ·) := by
  induction rest generalizing first with
  | nil => simp
  | cons second rest ih => simp [List.intercalate_cons_cons,ih]

lemma mem_intercalate {x : Char} (h : x ∈ [c].intercalate words) : x = c ∨ ∃ word ∈ words, x ∈ word := by
  cases words with
  | nil => simp at h
  | cons first rest =>
    rw [intercalate_cons,List.mem_append,List.mem_flatMap] at h
    rcases h with hfirst | ⟨word,hword,hx⟩
    · exact .inr ⟨first,List.mem_cons_self,hfirst⟩
    · exact (List.mem_cons.1 hx).imp_right fun hx => ⟨word,List.mem_cons_of_mem first hword,hx⟩

lemma mem_intercalate_of_mem (hword : word ∈ words) {x : Char} (hx : x ∈ word) :
    x ∈ [c].intercalate words := by
  cases words with
  | nil => simp at hword
  | cons first rest =>
    rw [intercalate_cons,List.mem_append,List.mem_flatMap]
    rcases List.mem_cons.1 hword with rfl | hword
    · exact .inl hx
    · exact .inr ⟨word,hword,List.mem_cons_of_mem c hx⟩

/-- Characters can be left out word by word. -/
lemma filter_intercalate {p : Char → Bool} (hc : p c = true) (words : List (List Char)) :
    ([c].intercalate words).filter p = [c].intercalate (words.map (List.filter p)) := by
  cases words with
  | nil => rfl
  | cons first rest =>
    rw [List.map_cons,intercalate_cons,intercalate_cons,List.filter_append,List.filter_flatMap,
      List.flatMap_map]
    simp [hc]

lemma fields_intercalate_of_isWord (hc : isSeparator c = true) (hne : words ≠ [])
    (h : ∀ word ∈ words, IsWord isSeparator word) :
    fields isSeparator ([c].intercalate words) = words := by
  induction words with
  | nil => exact absurd rfl hne
  | cons first rest ih =>
    obtain ⟨hfirst,hrest⟩ := List.forall_mem_cons.1 h
    cases rest with
    | nil => rw [List.intercalate_singleton,fields_eq_singleton hfirst.free]
    | cons second rest =>
      rw [List.intercalate_cons_cons,List.append_assoc,List.singleton_append,
        fields_append_separator hc,fields_eq_singleton hfirst.free,ih (by simp) hrest]
      rfl

/-- Words that are joined by a separator are the words of the text. -/
theorem wordsBy_intercalate (hc : isSeparator c = true)
    (h : ∀ word ∈ words, IsWord isSeparator word) :
    wordsBy isSeparator ([c].intercalate words) = words := by
  cases words with
  | nil => rfl
  | cons first rest =>
    rw [wordsBy,fields_intercalate_of_isWord hc (by simp) h,List.filter_eq_self]
    intro word hword
    simpa using (h word hword).ne_nil

/-- The separator that joins words has a word on both sides. -/
theorem intercalate_isolated (hc : isSeparator c = true) (h : ∀ word ∈ words, IsWord isSeparator word) :
    ([c].intercalate words).head? ≠ some c ∧ ([c].intercalate words).getLast? ≠ some c ∧
      ¬ [c,c] <:+: [c].intercalate words := by
  by_cases hwords : words = []
  · subst hwords
    simp
  · -- A separator without a word beside it leaves an empty field.
    have hfields := fields_intercalate_of_isWord hc hwords h
    have hempty : [] ∉ fields isSeparator ([c].intercalate words) := by
      rw [hfields]
      exact fun hmem => (h [] hmem).ne_nil rfl
    refine ⟨?_,?_,?_⟩
    · intro hhead
      obtain ⟨rest,hrest⟩ := List.head?_eq_some_iff.1 hhead
      apply hempty
      simp [hrest,fields,hc]
    · intro hlast
      obtain ⟨front,hfront⟩ := List.getLast?_eq_some_iff.1 hlast
      apply hempty
      simp [hfront,fields_append_separator hc,fields]
    · rintro ⟨front,back,hsplit⟩
      apply hempty
      rw [← hsplit,List.append_assoc]
      simp [fields_append_separator hc,fields,hc]

end Join

end NoteIndex.Text
