import NoteIndex.Markup.Slug
import NoteIndex.Proofs.Text.Letter
import NoteIndex.Proofs.Text.Trim
import NoteIndex.Proofs.Text.Word

/-! Slugs by their words. The slug of a text has the words of the text in lowercase, with one dash between
neighbours, and the slug of a slug differs from it only by the dots that were split off `İ`. -/
namespace NoteIndex.Markup

open Text

/-- Characters that count for a slug. All others are left out. -/
def counts (c : Char) : Bool := isAlphanumeric c || c == '_' || c == '-' || isBlank c

/-- The words of a text that make its slug: what is left between white space and dashes. -/
def slugWords (cs : List Char) : List (List Char) := wordsBy isSlugBreak (cs.filter counts)

/-- The lowercase forms of all characters of a word. -/
def lowercaseEach (word : List Char) : List Char := word.flatMap lowercaseChar

lemma counts_of_isSlugBreak {c : Char} (h : isSlugBreak c = true) : counts c = true := by
  simp only [isSlugBreak,Bool.or_eq_true] at h
  rcases h with hblank | hdash
  · simp [counts,hblank]
  · simp [counts,hdash]

/-- Between breaks, what counts is what is kept. -/
lemma counts_eq_isSlugChar {c : Char} (h : isSlugBreak c = false) : counts c = isSlugChar c := by
  simp only [isSlugBreak,Bool.or_eq_false_iff] at h
  simp [counts,isSlugChar,h.1,h.2]

lemma slugChars_filter (started pending : Bool) (cs : List Char) :
    slugChars started pending (cs.filter counts) = slugChars started pending cs := by
  induction cs generalizing started pending with
  | nil => rfl
  | cons c rest ih =>
    by_cases hbreak : isSlugBreak c = true
    · rw [List.filter_cons_of_pos (counts_of_isSlugBreak hbreak)]
      simp [slugChars,hbreak,ih]
    · have hkeep := counts_eq_isSlugChar (by simpa using hbreak)
      by_cases hc : isSlugChar c = true
      · rw [List.filter_cons_of_pos (hkeep.trans hc)]
        simp [slugChars,hbreak,hc,ih]
      · rw [List.filter_cons_of_neg (by rwa [hkeep])]
        simp [slugChars,hbreak,hc,ih]

/-- Words in lowercase with a dash before each. -/
def dashed (words : List (List Char)) : List Char := (words.map lowercaseEach).flatMap ('-' :: ·)

/-- What is added to a slug that has been started. The rest of the word comes first, unless a break has
come in between. -/
lemma slugChars_started {cs : List Char} (h : ∀ c ∈ cs, counts c = true) :
    slugChars true true cs = dashed (wordsBy isSlugBreak cs) ∧
      ∀ first rest, fields isSlugBreak cs = first :: rest →
        slugChars true false cs = lowercaseEach first ++ dashed (rest.filter (!·.isEmpty)) := by
  induction cs with
  | nil => simp [slugChars,dashed,wordsBy,fields,lowercaseEach]
  | cons c cs ih =>
    obtain ⟨hc,hcs⟩ := List.forall_mem_cons.1 h
    obtain ⟨hpending,hword⟩ := ih hcs
    cases hbreak : isSlugBreak c with
    | true =>
      constructor
      · simp [slugChars,hbreak,wordsBy_cons_separator hbreak,hpending]
      · intro first rest hsplit
        rw [fields,if_pos hbreak] at hsplit
        obtain ⟨rfl,rfl⟩ := List.cons.inj hsplit
        simp [slugChars,hbreak,hpending,wordsBy,lowercaseEach]
    | false =>
      have hkeep := (counts_eq_isSlugChar hbreak).symm.trans hc
      obtain ⟨word,more,hcut,hfields⟩ := exists_fields_cons hbreak cs
      have hrest := hword word more hcut
      constructor
      · simp [slugChars,hbreak,hkeep,hrest,wordsBy,hfields,dashed,lowercaseEach]
      · intro first rest hsplit
        rw [hfields] at hsplit
        obtain ⟨rfl,rfl⟩ := List.cons.inj hsplit
        simp [slugChars,hbreak,hkeep,hrest,lowercaseEach]

lemma slugChars_eq (pending : Bool) {cs : List Char} (h : ∀ c ∈ cs, counts c = true) :
    slugChars false pending cs = ['-'].intercalate ((wordsBy isSlugBreak cs).map lowercaseEach) := by
  induction cs generalizing pending with
  | nil => rfl
  | cons c cs ih =>
    obtain ⟨hc,hcs⟩ := List.forall_mem_cons.1 h
    cases hbreak : isSlugBreak c with
    | true => simp [slugChars,hbreak,wordsBy_cons_separator hbreak,ih true hcs]
    | false =>
      -- The first word starts here, and from here on the slug is not empty.
      have hkeep := (counts_eq_isSlugChar hbreak).symm.trans hc
      obtain ⟨word,more,hcut,hfields⟩ := exists_fields_cons hbreak cs
      have hrest := (slugChars_started hcs).2 word more hcut
      have hwords : wordsBy isSlugBreak (c :: cs) = (c :: word) :: more.filter (!·.isEmpty) := by
        simp [wordsBy,hfields]
      rw [hwords,List.map_cons,intercalate_cons]
      simp [slugChars,hbreak,hkeep,hrest,lowercaseEach,dashed]

/-- White space around a text adds no word. -/
lemma slugWords_trim (cs : List Char) : slugWords (trim cs) = slugWords cs := by
  obtain ⟨lead,tail,hsplit,hlead,htail⟩ := exists_trim_split cs
  have hbreaks : ∀ blanks : List Char, (∀ c ∈ blanks, isBlank c = true) →
      ∀ c ∈ blanks.filter counts, isSlugBreak c = true := by
    intro blanks h c hc
    simp [isSlugBreak,h c (List.mem_filter.1 hc).1]
  conv_rhs => rw [hsplit]
  rw [slugWords,slugWords,List.filter_append,List.filter_append,
    wordsBy_between (hbreaks lead hlead) (hbreaks tail htail)]

lemma toList_slug (text : String) :
    (slug text).toList = ['-'].intercalate ((slugWords text.toList).map lowercaseEach) := by
  rw [slug,String.toList_ofList,← slugChars_filter,
    slugChars_eq false fun c hc => (List.mem_filter.1 hc).2]
  change ['-'].intercalate ((slugWords (trim text.toList)).map lowercaseEach) = _
  rw [slugWords_trim]

/-- The words of a slug hold what counts and is no break. -/
lemma mem_flatten_slugWords_iff {cs : List Char} {c : Char} :
    c ∈ (slugWords cs).flatten ↔ c ∈ cs ∧ counts c = true ∧ isSlugBreak c = false := by
  rw [slugWords,flatten_wordsBy,List.mem_filter,List.mem_filter,and_assoc,Bool.not_eq_true']

/-- A lowercase form counts if the character does, except for the dot of `İ`. -/
lemma counts_of_mem_lowercaseChar {c d : Char} (h : d ∈ lowercaseChar c) (hc : counts c = true) :
    counts d = true ∨ d = '\u0307' ∧ c = 'İ' := by
  rcases (mem_lowercaseChar_cases h).2 with rfl | hletter | hdot
  · exact .inl hc
  · exact .inl (by simp [counts,hletter])
  · exact .inr hdot

lemma isSlugBreak_of_mem_lowercaseChar {c d : Char} (h : d ∈ lowercaseChar c)
    (hd : isSlugBreak d = true) : isSlugBreak c = true := by
  rcases (mem_lowercaseChar_cases h).2 with rfl | hletter | ⟨rfl,-⟩
  · exact hd
  · have hdash : isAlphanumeric '-' = false := by decide
    have hne : d ≠ '-' := by
      rintro rfl
      simp [hdash] at hletter
    simp [isSlugBreak,isBlank_eq_false_of_isAlphanumeric hletter,hne] at hd
  · have hdot : isSlugBreak '\u0307' = false := by decide
    simp [hdot] at hd

/-- The words of a slug hold no break, and something that counts is left of each of them. -/
lemma isWord_lowercaseEach {cs word : List Char} (hword : word ∈ slugWords cs) :
    IsWord isSlugBreak (lowercaseEach word) ∧
      IsWord isSlugBreak ((lowercaseEach word).filter counts) := by
  have hfree : ∀ d ∈ lowercaseEach word, isSlugBreak d = false := by
    intro d hd
    obtain ⟨c,hc,hform⟩ := List.mem_flatMap.1 hd
    rw [← Bool.not_eq_true]
    intro hbreak
    have hsame := isSlugBreak_of_mem_lowercaseChar hform hbreak
    simp [(isWord_of_mem_wordsBy hword).free c hc] at hsame
  have hne : (lowercaseEach word).filter counts ≠ [] := by
    obtain ⟨c,hc⟩ := List.exists_mem_of_ne_nil word (isWord_of_mem_wordsBy hword).ne_nil
    have hcounts := (mem_flatten_slugWords_iff.1 (List.mem_flatten.2 ⟨word,hword,hc⟩)).2.1
    obtain ⟨d,hd,hkept⟩ : ∃ d ∈ lowercaseChar c, counts d = true := by
      by_cases hdotted : c = 'İ'
      · exact ⟨'i',by simp [hdotted,lowercaseChar_dotted],by decide⟩
      · obtain ⟨d,hd⟩ := List.exists_mem_of_ne_nil _ (lowercaseChar_ne_nil c)
        exact ⟨d,hd,(counts_of_mem_lowercaseChar hd hcounts).resolve_right fun h => hdotted h.2⟩
    exact List.ne_nil_of_mem (List.mem_filter.2 ⟨List.mem_flatMap.2 ⟨c,hc,hd⟩,hkept⟩)
  refine ⟨⟨fun hnil => hne (by simp [hnil]),hfree⟩,hne,?_⟩
  intro d hd
  exact hfree d (List.mem_filter.1 hd).1

/-- Where the characters of a slug come from. -/
lemma mem_slug_iff {text : String} {d : Char} (hd : d ≠ '-') : d ∈ (slug text).toList ↔
    ∃ c ∈ text.toList, counts c = true ∧ isSlugBreak c = false ∧ d ∈ lowercaseChar c := by
  rw [toList_slug]
  constructor
  · intro h
    obtain ⟨word,hword,hmem⟩ := (mem_intercalate h).resolve_left hd
    obtain ⟨source,hsource,rfl⟩ := List.mem_map.1 hword
    obtain ⟨c,hc,hform⟩ := List.mem_flatMap.1 hmem
    obtain ⟨htext,hcounts,hbreak⟩ := mem_flatten_slugWords_iff.1 (List.mem_flatten.2 ⟨source,hsource,hc⟩)
    exact ⟨c,htext,hcounts,hbreak,hform⟩
  · rintro ⟨c,htext,hcounts,hbreak,hform⟩
    obtain ⟨word,hword,hc⟩ := List.mem_flatten.1 (mem_flatten_slugWords_iff.2 ⟨htext,hcounts,hbreak⟩)
    exact mem_intercalate_of_mem (List.mem_map_of_mem hword) (List.mem_flatMap.2 ⟨c,hc,hform⟩)

/-- The slug of a text joins its words: what does not count is left out, the rest is cut at runs of white
space and dashes, each character is put in lowercase, and there is one dash between neighbours. So dashes
stand alone and between other characters, and there is no white space. -/
theorem slug_joins_words (text : String) :
    slug text = String.ofList (['-'].intercalate
      ((wordsBy (fun c => isBlank c || c == '-') (text.toList.filter fun c =>
        isAlphanumeric c || c == '_' || c == '-' || isBlank c)).map fun word =>
          word.flatMap lowercaseChar)) ∧
    (slug text).toList.head? ≠ some '-' ∧ (slug text).toList.getLast? ≠ some '-' ∧
    ¬ ['-','-'] <:+: (slug text).toList ∧ ∀ c ∈ (slug text).toList, isBlank c = false := by
  have hwords : ∀ word ∈ (slugWords text.toList).map lowercaseEach, IsWord isSlugBreak word := by
    intro word hword
    obtain ⟨source,hsource,rfl⟩ := List.mem_map.1 hword
    exact (isWord_lowercaseEach hsource).1
  have hdash : isSlugBreak '-' = true := by decide
  obtain ⟨hhead,hlast,hdouble⟩ := intercalate_isolated hdash hwords
  rw [← toList_slug] at hhead hlast hdouble
  refine ⟨?_,hhead,hlast,hdouble,?_⟩
  · apply String.toList_inj.1
    rw [String.toList_ofList]
    exact toList_slug text
  · intro c hc
    rw [toList_slug] at hc
    rcases mem_intercalate hc with rfl | ⟨word,hword,hmem⟩
    · decide
    · exact (Bool.or_eq_false_iff.1 ((hwords word hword).free c hmem)).1

lemma lowercaseEach_of_isLower {word : List Char} (h : ∀ c ∈ word, IsLower c) :
    lowercaseEach word = word := by
  induction word with
  | nil => rfl
  | cons c rest ih =>
    obtain ⟨hc,hrest⟩ := List.forall_mem_cons.1 h
    have hrest := ih hrest
    rw [lowercaseEach] at hrest ⊢
    rw [List.flatMap_cons,hc,hrest]
    rfl

/-- The slug of a slug is what counts of it. -/
lemma toList_slug_slug (text : String) : (slug (slug text)).toList = (slug text).toList.filter counts := by
  have hdash : counts '-' = true := by decide
  have hbreak : isSlugBreak '-' = true := by decide
  have hkept : (slug text).toList.filter counts = ['-'].intercalate
      ((slugWords text.toList).map fun word => (lowercaseEach word).filter counts) := by
    rw [toList_slug,filter_intercalate hdash,List.map_map]
    rfl
  have hwords : slugWords (slug text).toList =
      (slugWords text.toList).map fun word => (lowercaseEach word).filter counts := by
    rw [slugWords,hkept]
    apply wordsBy_intercalate hbreak
    rw [List.forall_mem_map]
    exact fun word hword => (isWord_lowercaseEach hword).2
  have hlower : (slugWords (slug text).toList).map lowercaseEach = slugWords (slug text).toList := by
    rw [hwords,List.map_map]
    apply List.map_congr_left
    intro word _
    apply lowercaseEach_of_isLower
    intro d hd
    obtain ⟨c,-,hform⟩ := List.mem_flatMap.1 (List.mem_filter.1 hd).1
    exact (mem_lowercaseChar_cases hform).1
  rw [toList_slug (slug text),hlower,hwords,hkept]

/-- Only the dots of `İ` are in a slug without counting. -/
lemma counts_of_mem_slug {text : String} {d : Char} (h : d ∈ (slug text).toList) :
    counts d = true ∨ d = '\u0307' := by
  by_cases hdash : d = '-'
  · exact .inl (by rw [hdash]; decide)
  · obtain ⟨c,-,hcounts,-,hform⟩ := (mem_slug_iff hdash).1 h
    exact (counts_of_mem_lowercaseChar hform hcounts).imp_right And.left

/-- A slug is in lowercase. -/
lemma isLower_of_mem_slug {text : String} {d : Char} (h : d ∈ (slug text).toList) : IsLower d := by
  by_cases hdash : d = '-'
  · rw [hdash]
    decide
  · obtain ⟨c,-,-,-,hform⟩ := (mem_slug_iff hdash).1 h
    exact (mem_lowercaseChar_cases hform).1

lemma counts_dot : counts '\u0307' = false := by decide

lemma dot_mem_slug_iff (text : String) : '\u0307' ∈ (slug text).toList ↔ 'İ' ∈ text.toList := by
  rw [mem_slug_iff (by decide)]
  constructor
  · rintro ⟨c,htext,hcounts,-,hform⟩
    rcases counts_of_mem_lowercaseChar hform hcounts with hdot | ⟨-,rfl⟩
    · simp [counts_dot] at hdot
    · exact htext
  · intro h
    exact ⟨'İ',h,by decide,by decide,by simp [lowercaseChar_dotted]⟩

lemma slug_slug (text : String) :
    slug (slug text) = String.ofList ((slug text).toList.filter (· != '\u0307')) := by
  apply String.toList_inj.1
  rw [toList_slug_slug,String.toList_ofList]
  apply List.filter_congr
  intro d hd
  by_cases heq : d = '\u0307'
  · simp [heq,counts_dot]
  · simp [heq,(counts_of_mem_slug hd).resolve_right heq]

lemma slug_slug_eq_iff (text : String) : slug (slug text) = slug text ↔ 'İ' ∉ text.toList := by
  rw [← dot_mem_slug_iff,slug_slug,← String.toList_inj,String.toList_ofList,List.filter_eq_self]
  constructor
  · intro h hdot
    simpa using h _ hdot
  · rintro h d hd
    simp only [bne_iff_ne,ne_eq]
    rintro rfl
    exact h hd

end NoteIndex.Markup
