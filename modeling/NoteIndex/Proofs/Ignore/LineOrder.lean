import NoteIndex.Proofs.Ignore.Defaults

/-! The order of ignore lines. The first line that matches decides, so a line can be put at the end without
taking in what was ignored, and lines that both exclude or both take in can change places. -/
namespace NoteIndex.Ignore

variable {root : Path} {line : String} {patterns : List Pattern} {ignore : Ignore}

/-- An ignore line whose globs can be read. -/
def IsValid (line : String) : Prop := ∃ patterns, parseLine line = .ok patterns

/-- A line that takes in what it matches. -/
def Marked (line : String) : Prop := line.toList.head? = some '!'

instance (line : String) : Decidable (Marked line) :=
  inferInstanceAs (Decidable (_ = _))

lemma excludes_iff_verdict (ignore : Ignore) (text : List UInt8) :
    ignore.excludes text = true ↔ verdict? ignore.patterns text = some false := by
  unfold excludes verdict?
  cases ignore.patterns.find? (·.matches text) with
  | none => simp
  | some found => simp

lemma verdict?_append (front back : List Pattern) (text : List UInt8) :
    verdict? (front ++ back) text = (verdict? front text).or (verdict? back text) := by
  unfold verdict?
  rw [List.find?_append]
  cases front.find? (·.matches text) <;> rfl

/-- All patterns of a line agree, so a line that says anything about a text says what its mark says. -/
lemma verdict?_parseLine (h : parseLine line = .ok patterns) (text : List UInt8) :
    verdict? patterns text = none ∨ verdict? patterns text = some (decide (Marked line)) := by
  unfold verdict?
  cases hfind : patterns.find? (·.matches text) with
  | none => exact .inl rfl
  | some found =>
    have hincludes := includes_iff h (List.mem_of_find?_eq_some hfind)
    right
    rw [Option.map_some,Option.some.injEq,Bool.eq_iff_iff,hincludes,decide_eq_true_iff]
    rfl

/-- What is excluded text by text is ignored path by path. -/
lemma isIgnored_of_excludes {own more : List Pattern}
    (h : ∀ text, (⟨root,own⟩ : Ignore).excludes text = true →
      (⟨root,more⟩ : Ignore).excludes text = true) {path : Path}
    (hignored : (⟨root,own⟩ : Ignore).isIgnored path = true) :
    (⟨root,more⟩ : Ignore).isIgnored path = true := by
  obtain ⟨inner,hpath,start,hne,hstart,hexcludes⟩ := (isIgnored_iff _ path).1 hignored
  exact (isIgnored_iff _ path).2 ⟨inner,hpath,start,hne,hstart,h _ hexcludes⟩

/-- What is in an ignored directory is ignored: the start that is excluded is a start of both paths. -/
lemma isIgnored_of_below {path below : Path} (hbelow : path.components <+: below.components)
    (h : ignore.isIgnored path = true) : ignore.isIgnored below = true := by
  obtain ⟨inner,hpath,start,hne,hstart,hexcludes⟩ := (isIgnored_iff ignore path).1 h
  obtain ⟨rest,hrest⟩ := hbelow
  refine (isIgnored_iff ignore below).2 ⟨inner ++ rest,?_,start,hne,?_,hexcludes⟩
  · rw [← hrest,hpath,List.append_assoc]
  · exact hstart.trans (List.prefix_append inner rest)

lemma exists_parseLines {lines : List String} (h : ∀ line ∈ lines, IsValid line) :
    ∃ patterns, parseLines lines = .ok patterns := by
  induction lines with
  | nil => exact ⟨[],rfl⟩
  | cons line rest ih =>
    obtain ⟨⟨first,hfirst⟩,hrest⟩ := List.forall_mem_cons.1 h
    obtain ⟨more,hmore⟩ := ih hrest
    exact ⟨first ++ more,parseLines_cons_eq_ok_iff.2 ⟨first,more,hfirst,hmore,rfl⟩⟩

/-- A line that takes in can come first without excluding anything. -/
lemma excludes_of_marked {first : List Pattern} (h : parseLine line = .ok first) (hmarked : Marked line)
    {text : List UInt8} (hexcludes : (⟨root,first ++ patterns⟩ : Ignore).excludes text = true) :
    (⟨root,patterns⟩ : Ignore).excludes text = true := by
  rcases (excludes_append_iff root first patterns text).1 hexcludes with hverdict | ⟨-,hrest⟩
  · rcases verdict?_parseLine h text with hnone | hsome
    · simp [hnone] at hverdict
    · simp [hsome,hmarked] at hverdict
  · exact hrest

/-- What two lines with the same mark say together does not depend on which of them comes first. -/
lemma verdict?_comm {a b : String} {first second : List Pattern} (ha : parseLine a = .ok first)
    (hb : parseLine b = .ok second) (hmark : Marked a ↔ Marked b) (text : List UInt8) :
    verdict? (first ++ second) text = verdict? (second ++ first) text := by
  rw [verdict?_append,verdict?_append]
  rcases verdict?_parseLine ha text with hfirst | hfirst
  · simp [hfirst]
  · rcases verdict?_parseLine hb text with hsecond | hsecond
    · simp [hsecond]
    · simp [hfirst,hsecond,hmark]

/-- So the two can change places among others as well. -/
lemma excludes_comm (root : Path) {a b : String} {first second : List Pattern}
    (ha : parseLine a = .ok first) (hb : parseLine b = .ok second) (hmark : Marked a ↔ Marked b)
    (front back : List Pattern) (text : List UInt8) :
    (⟨root,front ++ (second ++ (first ++ back))⟩ : Ignore).excludes text =
      (⟨root,front ++ (first ++ (second ++ back))⟩ : Ignore).excludes text := by
  rw [Bool.eq_iff_iff,excludes_iff_verdict,excludes_iff_verdict,← List.append_assoc second,
    ← List.append_assoc first,verdict?_append,verdict?_append,verdict?_append front,
    verdict?_append (first ++ second),verdict?_comm ha hb hmark]

/-- Lines that can be read make patterns for any root. A line at their end never takes in what they
ignore, and a line with an exclamation mark before them never excludes anything more. Two neighbours that
both have the mark, or both do not, can change places. What is below an ignored path is ignored. -/
theorem isIgnored_line_order (root : Path) {lines : List String}
    (hlines : ∀ line ∈ lines, IsValid line) : ∃ ignore, ofLines root lines = .ok ignore ∧
    (∀ line, IsValid line → ∃ more, ofLines root (lines ++ [line]) = .ok more ∧
      ∀ path, ignore.isIgnored path = true → more.isIgnored path = true) ∧
    (∀ line, IsValid line → Marked line → ∃ more, ofLines root (line :: lines) = .ok more ∧
      ∀ path, ignore.isIgnored path = false → more.isIgnored path = false) ∧
    (∀ front a b back, lines = front ++ a :: b :: back → (Marked a ↔ Marked b) →
      ∃ swapped, ofLines root (front ++ b :: a :: back) = .ok swapped ∧
        ∀ path, swapped.isIgnored path = ignore.isIgnored path) ∧
    ∀ path below, path.components <+: below.components →
      ignore.isIgnored path = true → ignore.isIgnored below = true := by
  obtain ⟨own,hown⟩ := exists_parseLines hlines
  refine ⟨⟨root,own⟩,ofLines_eq_ok_iff.2 ⟨own,hown,rfl⟩,?_,?_,?_,?_⟩
  · intro line hvalid
    obtain ⟨last,hlast⟩ := exists_parseLines (List.forall_mem_singleton.2 hvalid)
    refine ⟨⟨root,own ++ last⟩,ofLines_eq_ok_iff.2 ⟨_,?_,rfl⟩,?_⟩
    · exact parseLines_append_eq_ok_iff.2 ⟨own,last,hown,hlast,rfl⟩
    · intro path
      refine isIgnored_of_excludes fun text htext => ?_
      exact (excludes_append_iff root own last text).2 (.inl ((excludes_iff_verdict _ text).1 htext))
  · rintro line ⟨first,hfirst⟩ hmarked
    refine ⟨⟨root,first ++ own⟩,ofLines_eq_ok_iff.2 ⟨_,?_,rfl⟩,?_⟩
    · exact parseLines_cons_eq_ok_iff.2 ⟨first,own,hfirst,hown,rfl⟩
    · intro path
      simp only [← Bool.not_eq_true]
      exact mt (isIgnored_of_excludes fun text => excludes_of_marked hfirst hmarked)
  · rintro front a b back rfl hmark
    obtain ⟨head,_,hhead,hpair,rfl⟩ := parseLines_append_eq_ok_iff.1 hown
    obtain ⟨first,_,hfirst,hrest,rfl⟩ := parseLines_cons_eq_ok_iff.1 hpair
    obtain ⟨second,tail,hsecond,htail,rfl⟩ := parseLines_cons_eq_ok_iff.1 hrest
    have hsame := excludes_comm root hfirst hsecond hmark head tail
    refine ⟨⟨root,head ++ (second ++ (first ++ tail))⟩,ofLines_eq_ok_iff.2 ⟨_,?_,rfl⟩,?_⟩
    · refine parseLines_append_eq_ok_iff.2 ⟨head,_,hhead,?_,rfl⟩
      refine parseLines_cons_eq_ok_iff.2 ⟨second,_,hsecond,?_,rfl⟩
      exact parseLines_cons_eq_ok_iff.2 ⟨first,tail,hfirst,htail,rfl⟩
    · intro path
      rw [Bool.eq_iff_iff]
      exact ⟨isIgnored_of_excludes fun text htext => hsame text ▸ htext,
        isIgnored_of_excludes fun text htext => (hsame text).trans htext⟩
  · intro path below hbelow
    exact isIgnored_of_below hbelow

/-- A directory in which one file is taken in, by lines that exclude in either order. -/
theorem isIgnored_line_order_drafts : ∃ ignore last first swapped,
    ofLines "/n" ["!a.md","*.md","d/"] = .ok ignore ∧
    ofLines "/n" ["!a.md","*.md","d/","b"] = .ok last ∧
    ofLines "/n" ["!c.md","!a.md","*.md","d/"] = .ok first ∧
    ofLines "/n" ["!a.md","d/","*.md"] = .ok swapped ∧
    last.isIgnored "/n/d" = true ∧ first.isIgnored "/n/a.md" = false ∧
    swapped.isIgnored "/n/a.md" = false ∧ ignore.isIgnored "/n/d/a.md" = true := by
  have hlines : ∀ line ∈ ["!a.md","*.md","d/"], IsValid line := by
    simp only [List.forall_mem_cons,List.not_mem_nil,false_implies,implies_true,and_true]
    exact ⟨⟨_,eq_ok_get (by decide +kernel)⟩,⟨_,eq_ok_get (by decide +kernel)⟩,
      ⟨_,eq_ok_get (by decide +kernel)⟩⟩
  have hread := eq_ok_get (x := ofLines "/n" ["!a.md","*.md","d/"]) (by decide +kernel)
  obtain ⟨ignore,hok,hlast,hfirst,hswap,hbelow⟩ := isIgnored_line_order "/n" hlines
  obtain rfl := Except.ok.inj (hread.symm.trans hok)
  obtain ⟨last,hlast,hkept⟩ := hlast "b" ⟨_,eq_ok_get (by decide +kernel)⟩
  obtain ⟨first,hfirst,hopen⟩ := hfirst "!c.md" ⟨_,eq_ok_get (by decide +kernel)⟩ (by decide)
  obtain ⟨swapped,hswapped,hsame⟩ := hswap ["!a.md"] "*.md" "d/" [] rfl (by decide)
  refine ⟨_,last,first,swapped,hread,hlast,hfirst,hswapped,?_,?_,?_,?_⟩
  · exact hkept _ (by decide +kernel)
  · exact hopen _ (by decide +kernel)
  · exact (hsame _).trans (by decide +kernel)
  · exact hbelow "/n/d" "/n/d/a.md" (by decide +kernel) (by decide +kernel)

end NoteIndex.Ignore
