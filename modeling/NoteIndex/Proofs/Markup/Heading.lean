import NoteIndex.Proofs.Markup.Search
import NoteIndex.Proofs.Text.Trim

/-! Headings: exactly the lines outside fenced blocks that start with one to six number signs, a blank and
something more are headings, and the first of level one is the title. -/
namespace NoteIndex.Markup

open Text

/-- A line of a text without its line feed, and where it starts. -/
structure LineAt (text : List Char) (start : Nat) (line : List Char) : Prop where
  split : ∃ before after, text = before ++ line ++ after ∧ start = before.length ∧
    (before = [] ∨ before.getLast? = some '\n') ∧ (after = [] ∨ after.head? = some '\n')
  noFeed : '\n' ∉ line

/-- A line that is written as a heading: number signs, a space or tab, and something more than a
return. -/
structure HeadingLine (line : List Char) (level : Nat) : Prop where
  one_le : 1 ≤ level
  le_six : level ≤ 6
  split : ∃ blank next rest, line = List.replicate level '#' ++ blank :: next :: rest ∧
    (blank = ' ' ∨ blank = '\t') ∧ next ≠ '\r'

/-- The characters after the number signs and blanks of a heading, up to a return. -/
def headingContent (line : List Char) (level : Nat) : List Char :=
  ((line.drop level).dropWhile fun c => c == ' ' || c == '\t').takeWhile (· != '\r')

/-- The text of a heading: white space is taken off the end of its content, then number signs if they are
all that is left or follow a space or tab, and then white space again. -/
def HeadingText (content text : List Char) : Prop :=
  ∃ trimmed stripped, Stripped isBlank content trimmed ∧ Stripped (· == '#') trimmed stripped ∧
    if stripped = [] ∨ stripped.getLast? = some ' ' ∨ stripped.getLast? = some '\t' then
      Stripped isBlank stripped text
    else text = trimmed

section Closing

lemma isSpaceOrTab_iff {c : Char} : isSpaceOrTab c = true ↔ c = ' ' ∨ c = '\t' := by
  simp [isSpaceOrTab]

lemma withoutClosing_eq {content trimmed stripped : List Char}
    (htrimmed : dropEndWhile isBlank content = trimmed)
    (hstripped : dropEndWhile (· == '#') trimmed = stripped) :
    withoutClosing content =
      if stripped = [] ∨ stripped.getLast? = some ' ' ∨ stripped.getLast? = some '\t' then
        dropEndWhile isBlank stripped
      else trimmed := by
  unfold withoutClosing trimEnd
  dsimp only
  rw [htrimmed,hstripped]
  obtain ⟨⟨tail,hsplit,-⟩,-⟩ := dropEndWhile_eq_iff.1 hstripped
  by_cases hlength : stripped.length = trimmed.length
  · -- Without number signs at its end, the text does not end with white space either.
    have hsame : stripped = trimmed := by
      have htail : tail = [] := by
        rw [hsplit,List.length_append] at hlength
        exact List.length_eq_zero_iff.1 (by omega)
      rw [hsplit,htail,List.append_nil]
    have hagain : dropEndWhile isBlank trimmed = trimmed :=
      dropEndWhile_eq_iff.2 ⟨⟨[],by simp,by simp⟩,(dropEndWhile_eq_iff.1 htrimmed).last⟩
    simp [hsame,hagain]
  · cases hlast : stripped.getLast? with
    | none =>
      obtain rfl := List.getLast?_eq_none_iff.1 hlast
      simpa [dropEndWhile] using fun h : 0 = trimmed.length => List.length_eq_zero_iff.1 h.symm
    | some c =>
      have hne : stripped ≠ [] := by
        rintro rfl
        cases hlast
      simp [hlength,hne,isSpaceOrTab_iff]

lemma withoutClosing_eq_iff {content text : List Char} :
    withoutClosing content = text ↔ HeadingText content text := by
  constructor
  · intro h
    refine ⟨_,_,dropEndWhile_eq_iff.1 rfl,dropEndWhile_eq_iff.1 rfl,?_⟩
    rw [withoutClosing_eq rfl rfl] at h
    split at h
    · rename_i hclosing
      rw [if_pos hclosing]
      exact dropEndWhile_eq_iff.1 h
    · rename_i hclosing
      rw [if_neg hclosing]
      exact h.symm
  · intro h
    obtain ⟨trimmed,stripped,htrimmed,hstripped,htext⟩ := h
    rw [withoutClosing_eq (dropEndWhile_eq_iff.2 htrimmed) (dropEndWhile_eq_iff.2 hstripped)]
    split at htext
    · rename_i hclosing
      rw [if_pos hclosing]
      exact dropEndWhile_eq_iff.2 htext
    · rename_i hclosing
      rw [if_neg hclosing]
      exact htext.symm

end Closing

section Line

variable {α : Type} {form : Form α} {text line : List Char} {start : Nat}

lemma LineAt.formAt (h : LineAt text start line) (hlocal : LineLocal form) :
    formAt form text start = form none line := by
  obtain ⟨before,after,rfl,rfl,hbefore,hafter⟩ := h.split
  have hcut : ∀ previous, form previous (line ++ after) = form previous line := by
    intro previous
    cases hafter with
    | inl hend => rw [hend,List.append_nil]
    | inr hfeed =>
      obtain ⟨rest,rfl⟩ := List.head?_eq_some_iff.1 hfeed
      exact hlocal.cut previous line rest
  rw [List.append_assoc,formAt_append,hcut]
  cases hbefore with
  | inl hstart => rw [hstart]; rfl
  | inr hfeed => rw [hfeed,hlocal.start]

lemma LineAt.getElem?_ne_feed (h : LineAt text start line) {i : Nat} (hstart : start ≤ i)
    (hstop : i < start+line.length) : text[i]? ≠ some '\n' := by
  obtain ⟨before,after,rfl,rfl,-,-⟩ := h.split
  intro hfeed
  rw [List.append_assoc,List.getElem?_append_right hstart,List.getElem?_append_left (by omega)] at hfeed
  exact h.noFeed (List.mem_of_getElem? hfeed)

lemma exists_lineAt (hinside : start ≤ text.length)
    (hstart : atLineStart (text.take start).getLast? = true) : ∃ line, LineAt text start line := by
  have hbefore : text.take start = [] ∨ (text.take start).getLast? = some '\n' := by
    cases hlast : (text.take start).getLast? with
    | none => exact .inl (List.getLast?_eq_none_iff.1 hlast)
    | some c =>
      rw [hlast] at hstart
      right
      simpa [atLineStart] using hstart
  have hafter : (text.drop start).dropWhile (· != '\n') = [] ∨
      ((text.drop start).dropWhile (· != '\n')).head? = some '\n' := by
    have hhead := List.head?_dropWhile_not (· != '\n') (text.drop start)
    cases hrest : (text.drop start).dropWhile (· != '\n') with
    | nil => exact .inl rfl
    | cons c rest =>
      rw [hrest] at hhead
      right
      simpa using hhead
  refine ⟨(text.drop start).takeWhile (· != '\n'),⟨text.take start,
    (text.drop start).dropWhile (· != '\n'),?_,?_,hbefore,hafter⟩,?_⟩
  · rw [List.append_assoc,List.takeWhile_append_dropWhile,List.take_append_drop]
  · rw [List.length_take,Nat.min_eq_left hinside]
  · intro hfeed
    simpa using List.mem_takeWhile_imp hfeed

end Line

section Shape

variable {line : List Char} {level : Nat}

/-- Whether blanks or what follows a return is taken off first makes no difference. -/
lemma dropWhile_takeWhile {p q : Char → Bool} (h : ∀ c, p c = true → q c = true) (cs : List Char) :
    (cs.takeWhile q).dropWhile p = (cs.dropWhile p).takeWhile q := by
  induction cs with
  | nil => rfl
  | cons c cs ih =>
    by_cases hp : p c = true
    · simp [hp,h c hp,ih]
    · by_cases hq : q c = true <;> simp [hp,hq]

lemma takeWhile_return (hfeed : '\n' ∉ line) :
    line.takeWhile (fun c => c != '\r' && c != '\n') = line.takeWhile (· != '\r') := by
  induction line with
  | nil => rfl
  | cons c line ih =>
    obtain ⟨hc,hfeed⟩ := not_or.1 (fun h => hfeed (List.mem_cons.2 h))
    simp [List.takeWhile_cons,ih hfeed,Ne.symm hc]

/-- The level is the number of all signs at the start of the line. -/
lemma headingLine_iff : HeadingLine line level ↔
    (line.takeWhile (· == '#')).length = level ∧ 1 ≤ level ∧ level ≤ 6 ∧
    ((line.dropWhile (· == '#')).takeWhile (· != '\r')).head?.any isSpaceOrTab = true ∧
    2 ≤ ((line.dropWhile (· == '#')).takeWhile (· != '\r')).length := by
  constructor
  · intro h
    obtain ⟨blank,next,rest,rfl,hblank,hnext⟩ := h.split
    have hsigns : ∀ c ∈ List.replicate level '#', (c == '#') = true := by
      intro c hc
      simp [List.eq_of_mem_replicate hc]
    have hstop : ∀ c, (blank :: next :: rest).head? = some c → (c == '#') = false := by
      intro c hc
      cases hc
      cases hblank <;> subst blank <;> rfl
    rw [takeWhile_append_of_stop hsigns hstop,dropWhile_append_of_stop hsigns hstop]
    have hreturn : blank ≠ '\r' := by
      cases hblank <;> subst blank <;> decide
    refine ⟨List.length_replicate,h.one_le,h.le_six,?_,?_⟩
    · simpa [hreturn,isSpaceOrTab_iff] using hblank
    · simp [hreturn,hnext]
  · intro h
    obtain ⟨hlevel,hone,hsix,hblank,htwo⟩ := h
    have hsigns : line.takeWhile (· == '#') = List.replicate level '#' := by
      rw [List.eq_replicate_iff]
      refine ⟨hlevel,?_⟩
      intro c hc
      simpa using List.mem_takeWhile_imp hc
    refine ⟨hone,hsix,?_⟩
    cases hpiece : (line.dropWhile (· == '#')).takeWhile (· != '\r') with
    | nil => simp [hpiece] at htwo
    | cons blank piece =>
      cases piece with
      | nil => simp [hpiece] at htwo
      | cons next piece =>
        have hnext : next ∈ (line.dropWhile (· == '#')).takeWhile (· != '\r') := by simp [hpiece]
        refine ⟨blank,next,piece ++ (line.dropWhile (· == '#')).dropWhile (· != '\r'),?_,?_,?_⟩
        · rw [← List.cons_append,← List.cons_append,← hpiece,List.takeWhile_append_dropWhile,← hsigns,
            List.takeWhile_append_dropWhile]
        · simpa [hpiece,isSpaceOrTab_iff] using hblank
        · simpa using List.mem_takeWhile_imp hnext

lemma headingForm_none_iff (hfeed : '\n' ∉ line) {length : Nat} {heading : RawHeading} :
    headingForm none line = some (length,some heading) ↔ HeadingLine line heading.level ∧
      length = (line.takeWhile (· != '\r')).length ∧
      HeadingText (headingContent line heading.level) heading.text := by
  have hrest : (line.dropWhile (· == '#')).takeWhile (fun c => c != '\r' && c != '\n') =
      (line.dropWhile (· == '#')).takeWhile (· != '\r') :=
    takeWhile_return fun h => hfeed ((List.dropWhile_suffix _).subset h)
  have hlength : (line.takeWhile (· != '\r')).length = (line.takeWhile (· == '#')).length+
      ((line.dropWhile (· == '#')).takeWhile (· != '\r')).length := by
    have hsigns : ∀ c ∈ line.takeWhile (· == '#'), (c != '\r') = true := by
      intro c hc
      obtain rfl : c = '#' := by simpa using List.mem_takeWhile_imp hc
      rfl
    rw [← List.length_append,← List.takeWhile_append_of_pos hsigns,List.takeWhile_append_dropWhile]
  have hcontent : headingContent line (line.takeWhile (· == '#')).length =
      ((line.dropWhile (· == '#')).takeWhile (· != '\r')).dropWhile isSpaceOrTab := by
    rw [headingContent,drop_length_takeWhile,dropWhile_takeWhile]
    · rfl
    · intro c hc
      cases isSpaceOrTab_iff.1 hc <;> subst c <;> rfl
  rw [headingForm_eq_some_iff,headingLine_iff,← withoutClosing_eq_iff,hlength,hrest]
  constructor
  · intro h
    obtain ⟨piece,-,hone,hsix,rfl,hblank,htwo,heq⟩ := h
    cases heq
    exact ⟨⟨rfl,hone,hsix,hblank,htwo⟩,rfl,by rw [hcontent]⟩
  · intro h
    obtain ⟨⟨hlevel,hone,hsix,hblank,htwo⟩,rfl,htext⟩ := h
    refine ⟨_,rfl,?_,?_,rfl,hblank,htwo,?_⟩
    · omega
    · omega
    · rw [← hcontent,hlevel,htext]

end Shape

section Found

variable {text : List Char}

lemma standApart_headingForm : StandApart headingForm := by
  apply standApart_of_atLineStart lineLocal_headingForm
  intro before text length value h
  obtain ⟨_,hstart,-⟩ := headingForm_eq_some_iff.1 h
  exact hstart

/-- The headings of a text before code is left out. -/
lemma mem_headings_iff {f : Found RawHeading} : f ∈ headings text ↔ ∃ line,
    LineAt text f.span.start line ∧ HeadingLine line f.value.level ∧
    f.span.stop = f.span.start+(line.takeWhile (· != '\r')).length ∧
    HeadingText (headingContent line f.value.level) f.value.text := by
  rw [headings,mem_find_iff lineLocal_headingForm standApart_headingForm]
  constructor
  · intro h
    obtain ⟨length,hform,hstop⟩ := h
    have hfits := lineLocal_headingForm.fits hform
    rw [List.length_drop] at hfits
    obtain ⟨_,hstart,-⟩ := headingForm_eq_some_iff.1 hform
    obtain ⟨line,hline⟩ := exists_lineAt (by omega) hstart
    rw [hline.formAt lineLocal_headingForm,headingForm_none_iff hline.noFeed] at hform
    obtain ⟨hshape,rfl,htext⟩ := hform
    exact ⟨line,hline,hshape,hstop,htext⟩
  · intro h
    obtain ⟨line,hline,hshape,hstop,htext⟩ := h
    refine ⟨_,?_,hstop⟩
    rw [hline.formAt lineLocal_headingForm,headingForm_none_iff hline.noFeed]
    exact ⟨hshape,rfl,htext⟩

/-- A code span does not start with a number sign and stays on its line, so it never hides a heading. -/
lemma covers_heading_eq_false {blocks : List Span} {piece : Span} {f : Found RawHeading}
    (hpiece : piece ∈ codeSpans blocks text) (hf : f ∈ headings text) : piece.covers f.span = false := by
  obtain ⟨g,hg,rfl⟩ := List.mem_map.1 (List.mem_filter.1 hpiece).1
  obtain ⟨hnonempty,hinside⟩ := span_of_mem_find lineLocal_headingForm hf
  obtain ⟨_,hform,-⟩ := form_of_mem_find hf
  obtain ⟨_,hcode,-⟩ := form_of_mem_find hg
  obtain ⟨_,hstart,hone,-⟩ := headingForm_eq_some_iff.1 hform
  obtain ⟨body,_,htick,-⟩ := codeSpan_eq_some_iff.1 hcode
  rw [Bool.eq_false_iff,ne_eq,Span.covers_iff]
  intro hcovers
  by_cases hsame : g.span.start = f.span.start
  · rw [← hsame,htick] at hone
    simp at hone
  · cases feed_of_atLineStart (by omega) hstart with
    | inl hzero => omega
    | inr hfeed => exact getElem?_ne_feed lineLocal_codeSpan hg (by omega) (by omega) hfeed

/-- A block of whole lines has all of a heading in it or nothing of its line. -/
lemma WholeLines.meets_line {block : Span} (h : WholeLines text block) {line : List Char}
    {f : Found RawHeading} (hf : f ∈ headings text) (hline : LineAt text f.span.start line)
    (hstop : f.span.stop ≤ f.span.start+line.length) :
    block.meets ⟨f.span.start,f.span.start+line.length⟩ = block.covers f.span := by
  obtain ⟨hnonempty,-⟩ := span_of_mem_find lineLocal_headingForm hf
  have hfirst : block.start < f.span.start+line.length → block.start ≤ f.span.start := by
    intro hlt
    by_contra hinner
    cases h.start with
    | inl hzero => omega
    | inr hfeed => exact hline.getElem?_ne_feed (by omega) (by omega) hfeed
  rw [← h.meets_eq_covers lineLocal_headingForm hf,Bool.eq_iff_iff]
  simp only [Span.meets,Bool.and_eq_true,decide_eq_true_eq]
  omega

/-- A line outside fenced blocks that is written as a heading. -/
structure HeadingAt (text : List Char) (start : Nat) (line : List Char) (level : Nat) : Prop where
  lineAt : LineAt text start line
  shape : HeadingLine line level
  unfenced : ∀ block ∈ fences text, block.meets ⟨start,start+line.length⟩ = false

lemma outside_heading_iff {f : Found RawHeading} (hf : f ∈ headings text) :
    f ∈ outside (code text) (headings text) ↔ ∀ block ∈ fences text, block.covers f.span = false := by
  rw [outside,List.mem_filter,Bool.not_eq_true',List.any_eq_false,code,List.forall_mem_append]
  simp only [Bool.not_eq_true]
  constructor
  · intro h
    exact h.2.1
  · intro h
    exact ⟨hf,h,fun piece hpiece => covers_heading_eq_false hpiece hf⟩

lemma mem_outside_headings_iff {f : Found RawHeading} :
    f ∈ outside (code text) (headings text) ↔ ∃ line, HeadingAt text f.span.start line f.value.level ∧
      f.span.stop = f.span.start+(line.takeWhile (· != '\r')).length ∧
      HeadingText (headingContent line f.value.level) f.value.text := by
  have hmeets : ∀ {line}, f ∈ headings text → LineAt text f.span.start line →
      f.span.stop = f.span.start+(line.takeWhile (· != '\r')).length → ∀ block ∈ fences text,
        block.meets ⟨f.span.start,f.span.start+line.length⟩ = block.covers f.span := by
    intro line hf hline hstop block hblock
    have hle := (List.takeWhile_sublist (· != '\r') (l := line)).length_le
    exact (wholeLines_of_mem_fences hblock).meets_line hf hline (by omega)
  constructor
  · intro h
    have hf : f ∈ headings text := (List.mem_filter.1 h).1
    obtain ⟨line,hline,hshape,hstop,htext⟩ := mem_headings_iff.1 hf
    refine ⟨line,⟨hline,hshape,?_⟩,hstop,htext⟩
    intro block hblock
    rw [hmeets hf hline hstop block hblock]
    exact (outside_heading_iff hf).1 h block hblock
  · intro h
    obtain ⟨line,hat,hstop,htext⟩ := h
    have hf : f ∈ headings text := mem_headings_iff.2 ⟨line,hat.lineAt,hat.shape,hstop,htext⟩
    rw [outside_heading_iff hf]
    intro block hblock
    rw [← hmeets hf hat.lineAt hstop block hblock]
    exact hat.unfenced block hblock

end Found

section Title

/-- The title is the first heading of level one, if none has been seen before. -/
lemma isTitle_iff_first {seen : Bool} {found : List (Found RawHeading)}
    (hordered : found.Pairwise fun f g => f.span.start < g.span.start)
    {f : Found (RawHeading × Bool)} (hf : f ∈ withTitle seen found) :
    f.value.2 = true ↔ seen = false ∧ f.value.1.level = 1 ∧
      ∀ g ∈ found, g.value.level = 1 → f.span.start ≤ g.span.start := by
  induction found generalizing seen with
  | nil => simp [withTitle] at hf
  | cons first rest ih =>
    obtain ⟨hfirst,hrest⟩ := List.pairwise_cons.1 hordered
    rw [withTitle] at hf
    cases List.mem_cons.1 hf with
    | inl heq =>
      subst heq
      have hle : ∀ g ∈ first :: rest, first.span.start ≤ g.span.start := by
        intro g hg
        cases List.mem_cons.1 hg with
        | inl heq => rw [heq]
        | inr hg => exact Nat.le_of_lt (hfirst g hg)
      simp only [Bool.and_eq_true,beq_iff_eq,Bool.not_eq_true']
      constructor
      · intro h
        exact ⟨h.2,h.1,fun g hg _ => hle g hg⟩
      · intro h
        exact ⟨h.2.1,h.1⟩
    | inr hf =>
      have hraw : (⟨f.span,f.value.1⟩ : Found RawHeading) ∈ rest := by
        rw [← map_withTitle (seen || (first.value.level == 1 && !seen)) rest]
        exact List.mem_map_of_mem hf
      have hlt := hfirst _ hraw
      rw [ih hrest hf,List.forall_mem_cons]
      -- The first heading comes before all others, so it is of level one or makes no difference.
      have hlevel : (first.value.level = 1 → f.span.start ≤ first.span.start) ↔
          first.value.level ≠ 1 := by
        constructor
        · intro h hone
          have hle := h hone
          dsimp only at hlt
          omega
        · intro h hone
          exact absurd hone h
      rw [hlevel]
      cases seen with
      | true => simp
      | false =>
        simp only [Bool.false_or,Bool.not_false,Bool.and_true,beq_eq_false_iff_ne]
        tauto

variable {text : List Char}

lemma exists_of_headingAt {start level : Nat} {line : List Char} (h : HeadingAt text start line level) :
    ∃ f ∈ outside (code text) (headings text), f.span.start = start ∧ f.value.level = level :=
  ⟨⟨⟨start,start+(line.takeWhile (· != '\r')).length⟩,
      ⟨level,withoutClosing (headingContent line level)⟩⟩,
    mem_outside_headings_iff.2 ⟨line,h,rfl,withoutClosing_eq_iff.1 rfl⟩,rfl,rfl⟩

lemma isTitle_iff_headingAt {f : Found (RawHeading × Bool)} (hf : f ∈ titledHeadings text) :
    f.value.2 = true ↔ f.value.1.level = 1 ∧
      ∀ start < f.span.start, ∀ line, ¬ HeadingAt text start line 1 := by
  rw [isTitle_iff_first ((ordered_find headingForm text).outside (code text)).increasing hf]
  constructor
  · intro h
    obtain ⟨-,hlevel,hfirst⟩ := h
    refine ⟨hlevel,?_⟩
    intro start hlt line hat
    obtain ⟨g,hg,rfl,hone⟩ := exists_of_headingAt hat
    have hle := hfirst g hg hone
    omega
  · intro h
    obtain ⟨hlevel,hfirst⟩ := h
    refine ⟨rfl,hlevel,?_⟩
    intro g hg hone
    obtain ⟨line,hat,-⟩ := mem_outside_headings_iff.1 hg
    rw [hone] at hat
    by_contra hlt
    exact hfirst _ (by omega) line hat

end Title

/-- Lines start in the first column. -/
lemma LineAt.positionOfChar {text line : List Char} {start : Nat} (h : LineAt text start line) :
    positionOfChar text start = ⟨UInt32.ofNat (breakCount (text.take start)),0⟩ := by
  obtain ⟨before,after,rfl,rfl,hbefore,-⟩ := h.split
  rw [List.append_assoc,List.take_left]
  cases hbefore with
  | inl hstart =>
    rw [hstart]
    rfl
  | inr hfeed =>
    obtain ⟨front,rfl⟩ := List.getLast?_eq_some_iff.1 hfeed
    have hlocate := locateFrom_append_feed 0 0 0 front (line ++ after)
    rw [Text.positionOfChar,List.append_assoc,List.singleton_append,List.length_append,
      List.length_singleton,hlocate,locateFrom,Nat.zero_add]
    rfl

/-- A heading that is read from a line of a text. -/
structure ReadFrom (text line : List Char) (span : Span) (heading : Heading) : Prop where
  headingAt : HeadingAt text span.start line heading.level
  stop : span.stop = span.start+(line.takeWhile (· != '\r')).length
  content : HeadingText (headingContent line heading.level) heading.text.toList
  slug : heading.slug = Markup.slug heading.text
  range : heading.range = ⟨⟨UInt32.ofNat (breakCount (text.take span.start)),0⟩,
    positionOfChar text span.stop⟩
  title : heading.isTitle = true ↔ heading.level = 1 ∧
    ∀ start < span.start, ∀ other, ¬ HeadingAt text start other 1

section Element

variable {text : List Char} {span : Span} {heading : Heading}

lemma exists_readFrom (h : ⟨span,.heading heading⟩ ∈ sortedElements text) :
    ∃ line, ReadFrom text line span heading := by
  obtain ⟨f,hf,heq⟩ := List.mem_map.1 (mem_sortedElements_iff.1 h)
  cases heq
  obtain ⟨line,hat,hstop,htext⟩ := mem_outside_headings_iff.1 (raw_of_mem_titledHeadings hf)
  refine ⟨line,hat,hstop,?_,rfl,?_,isTitle_iff_headingAt hf⟩
  · rw [String.toList_ofList]
    exact htext
  · rw [Span.range,rangeOfChars,hat.lineAt.positionOfChar]

lemma ReadFrom.mem {line : List Char} (h : ReadFrom text line span heading) :
    ⟨span,.heading heading⟩ ∈ sortedElements text := by
  have hraw : (⟨span,heading.level,heading.text.toList⟩ : Found RawHeading) ∈
      outside (code text) (headings text) :=
    mem_outside_headings_iff.2 ⟨line,h.headingAt,h.stop,h.content⟩
  obtain ⟨f,hf,rfl,hvalue⟩ := exists_titled hraw
  have hflag : f.value.2 = heading.isTitle := by
    rw [Bool.eq_iff_iff,isTitle_iff_headingAt hf,h.title,hvalue]
  refine mem_sortedElements_iff.2 (List.mem_map.2 ⟨f,hf,?_⟩)
  rw [headingElement,hvalue,hflag,Span.range,rangeOfChars,h.headingAt.lineAt.positionOfChar,← h.range,
    String.ofList_toList,← h.slug]

end Element

/-- Each line outside fenced blocks that is written as a heading is one, and nothing else is. A heading
starts in the first column, its level and text are those of its line, and it is the title if it is the
first one of level one. -/
theorem parse_headings_exact (text : String) :
    parse text = (sortedElements text.toList).map Found.value ∧
    ((sortedElements text.toList).Pairwise fun f g => f.span.start < g.span.start) ∧
    (∀ start line level, HeadingAt text.toList start line level → ∃ stop heading,
      ⟨⟨start,stop⟩,.heading heading⟩ ∈ sortedElements text.toList) ∧
    ∀ (span : Span) (heading : Heading), ⟨span,.heading heading⟩ ∈ sortedElements text.toList ↔
      ∃ line, ReadFrom text.toList line span heading := by
  refine ⟨parse_eq text,pairwise_sortedElements text.toList,?_,?_⟩
  · intro start line level hat
    obtain ⟨f,hf,rfl,rfl⟩ := exists_of_headingAt hat
    obtain ⟨g,hg,hspan,-⟩ := exists_titled hf
    have hmem : headingElement text.toList g ∈ sortedElements text.toList :=
      mem_sortedElements_iff.2 (List.mem_map_of_mem hg)
    rw [← hspan]
    exact ⟨g.span.stop,_,hmem⟩
  · intro span heading
    constructor
    · exact exists_readFrom
    · intro h
      obtain ⟨line,hline⟩ := h
      exact hline.mem

example : titledHeadings "## a # \r\n#  \n#x\n\x60\x60\x60\n# c\n\x60\x60\x60\n# b#".toList =
    [⟨⟨0,7⟩,⟨2,['a']⟩,false⟩,⟨⟨9,12⟩,⟨1,[]⟩,true⟩,⟨⟨28,32⟩,⟨1,['b','#']⟩,false⟩] := by
  decide +kernel

end NoteIndex.Markup
