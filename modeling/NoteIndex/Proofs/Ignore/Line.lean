import NoteIndex.Ignore
import NoteIndex.Log
import NoteIndex.Proofs.Text.Trim

/-! Ignore lines and their patterns. The patterns of several lines are those of each line, in order, and a
line that excludes has one pattern, or two if it ends with a slash. -/
namespace NoteIndex.Ignore

open Text Glob

lemma parseLines_cons_eq_ok_iff {line : String} {rest : List String} {patterns : List Pattern} :
    parseLines (line :: rest) = .ok patterns ↔ ∃ first more,
      parseLine line = .ok first ∧ parseLines rest = .ok more ∧ patterns = first ++ more := by
  unfold parseLines
  simp only [List.mapM_cons,bind_eq_ok_iff,pure,Except.pure,Except.ok.injEq]
  constructor
  · rintro ⟨all,⟨first,hfirst,more,hmore,rfl⟩,rfl⟩
    exact ⟨first,more.flatten,hfirst,⟨more,hmore,rfl⟩,rfl⟩
  · rintro ⟨first,_,hfirst,⟨more,hmore,rfl⟩,rfl⟩
    exact ⟨first :: more,⟨first,hfirst,more,hmore,rfl⟩,rfl⟩

lemma parseLines_append_eq_ok_iff {front back : List String} {patterns : List Pattern} :
    parseLines (front ++ back) = .ok patterns ↔ ∃ first more,
      parseLines front = .ok first ∧ parseLines back = .ok more ∧ patterns = first ++ more := by
  induction front generalizing patterns with
  | nil =>
    have hnil : parseLines [] = .ok [] := rfl
    simp [hnil]
  | cons line front ih =>
    simp only [List.cons_append,parseLines_cons_eq_ok_iff,ih]
    constructor
    · rintro ⟨first,_,hfirst,⟨second,more,hsecond,hmore,rfl⟩,rfl⟩
      exact ⟨first ++ second,more,⟨first,second,hfirst,hsecond,rfl⟩,hmore,by simp⟩
    · rintro ⟨_,more,⟨first,second,hfirst,hsecond,rfl⟩,hmore,rfl⟩
      exact ⟨first,second ++ more,hfirst,⟨second,more,hsecond,hmore,rfl⟩,by simp⟩

lemma ofLines_eq_ok_iff {root : Path} {lines : List String} {ignore : Ignore} :
    ofLines root lines = .ok ignore ↔
      ∃ patterns, parseLines lines = .ok patterns ∧ ignore = ⟨root,patterns⟩ := by
  unfold ofLines
  simp only [bind_eq_ok_iff,pure,Except.pure,Except.ok.injEq,eq_comm (b := ignore)]

lemma ofLines_singleton_eq_ok_iff {root : Path} {line : String} {ignore : Ignore} :
    ofLines root [line] = .ok ignore ↔
      ∃ patterns, parseLine line = .ok patterns ∧ ignore = ⟨root,patterns⟩ := by
  have hnil : parseLines [] = .ok [] := rfl
  simp [ofLines_eq_ok_iff,parseLines_cons_eq_ok_iff,hnil]

lemma pattern_eq_ok_iff {line glob : List Char} {includes : Bool} {found : Pattern} :
    pattern line includes glob = .ok found ↔ ∃ tokens,
      Glob.parse glob = .ok tokens ∧ found = ⟨includes,String.ofList glob,shapeOf tokens⟩ := by
  unfold pattern
  cases Glob.parse glob with
  | error fault => simp
  | ok tokens => simp [eq_comm]

/-- A line takes in what its patterns match if it starts with an exclamation mark, else it excludes it. -/
lemma includes_iff {line : String} {patterns : List Pattern} (h : parseLine line = .ok patterns)
    {found : Pattern} (hfound : found ∈ patterns) :
    found.includes = true ↔ line.toList.head? = some '!' := by
  obtain ⟨tail,hsplit,-⟩ := (dropEndWhile_eq_iff.1 (Eq.refl (trimEnd line.toList))).split
  unfold parseLine at h
  dsimp only at h
  split at h
  · cases h
    simp at hfound
  · cases h
    simp at hfound
  · rename_i body hline
    obtain ⟨glob,-,hglob⟩ := exists_of_mem_mapM h found hfound
    obtain ⟨tokens,-,rfl⟩ := pattern_eq_ok_iff.1 hglob
    rw [hsplit,hline]
    simp
  · rename_i hne _ hmark
    obtain ⟨glob,-,hglob⟩ := exists_of_mem_mapM h found hfound
    obtain ⟨tokens,-,rfl⟩ := pattern_eq_ok_iff.1 hglob
    rw [hsplit,List.head?_append_of_ne_nil _ hne]
    simp only [Bool.false_eq_true,false_iff]
    intro hhead
    obtain ⟨rest,hrest⟩ := List.head?_eq_some_iff.1 hhead
    exact hmark rest hrest

/-- A line that is neither a comment nor marked, and ends neither with a slash nor with white space. -/
structure Unmarked (line : List Char) : Prop where
  ne_nil : line ≠ []
  head : line.head? ≠ some '#' ∧ line.head? ≠ some '!'
  last : ∀ c, line.getLast? = some c → c ≠ '/' ∧ isBlank c = false

/-- The glob of a line that excludes and does not end with a slash. -/
def anchored (line : List Char) : List Char :=
  if line.head? = some '/' then line.tail else "**/".toList ++ line

/-- The pattern that excludes what a glob matches. -/
def exclusion (glob : List Char) (tokens : List Token) : Pattern :=
  ⟨false,String.ofList glob,shapeOf tokens⟩

lemma matches_exclusion_iff (glob : List Char) (tokens : List Token) (path : List UInt8) :
    (exclusion glob tokens).matches path = true ↔ (shapeOf tokens).Matches path :=
  Shape.accepts_iff _ _

lemma lineGlobs_eq (body : List Char) : lineGlobs body =
    if (anchored body).getLast? = some '/' then
      [(anchored body).dropLast,(anchored body).dropLast ++ "/**".toList]
    else [anchored body] := by
  unfold lineGlobs anchored
  by_cases hhead : body.head? = some '/'
  · obtain ⟨rest,rfl⟩ := List.head?_eq_some_iff.1 hhead
    simp
  · simp only [if_neg hhead]
    split
    · exact absurd rfl hhead
    · simp

lemma parseLine_of_trimmed {line : List Char} (htrim : trimEnd line = line) (hne : line ≠ [])
    (hhead : line.head? ≠ some '#' ∧ line.head? ≠ some '!') :
    parseLine (String.ofList line) = (lineGlobs line).mapM (pattern line false) := by
  unfold parseLine
  rw [String.toList_ofList,htrim]
  dsimp only
  split
  · exact absurd rfl hne
  · exact absurd rfl hhead.1
  · exact absurd rfl hhead.2
  · rfl

namespace Unmarked

variable {line : List Char}

lemma anchored_append (h : Unmarked line) (more : List Char) :
    anchored (line ++ more) = anchored line ++ more := by
  obtain ⟨c,rest,rfl⟩ := List.exists_cons_of_ne_nil h.ne_nil
  unfold anchored
  by_cases hc : c = '/' <;> simp [hc]

lemma getLast?_anchored (h : Unmarked line) : (anchored line).getLast? ≠ some '/' := by
  have hlast : line.getLast? ≠ some '/' := fun hc => (h.last _ hc).1 rfl
  unfold anchored
  split
  · rename_i hhead
    obtain ⟨rest,rfl⟩ := List.head?_eq_some_iff.1 hhead
    intro hrest
    rw [List.getLast?_cons] at hlast
    simp only [List.tail_cons] at hrest
    simp [hrest] at hlast
  · rwa [List.getLast?_append_of_ne_nil _ h.ne_nil]

/-- A line without a slash at its end has one pattern. -/
lemma parseLine_eq_ok_iff (h : Unmarked line) {patterns : List Pattern} :
    parseLine (String.ofList line) = .ok patterns ↔ ∃ tokens,
      Glob.parse (anchored line) = .ok tokens ∧ patterns = [exclusion (anchored line) tokens] := by
  have htrim : trimEnd line = line :=
    dropEndWhile_eq_iff.2 ⟨⟨[],by simp,by simp⟩,fun c hc => (h.last c hc).2⟩
  rw [parseLine_of_trimmed htrim h.ne_nil h.head,lineGlobs_eq,if_neg h.getLast?_anchored]
  simp only [List.mapM_cons,List.mapM_nil,bind_eq_ok_iff,pattern_eq_ok_iff,pure,Except.pure,
    Except.ok.injEq]
  constructor
  · rintro ⟨_,⟨tokens,htokens,rfl⟩,_,rfl,rfl⟩
    exact ⟨tokens,htokens,rfl⟩
  · rintro ⟨tokens,htokens,rfl⟩
    exact ⟨_,⟨tokens,htokens,rfl⟩,_,rfl,rfl⟩

/-- A line with a slash at its end has two patterns: one for the directory, and one for what is in it. -/
lemma parseLine_slash_eq_ok_iff (h : Unmarked line) {patterns : List Pattern} :
    parseLine (String.ofList (line ++ ['/'])) = .ok patterns ↔ ∃ tokens below,
      Glob.parse (anchored line) = .ok tokens ∧
      Glob.parse (anchored line ++ "/**".toList) = .ok below ∧
      patterns = [exclusion (anchored line) tokens,
        exclusion (anchored line ++ "/**".toList) below] := by
  have htrim : trimEnd (line ++ ['/']) = line ++ ['/'] := by
    refine dropEndWhile_eq_iff.2 ⟨⟨[],by simp,by simp⟩,?_⟩
    simp only [List.getLast?_append,List.getLast?_singleton,Option.some_or,Option.some.injEq]
    rintro c rfl
    decide
  have hhead : (line ++ ['/']).head? = line.head? := List.head?_append_of_ne_nil _ h.ne_nil
  have hglobs : lineGlobs (line ++ ['/']) = [anchored line,anchored line ++ "/**".toList] := by
    rw [lineGlobs_eq,h.anchored_append,if_pos (by simp),List.dropLast_concat]
  rw [parseLine_of_trimmed htrim (by simp) (by rw [hhead]; exact h.head),hglobs]
  simp only [List.mapM_cons,List.mapM_nil,bind_eq_ok_iff,pattern_eq_ok_iff,pure,Except.pure,
    Except.ok.injEq]
  constructor
  · rintro ⟨_,⟨tokens,htokens,rfl⟩,_,⟨_,⟨below,hbelow,rfl⟩,_,rfl,rfl⟩,rfl⟩
    exact ⟨tokens,below,htokens,hbelow,rfl⟩
  · rintro ⟨tokens,below,htokens,hbelow,rfl⟩
    exact ⟨_,⟨tokens,htokens,rfl⟩,_,⟨_,⟨below,hbelow,rfl⟩,_,rfl,rfl⟩,rfl⟩

end Unmarked

end NoteIndex.Ignore
