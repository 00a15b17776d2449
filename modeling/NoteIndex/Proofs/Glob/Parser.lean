import Mathlib.Tactic.Common
import NoteIndex.Glob.Parser
import NoteIndex.Log

/-! Tokens of globs that are put together: a name after leading directories, and everything below what
another glob matches. -/
namespace NoteIndex.Glob

lemma parse_append (first second : List Char) :
    parse (first ++ second) =
      first.foldlM State.step State.start >>= fun state =>
        second.foldlM State.step state >>= State.finish := by
  unfold parse
  rw [List.foldlM_append,bind_assoc]

namespace State

variable {state : State}

section Step

variable {c : Char} {before : Option Char} {next : State}

lemma step_plain (hmode : state.mode = .plain) : state.step c = state.plainStep c := by
  rw [step,hmode]

lemma step_oneStar (hmode : state.mode = .oneStar before) (hc : c ≠ '*') :
    state.step c = (state.push .star).plainStep c := by
  rw [step,hmode]
  exact if_neg hc

/-- A slash that directories take in. -/
lemma step_twoStars_true (hmode : state.mode = .twoStars before)
    (hstars : state.endTwoStars before (some c) = (next,true)) :
    state.step c = .ok { next with last := some c, mode := .plain } := by
  rw [step,hmode]
  simp only [hstars]

lemma step_twoStars_false (hmode : state.mode = .twoStars before)
    (hstars : state.endTwoStars before (some c) = (next,false)) :
    state.step c = next.plainStep c := by
  rw [step,hmode]
  simp only [hstars]

end Step

/-- A slash outside classes, escapes and stars stands for itself. -/
lemma plainStep_slash (state : State) : state.plainStep '/' =
    .ok ({ state with last := some '/', mode := .plain }.push (.literal '/')) := rfl

/-- Two stars at the end, after a slash: everything below, unless directories are there already. -/
lemma finish_stars (state : State) (houter : state.outer = []) (hcurrent : state.level.current ≠ []) :
    "**".toList.foldlM step { state with last := some '/', mode := .plain } >>= finish =
      .ok (state.replaceLast .trailing).level.current.reverse := by
  obtain ⟨⟨finished,current⟩,outer,last,mode⟩ := state
  subst houter
  cases current with
  | nil => exact absurd rfl hcurrent
  | cons token rest => cases token <;> rfl

/-- A slash and two stars at the end: everything below. -/
lemma finish_slash_stars (state : State) (houter : state.outer = []) :
    (state.plainStep '/' >>= fun next => "**".toList.foldlM step next >>= finish) =
      .ok (state.level.current.reverse ++ [.trailing]) := by
  rw [plainStep_slash]
  refine (finish_stars (state.push (.literal '/')) houter (by simp [push])).trans ?_
  simp [push,replaceLast]

@[simp] lemma outer_replaceLast (state : State) (token : Token) :
    (state.replaceLast token).outer = state.outer := by
  unfold replaceLast
  split <;> rfl

@[simp] lemma outer_endTwoStars (state : State) (before next : Option Char) :
    (state.endTwoStars before next).1.outer = state.outer := by
  unfold endTwoStars
  split_ifs
  · rfl
  · rfl
  · rfl
  · cases next with
    | none => exact outer_replaceLast state .trailing
    | some c =>
      dsimp only
      split_ifs
      · exact outer_replaceLast state .trailing
      · exact outer_replaceLast state .between
      · rfl

/-- The tokens of a glob that ends outside groups: with nothing begun, after one star or after two. -/
lemma finish_eq_ok {tokens : List Token} (h : state.finish = .ok tokens) : state.outer = [] ∧
    ((state.mode = .plain ∧ tokens = state.level.current.reverse) ∨
    (∃ before, state.mode = .oneStar before ∧ tokens = state.level.current.reverse ++ [.star]) ∨
    ∃ before, state.mode = .twoStars before ∧
      tokens = (state.endTwoStars before none).1.level.current.reverse) := by
  have hclose : ∀ {last : State}, last.outer = state.outer →
      (if last.inGroup then .error .unclosedGroup else .ok last.level.current.reverse) =
        (.ok tokens : Except Fault _) → state.outer = [] ∧ tokens = last.level.current.reverse := by
    intro last houter hok
    split at hok
    · cases hok
    · rename_i hgroup
      cases hok
      refine ⟨?_,rfl⟩
      simpa [inGroup,houter] using hgroup
  cases hmode : state.mode with
  | plain =>
    rw [finish,hmode] at h
    obtain ⟨houter,htokens⟩ := hclose rfl h
    exact ⟨houter,.inl ⟨rfl,htokens⟩⟩
  | oneStar before =>
    rw [finish,hmode] at h
    obtain ⟨houter,htokens⟩ := hclose (by rfl) h
    exact ⟨houter,.inr (.inl ⟨before,rfl,by simpa [push] using htokens⟩)⟩
  | twoStars before =>
    rw [finish,hmode] at h
    obtain ⟨houter,htokens⟩ := hclose (outer_endTwoStars state before none) h
    exact ⟨houter,.inr (.inr ⟨before,rfl,htokens⟩)⟩
  | escape => simp [finish,hmode] at h
  | classStart => simp [finish,hmode] at h
  | inClass cls => simp [finish,hmode] at h

lemma current_replaceLast_ne_nil (state : State) (token : Token) :
    (state.replaceLast token).level.current ≠ [] := by
  unfold replaceLast
  split <;> simp_all [push]

/-- Directories between slashes become everything below when the glob ends. -/
lemma replaceLast_between (state : State) :
    ((state.replaceLast .between).replaceLast .trailing).level =
      (state.replaceLast .trailing).level := by
  obtain ⟨⟨finished,current⟩,outer,last,mode⟩ := state
  cases current with
  | nil => rfl
  | cons token rest => cases token <;> rfl

lemma current_replaceLast_trailing (state : State) : ∃ rest,
    (state.replaceLast .trailing).level.current = .leading :: rest ∨
      (state.replaceLast .trailing).level.current = .trailing :: rest := by
  unfold replaceLast
  split
  · exact ⟨_,.inl ‹_›⟩
  · exact ⟨_,.inr ‹_›⟩
  · exact ⟨_,.inr rfl⟩
  · exact ⟨_,.inr rfl⟩

/-- A slash and two stars after the end of a glob: everything below what it matches, unless the glob
ends with directories already. -/
lemma finish_subtree {tokens : List Token} (h : state.finish = .ok tokens) :
    "/**".toList.foldlM step state >>= finish = .ok (tokens ++ [.trailing]) ∨
    "/**".toList.foldlM step state >>= finish = .ok tokens ∧
      ∃ front, tokens = front ++ [.leading] ∨ tokens = front ++ [.trailing] := by
  have hsplit : "/**".toList.foldlM step state >>= finish =
      step state '/' >>= fun next => "**".toList.foldlM step next >>= finish := by
    change (['/','*','*'].foldlM step state >>= finish) = _
    rw [List.foldlM_cons,bind_assoc]
    rfl
  rw [hsplit]
  obtain ⟨houter,⟨hmode,rfl⟩ | ⟨before,hmode,rfl⟩ | ⟨before,hmode,htokens⟩⟩ := finish_eq_ok h
  · left
    rw [step_plain hmode,finish_slash_stars state houter]
  · left
    rw [step_oneStar hmode (by decide),finish_slash_stars (state.push .star) houter]
    simp [push]
  · by_cases hempty : state.level.current = []
    · -- Two stars at the start are leading directories, however the glob goes on.
      right
      have hstars : ∀ next : Option Char, next.all (· == '/') = true →
          state.endTwoStars before next = (state.push .leading,true) := by
        intro next hnext
        simp [endTwoStars,hempty,hnext]
      have hleading : tokens = [.leading] := by simp [htokens,hstars none rfl,push,hempty]
      refine ⟨?_,[],.inl hleading⟩
      rw [step_twoStars_true hmode (hstars _ rfl),hleading]
      refine (finish_stars (state.push .leading) houter (by simp [push])).trans ?_
      simp [push,replaceLast,hempty]
    · by_cases hbefore : before = some '/'
      · -- The stars stand for directories whether or not a slash comes next.
        right
        have hslash : state.endTwoStars before (some '/') = (state.replaceLast .between,true) := by
          simp [endTwoStars,hempty,hbefore,inGroup,houter]
        have hlast : tokens = (state.replaceLast .trailing).level.current.reverse := by
          simp [htokens,endTwoStars,hempty,hbefore]
        constructor
        · rw [step_twoStars_true hmode hslash,hlast,← replaceLast_between]
          exact finish_stars _ (by simpa using houter) (current_replaceLast_ne_nil _ _)
        · obtain ⟨rest,hrest | hrest⟩ := current_replaceLast_trailing state
          · exact ⟨rest.reverse,.inl (by simp [hlast,hrest])⟩
          · exact ⟨rest.reverse,.inr (by simp [hlast,hrest])⟩
      · left
        have hstars : ∀ next, state.endTwoStars before next = (state.pushTwoStars,false) := by
          intro next
          simp [endTwoStars,hempty,hbefore,inGroup,houter]
        rw [step_twoStars_false hmode (hstars _),htokens,hstars,
          finish_slash_stars state.pushTwoStars houter]

/-- Characters that have a meaning of their own outside classes. -/
def metaChars : List Char := ['?','*','[','\x7b','\x7d',',','\\']

lemma plainStep_literal {c : Char} (h : c ∉ metaChars) (state : State) : state.plainStep c =
    .ok ({ state with last := some c, mode := .plain }.push (.literal c)) := by
  simp only [metaChars,List.mem_cons,List.not_mem_nil,or_false,not_or] at h
  obtain ⟨hany,hstar,hclass,hopen,hclose,hcomma,hescape⟩ := h
  simp only [plainStep,hany,hstar,hclass,hopen,hclose,hcomma,hescape,if_false]

/-- Characters that stand for themselves are read one by one. -/
lemma foldlM_literals {text : List Char} (h : ∀ c ∈ text, c ∉ metaChars) (state : State)
    (hmode : state.mode = .plain) : ∃ last, text.foldlM step state =
      .ok ⟨⟨state.level.finished,(text.map .literal).reverse ++ state.level.current⟩,state.outer,last,
        .plain⟩ := by
  induction text generalizing state with
  | nil =>
    refine ⟨state.last,?_⟩
    rw [← hmode]
    rfl
  | cons c text ih =>
    obtain ⟨hc,htext⟩ := List.forall_mem_cons.1 h
    obtain ⟨last,hlast⟩ := ih htext ({ state with last := some c, mode := .plain }.push (.literal c)) rfl
    refine ⟨last,?_⟩
    rw [List.foldlM_cons,step_plain hmode,plainStep_literal hc]
    refine hlast.trans ?_
    simp [push]

end State

/-- A slash and two stars added to a glob: everything below what the glob matches, unless it ends with
directories already. -/
theorem parse_append_subtree {glob : List Char} {tokens : List Token} (h : parse glob = .ok tokens) :
    parse (glob ++ "/**".toList) = .ok (tokens ++ [.trailing]) ∨
    parse (glob ++ "/**".toList) = .ok tokens ∧
      ∃ front, tokens = front ++ [.leading] ∨ tokens = front ++ [.trailing] := by
  obtain ⟨state,hstate,hfinish⟩ := bind_eq_ok_iff.1 h
  rw [parse_append,hstate]
  exact State.finish_subtree hfinish

/-- A name after leading directories. -/
theorem parse_anywhere {name : List Char} (h : ∀ c ∈ name, c ∉ State.metaChars) :
    parse ("**/".toList ++ name) = .ok (.leading :: name.map .literal) := by
  have hstart : "**/".toList.foldlM State.step State.start =
      .ok ⟨⟨[],[.leading]⟩,[],some '/',.plain⟩ := rfl
  obtain ⟨last,hlast⟩ := State.foldlM_literals h ⟨⟨[],[.leading]⟩,[],some '/',.plain⟩ rfl
  rw [parse_append,hstart]
  refine (congrArg (· >>= State.finish) hlast).trans ?_
  simp [State.finish,State.inGroup,bind,Except.bind]

end NoteIndex.Glob
