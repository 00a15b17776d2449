import NoteIndex.Glob.Basic

/-! Reading of globs, character by character. -/
namespace NoteIndex.Glob

/-- An open group of branches: the finished ones, and the tokens of the current one from last to
first. -/
structure Level where
  finished : List (List Token)
  current : List Token

/-- A character class up to the current character. -/
structure ClassState where
  negated : Bool
  first : Bool
  inRange : Bool
  /-- From last to first. -/
  ranges : List (Char × Char)

/-- What the characters just read have begun. Stars keep the character that stands before them. -/
inductive Mode where
  | plain
  | escape
  | oneStar (before : Option Char)
  | twoStars (before : Option Char)
  | classStart
  | inClass (state : ClassState)

structure State where
  level : Level
  /-- The levels around the current one, from the innermost out. -/
  outer : List Level
  /-- The character read last. -/
  last : Option Char
  mode : Mode

namespace State

def start : State := ⟨⟨[], []⟩, [], none, .plain⟩

def push (state : State) (token : Token) : State :=
  { state with level := { state.level with current := token :: state.level.current } }

def inGroup (state : State) : Bool := !state.outer.isEmpty

def openGroup (state : State) : State :=
  { state with level := ⟨[], []⟩, outer := state.level :: state.outer }

/-- The next branch of the current group. -/
def nextBranch (state : State) : State :=
  { state with level := ⟨state.level.finished ++ [state.level.current.reverse], []⟩ }

def closeGroup (state : State) : Except Fault State :=
  match state.outer with
  | [] => .error .unopenedGroup
  | level :: outer =>
    let branches := state.level.finished ++ [state.level.current.reverse]
    .ok ({ state with level := level, outer := outer }.push (.choice branches))

/-- Reads a character outside classes, escapes and stars. -/
def plainStep (state : State) (c : Char) : Except Fault State :=
  let next := { state with last := some c, mode := .plain }
  if c = '?' then .ok (next.push .anyByte)
  else if c = '*' then .ok { next with mode := .oneStar state.last }
  else if c = '[' then .ok { next with mode := .classStart }
  else if c = '\x7b' then .ok next.openGroup
  else if c = '\x7d' then next.closeGroup
  else if c = ',' then .ok (if state.inGroup then next.nextBranch else next.push (.literal c))
  else if c = '\\' then .ok { next with mode := .escape }
  else .ok (next.push (.literal c))

def pushTwoStars (state : State) : State := (state.push .star).push .star

/-- Puts directories in the place of the slash before two stars. Directories that are there
already stay. -/
def replaceLast (state : State) (token : Token) : State :=
  match state.level.current with
  | .leading :: _ => state
  | .trailing :: _ => state
  | _ :: rest => { state with level := { state.level with current := token :: rest } }
  | [] => state.push token

/-- The meaning of two stars, given the character before them and the next one: the state, and
whether it takes in the next character, which is then a slash. Two stars stand for directories only
between slashes or the ends of a branch. -/
def endTwoStars (state : State) (before next : Option Char) : State × Bool :=
  if state.level.current.isEmpty then
    if next.all (· == '/') then (state.push .leading, true) else (state.pushTwoStars, false)
  else if before != some '/' && !(state.inGroup && (before == some ',' || before == some '\x7b')) then
    (state.pushTwoStars, false)
  else
    match next with
    | none => (state.replaceLast .trailing, false)
    | some c =>
      if state.inGroup && (c == ',' || c == '\x7d') then (state.replaceLast .trailing, false)
      else if c == '/' then (state.replaceLast .between, true)
      else (state.pushTwoStars, false)

/-- Reads a character of a class. A bracket or dash that comes first stands for itself, and so does
a dash at the end. -/
def classStep (state : State) (cls : ClassState) (c : Char) : Except Fault State :=
  let next := { state with last := some c }
  let go (inRange : Bool) (ranges : List (Char × Char)) : Except Fault State :=
    .ok { next with mode := .inClass ⟨cls.negated, false, inRange, ranges⟩ }
  let extend : Except Fault State :=
    match cls.ranges with
    | (low, _) :: rest => if c < low then .error (.invalidRange low c) else go false ((low, c) :: rest)
    | [] => go false [(c, c)]
  if c = ']' && !cls.first then
    let ranges := if cls.inRange then ('-', '-') :: cls.ranges else cls.ranges
    .ok ({ next with mode := .plain }.push (.range cls.negated ranges.reverse))
  else if c = '-' && !cls.first && !cls.inRange then go true cls.ranges
  else if cls.inRange then extend
  else go false ((c, c) :: cls.ranges)

/-- Reads a character. -/
def step (state : State) (c : Char) : Except Fault State :=
  match state.mode with
  | .plain => state.plainStep c
  | .escape => .ok ({ state with last := some c, mode := .plain }.push (.literal c))
  | .oneStar before =>
    if c = '*' then .ok { state with last := some c, mode := .twoStars before }
    else (state.push .star).plainStep c
  | .twoStars before =>
    match state.endTwoStars before (some c) with
    | (next, true) => .ok { next with last := some c, mode := .plain }
    | (next, false) => next.plainStep c
  | .classStart =>
    if c = '!' || c = '^' then
      .ok { state with last := some c, mode := .inClass ⟨true, true, false, []⟩ }
    else state.classStep ⟨false, true, false, []⟩ c
  | .inClass cls => state.classStep cls c

/-- The tokens of a glob that ends here. -/
def finish (state : State) : Except Fault (List Token) :=
  let close (state : State) : Except Fault (List Token) :=
    if state.inGroup then .error .unclosedGroup else .ok state.level.current.reverse
  match state.mode with
  | .plain => close state
  | .escape => .error .danglingEscape
  | .oneStar _ => close (state.push .star)
  | .twoStars before => close (state.endTwoStars before none).1
  | .classStart => .error .unclosedClass
  | .inClass _ => .error .unclosedClass

end State

/-- The tokens of a glob. -/
def parse (text : List Char) : Except Fault (List Token) := do
  (← text.foldlM State.step State.start).finish

end NoteIndex.Glob
