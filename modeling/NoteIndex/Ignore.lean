import NoteIndex.Failure
import NoteIndex.Glob.Parser
import NoteIndex.Text.Blank

/-! Ignore patterns: which paths below a root are left out. The first pattern that matches
decides. -/
namespace NoteIndex

namespace Ignore

open Text

/-- A glob as it was written, the shape of the paths that it matches, and whether it keeps them in
or excludes them. -/
structure Pattern where
  includes : Bool
  glob : String
  shape : Glob.Shape
  deriving DecidableEq, Repr

def Pattern.matches (pattern : Pattern) (path : List UInt8) : Bool := pattern.shape.accepts path

/-- The globs of an ignore line without its exclamation mark. A line that starts with a slash is
bound to the root, any other one stands for every directory. A line that ends with a slash stands
for a directory and all that is in it. -/
def lineGlobs (body : List Char) : List (List Char) :=
  let anchored := match body with
    | '/' :: rest => rest
    | _ => "**/".toList ++ body
  if anchored.getLast? == some '/' then
    [anchored.dropLast, anchored.dropLast ++ "/**".toList]
  else [anchored]

/-- The pattern of one glob of an ignore line. -/
def pattern (line : List Char) (includes : Bool) (glob : List Char) : Except Failure Pattern :=
  match Glob.parse glob with
  | .ok tokens => .ok ⟨includes, String.ofList glob, Glob.shapeOf tokens⟩
  | .error fault => .error (.pattern (String.ofList line) (String.ofList glob) fault)

/-- The patterns of an ignore line. Blank lines and comments have none. -/
def parseLine (line : String) : Except Failure (List Pattern) :=
  let line := trimEnd line.toList
  match line with
  | [] => .ok []
  | '#' :: _ => .ok []
  | '!' :: body => (lineGlobs body).mapM (pattern line true)
  | body => (lineGlobs body).mapM (pattern line false)

/-- The patterns of several lines, in order. -/
def parseLines (lines : List String) : Except Failure (List Pattern) := do
  return (← lines.mapM parseLine).flatten

/-- Lines that are always in force, after all others. -/
def defaultLines : List String := [".git/", ".hg/"]

end Ignore

/-- Ignore patterns of the paths below a root. -/
structure Ignore where
  root : Path
  patterns : List Ignore.Pattern
  deriving DecidableEq, Repr

namespace Ignore

def ofLines (root : Path) (lines : List String) : Except Failure Ignore := do
  return ⟨root, ← parseLines lines⟩

def defaults (root : Path) : Ignore :=
  ⟨root, defaultLines.flatMap fun line => (parseLine line).toOption.getD []⟩

/-- Whether the first pattern that matches a path excludes it. -/
def excludes (ignore : Ignore) (path : List UInt8) : Bool :=
  match ignore.patterns.find? (·.matches path) with
  | some pattern => !pattern.includes
  | none => false

/-- A path of the given components. -/
def renderPath : List Component → List UInt8
  | .root :: rest => Path.slash :: Path.joinBytes rest
  | components => Path.joinBytes components

/-- Whether a path, or a directory between the root and the path, is excluded. Paths outside the
root never are. -/
def isIgnored (ignore : Ignore) (path : Path) : Bool :=
  match Path.below? ignore.root path with
  | none => false
  | some inner => (starts inner).any fun start => ignore.excludes (renderPath start)

end Ignore

end NoteIndex
