import NoteIndex.Text.Blank
import NoteIndex.Markup.Scan

/-! Headings: lines that start with one to six number signs. -/
namespace NoteIndex.Markup

open Text

def isSpaceOrTab (c : Char) : Bool := c == ' ' || c == '\t'

/-- The text of a heading without trailing white space and without a closing run of number signs,
which has to be all of the text or stand apart from it. -/
def withoutClosing (text : List Char) : List Char :=
  let text := trimEnd text
  let stripped := dropEndWhile (· == '#') text
  if stripped.length == text.length then text
  else
    match stripped.getLast? with
    | none => []
    | some c => if isSpaceOrTab c then trimEnd stripped else text

/-- Level and text of a heading as found. -/
structure RawHeading where
  level : Nat
  text : List Char
  deriving DecidableEq, Repr

def headingForm : Form RawHeading := fun before text =>
  if atLineStart before then
    let level := (text.takeWhile (· == '#')).length
    let line := (text.drop level).takeWhile fun c => c != '\r' && c != '\n'
    if 1 ≤ level && level ≤ 6 && line.head?.any isSpaceOrTab && 2 ≤ line.length then
      some (level + line.length, some ⟨level, withoutClosing (line.dropWhile isSpaceOrTab)⟩)
    else none
  else none

def headings (text : List Char) : List (Found RawHeading) := find headingForm text

end NoteIndex.Markup
