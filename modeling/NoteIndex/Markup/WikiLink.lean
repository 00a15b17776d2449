import NoteIndex.Text.Blank
import NoteIndex.Markup.Scan

/-! Wiki links: `[[target#anchor|display]]`. -/
namespace NoteIndex.Markup

open Text

/-- Characters of the text that is shown for a wiki link. -/
def isDisplayChar (c : Char) : Bool := c != '[' && c != ']' && c != '\n'

def isAnchorChar (c : Char) : Bool := isDisplayChar c && c != '|'

def isTargetChar (c : Char) : Bool := isAnchorChar c && c != '#'

/-- Target and anchor of a wiki link as found. -/
structure RawWikiLink where
  target : Option (List Char)
  anchor : Option (List Char)
  deriving DecidableEq, Repr

/-- The part of a link that a mark introduces, if the mark is there: its characters and what
follows them. -/
def markedPart (mark : Char) (isPart : Char → Bool) (text : List Char) :
    Option (List Char) × List Char :=
  match text with
  | c :: rest => if c == mark then (some (rest.takeWhile isPart), rest.dropWhile isPart) else (none, text)
  | [] => (none, [])

/-- The length of an optional part with its mark. -/
def markedLength (part : Option (List Char)) : Nat :=
  match part with
  | none => 0
  | some chars => chars.length + 1

def wikiLinkForm : Form RawWikiLink := fun _ text =>
  match text with
  | '[' :: '[' :: body =>
    let target := body.takeWhile isTargetChar
    let (anchor, rest) := markedPart '#' isAnchorChar (body.dropWhile isTargetChar)
    let (display, rest) := markedPart '|' isDisplayChar rest
    match rest with
    | ']' :: ']' :: _ =>
      some (target.length + markedLength anchor + markedLength display + 4,
        some ⟨trimmed? target, anchor.bind trimmed?⟩)
    | _ => none
  | _ => none

def wikiLinks (text : List Char) : List (Found RawWikiLink) := find wikiLinkForm text

end NoteIndex.Markup
