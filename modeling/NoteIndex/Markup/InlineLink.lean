import NoteIndex.Text.Blank
import NoteIndex.Text.Percent
import NoteIndex.Markup.Heading

/-! Inline links: `[text](destination "title")`, where the destination may stand in angle
brackets. -/
namespace NoteIndex.Markup

open Text

/-- Characters between square brackets. -/
def isBracketChar (c : Char) : Bool := c != '[' && c != ']' && c != '\n'

def isAngledChar (c : Char) : Bool := c != '<' && c != '>' && c != '\n'

def isPlainChar (c : Char) : Bool :=
  c != '(' && c != ')' && c != '<' && c != '>' && !isBlank c

/-- Parts of an inline link as found. -/
structure RawInlineLink where
  text : List Char
  url : Option (List Char)
  anchor : Option (List Char)
  deriving DecidableEq, Repr

/-- Undoes percent encoding, unless the bytes that it gives are no text. -/
def decodeUrl (url : List Char) : List Char :=
  (decodeUtf8? (percentDecode (encodeUtf8 url))).getD url

/-- A destination and the text after it. -/
def destination? (text : List Char) : Option (List Char × List Char) :=
  match text with
  | '<' :: rest =>
    match rest.dropWhile isAngledChar with
    | '>' :: after => some (rest.takeWhile isAngledChar, after)
    | _ => none
  | _ => some (text.takeWhile isPlainChar, text.dropWhile isPlainChar)

/-- The text after the end of a link: a closing parenthesis, which a title in quotes may
precede. -/
def linkEnd? (text : List Char) : Option (List Char) :=
  match text with
  | ')' :: rest => some rest
  | c :: _ =>
    if isSpaceOrTab c then
      match text.dropWhile isSpaceOrTab with
      | '"' :: title =>
        match title.dropWhile fun c => c != '"' && c != '\n' with
        | '"' :: ')' :: rest => some rest
        | _ => none
      | _ => none
    else none
  | [] => none

/-- A destination cut at its first number sign. -/
def splitAnchor (destination : List Char) : List Char × Option (List Char) :=
  match destination.dropWhile (· != '#') with
  | [] => (destination, none)
  | _ :: anchor => (destination.takeWhile (· != '#'), some anchor)

/-- An image has the form of a link after an exclamation mark and stands for nothing. -/
def inlineLinkForm : Form RawInlineLink := fun before text =>
  match text with
  | '[' :: body =>
    match body.dropWhile isBracketChar with
    | ']' :: '(' :: rest => do
      let (destination, rest) ← destination? rest
      let rest ← linkEnd? rest
      let (url, anchor) := splitAnchor destination
      let link : RawInlineLink :=
        ⟨body.takeWhile isBracketChar, (trimmed? url).map decodeUrl, anchor.bind trimmed?⟩
      return (text.length - rest.length, if before == some '!' then none else some link)
    | _ => none
  | _ => none

def inlineLinks (text : List Char) : List (Found RawInlineLink) := find inlineLinkForm text

end NoteIndex.Markup
