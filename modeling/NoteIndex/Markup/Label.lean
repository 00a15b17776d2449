import NoteIndex.Text.Blank
import NoteIndex.Markup.InlineLink

/-! Labels: link definitions `[label]: url` and their uses `[label]`, `[text][label]` and
`[label][]`. -/
namespace NoteIndex.Markup

open Text

/-- Parts of a link definition as found. -/
structure RawDefinition where
  label : List Char
  url : List Char
  deriving DecidableEq, Repr

/-- A definition starts a line, after at most three spaces. A label that starts with a caret is a
footnote. -/
def definitionForm : Form RawDefinition := fun before text =>
  let indent := (text.takeWhile (· == ' ')).length
  if atLineStart before && indent ≤ 3 then
    match text.drop indent with
    | '[' :: body =>
      let label := body.takeWhile isBracketChar
      match body.dropWhile isBracketChar with
      | ']' :: ':' :: rest =>
        let gap := (rest.takeWhile isSpaceOrTab).length
        let url := (rest.drop gap).takeWhile (!isBlank ·)
        if label.isEmpty || label.head? == some '^' || url.isEmpty then none
        else some (indent + label.length + 3 + gap + url.length, some ⟨label, url⟩)
      | _ => none
    | _ => none
  else none

def definitions (text : List Char) : List (Found RawDefinition) := find definitionForm text

/-- A second pair of brackets right after the first: what stands between them. -/
def secondLabel? (text : List Char) : Option (List Char) :=
  match text with
  | '[' :: rest =>
    if (rest.dropWhile isBracketChar).head? == some ']' then some (rest.takeWhile isBracketChar)
    else none
  | _ => none

/-- The label that a pair of brackets uses, if it uses one. Brackets next to others are part of a
wiki link or nested, and single ones before a parenthesis, colon or bracket are part of another
form. -/
def labelUse? (before : Option Char) (label : List Char) (second : Option (List Char))
    (after : Option Char) : Option (List Char) :=
  if before == some '[' || before == some ']' then none
  else
    match second with
    | none => if after == some '(' || after == some ':' || after == some ']' then none else some label
    | some second => some (if (trim second).isEmpty then label else second)

def labelUseForm : Form (List Char) := fun before text =>
  match text with
  | '[' :: body =>
    let label := body.takeWhile isBracketChar
    match body.dropWhile isBracketChar with
    | ']' :: rest =>
      if label.isEmpty then none
      else
        let second := secondLabel? rest
        let length := label.length + 2 + (second.map (·.length + 2)).getD 0
        some (length, labelUse? before label second rest.head?)
    | _ => none
  | _ => none

/-- Brackets that may use a label, with that label. -/
def labelUses (text : List Char) : List (Found (List Char)) := find labelUseForm text

end NoteIndex.Markup
