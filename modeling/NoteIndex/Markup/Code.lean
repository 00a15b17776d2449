import NoteIndex.Markup.Scan

/-! Code in a text: fenced blocks and inline spans. -/
namespace NoteIndex.Markup

/-- Whether a line opens or closes a fenced block: at most three spaces, then three backticks or
three tildes. -/
def isFenceLine (line : List Char) : Bool :=
  decide ((line.takeWhile (· == ' ')).length ≤ 3)
    && ("```".toList.isPrefixOf (line.dropWhile (· == ' '))
      || "~~~".toList.isPrefixOf (line.dropWhile (· == ' ')))

/-- A fence line, up to its line feed. -/
def fenceLine : Form Unit := fun before text =>
  if atLineStart before && isFenceLine text then
    some ((text.takeWhile (· != '\n')).length, some ())
  else none

/-- Each fence line is closed by the next one. A last one without partner opens nothing. -/
def pairUp : List Span → List Span
  | first :: second :: rest => ⟨first.start, second.stop⟩ :: pairUp rest
  | _ => []

/-- The fenced blocks of a text, with their fence lines. -/
def fences (text : List Char) : List Span := pairUp ((find fenceLine text).map Found.span)

/-- Characters between two backticks on one line. -/
def codeSpan : Form Unit := fun _ text =>
  match text with
  | '\x60' :: rest =>
    let inner := rest.takeWhile fun c => c != '\x60' && c != '\n'
    if !inner.isEmpty && (rest.drop inner.length).head? == some '\x60' then
      some (inner.length + 2, some ())
    else none
  | _ => none

/-- The code spans of a text that lie in none of the given blocks. -/
def codeSpans (blocks : List Span) (text : List Char) : List Span :=
  ((find codeSpan text).map Found.span).filter fun span => !blocks.any (·.covers span)

/-- All code of a text. -/
def code (text : List Char) : List Span :=
  let blocks := fences text
  blocks ++ codeSpans blocks text

end NoteIndex.Markup
