/-! Lines of a text and the places where they end. -/
namespace NoteIndex.Text

/-- Characters that end a line: the feeds and returns of ASCII, next line, and the line and
paragraph separators. -/
def isLineBreak (c : Char) : Bool :=
  c == '\n' || c == '\x0b' || c == '\x0c' || c == '\r' || c == '\x85'
    || c == '\u2028' || c == '\u2029'

/-- Whether the line ends with `c` when `after` follows. A return before a line feed leaves the
end of the line to the feed. -/
def endsLine (c : Char) (after : List Char) : Bool :=
  isLineBreak c && !(c == '\r' && after.head? == some '\n')

/-- The lines of a text, each with its line break. The last one has none and may be empty. -/
def lines : List Char → List (List Char)
  | [] => [[]]
  | c :: rest =>
    if endsLine c rest then [c] :: lines rest
    else
      match lines rest with
      | [] => [[c]]
      | line :: more => (c :: line) :: more

/-- A line without its return, line feed, or both. Every other line break counts as content. -/
def lineContent (line : List Char) : List Char :=
  match line.reverse with
  | '\n' :: '\r' :: rest => rest.reverse
  | '\n' :: rest => rest.reverse
  | '\r' :: rest => rest.reverse
  | _ => line

example : lines "a\r\nb\rc".toList = [['a', '\r', '\n'], ['b', '\r'], ['c']] := by decide
example : lines "a\n".toList = [['a', '\n'], []] := by decide

end NoteIndex.Text
