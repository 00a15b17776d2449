import NoteIndex.Text.Blank
import NoteIndex.Text.Alphanumeric
import NoteIndex.Text.Lowercase

/-! Slugs: the anchors of headings and the names of documents, and labels in normal form. -/
namespace NoteIndex.Markup

open Text

/-- White space and dashes stand between the words of a slug. -/
def isSlugBreak (c : Char) : Bool := isBlank c || c == '-'

def isSlugChar (c : Char) : Bool := isAlphanumeric c || c == '_'

/-- Slug characters in lower case, with one dash wherever breaks stood between two of them.
`started` once a character has been kept, `pending` when a break has followed the last one. -/
def slugChars (started pending : Bool) : List Char → List Char
  | [] => []
  | c :: rest =>
    if isSlugBreak c then slugChars started true rest
    else if isSlugChar c then
      (if pending && started then ['-'] else []) ++ lowercaseChar c ++ slugChars true false rest
    else slugChars started pending rest

/-- The anchor of a heading or link fragment. -/
def slug (text : String) : String := String.ofList (slugChars false false (trim text.toList))

/-- Labels are equal up to letter case and the white space between their words. -/
def normalizeLabel (label : String) : String :=
  lowercaseString (String.ofList ([' '].intercalate (words label.toList)))

example : slug "  Hello,   World! " = "hello-world" := by decide
example : normalizeLabel "Foo  Bar" = "foo bar" := by decide

end NoteIndex.Markup
