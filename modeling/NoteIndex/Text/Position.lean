import NoteIndex.Text.Line

/-! Positions in a text by line and column, where columns count UTF-16 code units, and ranges
between two positions. -/
namespace NoteIndex.Text

/-- A line and a column, both from zero, as 32-bit numbers. -/
structure Position where
  line : UInt32
  character : UInt32
  deriving DecidableEq, Repr, Inhabited

namespace Position

/-- Positions are compared by line, then by column. -/
protected def le (p q : Position) : Bool :=
  decide (p.line < q.line) || (p.line == q.line && decide (p.character ≤ q.character))

instance : LE Position := ⟨fun p q => p.le q = true⟩

instance (p q : Position) : Decidable (p ≤ q) := inferInstanceAs (Decidable (p.le q = true))

end Position

/-- The stretch from `start` to `stop`. -/
structure Range where
  start : Position
  stop : Position
  deriving DecidableEq, Repr, Inhabited

/-- Whether a range holds a position, both ends included. -/
def Range.includes (range : Range) (p : Position) : Bool :=
  decide (range.start ≤ p) && decide (p ≤ range.stop)

/-- The number of UTF-16 code units of a character. -/
def units16 (c : Char) : Nat := if c.toNat < 0x10000 then 1 else 2

/-- The line and column `count` characters further on, from a given line and column. -/
def locateFrom (line column : Nat) : Nat → List Char → Nat × Nat
  | 0, _ => (line, column)
  | _ + 1, [] => (line, column)
  | count + 1, c :: rest =>
    if endsLine c rest then locateFrom (line + 1) 0 count rest
    else locateFrom line (column + units16 c) count rest

/-- The position of a character, given by the number of characters before it. -/
def positionOfChar (text : List Char) (index : Nat) : Position :=
  let place := locateFrom 0 0 index text
  ⟨UInt32.ofNat place.1, UInt32.ofNat place.2⟩

/-- The number of whole characters in the first `count` bytes of the UTF-8 form. -/
def charsInBytes : Nat → List Char → Nat
  | _, [] => 0
  | count, c :: rest => if count < c.utf8Size then 0 else 1 + charsInBytes (count - c.utf8Size) rest

/-- The position of a byte of the UTF-8 form. A byte inside a character stands for the start of
the character, and a byte past the end for the end. -/
def positionOfByte (text : List Char) (byte : Nat) : Position :=
  positionOfChar text (charsInBytes byte text)

/-- The number of whole characters in the first `count` UTF-16 code units. -/
def charsInUnits : Nat → List Char → Nat
  | _, [] => 0
  | count, c :: rest => if count < units16 c then 0 else 1 + charsInUnits (count - units16 c) rest

/-- The number of characters before a position, in a text given by its lines. A line past the end
stands for the end of the text, a column past the end of a line for the end of its content. -/
def charOfPlace : Nat → Nat → List (List Char) → Nat
  | _, _, [] => 0
  | 0, column, line :: _ => charsInUnits column (lineContent line)
  | n + 1, column, line :: rest => line.length + charOfPlace n column rest

def charOfPosition (text : List Char) (p : Position) : Nat :=
  charOfPlace p.line.toNat p.character.toNat (lines text)

/-- The range of the characters from the `first` up to the `last`, which is left out. -/
def rangeOfChars (text : List Char) (first last : Nat) : Range :=
  ⟨positionOfChar text first, positionOfChar text last⟩

example : positionOfChar "a😀b\nc".toList 2 = ⟨0, 3⟩ := by decide
example : charOfPosition "a😀b\nc".toList ⟨0, 2⟩ = 1 := by decide
example : charOfPosition "a\nc".toList ⟨0, 9⟩ = 1 := by decide

end NoteIndex.Text
