/-! Search of a text for forms that do not overlap, from left to right. -/
namespace NoteIndex.Markup

/-- A stretch of characters of a text, from `start` up to `stop`, which is left out. -/
structure Span where
  start : Nat
  stop : Nat
  deriving DecidableEq, Repr

/-- Whether `inner` lies in `outer`. -/
def Span.covers (outer inner : Span) : Bool :=
  decide (outer.start ≤ inner.start) && decide (inner.stop ≤ outer.stop)

/-- Something found in a text, and where. -/
structure Found (α : Type) where
  span : Span
  value : α
  deriving DecidableEq, Repr

/-- What a form looks like at one place of a text: given the character before the place and the
text from there on, the length of the form and what it stands for. A form that stands for nothing
is passed over. -/
abbrev Form (α : Type) := Option Char → List Char → Option (Nat × Option α)

/-- The forms in the text from `index` on, after skipping `skip` characters. The search for the
next form starts at the end of the last one. -/
def findFrom {α : Type} (form : Form α) (skip : Nat) (before : Option Char) (index : Nat) :
    List Char → List (Found α)
  | [] => []
  | c :: rest =>
    match skip with
    | skip + 1 => findFrom form skip (some c) (index + 1) rest
    | 0 =>
      match form before (c :: rest) with
      | none => findFrom form 0 (some c) (index + 1) rest
      | some (length, none) => findFrom form (length - 1) (some c) (index + 1) rest
      | some (length, some value) =>
        ⟨⟨index, index + length⟩, value⟩ :: findFrom form (length - 1) (some c) (index + 1) rest

/-- All forms in a text. -/
def find {α : Type} (form : Form α) (text : List Char) : List (Found α) :=
  findFrom form 0 none 0 text

/-- Whether a line starts after `before`, where only line feeds end lines. -/
def atLineStart (before : Option Char) : Bool :=
  match before with
  | none => true
  | some c => c == '\n'

end NoteIndex.Markup
