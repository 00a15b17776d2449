import NoteIndex.Text.Utf8
import NoteIndex.Glob.Shape

/-! Tokens of glob patterns and the shapes of the paths that they match. -/
namespace NoteIndex.Glob

inductive Token where
  | literal (c : Char)
  /-- One byte but a slash. -/
  | anyByte
  /-- Any number of bytes but slashes. -/
  | star
  /-- Leading directories, none included. -/
  | leading
  /-- Everything below a directory. -/
  | trailing
  /-- Directories in between, none included. -/
  | between
  /-- One byte out of ranges of characters, or outside them. -/
  | range (negated : Bool) (ranges : List (Char × Char))
  | choice (branches : List (List Token))

/-- Why a glob cannot be read. -/
inductive Fault where
  | unclosedClass
  | invalidRange (low high : Char)
  | danglingEscape
  | unclosedGroup
  | unopenedGroup
  deriving DecidableEq, Repr

def Fault.message : Fault → String
  | unclosedClass => "unclosed character class; missing ']'"
  | invalidRange low high =>
    "invalid range; '" ++ low.toString ++ "' > '" ++ high.toString ++ "'"
  | danglingEscape => "dangling '\\'"
  | unclosedGroup =>
    "unclosed alternate group; missing '\x7d' (maybe escape '\x7b' with '[\x7b]'?)"
  | unopenedGroup =>
    "unopened alternate group; missing '\x7b' (maybe escape '\x7d' with '[\x7d]'?)"

def slash : Shape := .byte (.single 0x2F)

/-- Everything up to a slash. -/
def throughSlash : Shape := .seq (.many .every) slash

/-- The intervals of a range of characters. The bytes of both ends stand for themselves, and the
last byte of the low end and the first byte of the high end bound an interval. -/
def byteIntervals (range : Char × Char) : List (UInt8 × UInt8) :=
  let low := Text.encodeChar range.1
  let high := Text.encodeChar range.2
  if range.1 = range.2 then low.map fun b => (b, b)
  else
    (low.dropLast.map fun b => (b, b)) ++ [(low.getLastD 0, high.headD 0)]
      ++ (high.drop 1).map fun b => (b, b)

mutual

/-- The shape of a token. A choice without branches that say anything has none. -/
def Token.shape? : Token → Option Shape
  | .literal c => some (.sequence ((Text.encodeChar c).map fun b => .byte (.single b)))
  | .anyByte => some (.byte .noSlash)
  | .star => some (.many .noSlash)
  | .leading => some (.either (.either slash .empty) throughSlash)
  | .trailing => some (.seq slash (.many .every))
  | .between => some (.either slash (.seq slash throughSlash))
  | .range negated ranges => some (.byte ⟨negated, ranges.flatMap byteIntervals⟩)
  | .choice branches =>
    match branchShapes branches with
    | [] => none
    | first :: rest => some (.choice first rest)

/-- The shapes of tokens one after the other. -/
def tokenShapes : List Token → List Shape
  | [] => []
  | token :: rest => token.shape?.toList ++ tokenShapes rest

/-- The shapes of the branches that say anything. -/
def branchShapes : List (List Token) → List Shape
  | [] => []
  | branch :: rest =>
    match tokenShapes branch with
    | [] => branchShapes rest
    | shapes => .sequence shapes :: branchShapes rest

end

/-- The shape of a glob. Leading directories alone stand for everything. -/
def shapeOf (tokens : List Token) : Shape :=
  match tokens with
  | [.leading] => .many .every
  | _ => .sequence (tokenShapes tokens)

end NoteIndex.Glob
