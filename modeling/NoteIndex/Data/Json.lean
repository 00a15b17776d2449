import NoteIndex.Data.Value
import NoteIndex.Start

/-! Reading of JSON texts. -/
namespace NoteIndex.Data.Json

def isSpace (c : Char) : Bool := c == ' ' || c == '\t' || c == '\n' || c == '\r'

def skipSpace (text : List Char) : List Char := text.dropWhile isSpace

/-- The code point of a `\u` escape, given the text after the `u`. Two halves of a pair of
surrogates have to come together. -/
def unicodeEscape? (text : List Char) : Option (Char × List Char) := do
  let (unit, rest) ← hexNumber? 4 text
  if 0xD800 ≤ unit && unit < 0xDC00 then
    match rest with
    | '\\' :: 'u' :: rest =>
      let (low, rest) ← hexNumber? 4 rest
      if 0xDC00 ≤ low && low < 0xE000 then
        return (← charOf? (0x10000 + (unit - 0xD800) * 0x400 + (low - 0xDC00)), rest)
      else none
    | _ => none
  else return (← charOf? unit, rest)

/-- The character of an escape, given the text after the backslash. -/
def escape? (text : List Char) : Option (Char × List Char) :=
  match text with
  | '"' :: rest => some ('"', rest)
  | '\\' :: rest => some ('\\', rest)
  | '/' :: rest => some ('/', rest)
  | 'b' :: rest => some ('\x08', rest)
  | 'f' :: rest => some ('\x0c', rest)
  | 'n' :: rest => some ('\n', rest)
  | 'r' :: rest => some ('\r', rest)
  | 't' :: rest => some ('\t', rest)
  | 'u' :: rest => unicodeEscape? rest
  | _ => none

/-- The characters of a string up to its closing quote, and the text after it. -/
def stringBody? : Nat → List Char → Option (List Char × List Char)
  | 0, _ => none
  | _ + 1, [] => none
  | fuel + 1, c :: rest =>
    if c = '"' then some ([], rest)
    else if c = '\\' then do
      let (c, rest) ← escape? rest
      let (body, rest) ← stringBody? fuel rest
      return (c :: body, rest)
    else if c < ' ' then none
    else do
      let (body, rest) ← stringBody? fuel rest
      return (c :: body, rest)

/-- The string whose opening quote stands before the text. -/
def string? (text : List Char) : Option (String × List Char) := do
  let (body, rest) ← stringBody? (text.length + 1) text
  return (String.ofList body, rest)

/-- A run of digits, at least one. -/
def digits? (text : List Char) : Option (List Char × List Char) :=
  match text.takeWhile Char.isDigit with
  | [] => none
  | digits => some (digits, text.dropWhile Char.isDigit)

/-- The exponent of a number, zero when it has none. -/
def exponent? (text : List Char) : Option (Option Int × List Char) :=
  match text with
  | c :: rest =>
    if c = 'e' || c = 'E' then
      match rest with
      | '-' :: rest => do
        let (digits, rest) ← digits? rest
        return (some (-(ofDigits 10 digits : Int)), rest)
      | '+' :: rest => do
        let (digits, rest) ← digits? rest
        return (some (ofDigits 10 digits : Int), rest)
      | rest => do
        let (digits, rest) ← digits? rest
        return (some (ofDigits 10 digits : Int), rest)
    else some (none, text)
  | [] => some (none, [])

def fraction? (text : List Char) : Option (Option (List Char) × List Char) :=
  match text with
  | '.' :: rest => do
    let (digits, rest) ← digits? rest
    return (some digits, rest)
  | _ => some (none, text)

/-- The double of a decimal, unless it is out of range. -/
def float? (negative : Bool) (whole fraction : List Char) (exponent : Int) : Option Double :=
  match Double.ofDigits negative whole fraction exponent with
  | .infinite _ => none
  | double => some double

/-- A number. It is an integer if it is written as one and has at most 64 bits. -/
def number? (negative : Bool) (text : List Char) : Option (Value × List Char) := do
  let (whole, rest) ← digits? text
  if whole.head? == some '0' && 1 < whole.length then none
  else
    let (fraction, rest) ← fraction? rest
    let (exponent, rest) ← exponent? rest
    let magnitude := ofDigits 10 whole
    let integer : Int := if negative then -(magnitude : Int) else magnitude
    if fraction.isNone && exponent.isNone && isInt64 integer && !(negative && magnitude == 0) then
      return (.int integer, rest)
    else
      let double ← float? negative whole (fraction.getD []) (exponent.getD 0)
      return (.float double, rest)

/-- The text after a given word. -/
def word? (word : String) (value : Value) (text : List Char) : Option (Value × List Char) :=
  (dropStart? word.toList text).map fun rest => (value, rest)

mutual

/-- A value, with at most `depth` levels of arrays and objects. -/
def value? : Nat → Nat → List Char → Option (Value × List Char)
  | 0, _, _ => none
  | fuel + 1, depth, text =>
    match skipSpace text with
    | '"' :: rest => (string? rest).map fun (s, rest) => (.string s, rest)
    | '[' :: rest =>
      match depth, skipSpace rest with
      | 0, _ => none
      | _, ']' :: rest => some (.array [], rest)
      | depth + 1, rest => (elements? fuel depth rest).map fun (vs, rest) => (.array vs, rest)
    | '\x7b' :: rest =>
      match depth, skipSpace rest with
      | 0, _ => none
      | _, '\x7d' :: rest => some (.table [], rest)
      | depth + 1, rest => (members? fuel depth [] rest).map fun (es, rest) => (.table es, rest)
    | '-' :: rest => number? true rest
    | 't' :: rest => word? "rue" (.bool true) rest
    | 'f' :: rest => word? "alse" (.bool false) rest
    | 'n' :: rest => word? "ull" .null rest
    | rest => number? false rest

/-- The elements of an array up to its end, at least one. -/
def elements? : Nat → Nat → List Char → Option (List Value × List Char)
  | 0, _, _ => none
  | fuel + 1, depth, text => do
    let (value, rest) ← value? fuel depth text
    match skipSpace rest with
    | ',' :: rest =>
      let (values, rest) ← elements? fuel depth rest
      return (value :: values, rest)
    | ']' :: rest => return ([value], rest)
    | _ => none

/-- The members of an object up to its end, at least one, after those read before. A later member
replaces an earlier one of the same name. -/
def members? : Nat → Nat → List (String × Value) → List Char →
    Option (List (String × Value) × List Char)
  | 0, _, _, _ => none
  | fuel + 1, depth, entries, text => do
    match skipSpace text with
    | '"' :: rest =>
      let (key, rest) ← string? rest
      match skipSpace rest with
      | ':' :: rest =>
        let (value, rest) ← value? fuel depth rest
        let entries := store entries key value
        match skipSpace rest with
        | ',' :: rest => members? fuel depth entries rest
        | '\x7d' :: rest => return (entries, rest)
        | _ => none
      | _ => none
    | _ => none

end

/-- How deep arrays and objects may be nested. -/
def depthLimit : Nat := 127

/-- The value of a JSON text. -/
def parse? (text : List Char) : Option Value := do
  let (value, rest) ← value? (2 * text.length + 2) depthLimit text
  if (skipSpace rest).isEmpty then some value else none

end NoteIndex.Data.Json
