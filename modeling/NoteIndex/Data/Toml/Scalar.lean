import NoteIndex.Data.Value

/-! Numbers, dates and times, and strings of TOML texts. -/
namespace NoteIndex.Data.Toml

/-- A run of digits, at least one, where single underscores may stand between two of them. -/
def digitRun (isDigit : Char → Bool) : List Char → List Char × List Char
  | '_' :: c :: rest =>
    if isDigit c then
      let (digits, rest) := digitRun isDigit rest
      (c :: digits, rest)
    else ([], '_' :: c :: rest)
  | c :: rest =>
    if isDigit c then
      let (digits, rest) := digitRun isDigit rest
      (c :: digits, rest)
    else ([], c :: rest)
  | [] => ([], [])

def digits? (isDigit : Char → Bool) (text : List Char) : Option (List Char × List Char) :=
  match text with
  | c :: _ =>
    if isDigit c then some (digitRun isDigit text) else none
  | [] => none

/-- A sign, if there is one: whether it is a minus. -/
def sign (text : List Char) : Bool × List Char :=
  match text with
  | '-' :: rest => (true, rest)
  | '+' :: rest => (false, rest)
  | _ => (false, text)

/-- Decimal digits without leading zero. -/
def decimal? (text : List Char) : Option (List Char × List Char) :=
  match text with
  | '0' :: rest => some (['0'], rest)
  | _ => digits? Char.isDigit text

def isOctal (c : Char) : Bool := '0' ≤ c && c ≤ '7'

def isBinary (c : Char) : Bool := c == '0' || c == '1'

/-- An integer of 64 bits, decimal or with the mark of another base. -/
def integer? (text : List Char) : Option (Value × List Char) := do
  let (n, rest) ← match text with
    | '0' :: 'x' :: rest => (digits? isHexDigit rest).map fun (ds, rest) => ((ofDigits 16 ds : Int), rest)
    | '0' :: 'o' :: rest => (digits? isOctal rest).map fun (ds, rest) => ((ofDigits 8 ds : Int), rest)
    | '0' :: 'b' :: rest => (digits? isBinary rest).map fun (ds, rest) => ((ofDigits 2 ds : Int), rest)
    | _ =>
      let (negative, rest) := sign text
      (decimal? rest).map fun (ds, rest) =>
        ((if negative then -(ofDigits 10 ds : Int) else ofDigits 10 ds), rest)
  if isInt64 n then some (.int n, rest) else none

def exponent? (text : List Char) : Option (Int × List Char) :=
  match text with
  | c :: rest =>
    if c = 'e' || c = 'E' then do
      let (negative, rest) := sign rest
      let (digits, rest) ← digits? Char.isDigit rest
      return (if negative then -(ofDigits 10 digits : Int) else ofDigits 10 digits, rest)
    else none
  | [] => none

/-- A decimal with a fraction or an exponent. Too large a positive one is none. -/
def decimalFloat? (text : List Char) : Option (Value × List Char) := do
  let (negative, rest) := sign text
  let (whole, rest) ← decimal? rest
  let (fraction, exponent, rest) ← match rest with
    | '.' :: rest => do
      let (fraction, rest) ← digits? Char.isDigit rest
      match exponent? rest with
      | some (exponent, rest) => some (fraction, exponent, rest)
      | none => some (fraction, 0, rest)
    | _ => (exponent? rest).map fun (exponent, rest) => ([], exponent, rest)
  match Double.ofDigits negative whole fraction exponent with
  | .infinite false => none
  | double => some (.float double, rest)

/-- Infinity and no number, with an optional sign. -/
def specialFloat? (text : List Char) : Option (Value × List Char) :=
  let (negative, rest) := sign text
  match rest with
  | 'i' :: 'n' :: 'f' :: rest => some (.float (.infinite negative), rest)
  | 'n' :: 'a' :: 'n' :: rest => some (.float .nan, rest)
  | _ => none

/-- Exactly `count` digits, as a number within bounds. -/
def fixed? (count low high : Nat) (text : List Char) : Option (Nat × List Char) :=
  let digits := text.take count
  let n := ofDigits 10 digits
  if digits.length == count && digits.all Char.isDigit && low ≤ n && n ≤ high then
    some (n, text.drop count)
  else none

def mark? (mark : Char) (text : List Char) : Option (List Char) :=
  match text with
  | c :: rest => if c = mark then some rest else none
  | [] => none

/-- A number written with at least the given count of digits. -/
def padded (count n : Nat) : String :=
  let digits := (Nat.repr n).toList
  String.ofList (List.replicate (count - digits.length) '0' ++ digits)

def isLeapYear (year : Nat) : Bool := (year % 4 == 0 && year % 100 != 0) || year % 400 == 0

def daysInMonth (year month : Nat) : Nat :=
  if month == 2 then if isLeapYear year then 29 else 28
  else if month == 4 || month == 6 || month == 9 || month == 11 then 30
  else 31

/-- A date, in the form in which it is written out. -/
def date? (text : List Char) : Option (String × List Char) := do
  let (year, rest) ← fixed? 4 0 9999 text
  let (month, rest) ← fixed? 2 1 12 (← mark? '-' rest)
  let (day, rest) ← fixed? 2 1 31 (← mark? '-' rest)
  if day ≤ daysInMonth year month then
    return (padded 4 year ++ "-" ++ padded 2 month ++ "-" ++ padded 2 day, rest)
  else none

/-- The part of a second in nanoseconds, further digits cut off, without trailing zeros. -/
def secondPart (digits : List Char) : String :=
  match ((digits.take 9).reverse.dropWhile (· == '0')).reverse with
  | [] => ""
  | digits => "." ++ String.ofList digits

/-- A time of day, in the form in which it is written out. -/
def time? (text : List Char) : Option (String × List Char) := do
  let (hour, rest) ← fixed? 2 0 23 text
  let (minute, rest) ← fixed? 2 0 59 (← mark? ':' rest)
  let (second, rest) ← fixed? 2 0 60 (← mark? ':' rest)
  let (part, rest) := match rest with
    | '.' :: more =>
      match more.takeWhile Char.isDigit with
      | [] => ("", rest)
      | digits => (secondPart digits, more.dropWhile Char.isDigit)
    | _ => ("", rest)
  return (padded 2 hour ++ ":" ++ padded 2 minute ++ ":" ++ padded 2 second ++ part, rest)

/-- The offset of a time from universal time, in the form in which it is written out. -/
def offset? (text : List Char) : Option (String × List Char) :=
  match text with
  | c :: rest =>
    if c = 'Z' || c = 'z' then some ("Z", rest)
    else if c = '+' || c = '-' then do
      let (hour, rest) ← fixed? 2 0 23 rest
      let (minute, rest) ← fixed? 2 0 59 (← mark? ':' rest)
      let sign := if c = '-' && !(hour == 0 && minute == 0) then "-" else "+"
      return (sign ++ padded 2 hour ++ ":" ++ padded 2 minute, rest)
    else none
  | [] => none

/-- The time that may follow a date. -/
def timeAfterDate? (text : List Char) : Option (String × List Char) :=
  match text with
  | c :: rest =>
    if c = 'T' || c = 't' || c = ' ' then do
      let (time, rest) ← time? rest
      match offset? rest with
      | some (offset, rest) => return ("T" ++ time ++ offset, rest)
      | none => return ("T" ++ time, rest)
    else none
  | [] => none

/-- A date, a time or both, as text. -/
def dateTime? (text : List Char) : Option (Value × List Char) :=
  match date? text with
  | some (date, rest) =>
    match timeAfterDate? rest with
    | some (time, rest) => some (.string (date ++ time), rest)
    | none => some (.string date, rest)
  | none => (time? text).map fun (time, rest) => (.string time, rest)

/-- A value that starts with a digit or a sign. -/
def numeric? (text : List Char) : Option (Value × List Char) :=
  dateTime? text <|> decimalFloat? text <|> specialFloat? text <|> integer? text

/-- Characters that may stand in texts and comments: no control characters but tabs. -/
def isTextChar (c : Char) : Bool := c == '\t' || (' ' ≤ c && c != '\x7f')

/-- The character of an escape, given the text after the backslash. -/
def escape? (text : List Char) : Option (Char × List Char) :=
  match text with
  | 'b' :: rest => some ('\x08', rest)
  | 't' :: rest => some ('\t', rest)
  | 'n' :: rest => some ('\n', rest)
  | 'f' :: rest => some ('\x0c', rest)
  | 'r' :: rest => some ('\r', rest)
  | '"' :: rest => some ('"', rest)
  | '\\' :: rest => some ('\\', rest)
  | 'u' :: rest => do
    let (n, rest) ← hexNumber? 4 rest
    return (← charOf? n, rest)
  | 'U' :: rest => do
    let (n, rest) ← hexNumber? 8 rest
    return (← charOf? n, rest)
  | _ => none

/-- The characters of a basic string up to its closing quote, and the text after it. -/
def basicBody? : Nat → List Char → Option (List Char × List Char)
  | 0, _ => none
  | _ + 1, [] => none
  | fuel + 1, c :: rest =>
    if c = '"' then some ([], rest)
    else if c = '\\' then do
      let (c, rest) ← escape? rest
      let (body, rest) ← basicBody? fuel rest
      return (c :: body, rest)
    else if isTextChar c then do
      let (body, rest) ← basicBody? fuel rest
      return (c :: body, rest)
    else none

/-- The text after a line break, if the text starts with one. -/
def newline? (text : List Char) : Option (List Char) :=
  match text with
  | '\n' :: rest => some rest
  | '\r' :: '\n' :: rest => some rest
  | _ => none

def isSpace (c : Char) : Bool := c == ' ' || c == '\t'

def skipSpace (text : List Char) : List Char := text.dropWhile isSpace

/-- The text without leading blanks and line breaks. -/
def skipLines : Nat → List Char → List Char
  | 0, text => text
  | fuel + 1, text =>
    match newline? (skipSpace text) with
    | some rest => skipLines fuel rest
    | none => skipSpace text

/-- The end of a string of several lines: its delimiter is three quotes, and one or two more of
them before it belong to the string. Gives these and the text after the delimiter. -/
def delimiter? (quote : Char) (text : List Char) : Option (List Char × List Char) :=
  let count := min 5 (text.takeWhile (· == quote)).length
  if 3 ≤ count then some (List.replicate (count - 3) quote, text.drop count) else none

/-- The characters of a basic string of several lines. A backslash at the end of a line takes away
the blanks and line breaks after it. -/
def longBasicBody? : Nat → List Char → Option (List Char × List Char)
  | 0, _ => none
  | fuel + 1, text =>
    match delimiter? '"' text with
    | some end' => some end'
    | none =>
      match text with
      | [] => none
      | '\\' :: rest =>
        match escape? rest with
        | some (c, rest) => (longBasicBody? fuel rest).map fun (body, rest) => (c :: body, rest)
        | none =>
          match newline? (skipSpace rest) with
          | some rest => longBasicBody? fuel (skipLines rest.length rest)
          | none => none
      | c :: rest =>
        match newline? text with
        | some rest => (longBasicBody? fuel rest).map fun (body, rest) => ('\n' :: body, rest)
        | none =>
          if isTextChar c then (longBasicBody? fuel rest).map fun (body, rest) => (c :: body, rest)
          else none

/-- The characters of a literal string of several lines. -/
def longLiteralBody? : Nat → List Char → Option (List Char × List Char)
  | 0, _ => none
  | fuel + 1, text =>
    match delimiter? '\'' text with
    | some end' => some end'
    | none =>
      match newline? text, text with
      | some rest, _ => (longLiteralBody? fuel rest).map fun (body, rest) => ('\n' :: body, rest)
      | none, c :: rest =>
        if isTextChar c then (longLiteralBody? fuel rest).map fun (body, rest) => (c :: body, rest)
        else none
      | none, [] => none

/-- The characters of a literal string up to its closing quote. -/
def literalBody? (text : List Char) : Option (List Char × List Char) :=
  let isLiteral := fun c => isTextChar c && c != '\''
  (mark? '\'' (text.dropWhile isLiteral)).map fun rest => (text.takeWhile isLiteral, rest)

/-- A string on one line. -/
def shortString? (text : List Char) : Option (List Char × List Char) :=
  match text with
  | '"' :: rest => basicBody? text.length rest
  | '\'' :: rest => literalBody? rest
  | _ => none

/-- A string. A line break right after the opening of a string of several lines is left out. -/
def string? (text : List Char) : Option (Value × List Char) :=
  let body := match text with
    | '"' :: '"' :: '"' :: rest => longBasicBody? text.length ((newline? rest).getD rest)
    | '\'' :: '\'' :: '\'' :: rest => longLiteralBody? text.length ((newline? rest).getD rest)
    | _ => shortString? text
  body.map fun (chars, rest) => (.string (String.ofList chars), rest)

end NoteIndex.Data.Toml
