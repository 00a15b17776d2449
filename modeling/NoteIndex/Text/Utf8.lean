/-! The UTF-8 form of texts, and the reading of bytes that may not be well formed. -/
namespace NoteIndex.Text

/-- The byte at `count` places from the low end of a number, six bits a place. -/
def continuationByte (n : Nat) : UInt8 := UInt8.ofNat (0x80 + n % 64)

/-- The UTF-8 form of a character. -/
def encodeChar (c : Char) : List UInt8 :=
  let n := c.toNat
  if n < 0x80 then [UInt8.ofNat n]
  else if n < 0x800 then [UInt8.ofNat (0xC0 + n / 64), continuationByte n]
  else if n < 0x10000 then
    [UInt8.ofNat (0xE0 + n / 0x1000), continuationByte (n / 64), continuationByte n]
  else
    [UInt8.ofNat (0xF0 + n / 0x40000), continuationByte (n / 0x1000), continuationByte (n / 64),
      continuationByte n]

def encodeUtf8 (text : List Char) : List UInt8 := text.flatMap encodeChar

def isContinuation (b : UInt8) : Bool := 0x80 ≤ b && b ≤ 0xBF

/-- The bytes that may come second after a given first byte of a form of two or more bytes. -/
def isSecond (first second : UInt8) : Bool :=
  if first == 0xE0 then 0xA0 ≤ second && second ≤ 0xBF
  else if first == 0xED then 0x80 ≤ second && second ≤ 0x9F
  else if first == 0xF0 then 0x90 ≤ second && second ≤ 0xBF
  else if first == 0xF4 then 0x80 ≤ second && second ≤ 0x8F
  else isContinuation second

/-- The number of bytes of the form that a byte starts, or zero if it starts none. -/
def formLength (first : UInt8) : Nat :=
  if first < 0x80 then 1
  else if 0xC2 ≤ first && first ≤ 0xDF then 2
  else if 0xE0 ≤ first && first ≤ 0xEF then 3
  else if 0xF0 ≤ first && first ≤ 0xF4 then 4
  else 0

/-- The number of bytes, up to `wanted`, by which `rest` continues a form: the second byte is
bound by the first, every later one is any continuation byte. -/
def continuationCount (first : UInt8) (wanted : Nat) (rest : List UInt8) : Nat :=
  match wanted, rest with
  | 0, _ => 0
  | _, [] => 0
  | wanted + 1, second :: rest =>
    if isSecond first second then 1 + ((rest.take wanted).takeWhile isContinuation).length else 0

def sixBits (b : UInt8) : Nat := b.toNat % 64

/-- The character of a complete form. -/
def decodeForm (first : UInt8) (rest : List UInt8) : Char :=
  let lead := match rest.length with
    | 0 => first.toNat
    | 1 => first.toNat % 32
    | 2 => first.toNat % 16
    | _ => first.toNat % 8
  Char.ofNat (rest.foldl (fun n b => n * 64 + sixBits b) lead)

/-- Reads bytes as UTF-8. Every longest start of a form that is not completed, and every byte that
starts none, gives `none`. The first `skip` bytes belong to a form already read. -/
def decodeForms (skip : Nat) : List UInt8 → List (Option Char)
  | [] => []
  | first :: rest =>
    match skip with
    | skip + 1 => decodeForms skip rest
    | 0 =>
      let wanted := formLength first - 1
      let count := continuationCount first wanted rest
      if formLength first == 0 then none :: decodeForms 0 rest
      else if count == wanted then some (decodeForm first (rest.take count)) :: decodeForms count rest
      else none :: decodeForms count rest

/-- Reads bytes as UTF-8 with U+FFFD in place of what is not well formed. -/
def decodeLossy (bytes : List UInt8) : List Char :=
  (decodeForms 0 bytes).map (·.getD '\ufffd')

/-- Reads bytes that are well-formed UTF-8. -/
def decodeUtf8? (bytes : List UInt8) : Option (List Char) :=
  (decodeForms 0 bytes).mapM id

/-- The UTF-8 form of a string. -/
def utf8 (text : String) : List UInt8 := encodeUtf8 text.toList

/-- The string with a given UTF-8 form, if the bytes are one. -/
def ofUtf8? (bytes : List UInt8) : Option String := (decodeUtf8? bytes).map String.ofList

example : decodeUtf8? (encodeUtf8 "aé日😀".toList) = some "aé日😀".toList := by decide
example : decodeLossy [0x61, 0xE6, 0x97, 0x62, 0xFF] = "a\ufffdb\ufffd".toList := by decide

end NoteIndex.Text
