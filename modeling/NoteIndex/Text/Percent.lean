import NoteIndex.Text.Utf8

/-! Percent encoding: bytes written as a percent sign and two hexadecimal digits. -/
namespace NoteIndex.Text

/-- The value of a hexadecimal digit of either case. -/
def hexValue? (b : UInt8) : Option UInt8 :=
  if 0x30 ≤ b && b ≤ 0x39 then some (b - 0x30)
  else if 0x41 ≤ b && b ≤ 0x46 then some (b - 0x37)
  else if 0x61 ≤ b && b ≤ 0x66 then some (b - 0x57)
  else none

/-- The upper-case hexadecimal digit of a value below sixteen. -/
def hexDigit (n : UInt8) : UInt8 := if n < 10 then n + 0x30 else n + 0x37

/-- Replaces each escape by its byte. A percent sign that starts none is kept. -/
def percentDecode : List UInt8 → List UInt8
  | [] => []
  | b :: high :: low :: rest =>
    if b == 0x25 then
      match hexValue? high, hexValue? low with
      | some h, some l => (h * 16 + l) :: percentDecode rest
      | _, _ => b :: percentDecode (high :: low :: rest)
    else b :: percentDecode (high :: low :: rest)
  | b :: rest => b :: percentDecode rest

/-- Writes every byte that is not to be kept as an escape. -/
def percentEncode (keep : UInt8 → Bool) (bytes : List UInt8) : List UInt8 :=
  bytes.flatMap fun b => if keep b then [b] else [0x25, hexDigit (b / 16), hexDigit (b % 16)]

example : percentDecode (encodeUtf8 "a%20b%".toList) = encodeUtf8 "a b%".toList := by
  decide

end NoteIndex.Text
