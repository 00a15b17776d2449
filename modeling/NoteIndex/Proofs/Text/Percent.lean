import NoteIndex.Proofs.Text.Utf8
import NoteIndex.Text.Percent

/-! Escapes: whatever bytes are kept and in whatever case the digits are written, decoding undoes the
escapes. -/
namespace NoteIndex.Text

/-- The ways to write bytes with escapes: some bytes are kept, and every other one becomes a percent
sign and two hexadecimal digits. -/
inductive Escaped (keep : UInt8 → Bool) : List UInt8 → List UInt8 → Prop
  | nil : Escaped keep [] []
  | kept {b : UInt8} {bytes written : List UInt8} (hb : keep b = true)
      (rest : Escaped keep bytes written) : Escaped keep (b :: bytes) (b :: written)
  | escape {b high low : UInt8} {bytes written : List UInt8} (hb : keep b = false)
      (hhigh : hexValue? high = some (b/16)) (hlow : hexValue? low = some (b%16))
      (rest : Escaped keep bytes written) : Escaped keep (b :: bytes) (0x25 :: high :: low :: written)

section Escaped

variable {keep : UInt8 → Bool} {bytes written : List UInt8}

lemma percentDecode_cons_of_ne {b : UInt8} (h : b ≠ 0x25) (rest : List UInt8) :
    percentDecode (b :: rest) = b :: percentDecode rest := by
  cases rest with
  | nil => rfl
  | cons high rest =>
    cases rest with
    | nil => rfl
    | cons low rest => simp [percentDecode,h]

lemma div_mul_add_mod (b : UInt8) : b/16*16+b%16 = b := by
  apply UInt8.toNat_inj.1
  have hb := b.toNat_lt
  simp
  omega

theorem percentDecode_of_escaped (hpercent : keep 0x25 = false) (h : Escaped keep bytes written) :
    percentDecode written = bytes := by
  induction h with
  | nil => rfl
  | @kept b bytes written hb rest ih =>
    have hne : b ≠ 0x25 := by
      rintro rfl
      rw [hpercent] at hb
      cases hb
    rw [percentDecode_cons_of_ne hne,ih]
  | escape hb hhigh hlow rest ih =>
    simp [percentDecode,hhigh,hlow,ih,div_mul_add_mod]

/-- What is written are kept bytes, percent signs and digits. -/
lemma mem_of_escaped (h : Escaped keep bytes written) {b : UInt8} (hb : b ∈ written) :
    keep b = true ∨ b = 0x25 ∨ (hexValue? b).isSome = true := by
  induction h with
  | nil => simp at hb
  | kept hkeep rest ih =>
    rcases List.mem_cons.1 hb with rfl | hb
    · exact .inl hkeep
    · exact ih hb
  | escape hkeep hhigh hlow rest ih =>
    simp only [List.mem_cons] at hb
    rcases hb with rfl | rfl | rfl | hb
    · exact .inr (.inl rfl)
    · exact .inr (.inr (by rw [hhigh]; rfl))
    · exact .inr (.inr (by rw [hlow]; rfl))
    · exact ih hb

lemma hexValue?_hexDigit (b : UInt8) :
    hexValue? (hexDigit (b/16)) = some (b/16) ∧ hexValue? (hexDigit (b%16)) = some (b%16) := by
  have hall : ∀ n < 256, hexValue? (hexDigit (UInt8.ofNat n/16)) = some (UInt8.ofNat n/16) ∧
      hexValue? (hexDigit (UInt8.ofNat n%16)) = some (UInt8.ofNat n%16) := by
    decide +kernel
  simpa using hall b.toNat b.toNat_lt

/-- Encoding is the way with digits in upper case. -/
lemma escaped_percentEncode (keep : UInt8 → Bool) (bytes : List UInt8) :
    Escaped keep bytes (percentEncode keep bytes) := by
  induction bytes with
  | nil => exact .nil
  | cons b bytes ih =>
    rw [percentEncode,List.flatMap_cons,← percentEncode]
    cases hb : keep b with
    | true => exact .kept hb ih
    | false => exact .escape hb (hexValue?_hexDigit b).1 (hexValue?_hexDigit b).2 ih

end Escaped

/-- A text whose UTF-8 form has ASCII bytes only is that form, character by character. -/
lemma mem_encodeUtf8_of_ascii {text : List Char} (h : ∀ b ∈ encodeUtf8 text, b.toNat < 0x80) {c : Char}
    (hc : c ∈ text) : c.toNat < 0x80 ∧ UInt8.ofNat c.toNat ∈ encodeUtf8 text := by
  have hbytes : ∀ b ∈ encodeChar c, b ∈ encodeUtf8 text :=
    fun b hb => List.mem_flatMap.2 ⟨c,hc,hb⟩
  by_cases hascii : c.toNat < 0x80
  · refine ⟨hascii,hbytes _ ?_⟩
    rw [encodeChar,if_pos hascii]
    exact List.mem_singleton_self _
  · -- Every other character ends with a continuation byte.
    have hlast : continuationByte c.toNat ∈ encodeChar c := by
      unfold encodeChar
      dsimp only
      rw [if_neg hascii]
      split_ifs <;> simp
    have hsmall := h _ (hbytes _ hlast)
    rw [toNat_continuationByte] at hsmall
    omega

end NoteIndex.Text
