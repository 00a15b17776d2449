import Mathlib.Tactic.Common
import NoteIndex.Text.Position

/-! Positions of characters: a later character has a later position. Lines and columns are 32-bit
numbers, which are enough for texts of less than four gigabytes. -/
namespace NoteIndex.Text

namespace Position

/-- Earlier positions are on earlier lines, or on the same line in earlier columns. -/
instance : LT Position := ⟨fun p q => p.line < q.line ∨ p.line = q.line ∧ p.character < q.character⟩

lemma lt_iff (p q : Position) :
    p < q ↔ p.line < q.line ∨ p.line = q.line ∧ p.character < q.character := Iff.rfl

lemma le_iff (p q : Position) :
    p ≤ q ↔ p.line < q.line ∨ p.line = q.line ∧ p.character ≤ q.character := by
  change p.le q = true ↔ _
  simp [Position.le]

lemma ne_of_lt {p q : Position} (h : p < q) : p ≠ q := by
  rintro rfl
  simp [lt_iff] at h

end Position

lemma units16_pos (c : Char) : 0 < units16 c := by
  unfold units16
  split <;> omega

/-- No character has more UTF-16 code units than bytes in UTF-8. -/
lemma units16_le_utf8Size (c : Char) : units16 c ≤ c.utf8Size := by
  unfold units16
  split
  · exact c.utf8Size_pos
  · rename_i hlarge
    have hone : c.utf8Size ≠ 1 := by
      intro h
      have hle : c.toNat ≤ 127 := UInt32.le_iff_toNat_le.1 (Char.utf8Size_eq_one_iff.1 h)
      omega
    have hpos := c.utf8Size_pos
    omega

/-- Going on never leads to an earlier place. -/
lemma locateFrom_le (line column count : Nat) (text : List Char) :
    line < (locateFrom line column count text).1 ∨
      line = (locateFrom line column count text).1 ∧
        column ≤ (locateFrom line column count text).2 := by
  induction text generalizing line column count with
  | nil => cases count <;> simp [locateFrom]
  | cons c rest ih =>
    cases count with
    | zero => simp [locateFrom]
    | succ count =>
      rw [locateFrom]
      split
      · have h := ih (line+1) 0 count
        omega
      · have h := ih line (column+units16 c) count
        omega

/-- Later characters are on later lines, or on the same line in later columns. -/
theorem locateFrom_lt (line column : Nat) {i j : Nat} {text : List Char} (hij : i < j)
    (hj : j ≤ text.length) :
    (locateFrom line column i text).1 < (locateFrom line column j text).1 ∨
      (locateFrom line column i text).1 = (locateFrom line column j text).1 ∧
        (locateFrom line column i text).2 < (locateFrom line column j text).2 := by
  induction text generalizing line column i j with
  | nil =>
    simp only [List.length_nil] at hj
    omega
  | cons c rest ih =>
    obtain ⟨j,rfl⟩ : ∃ k, j = k+1 := ⟨j-1,by omega⟩
    simp only [List.length_cons,Nat.add_le_add_iff_right] at hj
    cases i with
    | zero =>
      have hpos := units16_pos c
      rw [locateFrom,locateFrom]
      split
      · have h := locateFrom_le (line+1) 0 j rest
        omega
      · have h := locateFrom_le line (column+units16 c) j rest
        omega
    | succ i =>
      rw [locateFrom,locateFrom]
      split
      · exact ih (line+1) 0 (by omega) hj
      · exact ih line (column+units16 c) (by omega) hj

lemma size_utf8Encode_cons (c : Char) (text : List Char) :
    (c :: text).utf8Encode.size = c.utf8Size + text.utf8Encode.size := by
  rw [List.utf8Encode_cons,ByteArray.size_append,List.utf8Encode_singleton,List.size_toByteArray,
    String.length_utf8EncodeChar]

/-- Every line break and every code unit is counted once, in the line or in the column. -/
lemma locateFrom_add_le (line column count : Nat) (text : List Char) :
    (locateFrom line column count text).1 + (locateFrom line column count text).2 ≤
      line + column + text.utf8Encode.size := by
  induction text generalizing line column count with
  | nil => cases count <;> simp [locateFrom]
  | cons c rest ih =>
    have hunits := units16_le_utf8Size c
    have hpos := c.utf8Size_pos
    rw [size_utf8Encode_cons]
    cases count with
    | zero =>
      rw [locateFrom]
      omega
    | succ count =>
      rw [locateFrom]
      split
      · have h := ih (line+1) 0 count
        omega
      · have h := ih line (column+units16 c) count
        omega

/-- In a text of less than four gigabytes, positions tell lines and columns as they are. -/
lemma toNat_positionOfChar {text : String} (hsize : text.utf8ByteSize < UInt32.size) (index : Nat) :
    (positionOfChar text.toList index).line.toNat = (locateFrom 0 0 index text.toList).1 ∧
      (positionOfChar text.toList index).character.toNat =
        (locateFrom 0 0 index text.toList).2 := by
  have hle := locateFrom_add_le 0 0 index text.toList
  rw [String.utf8Encode_toList,String.size_toByteArray] at hle
  exact ⟨UInt32.toNat_ofNat_of_lt' (by omega),UInt32.toNat_ofNat_of_lt' (by omega)⟩

/-- In a text of less than four gigabytes later characters have later positions. -/
theorem positionOfChar_lt {text : String} (hsize : text.utf8ByteSize < UInt32.size) {i j : Nat}
    (hij : i < j) (hj : j ≤ text.toList.length) :
    positionOfChar text.toList i < positionOfChar text.toList j := by
  obtain ⟨hline,hcolumn⟩ := toNat_positionOfChar hsize i
  obtain ⟨hline',hcolumn'⟩ := toNat_positionOfChar hsize j
  have hplace := locateFrom_lt 0 0 hij hj
  rw [Position.lt_iff,UInt32.lt_iff_toNat_lt,UInt32.lt_iff_toNat_lt,← UInt32.toNat_inj]
  omega

/-- In a text of less than four gigabytes no two characters have the same position. -/
theorem positionOfChar_injective {text : String} (hsize : text.utf8ByteSize < UInt32.size)
    {i j : Nat} (hi : i ≤ text.toList.length) (hj : j ≤ text.toList.length)
    (h : positionOfChar text.toList i = positionOfChar text.toList j) : i = j := by
  rcases Nat.lt_trichotomy i j with hlt | heq | hlt
  · exact absurd h (Position.ne_of_lt (positionOfChar_lt hsize hlt hj))
  · exact heq
  · exact absurd h.symm (Position.ne_of_lt (positionOfChar_lt hsize hlt hi))

lemma lines_ne_nil (text : List Char) : lines text ≠ [] := by
  cases text with
  | nil => simp [lines]
  | cons c rest =>
    unfold lines
    split
    · simp
    · split <;> simp

/-- The number of line breaks of a text: every line ends with one, except the last. -/
def breakCount (text : List Char) : Nat := (lines text).length-1

lemma breakCount_cons (c : Char) (rest : List Char) :
    breakCount (c :: rest) = (if endsLine c rest then 1 else 0) + breakCount rest := by
  unfold breakCount
  rw [lines]
  cases hlines : lines rest with
  | nil => exact absurd hlines (lines_ne_nil rest)
  | cons line more => split <;> simp [Nat.add_comm]

lemma endsLine_feed (rest : List Char) : endsLine '\n' rest = true := by simp [endsLine,isLineBreak]

/-- Whether a character ends its line depends on the next character only. -/
lemma endsLine_append_feed (c : Char) (text rest other : List Char) :
    endsLine c (text ++ '\n' :: rest) = endsLine c (text ++ '\n' :: other) := by
  cases text <;> rfl

/-- What comes after a line feed does not move what comes before it. -/
lemma locateFrom_of_le (line column : Nat) {count : Nat} {text : List Char}
    (hcount : count ≤ text.length) (rest other : List Char) :
    locateFrom line column count (text ++ '\n' :: rest) =
      locateFrom line column count (text ++ '\n' :: other) := by
  induction text generalizing line column count with
  | nil =>
    obtain rfl : count = 0 := Nat.le_zero.1 hcount
    rfl
  | cons c text ih =>
    cases count with
    | zero => rfl
    | succ count =>
      have hrest : count ≤ text.length := Nat.le_of_succ_le_succ hcount
      simp only [List.cons_append,locateFrom,endsLine_append_feed c text rest other,
        ih _ _ hrest]

/-- After a line feed, lines are counted on from the breaks up to there and columns anew. -/
lemma locateFrom_append_feed (line column count : Nat) (text rest : List Char) :
    locateFrom line column (text.length+1+count) (text ++ '\n' :: rest) =
      locateFrom (line+breakCount (text ++ ['\n'])) 0 count rest := by
  induction text generalizing line column with
  | nil =>
    rw [List.length_nil,Nat.zero_add,Nat.add_comm 1,List.nil_append,locateFrom,
      if_pos (endsLine_feed rest)]
    rfl
  | cons c text ih =>
    rw [List.length_cons,Nat.add_right_comm text.length 1,Nat.add_right_comm (text.length+1) 1,
      List.cons_append,locateFrom,ih,ih,List.cons_append,breakCount_cons,
      endsLine_append_feed c text rest []]
    split
    · rw [Nat.add_assoc]
    · rw [Nat.zero_add]

end NoteIndex.Text
