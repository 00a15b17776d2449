import NoteIndex.Proofs.Text.Line

/-! Where positions lead: never past the end of a text, never between a return and its line feed, and
later positions never to earlier places. Any other place is reached from its own position. -/
namespace NoteIndex.Text

section Order

/-- More code units take in no fewer characters, also where they end inside of one. -/
lemma charsInUnits_mono {few many : Nat} (h : few ≤ many) (text : List Char) :
    charsInUnits few text ≤ charsInUnits many text := by
  induction text generalizing few many with
  | nil => exact Nat.le_refl _
  | cons c rest ih =>
    have hrest := ih (Nat.sub_le_sub_right h (units16 c))
    rw [charsInUnits,charsInUnits]
    split
    · exact Nat.zero_le _
    · rw [if_neg (by omega)]
      omega

lemma charsInUnits_zero (text : List Char) : charsInUnits 0 text = 0 := by
  cases text with
  | nil => rfl
  | cons c rest => rw [charsInUnits,if_pos (units16_pos c)]

/-- No column leads past the end of its line. -/
lemma charsInUnits_lineContent_le (column : Nat) (line : List Char) :
    charsInUnits column (lineContent line) ≤ line.length :=
  Nat.le_trans (charsInUnits_le column (lineContent line)) (lineContent_starts line).length_le

lemma charOfPlace_le (n column : Nat) (pieces : List (List Char)) :
    charOfPlace n column pieces ≤ pieces.flatten.length := by
  induction pieces generalizing n with
  | nil => simp [charOfPlace]
  | cons line rest ih =>
    rw [List.flatten_cons,List.length_append]
    cases n with
    | zero => exact Nat.le_add_right_of_le (charsInUnits_lineContent_le column line)
    | succ n => exact Nat.add_le_add_left (ih n) line.length

/-- Later lines lead to later places, and on one line later columns do. -/
lemma charOfPlace_mono {n m column column' : Nat} (h : n < m ∨ n = m ∧ column ≤ column')
    (pieces : List (List Char)) : charOfPlace n column pieces ≤ charOfPlace m column' pieces := by
  induction pieces generalizing n m with
  | nil => simp [charOfPlace]
  | cons line rest ih =>
    cases n with
    | zero =>
      cases m with
      | zero =>
        have hcolumn : column ≤ column' := by omega
        exact charsInUnits_mono hcolumn (lineContent line)
      | succ m => exact Nat.le_add_right_of_le (charsInUnits_lineContent_le column line)
    | succ n =>
      obtain ⟨m,rfl⟩ : ∃ k, m = k+1 := ⟨m-1,by omega⟩
      have hrest : charOfPlace n column rest ≤ charOfPlace m column' rest := ih (by omega)
      exact Nat.add_le_add_left hrest line.length

lemma charOfPosition_le_length (text : List Char) (p : Position) :
    charOfPosition text p ≤ text.length := by
  have hle := charOfPlace_le p.line.toNat p.character.toNat (lines text)
  rwa [flatten_lines] at hle

theorem charOfPosition_mono (text : List Char) {p q : Position} (h : p ≤ q) :
    charOfPosition text p ≤ charOfPosition text q := by
  rw [Position.le_iff,UInt32.lt_iff_toNat_lt,UInt32.le_iff_toNat_le,← UInt32.toNat_inj] at h
  exact charOfPlace_mono h (lines text)

end Order

section Breaks

variable {c : Char} {rest : List Char}

/-- A return that ends no line is followed by a feed, which ends it at once. -/
lemma exists_lines_of_return (hends : endsLine '\r' rest = false) :
    ∃ more, lines rest = ['\n'] :: more := by
  have hhead : rest.head? = some '\n' := by simpa [endsLine,isLineBreak] using hends
  obtain ⟨after,rfl⟩ := List.head?_eq_some_iff.1 hhead
  exact ⟨lines after,by rw [lines,if_pos (endsLine_feed after)]⟩

/-- A character that is no return and no feed is content where it stands in front of a line. -/
lemma lineContent_cons (hfeed : c ≠ '\n') (hreturn : c ≠ '\r') (line : List Char) :
    lineContent (c :: line) = c :: lineContent line := by
  obtain ⟨back,rfl⟩ : ∃ back, line = back.reverse := ⟨line.reverse,(List.reverse_reverse line).symm⟩
  unfold lineContent
  rw [List.reverse_cons,List.reverse_reverse]
  -- The last two characters decide, and the new one is among them in a line of at most one.
  rcases back with _ | ⟨d,_ | ⟨e,back⟩⟩
  · simp [hfeed,hreturn]
  · by_cases hd : d = '\n'
    · simp [hd,hreturn]
    · by_cases hd' : d = '\r' <;> simp [hd,hd']
  · by_cases hd : d = '\n'
    · by_cases he : e = '\r' <;> simp [hd,he]
    · by_cases hd' : d = '\r' <;> simp [hd,hd']

/-- Where the first character ends a line, a place is the start or one behind a place of the rest. -/
lemma charOfPlace_of_endsLine (n column : Nat) (hends : endsLine c rest = true) :
    charOfPlace n column (lines (c :: rest)) = 0 ∨ ∃ n' column',
      charOfPlace n column (lines (c :: rest)) = charOfPlace n' column' (lines rest)+1 := by
  rw [lines,if_pos hends]
  cases n with
  | zero =>
    rcases Nat.le_one_iff_eq_zero_or_eq_one.1 (charsInUnits_lineContent_le column [c]) with
      hzero | hone
    · exact .inl hzero
    · -- The break counts as content, and behind it is the start of the next line.
      obtain ⟨line,more,hrest,-⟩ := exists_lines_cons c rest
      refine .inr ⟨0,0,?_⟩
      rw [hrest,charOfPlace,charOfPlace,charsInUnits_zero,hone]
  | succ n => exact .inr ⟨n,column,Nat.add_comm ..⟩

/-- Where the first character ends no line, a place is the start or one behind a place of the rest, and
behind a return it is not the start of the rest, which is the feed of the return. -/
lemma charOfPlace_of_not_endsLine (n column : Nat) (hends : endsLine c rest = false) :
    charOfPlace n column (lines (c :: rest)) = 0 ∨ ∃ n' column',
      charOfPlace n column (lines (c :: rest)) = charOfPlace n' column' (lines rest)+1 ∧
      (c = '\r' → charOfPlace n' column' (lines rest) ≠ 0) := by
  obtain ⟨line,more,hrest,hlines⟩ := exists_lines_cons c rest
  rw [hends,if_neg Bool.false_ne_true] at hlines
  rw [hlines]
  cases n with
  | zero =>
    by_cases hreturn : c = '\r'
    · subst hreturn
      obtain ⟨after,hfeed⟩ := exists_lines_of_return hends
      obtain ⟨rfl,rfl⟩ := List.cons.inj (hrest.symm.trans hfeed)
      exact .inl rfl
    · have hfeed : c ≠ '\n' := by
        rintro rfl
        rw [endsLine_feed] at hends
        cases hends
      rw [charOfPlace,lineContent_cons hfeed hreturn,charsInUnits]
      split
      · exact .inl rfl
      · refine .inr ⟨0,column-units16 c,?_,fun hc => absurd hc hreturn⟩
        rw [hrest,charOfPlace,Nat.add_comm]
  | succ n =>
    refine .inr ⟨n+1,column,?_,?_⟩
    · rw [hrest,charOfPlace,charOfPlace,List.length_cons,Nat.add_right_comm]
    · rintro rfl
      obtain ⟨after,hfeed⟩ := exists_lines_of_return hends
      rw [hfeed,charOfPlace]
      simp

lemma insideBreak_cons_succ (c : Char) (rest : List Char) (index : Nat) :
    InsideBreak (c :: rest) (index+1) ↔
      if index = 0 then c = '\r' ∧ rest.head? = some '\n' else InsideBreak rest index := by
  cases index with
  | zero => simp [InsideBreak]
  | succ index =>
    rw [if_neg (Nat.succ_ne_zero index)]
    cases rest with
    | nil => simp [InsideBreak]
    | cons d rest => simp [InsideBreak,List.getLast?_cons_cons]

lemma not_insideBreak_charOfPlace (n column : Nat) (text : List Char) :
    ¬ InsideBreak text (charOfPlace n column (lines text)) := by
  induction text generalizing n column with
  | nil => simp [InsideBreak]
  | cons c rest ih =>
    cases hends : endsLine c rest with
    | true =>
      rcases charOfPlace_of_endsLine n column hends with hstart | ⟨n',column',hnext⟩
      · simp [hstart,InsideBreak]
      · rw [hnext,insideBreak_cons_succ]
        split
        · rintro ⟨rfl,hhead⟩
          simp [endsLine,hhead] at hends
        · exact ih n' column'
    | false =>
      rcases charOfPlace_of_not_endsLine n column hends with hstart | ⟨n',column',hnext,hreturn⟩
      · simp [hstart,InsideBreak]
      · rw [hnext,insideBreak_cons_succ]
        split
        · rename_i hzero
          exact fun hbreak => hreturn hbreak.1 hzero
        · exact ih n' column'

/-- No position leads to a place between a return and its line feed. -/
theorem not_insideBreak_charOfPosition (text : List Char) (p : Position) :
    ¬ InsideBreak text (charOfPosition text p) :=
  not_insideBreak_charOfPlace p.line.toNat p.character.toNat text

end Breaks

/-- In a text of less than four gigabytes, the position of the byte at which a character starts leads
back to the character, and that of the end of the text to the end, unless a return comes before and its
line feed behind. -/
theorem charOfPosition_positionOfByte {text : String} (hsize : text.utf8ByteSize < UInt32.size)
    {index : Nat} (hindex : index ≤ text.toList.length) :
    charOfPosition text.toList (positionOfByte text.toList (byteOfChar text.toList index)) = index ↔
      ¬ InsideBreak text.toList index := by
  rw [positionOfByte_byteOfChar hindex]
  constructor
  · intro hback
    rw [← hback]
    exact not_insideBreak_charOfPosition text.toList _
  · exact charOfPosition_positionOfChar hindex (hasPosition_of_size hsize index)

/-- The end of a text on an empty last line, after a break that counts as content. -/
theorem charOfPosition_positionOfByte_end : ∃ text : String,
    text = "é\r\n😀\u2028" ∧ text.utf8ByteSize < UInt32.size ∧ 5 ≤ text.toList.length ∧
    ¬ InsideBreak text.toList 5 ∧ positionOfByte text.toList (byteOfChar text.toList 5) = ⟨2,0⟩ ∧
    charOfPosition text.toList (positionOfByte text.toList (byteOfChar text.toList 5)) = 5 := by
  have hsize : "é\r\n😀\u2028".utf8ByteSize < UInt32.size := by decide +kernel
  have hinside : ¬ InsideBreak "é\r\n😀\u2028".toList 5 := by decide
  refine ⟨_,rfl,hsize,by decide,hinside,by decide,?_⟩
  exact (charOfPosition_positionOfByte hsize (by decide)).2 hinside

end NoteIndex.Text
