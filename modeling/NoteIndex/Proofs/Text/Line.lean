import NoteIndex.Proofs.Text.Position

/-! Lines and positions: a character has the number of its line and the width of the text before it in
that line as its position. Read backwards, a position leads to the character again, and a column past
the end of a line to the end of its content, which keeps all breaks but returns and line feeds. -/
namespace NoteIndex.Text

/-- The number of UTF-16 code units of a text. -/
def width : List Char → Nat
  | [] => 0
  | c :: rest => units16 c + width rest

section Units

variable {count : Nat} {text : List Char}

lemma charsInUnits_le (count : Nat) (text : List Char) : charsInUnits count text ≤ text.length := by
  induction text generalizing count with
  | nil => simp [charsInUnits]
  | cons c rest ih =>
    have hrest := ih (count-units16 c)
    rw [charsInUnits,List.length_cons]
    split <;> omega

/-- A column past the end of a text takes in all of it. -/
lemma charsInUnits_of_width_le (h : width text ≤ count) : charsInUnits count text = text.length := by
  induction text generalizing count with
  | nil => rfl
  | cons c rest ih =>
    rw [width] at h
    rw [charsInUnits,if_neg (by omega),ih (by omega),List.length_cons,Nat.add_comm]

lemma charsInUnits_lt_of_lt_width (h : count < width text) : charsInUnits count text < text.length := by
  induction text generalizing count with
  | nil => simp [width] at h
  | cons c rest ih =>
    rw [width] at h
    rw [charsInUnits,List.length_cons]
    split
    · omega
    · have hrest : charsInUnits (count-units16 c) rest < rest.length := ih (by omega)
      omega

lemma charsInUnits_width_take (h : count ≤ text.length) :
    charsInUnits (width (text.take count)) text = count := by
  induction text generalizing count with
  | nil =>
    obtain rfl : count = 0 := Nat.le_zero.1 h
    rfl
  | cons c rest ih =>
    cases count with
    | zero => simp [width,charsInUnits,units16_pos]
    | succ count =>
      have hrest := ih (Nat.le_of_succ_le_succ h)
      simp [width,charsInUnits,hrest,Nat.add_comm]

end Units

section Lines

variable {text line : List Char} {front back : List (List Char)}

/-- A character is a line of its own or goes to the front of the next line. -/
lemma exists_lines_cons (c : Char) (rest : List Char) : ∃ line more, lines rest = line :: more ∧
    lines (c :: rest) = if endsLine c rest then [c] :: line :: more else (c :: line) :: more := by
  cases hrest : lines rest with
  | nil => exact absurd hrest (lines_ne_nil rest)
  | cons line more => exact ⟨line,more,rfl,by simp [lines,hrest]⟩

@[simp] lemma flatten_lines (text : List Char) : (lines text).flatten = text := by
  induction text with
  | nil => rfl
  | cons c rest ih =>
    obtain ⟨line,more,hrest,hlines⟩ := exists_lines_cons c rest
    rw [hrest] at ih
    rw [hlines]
    split <;> simpa using ih

/-- Every line but the last ends with its break. -/
lemma isLineBreak_getLast? (h : lines text = front ++ line :: back) (hback : back ≠ []) :
    ∃ c, line.getLast? = some c ∧ isLineBreak c = true := by
  induction text generalizing front line with
  | nil =>
    cases front with
    | nil => simp_all [lines]
    | cons first front => simp [lines] at h
  | cons c rest ih =>
    obtain ⟨next,more,hrest,hlines⟩ := exists_lines_cons c rest
    rw [hlines] at h
    split at h
    · rename_i hends
      cases front with
      | nil =>
        obtain ⟨rfl,rfl⟩ := List.cons.inj h
        rw [endsLine,Bool.and_eq_true] at hends
        exact ⟨c,rfl,hends.1⟩
      | cons first front => exact ih (hrest.trans (List.cons.inj h).2)
    · cases front with
      | nil =>
        obtain ⟨rfl,rfl⟩ := List.cons.inj h
        obtain ⟨d,hlast,hbreak⟩ := ih (hrest.trans (List.nil_append _).symm)
        exact ⟨d,by simp [List.getLast?_cons,hlast],hbreak⟩
      | cons first front =>
        obtain ⟨rfl,rfl⟩ := List.cons.inj h
        exact ih (hrest.trans (List.cons_append ..).symm)

/-- The last line has no break. -/
lemma isLineBreak_eq_false (h : lines text = front ++ [line]) : ∀ c ∈ line, isLineBreak c = false := by
  induction text generalizing front line with
  | nil =>
    cases front with
    | nil => simp_all [lines]
    | cons first front => simp [lines] at h
  | cons c rest ih =>
    obtain ⟨next,more,hrest,hlines⟩ := exists_lines_cons c rest
    rw [hlines] at h
    split at h
    · cases front with
      | nil => simp at h
      | cons first front => exact ih (hrest.trans (List.cons.inj h).2)
    · rename_i hends
      cases front with
      | nil =>
        obtain ⟨rfl,rfl⟩ := List.cons.inj h
        have hnext := ih (hrest.trans (List.nil_append _).symm)
        -- A return that ends no line comes before a feed, and there is none in what follows.
        have hfeed : rest.head? ≠ some '\n' := by
          intro hhead
          rw [← flatten_lines rest,hrest] at hhead
          have hmem : '\n' ∈ next := List.mem_of_head? (by simpa using hhead)
          exact absurd (hnext '\n' hmem) (by decide)
        have hc : isLineBreak c = false := by simpa [endsLine,hfeed] using hends
        exact List.forall_mem_cons.2 ⟨hc,hnext⟩
      | cons first front =>
        obtain ⟨rfl,rfl⟩ := List.cons.inj h
        exact ih (hrest.trans (List.cons_append ..).symm)

/-- What the content of a line leaves out. -/
lemma lineContent_cases (line : List Char) :
    (lineContent line = line ∧ line.getLast? ≠ some '\n' ∧ line.getLast? ≠ some '\r') ∨
    ∃ ending ∈ [['\n'],['\r'],['\r','\n']], line = lineContent line ++ ending := by
  have hline : line = line.reverse.reverse := (List.reverse_reverse line).symm
  unfold lineContent
  split
  · rename_i rest hback
    exact .inr ⟨['\r','\n'],by simp,by rw [hline,hback]; simp⟩
  · rename_i rest _ hback
    exact .inr ⟨['\n'],by simp,by rw [hline,hback]; simp⟩
  · rename_i rest hback
    exact .inr ⟨['\r'],by simp,by rw [hline,hback]; simp⟩
  · rename_i hfeed hreturn
    refine .inl ⟨rfl,?_,?_⟩
    · intro hlast
      obtain ⟨rest,hrest⟩ := List.getLast?_eq_some_iff.1 hlast
      exact hfeed rest.reverse (by simp [hrest])
    · intro hlast
      obtain ⟨rest,hrest⟩ := List.getLast?_eq_some_iff.1 hlast
      exact hreturn rest.reverse (by simp [hrest])

lemma lineContent_starts (line : List Char) : lineContent line <+: line := by
  rcases lineContent_cases line with ⟨heq,-⟩ | ⟨ending,-,heq⟩
  · exact ⟨[],by rw [List.append_nil,heq]⟩
  · exact ⟨ending,heq.symm⟩

/-- A place in a list of lists, by the list that holds it and the place in that list. -/
lemma exists_offset {α : Type} {pieces : List (List α)} (hpieces : pieces ≠ []) {index : Nat}
    (hindex : index ≤ pieces.flatten.length) : ∃ front piece back offset,
    pieces = front ++ piece :: back ∧ index = front.flatten.length+offset ∧
      offset ≤ piece.length ∧ (offset < piece.length ∨ back = []) := by
  induction pieces generalizing index with
  | nil => exact absurd rfl hpieces
  | cons piece rest ih =>
    rw [List.flatten_cons,List.length_append] at hindex
    by_cases hinside : index < piece.length ∨ rest = []
    · refine ⟨[],piece,rest,index,rfl,by simp,?_,hinside⟩
      rcases hinside with hlt | rfl
      · omega
      · simpa using hindex
    · rw [not_or] at hinside
      obtain ⟨front,found,back,offset,hrest,hindex',hoffset⟩ :=
        ih hinside.2 (show index-piece.length ≤ rest.flatten.length by omega)
      refine ⟨piece :: front,found,back,offset,by rw [hrest]; rfl,?_,hoffset⟩
      rw [List.flatten_cons,List.length_append]
      omega

/-- A character of a line has the number of the line and the width of what comes before it there. -/
theorem locateFrom_of_lines (start column : Nat) {offset : Nat}
    (h : lines text = front ++ line :: back) (hle : offset ≤ line.length)
    (hoffset : offset < line.length ∨ back = []) :
    locateFrom start column (front.flatten.length+offset) text =
      (start+front.length,(if front.isEmpty then column else 0)+width (line.take offset)) := by
  induction text generalizing start column front line offset with
  | nil =>
    cases front with
    | nil =>
      obtain ⟨rfl,rfl⟩ := List.cons.inj h
      obtain rfl : offset = 0 := Nat.le_zero.1 hle
      rfl
    | cons first front => simp [lines] at h
  | cons c rest ih =>
    obtain ⟨next,more,hrest,hlines⟩ := exists_lines_cons c rest
    rw [hlines] at h
    split at h
    · rename_i hends
      cases front with
      | nil =>
        obtain ⟨rfl,rfl⟩ := List.cons.inj h
        obtain rfl : offset = 0 := by simpa using hoffset
        simp [locateFrom,width]
      | cons first front =>
        obtain ⟨rfl,htail⟩ := List.cons.inj h
        have hcount : ([c] :: front).flatten.length+offset = (front.flatten.length+offset)+1 := by
          simp only [List.flatten_cons,List.length_append,List.length_singleton]
          omega
        rw [hcount,locateFrom,if_pos hends,ih (start+1) 0 (hrest.trans htail) hle hoffset]
        simp [Nat.add_assoc,Nat.add_comm 1]
    · rename_i hends
      cases front with
      | nil =>
        obtain ⟨rfl,rfl⟩ := List.cons.inj h
        cases offset with
        | zero => simp [locateFrom,width]
        | succ offset =>
          have hnext := ih start (column+units16 c) (hrest.trans (List.nil_append _).symm)
            (Nat.le_of_succ_le_succ hle) (by simpa using hoffset)
          simp only [List.flatten_nil,List.length_nil,Nat.zero_add] at hnext ⊢
          rw [locateFrom,if_neg hends,hnext]
          simp [width,Nat.add_assoc]
      | cons first front =>
        obtain ⟨rfl,rfl⟩ := List.cons.inj h
        have hcount : ((c :: next) :: front).flatten.length+offset =
            ((next :: front).flatten.length+offset)+1 := by
          simp only [List.flatten_cons,List.length_append,List.length_cons]
          omega
        rw [hcount,locateFrom,if_neg hends,
          ih start (column+units16 c) (hrest.trans (List.cons_append ..).symm) hle hoffset]
        simp

/-- Characters that end no line only move the column. -/
lemma locateFrom_unbroken {first : List Char} (h : ∀ c ∈ first, isLineBreak c = false)
    (line column index : Nat) (rest : List Char) :
    locateFrom line column (first.length+index) (first ++ rest) =
      locateFrom line (column+width first) index rest := by
  induction first generalizing column with
  | nil => simp [width]
  | cons c first ih =>
    have hends : endsLine c (first ++ rest) = false := by simp [endsLine,h c List.mem_cons_self]
    have hcount : (c :: first).length+index = (first.length+index)+1 := by
      rw [List.length_cons]
      omega
    rw [hcount,List.cons_append,locateFrom,hends,if_neg Bool.false_ne_true,
      ih (fun d hd => h d (List.mem_cons_of_mem c hd)),width,Nat.add_assoc]

lemma locateFrom_feeds (line column count index : Nat) (rest : List Char) :
    locateFrom line column (count+1+index) (List.replicate (count+1) '\n' ++ rest) =
      locateFrom (line+(count+1)) 0 index rest := by
  induction count generalizing line column with
  | zero =>
    have hstep : 0+1+index = index+1 := by omega
    rw [hstep]
    rfl
  | succ count ih =>
    have hcount : count+1+1+index = (count+1+index)+1 := by omega
    have hends : ∀ after, endsLine '\n' after = true := fun _ => rfl
    rw [hcount,List.replicate_succ,List.cons_append,locateFrom,hends,if_pos rfl,ih]
    congr 1
    omega

lemma locateFrom_add (line column offset index : Nat) (text : List Char) :
    locateFrom (line+offset) column index text =
      ((locateFrom line column index text).1+offset,(locateFrom line column index text).2) := by
  fun_induction locateFrom line column index text with
  | case1 => simp [locateFrom]
  | case2 => simp [locateFrom]
  | case3 line column count c rest hends ih =>
    rw [locateFrom,if_pos hends,← ih]
    congr 1
    omega
  | case4 line column count c rest hends ih => rw [locateFrom,if_neg hends,ih]

lemma charOfPlace_append (front : List (List Char)) (line : List Char) (back : List (List Char))
    (column : Nat) : charOfPlace front.length column (front ++ line :: back) =
      front.flatten.length+charsInUnits column (lineContent line) := by
  induction front with
  | nil => simp [charOfPlace]
  | cons first front ih => simp [charOfPlace,ih,Nat.add_assoc]

end Lines

/-- The byte of the UTF-8 form at which a character starts. -/
def byteOfChar (text : List Char) (index : Nat) : Nat :=
  (String.ofList (text.take index)).utf8ByteSize

lemma byteOfChar_succ (c : Char) (rest : List Char) (index : Nat) :
    byteOfChar (c :: rest) (index+1) = c.utf8Size+byteOfChar rest index := by
  simp only [byteOfChar,List.take_succ_cons,String.ofList_cons,String.utf8ByteSize_append,
    String.utf8ByteSize_singleton]

lemma charsInBytes_byteOfChar {text : List Char} {index : Nat} (h : index ≤ text.length) :
    charsInBytes (byteOfChar text index) text = index := by
  induction text generalizing index with
  | nil =>
    obtain rfl : index = 0 := Nat.le_zero.1 h
    rfl
  | cons c rest ih =>
    cases index with
    | zero => simp [byteOfChar,charsInBytes,c.utf8Size_pos]
    | succ index =>
      have hrest := ih (Nat.le_of_succ_le_succ h)
      rw [byteOfChar_succ,charsInBytes,if_neg (by omega),Nat.add_sub_cancel_left,hrest,Nat.add_comm]

/-- Later characters have later bytes. -/
lemma byteOfChar_lt {text : List Char} {i j : Nat} (hij : i < j) (hj : j ≤ text.length) :
    byteOfChar text i < byteOfChar text j := by
  induction text generalizing i j with
  | nil =>
    rw [List.length_nil] at hj
    omega
  | cons c rest ih =>
    obtain ⟨j,rfl⟩ : ∃ k, j = k+1 := ⟨j-1,by omega⟩
    have hpos := c.utf8Size_pos
    cases i with
    | zero =>
      rw [byteOfChar_succ]
      change 0 < _
      omega
    | succ i =>
      have hrest := ih (Nat.lt_of_succ_lt_succ hij) (Nat.le_of_succ_le_succ hj)
      rw [byteOfChar_succ,byteOfChar_succ]
      omega

lemma byteOfChar_le_iff {text : List Char} {i j : Nat} (hi : i ≤ text.length)
    (hj : j ≤ text.length) : byteOfChar text i ≤ byteOfChar text j ↔ i ≤ j := by
  constructor
  · intro hle
    by_contra hlt
    have hback := byteOfChar_lt (Nat.lt_of_not_le hlt) hi
    omega
  · intro hle
    rcases Nat.lt_or_eq_of_le hle with hlt | rfl
    · exact Nat.le_of_lt (byteOfChar_lt hlt hj)
    · exact Nat.le_refl _

lemma byteOfChar_length (text rest : List Char) :
    byteOfChar (text ++ rest) text.length = (String.ofList text).utf8ByteSize := by
  rw [byteOfChar,List.take_left]

lemma byteOfChar_append_of_le {text : List Char} {index : Nat} (h : index ≤ text.length)
    (rest : List Char) : byteOfChar (text ++ rest) index = byteOfChar text index := by
  rw [byteOfChar,List.take_append_of_le_length h,byteOfChar]

/-- After a line feed, bytes are counted on from those up to there. -/
lemma byteOfChar_append_feed (text rest : List Char) (index : Nat) :
    byteOfChar (text ++ '\n' :: rest) (index+(text.length+1)) =
      byteOfChar rest index+((String.ofList text).utf8ByteSize+1) := by
  have hfeed : '\n'.utf8Size = 1 := rfl
  rw [byteOfChar,Nat.add_comm index,Nat.add_assoc,List.take_length_add_append,Nat.add_comm 1,
    List.take_succ_cons,String.ofList_append,String.ofList_cons,String.utf8ByteSize_append,
    String.utf8ByteSize_append,String.utf8ByteSize_singleton,hfeed,byteOfChar]
  omega

lemma positionOfByte_byteOfChar {text : List Char} {index : Nat} (h : index ≤ text.length) :
    positionOfByte text (byteOfChar text index) = positionOfChar text index := by
  rw [positionOfByte,charsInBytes_byteOfChar h]

/-- A place between a return and the line feed that belongs to it. -/
def InsideBreak (text : List Char) (index : Nat) : Prop :=
  (text.take index).getLast? = some '\r' ∧ (text.drop index).head? = some '\n'

instance (text : List Char) (index : Nat) : Decidable (InsideBreak text index) :=
  inferInstanceAs (Decidable ((text.take index).getLast? = some '\r' ∧
    (text.drop index).head? = some '\n'))

/-- Line and column of a character are 32-bit numbers, so that it has a position. -/
def HasPosition (text : List Char) (index : Nat) : Prop :=
  (locateFrom 0 0 index text).1 < UInt32.size ∧ (locateFrom 0 0 index text).2 < UInt32.size

instance (text : List Char) (index : Nat) : Decidable (HasPosition text index) :=
  inferInstanceAs (Decidable ((locateFrom 0 0 index text).1 < UInt32.size ∧
    (locateFrom 0 0 index text).2 < UInt32.size))

lemma insideBreak_append (xs ys : List Char) :
    InsideBreak (xs ++ '\r' :: '\n' :: ys) (xs.length+1) := by
  have hsplit : xs ++ '\r' :: '\n' :: ys = (xs ++ ['\r']) ++ '\n' :: ys := by simp
  have hlength : xs.length+1 = (xs ++ ['\r']).length := by simp
  rw [InsideBreak,hsplit,hlength,List.take_left,List.drop_left]
  simp

/-- Only the place inside a break is past the content of a line and before its end. -/
lemma le_length_lineContent {text line : List Char} {front back : List (List Char)} {offset : Nat}
    (h : lines text = front ++ line :: back) (hle : offset ≤ line.length)
    (hoffset : offset < line.length ∨ back = [])
    (hinside : ¬ InsideBreak text (front.flatten.length+offset)) :
    offset ≤ (lineContent line).length := by
  rcases lineContent_cases line with ⟨heq,-⟩ | ⟨ending,hending,heq⟩
  · rwa [heq]
  · have hback : back ≠ [] := by
      rintro rfl
      have hbreak := isLineBreak_eq_false h
      rw [heq] at hbreak
      simp only [List.mem_cons,List.not_mem_nil,or_false] at hending
      rcases hending with rfl | rfl | rfl
      · exact absurd (hbreak '\n' (by simp)) (by decide)
      · exact absurd (hbreak '\r' (by simp)) (by decide)
      · exact absurd (hbreak '\n' (by simp)) (by decide)
    have hlt := hoffset.resolve_right hback
    have hlength := congrArg List.length heq
    rw [List.length_append] at hlength
    simp only [List.mem_cons,List.not_mem_nil,or_false] at hending
    rcases hending with rfl | rfl | rfl
    · simp only [List.length_singleton] at hlength
      omega
    · simp only [List.length_singleton] at hlength
      omega
    · by_contra hpast
      apply hinside
      have htext : text = (front.flatten ++ lineContent line) ++ '\r' :: '\n' :: back.flatten := by
        rw [← flatten_lines text,h,List.flatten_append,List.flatten_cons]
        nth_rewrite 1 [heq]
        simp
      have hindex : front.flatten.length+offset = (front.flatten ++ lineContent line).length+1 := by
        simp only [List.length_append,List.length_cons,List.length_nil] at hlength ⊢
        omega
      rw [htext,hindex]
      exact insideBreak_append _ _

/-- The position of a character leads back to it, unless it stands inside a break. -/
theorem charOfPosition_positionOfChar {text : List Char} {index : Nat} (hindex : index ≤ text.length)
    (hposition : HasPosition text index) (hinside : ¬ InsideBreak text index) :
    charOfPosition text (positionOfChar text index) = index := by
  have hplace : index ≤ (lines text).flatten.length := by
    rw [flatten_lines]
    exact hindex
  obtain ⟨front,line,back,offset,hlines,rfl,hle,hoffset⟩ := exists_offset (lines_ne_nil text) hplace
  have hlocate := locateFrom_of_lines 0 0 hlines hle hoffset
  simp only [Nat.zero_add,ite_self] at hlocate
  obtain ⟨hline,hcolumn⟩ := hposition
  rw [hlocate] at hline hcolumn
  have hcontent := le_length_lineContent hlines hle hoffset hinside
  have htake : line.take offset = (lineContent line).take offset := by
    obtain ⟨ending,hending⟩ := lineContent_starts line
    rw [← hending,List.take_append_of_le_length hcontent]
    rw [hending]
  rw [charOfPosition,positionOfChar,hlocate,UInt32.toNat_ofNat_of_lt' hline,
    UInt32.toNat_ofNat_of_lt' hcolumn,hlines,charOfPlace_append,htake,
    charsInUnits_width_take hcontent]

/-- In a text of less than four gigabytes every character has a position. -/
lemma hasPosition_of_size {text : String} (hsize : text.utf8ByteSize < UInt32.size) (index : Nat) :
    HasPosition text.toList index := by
  have hle := locateFrom_add_le 0 0 index text.toList
  rw [String.utf8Encode_toList,String.size_toByteArray] at hle
  constructor <;> omega

section Congr

variable {xs ys : List Char} {index : Nat}

/-- Where a character is depends on what comes before it and on itself, which may be the line feed of a
return. -/
lemma locateFrom_congr (line column : Nat) (h : xs.take (index+1) = ys.take (index+1)) :
    locateFrom line column index xs = locateFrom line column index ys := by
  induction index generalizing line column xs ys with
  | zero => simp [locateFrom]
  | succ index ih =>
    cases xs with
    | nil =>
      cases ys with
      | nil => rfl
      | cons d ys => simp at h
    | cons c xs =>
      cases ys with
      | nil => simp at h
      | cons d ys =>
        obtain ⟨rfl,hrest⟩ : c = d ∧ xs.take (index+1) = ys.take (index+1) := by simpa using h
        have hhead : xs.head? = ys.head? := by
          simpa [List.head?_take] using congrArg List.head? hrest
        have hends : endsLine c xs = endsLine c ys := by rw [endsLine,endsLine,hhead]
        rw [locateFrom,locateFrom,hends,ih _ _ hrest,ih _ _ hrest]

lemma insideBreak_congr (h : xs.take (index+1) = ys.take (index+1)) :
    InsideBreak xs index ↔ InsideBreak ys index := by
  have hfront : xs.take index = ys.take index := by
    simpa [List.take_take] using congrArg (List.take index) h
  have hhead : (xs.drop index).head? = (ys.drop index).head? := by
    have hchar := congrArg (fun cs => cs[index]?) h
    simpa [List.getElem?_take_of_lt] using hchar
  rw [InsideBreak,InsideBreak,hfront,hhead]

/-- A position leads to the same character in another text, as long as the texts agree up to there and
in that character. -/
lemma charOfPosition_congr (h : xs.take (index+1) = ys.take (index+1)) (hindex : index ≤ ys.length)
    (hposition : HasPosition ys index) (hinside : ¬ InsideBreak ys index) :
    charOfPosition xs (positionOfChar ys index) = index := by
  have hlocate := locateFrom_congr 0 0 h
  have hlength := congrArg List.length h
  rw [List.length_take,List.length_take] at hlength
  rw [positionOfChar,← hlocate]
  apply charOfPosition_positionOfChar
  · omega
  · rwa [HasPosition,hlocate]
  · rwa [insideBreak_congr h]

end Congr

/-- Breaks that the content of a line keeps. -/
def isKeptBreak (c : Char) : Bool := isLineBreak c && c != '\n' && c != '\r'

section Clamp

variable {text line : List Char} {front back : List (List Char)}

/-- Returns and line feeds are no content, so a column cannot lead past them. -/
lemma length_lineContent_lt (h : lines text = front ++ line :: back) (hback : back ≠ [])
    (hbreak : line.getLast?.any isKeptBreak = false) : (lineContent line).length < line.length := by
  obtain ⟨c,hlast,hc⟩ := isLineBreak_getLast? h hback
  rcases lineContent_cases line with ⟨-,hfeed,hreturn⟩ | ⟨ending,hending,heq⟩
  · rw [hlast,ne_eq,Option.some_inj] at hfeed hreturn
    simp [hlast,isKeptBreak,hc,hfeed,hreturn] at hbreak
  · have hlength := congrArg List.length heq
    have hpos : 0 < ending.length := by
      simp only [List.mem_cons,List.not_mem_nil,or_false] at hending
      rcases hending with rfl | rfl | rfl <;> simp
    rw [List.length_append] at hlength
    omega

lemma lineContent_of_keptBreak (h : line.getLast?.any isKeptBreak = true) : lineContent line = line := by
  rcases lineContent_cases line with ⟨heq,-⟩ | ⟨ending,hending,heq⟩
  · exact heq
  · rw [heq] at h
    simp only [List.mem_cons,List.not_mem_nil,or_false] at hending
    rcases hending with rfl | rfl | rfl <;> simp [isKeptBreak] at h

/-- A column leads to a place on its own line, unless the line keeps its break and the column goes
past that. -/
lemma lt_length_or_last (h : lines text = front ++ line :: back) {column : Nat}
    (hcolumn : ¬ (line.getLast?.any isKeptBreak = true ∧ width line ≤ column)) :
    charsInUnits column (lineContent line) < line.length ∨ back = [] := by
  by_cases hback : back = []
  · exact .inr hback
  · left
    have hle := charsInUnits_le column (lineContent line)
    cases hbreak : line.getLast?.any isKeptBreak with
    | false =>
      have hlt := length_lineContent_lt h hback hbreak
      omega
    | true =>
      rw [lineContent_of_keptBreak hbreak]
      exact charsInUnits_lt_of_lt_width (Nat.not_le.1 fun hle => hcolumn ⟨hbreak,hle⟩)

/-- The end of a line is the start of the next one. -/
lemma locateFrom_end (h : lines text = front ++ line :: back) (hback : back ≠ []) :
    locateFrom 0 0 (front.flatten.length+line.length) text = (front.length+1,0) := by
  obtain ⟨next,more,rfl⟩ := List.exists_cons_of_ne_nil hback
  have hlines : lines text = (front ++ [line]) ++ next :: more := by simp [h]
  have hstart : 0 < next.length ∨ more = [] := by
    by_cases hmore : more = []
    · exact .inr hmore
    · obtain ⟨c,hlast,-⟩ := isLineBreak_getLast? hlines hmore
      exact .inl (List.length_pos_of_mem (List.mem_of_getLast? hlast))
  have hlocate := locateFrom_of_lines 0 0 hlines (Nat.zero_le _) hstart
  simpa [width] using hlocate

end Clamp

/-- The number of characters before a line. -/
def lineStart (text : List Char) (line : Nat) : Nat := ((lines text).take line).flatten.length

/-- A position leads to a place on its line, from the start of the line to the end of its content,
which is where columns past the end lead. Where the line ends with a break that counts as content, the
columns past the break lead to the start of the next line instead. -/
theorem charOfPosition_on_line {text : List Char} {p : Position}
    (h : p.line.toNat < (lines text).length) : ∃ line, (lines text)[p.line.toNat]? = some line ∧
    lineStart text p.line.toNat ≤ charOfPosition text p ∧
    charOfPosition text p ≤ lineStart text p.line.toNat+(lineContent line).length ∧
    (width (lineContent line) ≤ p.character.toNat →
      charOfPosition text p = lineStart text p.line.toNat+(lineContent line).length) ∧
    (¬ (line.getLast?.any isKeptBreak = true ∧ width line ≤ p.character.toNat) →
      (positionOfByte text (byteOfChar text (charOfPosition text p))).line = p.line) ∧
    (line.getLast?.any isKeptBreak = true ∧ width line ≤ p.character.toNat →
      positionOfByte text (byteOfChar text (charOfPosition text p)) = ⟨p.line+1,0⟩) := by
  obtain ⟨front,line,back,hlines,hfront⟩ : ∃ front line back,
      lines text = front ++ line :: back ∧ p.line.toNat = front.length :=
    ⟨(lines text).take p.line.toNat,(lines text)[p.line.toNat],(lines text).drop (p.line.toNat+1),
      by simp,by simp [Nat.le_of_lt h]⟩
  have hstart : lineStart text p.line.toNat = front.flatten.length := by
    rw [lineStart,hlines,hfront,List.take_left]
  have hchar : charOfPosition text p =
      front.flatten.length+charsInUnits p.character.toNat (lineContent line) := by
    rw [charOfPosition,hlines,hfront,charOfPlace_append]
  have hcontent := charsInUnits_le p.character.toNat (lineContent line)
  have hprefix := (lineContent_starts line).length_le
  have hindex : charOfPosition text p ≤ text.length := by
    have hlength : text.length = front.flatten.length+(line.length+back.flatten.length) := by
      rw [← flatten_lines text,hlines]
      simp
    omega
  refine ⟨line,by simp [hlines,hfront],by omega,by omega,?_,?_,?_⟩
  · intro hwidth
    rw [hchar,hstart,charsInUnits_of_width_le hwidth]
  · intro hcolumn
    have hlocate := locateFrom_of_lines 0 0 hlines (Nat.le_trans hcontent hprefix)
      (lt_length_or_last hlines hcolumn)
    rw [positionOfByte_byteOfChar hindex,hchar,positionOfChar,hlocate]
    simp [← hfront]
  · rintro ⟨hbreak,hwidth⟩
    have hback : back ≠ [] := by
      rintro rfl
      cases hlast : line.getLast? with
      | none => simp [hlast] at hbreak
      | some c =>
        have hc := isLineBreak_eq_false hlines c (List.mem_of_getLast? hlast)
        simp [hlast,isKeptBreak,hc] at hbreak
    rw [positionOfByte_byteOfChar hindex,hchar,lineContent_of_keptBreak hbreak,
      charsInUnits_of_width_le hwidth,positionOfChar,locateFrom_end hlines hback,← hfront]
    simp

theorem charOfPosition_on_line_returned :
    (1 : UInt32).toNat < (lines "\u2028a😀\r\nb".toList).length ∧
    charOfPosition "\u2028a😀\r\nb".toList ⟨1,9⟩ = 3 ∧
    (positionOfByte "\u2028a😀\r\nb".toList (byteOfChar "\u2028a😀\r\nb".toList 3)).line = 1 := by
  have hlines : (1 : UInt32).toNat < (lines "\u2028a😀\r\nb".toList).length := by decide
  have hsecond : (lines "\u2028a😀\r\nb".toList)[(1 : UInt32).toNat]? =
      some ['a','😀','\r','\n'] := by decide
  obtain ⟨line,hline,-,-,hend,hsame,-⟩ := charOfPosition_on_line (p := ⟨1,9⟩) hlines
  obtain rfl := Option.some.inj (hline.symm.trans hsecond)
  have hchar : charOfPosition "\u2028a😀\r\nb".toList ⟨1,9⟩ = 3 := hend (by decide)
  rw [hchar] at hsame
  exact ⟨hlines,hchar,hsame (by decide)⟩

/-- A vertical tab ends a line, but a column past it leads to the next line. -/
theorem charOfPosition_off_line :
    (0 : UInt32).toNat < (lines "a\x0bb".toList).length ∧
    charOfPosition "a\x0bb".toList ⟨0,99⟩ = 2 ∧
    positionOfByte "a\x0bb".toList (byteOfChar "a\x0bb".toList 2) = ⟨1,0⟩ := by
  refine ⟨by decide,by decide,?_⟩
  decide

end NoteIndex.Text
