import Mathlib.Data.List.TakeWhile
import Mathlib.Tactic.Common
import NoteIndex.Text.Field
import NoteIndex.Text.Utf8

/-! The UTF-8 form of a text is well formed, and bytes are read as a text just if they are its form. A
character below 128, such as a slash or a dot, is one byte of the form and stands in it where it stands in
the text. -/
namespace NoteIndex.Text

lemma toNat_ofNat_of_lt {m : Nat} (h : m < 256) : (UInt8.ofNat m).toNat = m :=
  UInt8.toNat_ofNat_of_lt' h

lemma formLength_ofNat {m : Nat} (h : m < 256) : formLength (UInt8.ofNat m) =
    if m < 0x80 then 1 else if m < 0xC2 then 0 else if m < 0xE0 then 2 else if m < 0xF0 then 3
    else if m < 0xF5 then 4 else 0 := by
  unfold formLength
  simp only [UInt8.lt_iff_toNat_lt,UInt8.le_iff_toNat_le,toNat_ofNat_of_lt h,UInt8.reduceToNat,
    Bool.and_eq_true,decide_eq_true_eq]
  split_ifs <;> omega

lemma toNat_continuationByte (n : Nat) : (continuationByte n).toNat = 0x80+n%64 :=
  toNat_ofNat_of_lt (by omega)

lemma sixBits_continuationByte (n : Nat) : sixBits (continuationByte n) = n%64 := by
  rw [sixBits,toNat_continuationByte]
  omega

lemma formLength_eq (b : UInt8) : formLength b =
    if b.toNat < 0x80 then 1 else if b.toNat < 0xC2 then 0 else if b.toNat < 0xE0 then 2
    else if b.toNat < 0xF0 then 3 else if b.toNat < 0xF5 then 4 else 0 := by
  rw [← formLength_ofNat b.toNat_lt,UInt8.ofNat_toNat]

lemma isContinuation_iff (b : UInt8) : isContinuation b = true ↔ 0x80 ≤ b.toNat ∧ b.toNat ≤ 0xBF := by
  simp [isContinuation,UInt8.le_iff_toNat_le]

lemma isContinuation_continuationByte (n : Nat) : isContinuation (continuationByte n) = true := by
  rw [isContinuation_iff,toNat_continuationByte]
  omega

/-- After some first bytes only a part of the continuation bytes may come second: the others would
write a character in more bytes than it needs, a surrogate, or a number past the last code point. -/
lemma isSecond_iff (first second : UInt8) : isSecond first second = true ↔
    0x80 ≤ second.toNat ∧ second.toNat ≤ 0xBF ∧ (first.toNat = 0xE0 → 0xA0 ≤ second.toNat) ∧
    (first.toNat = 0xED → second.toNat ≤ 0x9F) ∧ (first.toNat = 0xF0 → 0x90 ≤ second.toNat) ∧
    (first.toNat = 0xF4 → second.toNat ≤ 0x8F) := by
  unfold isSecond
  simp only [beq_iff_eq,← UInt8.toNat_inj,UInt8.reduceToNat]
  split_ifs <;>
    simp only [isContinuation_iff,Bool.and_eq_true,decide_eq_true_eq,UInt8.le_iff_toNat_le,
      UInt8.reduceToNat] <;> omega

lemma isSecond_continuationByte {m n : Nat} (hm : m < 256) (hthree : m = 0xE0 → 0x20 ≤ n%64)
    (hsurrogate : m = 0xED → n%64 < 0x20) (hfour : m = 0xF0 → 0x10 ≤ n%64)
    (hpast : m = 0xF4 → n%64 < 0x10) :
    isSecond (UInt8.ofNat m) (continuationByte n) = true := by
  rw [isSecond_iff,toNat_ofNat_of_lt hm,toNat_continuationByte]
  omega

/-- The bytes of one character: a first byte that asks for as many others as there are, and the
others as they have to be. -/
structure IsForm (first : UInt8) (tail : List UInt8) : Prop where
  length : formLength first = tail.length+1
  second : ∀ b ∈ tail.head?, isSecond first b = true
  later : ∀ b ∈ tail.tail, isContinuation b = true

section Forms

variable {c : Char}

lemma toNat_cases (c : Char) : c.toNat < 0xD800 ∨ 0xDFFF < c.toNat ∧ c.toNat < 0x110000 := c.valid

lemma isForm_one_byte (h : c.toNat < 0x80) :
    IsForm (UInt8.ofNat c.toNat) [] ∧ decodeForm (UInt8.ofNat c.toNat) [] = c := by
  have hbyte : c.toNat < 256 := by omega
  refine ⟨⟨?_,by simp,by simp⟩,?_⟩
  · rw [formLength_ofNat hbyte,if_pos h]
    rfl
  · simp [decodeForm,toNat_ofNat_of_lt hbyte]

lemma isForm_two_bytes (hlow : 0x80 ≤ c.toNat) (hhigh : c.toNat < 0x800) :
    IsForm (UInt8.ofNat (0xC0+c.toNat/64)) [continuationByte c.toNat] ∧
      decodeForm (UInt8.ofNat (0xC0+c.toNat/64)) [continuationByte c.toNat] = c := by
  have hbyte : 0xC0+c.toNat/64 < 256 := by omega
  refine ⟨⟨?_,?_,by simp⟩,?_⟩
  · rw [formLength_ofNat hbyte,if_neg (by omega),if_neg (by omega),if_pos (by omega)]
    rfl
  · simp only [List.head?_cons,Option.mem_some_iff,forall_eq']
    exact isSecond_continuationByte hbyte (by omega) (by omega) (by omega) (by omega)
  · have hnumber : (0xC0+c.toNat/64)%32*64+c.toNat%64 = c.toNat := by omega
    simp [decodeForm,sixBits_continuationByte,hnumber]

lemma isForm_three_bytes (hlow : 0x800 ≤ c.toNat) (hhigh : c.toNat < 0x10000) :
    IsForm (UInt8.ofNat (0xE0+c.toNat/0x1000))
        [continuationByte (c.toNat/64),continuationByte c.toNat] ∧
      decodeForm (UInt8.ofNat (0xE0+c.toNat/0x1000))
        [continuationByte (c.toNat/64),continuationByte c.toNat] = c := by
  have hvalid := toNat_cases c
  have hbyte : 0xE0+c.toNat/0x1000 < 256 := by omega
  refine ⟨⟨?_,?_,by simp [isContinuation_continuationByte]⟩,?_⟩
  · rw [formLength_ofNat hbyte,if_neg (by omega),if_neg (by omega),if_neg (by omega),
      if_pos (by omega)]
    rfl
  · simp only [List.head?_cons,Option.mem_some_iff,forall_eq']
    exact isSecond_continuationByte hbyte (by omega) (by omega) (by omega) (by omega)
  · have hnumber : ((0xE0+c.toNat/0x1000)%16*64+c.toNat/64%64)*64+c.toNat%64 = c.toNat := by omega
    simp [decodeForm,sixBits_continuationByte,hnumber]

lemma isForm_four_bytes (hlow : 0x10000 ≤ c.toNat) :
    IsForm (UInt8.ofNat (0xF0+c.toNat/0x40000)) [continuationByte (c.toNat/0x1000),
        continuationByte (c.toNat/64),continuationByte c.toNat] ∧
      decodeForm (UInt8.ofNat (0xF0+c.toNat/0x40000)) [continuationByte (c.toNat/0x1000),
        continuationByte (c.toNat/64),continuationByte c.toNat] = c := by
  have hvalid := toNat_cases c
  have hbyte : 0xF0+c.toNat/0x40000 < 256 := by omega
  refine ⟨⟨?_,?_,by simp [isContinuation_continuationByte]⟩,?_⟩
  · rw [formLength_ofNat hbyte,if_neg (by omega),if_neg (by omega),if_neg (by omega),
      if_neg (by omega),if_pos (by omega)]
    rfl
  · simp only [List.head?_cons,Option.mem_some_iff,forall_eq']
    exact isSecond_continuationByte hbyte (by omega) (by omega) (by omega) (by omega)
  · have hnumber : (((0xF0+c.toNat/0x40000)%8*64+c.toNat/0x1000%64)*64+c.toNat/64%64)*64+
        c.toNat%64 = c.toNat := by omega
    simp [decodeForm,sixBits_continuationByte,hnumber]

end Forms

/-- Every character is written as a form that stands for it. -/
lemma exists_form (c : Char) : ∃ first tail,
    encodeChar c = first :: tail ∧ IsForm first tail ∧ decodeForm first tail = c := by
  unfold encodeChar
  dsimp only
  split_ifs with hone htwo hthree
  · exact ⟨_,_,rfl,isForm_one_byte hone⟩
  · exact ⟨_,_,rfl,isForm_two_bytes (by omega) htwo⟩
  · exact ⟨_,_,rfl,isForm_three_bytes (by omega) hthree⟩
  · exact ⟨_,_,rfl,isForm_four_bytes (by omega)⟩

lemma decodeForms_skip (xs rest : List UInt8) :
    decodeForms xs.length (xs ++ rest) = decodeForms 0 rest := by
  induction xs with
  | nil => rfl
  | cons x xs ih => rw [List.length_cons,List.cons_append,decodeForms,ih]

lemma IsForm.continuationCount {first : UInt8} {tail : List UInt8} (h : IsForm first tail)
    (rest : List UInt8) : continuationCount first tail.length (tail ++ rest) = tail.length := by
  cases tail with
  | nil => rfl
  | cons second more =>
    have hsecond : isSecond first second = true := h.second second rfl
    have hlater : more.takeWhile isContinuation = more := List.takeWhile_eq_self_iff.2 h.later
    simp [Text.continuationCount,hsecond,hlater,Nat.add_comm]

lemma IsForm.decodeForms {first : UInt8} {tail : List UInt8} (h : IsForm first tail)
    (rest : List UInt8) :
    decodeForms 0 (first :: tail ++ rest) = some (decodeForm first tail) :: decodeForms 0 rest := by
  have hlength : formLength first-1 = tail.length := by rw [h.length,Nat.add_sub_cancel]
  have hsome : (formLength first == 0) = false := by simp [h.length]
  rw [List.cons_append,Text.decodeForms]
  simp only [hlength,hsome,h.continuationCount,beq_self_eq_true,if_true,List.take_left,
    decodeForms_skip,Bool.false_eq_true,if_false]

lemma encodeUtf8_cons (c : Char) (text : List Char) :
    encodeUtf8 (c :: text) = encodeChar c ++ encodeUtf8 text := List.flatMap_cons

lemma encodeUtf8_append (xs ys : List Char) :
    encodeUtf8 (xs ++ ys) = encodeUtf8 xs ++ encodeUtf8 ys := List.flatMap_append

/-- Reading what was written gives every character back. -/
lemma decodeForms_encodeUtf8 (text : List Char) : decodeForms 0 (encodeUtf8 text) = text.map some := by
  induction text with
  | nil => rfl
  | cons c rest ih =>
    obtain ⟨first,tail,hencode,hform,hdecode⟩ := exists_form c
    rw [encodeUtf8_cons,hencode,hform.decodeForms,hdecode,ih,List.map_cons]

theorem decodeUtf8?_encodeUtf8 (text : List Char) : decodeUtf8? (encodeUtf8 text) = some text := by
  rw [decodeUtf8?,decodeForms_encodeUtf8]
  induction text with
  | nil => rfl
  | cons c rest ih => simp_all

theorem encodeUtf8_injective : Function.Injective encodeUtf8 := by
  intro a b h
  have hread := congrArg decodeUtf8? h
  rw [decodeUtf8?_encodeUtf8,decodeUtf8?_encodeUtf8] at hread
  exact Option.some.inj hread

lemma eq_continuationByte {b : UInt8} {n : Nat} (hlow : 0x80 ≤ b.toNat) (hhigh : b.toNat ≤ 0xBF)
    (h : n%64 = b.toNat%64) : continuationByte n = b := by
  apply UInt8.toNat_inj.1
  rw [toNat_continuationByte,h]
  omega

lemma toNat_ofNat_of_valid {n : Nat} (h : n < 0xD800 ∨ 0xDFFF < n ∧ n < 0x110000) :
    (Char.ofNat n).toNat = n := by
  have hvalid : n.isValidChar := h
  rw [Char.ofNat,dif_pos hvalid]
  rfl

lemma ofNat_eq {m : Nat} {b : UInt8} (h : m = b.toNat) : UInt8.ofNat m = b := by
  rw [h,UInt8.ofNat_toNat]

section Read

variable {first a b c : UInt8}

lemma encodeChar_decodeForm_one (h : IsForm first []) :
    encodeChar (decodeForm first []) = [first] := by
  have hlength := h.length
  rw [formLength_eq,List.length_nil] at hlength
  have hfirst : first.toNat < 0x80 := by
    split_ifs at hlength <;> omega
  have hvalid : first.toNat < 0xD800 ∨ 0xDFFF < first.toNat ∧ first.toNat < 0x110000 := by omega
  have hnumber : (decodeForm first []).toNat = first.toNat := toNat_ofNat_of_valid hvalid
  rw [encodeChar,hnumber,if_pos hfirst,ofNat_eq rfl]

lemma encodeChar_decodeForm_two (h : IsForm first [a]) :
    encodeChar (decodeForm first [a]) = [first,a] := by
  have hlength := h.length
  have hsecond := (isSecond_iff first a).1 (h.second a rfl)
  rw [formLength_eq,List.length_singleton] at hlength
  have hfirst : 0xC2 ≤ first.toNat ∧ first.toNat < 0xE0 := by
    split_ifs at hlength <;> omega
  obtain ⟨n,hn⟩ : ∃ n, n = first.toNat%32*64+a.toNat%64 := ⟨_,rfl⟩
  have hnumber : (decodeForm first [a]).toNat = n := by
    have hvalid : n < 0xD800 ∨ 0xDFFF < n ∧ n < 0x110000 := by omega
    rw [← toNat_ofNat_of_valid hvalid,hn]
    rfl
  rw [encodeChar,hnumber,if_neg (by omega),if_pos (by omega),ofNat_eq (b := first) (by omega),
    eq_continuationByte hsecond.1 hsecond.2.1 (by omega)]

lemma encodeChar_decodeForm_three (h : IsForm first [a,b]) :
    encodeChar (decodeForm first [a,b]) = [first,a,b] := by
  have hlength := h.length
  have hsecond := (isSecond_iff first a).1 (h.second a rfl)
  have hthird := (isContinuation_iff b).1 (h.later b (by simp))
  rw [formLength_eq] at hlength
  have hfirst : 0xE0 ≤ first.toNat ∧ first.toNat < 0xF0 := by
    simp only [List.length_cons,List.length_nil] at hlength
    split_ifs at hlength <;> omega
  obtain ⟨n,hn⟩ : ∃ n, n = (first.toNat%16*64+a.toNat%64)*64+b.toNat%64 := ⟨_,rfl⟩
  have hnumber : (decodeForm first [a,b]).toNat = n := by
    have hvalid : n < 0xD800 ∨ 0xDFFF < n ∧ n < 0x110000 := by omega
    rw [← toNat_ofNat_of_valid hvalid,hn]
    rfl
  rw [encodeChar,hnumber,if_neg (by omega),if_neg (by omega),if_pos (by omega),
    ofNat_eq (b := first) (by omega),eq_continuationByte hsecond.1 hsecond.2.1 (by omega),
    eq_continuationByte hthird.1 hthird.2 (by omega)]

lemma encodeChar_decodeForm_four (h : IsForm first [a,b,c]) :
    encodeChar (decodeForm first [a,b,c]) = [first,a,b,c] := by
  have hlength := h.length
  have hsecond := (isSecond_iff first a).1 (h.second a rfl)
  have hthird := (isContinuation_iff b).1 (h.later b (by simp))
  have hfourth := (isContinuation_iff c).1 (h.later c (by simp))
  rw [formLength_eq] at hlength
  have hfirst : 0xF0 ≤ first.toNat ∧ first.toNat < 0xF5 := by
    simp only [List.length_cons,List.length_nil] at hlength
    split_ifs at hlength <;> omega
  obtain ⟨n,hn⟩ : ∃ n, n = ((first.toNat%8*64+a.toNat%64)*64+b.toNat%64)*64+c.toNat%64 := ⟨_,rfl⟩
  have hnumber : (decodeForm first [a,b,c]).toNat = n := by
    have hvalid : n < 0xD800 ∨ 0xDFFF < n ∧ n < 0x110000 := by omega
    rw [← toNat_ofNat_of_valid hvalid,hn]
    rfl
  rw [encodeChar,hnumber,if_neg (by omega),if_neg (by omega),if_neg (by omega),
    ofNat_eq (b := first) (by omega),eq_continuationByte hsecond.1 hsecond.2.1 (by omega),
    eq_continuationByte hthird.1 hthird.2 (by omega),eq_continuationByte hfourth.1 hfourth.2 (by omega)]

end Read

/-- A complete form is the form of the character that it stands for. -/
lemma IsForm.encodeChar_decodeForm {first : UInt8} {tail : List UInt8} (h : IsForm first tail) :
    encodeChar (decodeForm first tail) = first :: tail := by
  have hlength := h.length
  have hbound : formLength first ≤ 4 := by
    rw [formLength_eq]
    split_ifs <;> omega
  rcases tail with _ | ⟨a,_ | ⟨b,_ | ⟨c,_ | ⟨d,tail⟩⟩⟩⟩
  · exact encodeChar_decodeForm_one h
  · exact encodeChar_decodeForm_two h
  · exact encodeChar_decodeForm_three h
  · exact encodeChar_decodeForm_four h
  · simp only [List.length_cons] at hlength
    omega

lemma isForm_of_continuationCount {first : UInt8} {wanted : Nat} {rest : List UInt8}
    (hlength : formLength first = wanted+1) (h : continuationCount first wanted rest = wanted) :
    IsForm first (rest.take wanted) := by
  cases wanted with
  | zero => exact ⟨by simpa using hlength,by simp,by simp⟩
  | succ wanted =>
    cases rest with
    | nil => simp [continuationCount] at h
    | cons second rest =>
      rw [continuationCount] at h
      split_ifs at h with hsecond
      have hwhile : ((rest.take wanted).takeWhile isContinuation).length = wanted := by omega
      have htake : (rest.take wanted).length ≤ wanted := List.length_take_le _ _
      have hprefix := List.takeWhile_prefix isContinuation (l := rest.take wanted)
      have hall : (rest.take wanted).takeWhile isContinuation = rest.take wanted :=
        hprefix.eq_of_length_le (by omega)
      have hfull : (rest.take wanted).length = wanted := by rw [← hall,hwhile]
      refine ⟨by rw [List.take_succ_cons,List.length_cons,hfull,hlength],?_,?_⟩
      · intro b hb
        rw [List.take_succ_cons,List.head?_cons,Option.mem_some_iff] at hb
        exact hb ▸ hsecond
      · rw [List.take_succ_cons,List.tail_cons]
        exact List.takeWhile_eq_self_iff.1 hall

/-- What is read without a gap is the form of the text that it is read as. -/
lemma encodeUtf8_of_decodeForms {skip : Nat} {bytes : List UInt8} {text : List Char}
    (h : decodeForms skip bytes = text.map some) : encodeUtf8 text = bytes.drop skip := by
  fun_induction decodeForms skip bytes generalizing text with
  | case1 skip =>
    obtain rfl : text = [] := by simpa using h.symm
    simp [encodeUtf8]
  | case2 first rest skip ih => simpa using ih h
  | case3 first rest hzero ih =>
    cases text <;> simp at h
  | case4 first rest wanted count hzero hcount =>
    rename_i ih
    cases text with
    | nil => simp at h
    | cons c text =>
      obtain ⟨hchar,htext⟩ := List.cons.inj h
      obtain rfl := Option.some.inj hchar
      have hcount : count = wanted := by simpa using hcount
      have hlength : formLength first = count+1 := by
        have hne : formLength first ≠ 0 := by simpa using hzero
        omega
      have hform : IsForm first (rest.take count) :=
        isForm_of_continuationCount hlength (by rw [hcount]; exact hcount)
      rw [encodeUtf8_cons,hform.encodeChar_decodeForm,ih htext,List.cons_append,List.take_append_drop,
        List.drop_zero]
  | case5 => cases text <;> simp at h

lemma eq_map_some_of_mapM {forms : List (Option Char)} {text : List Char}
    (h : forms.mapM id = some text) : forms = text.map some := by
  induction forms generalizing text with
  | nil =>
    obtain rfl : text = [] := by simpa using h.symm
    rfl
  | cons form forms ih =>
    rw [List.mapM_cons] at h
    obtain ⟨c,hc,h⟩ := Option.bind_eq_some_iff.1 h
    obtain ⟨rest,hrest,h⟩ := Option.bind_eq_some_iff.1 h
    cases h
    rw [List.map_cons,← ih hrest]
    exact congrArg (· :: forms) hc

/-- Bytes are read as a text just if they are its form. -/
theorem decodeUtf8?_eq_some_iff (bytes : List UInt8) (text : List Char) :
    decodeUtf8? bytes = some text ↔ bytes = encodeUtf8 text := by
  constructor
  · intro h
    exact (encodeUtf8_of_decodeForms (eq_map_some_of_mapM h)).symm
  · rintro rfl
    exact decodeUtf8?_encodeUtf8 text

/-- The string that bytes are read as has them as its form. -/
theorem ofUtf8?_eq_some_iff (bytes : List UInt8) (text : String) :
    ofUtf8? bytes = some text ↔ bytes = utf8 text := by
  rw [ofUtf8?,Option.map_eq_some_iff]
  simp only [decodeUtf8?_eq_some_iff]
  constructor
  · rintro ⟨cs,rfl,rfl⟩
    rw [utf8,String.toList_ofList]
  · rintro rfl
    exact ⟨text.toList,rfl,String.ofList_toList⟩

@[simp] lemma ofUtf8?_utf8 (text : String) : ofUtf8? (utf8 text) = some text :=
  (ofUtf8?_eq_some_iff _ _).2 rfl

@[simp] lemma utf8_inj {a b : String} : utf8 a = utf8 b ↔ a = b := by
  constructor
  · intro h
    exact String.toList_inj.1 (encodeUtf8_injective h)
  · rintro rfl
    rfl

lemma utf8_append (a b : String) : utf8 (a ++ b) = utf8 a ++ utf8 b := by
  rw [utf8,String.toList_append,encodeUtf8_append]
  rfl

/-- What has no separator stands before the first one. -/
lemma exists_rest_of_not_mem {α : Type} {separator : α} {x y a b : List α} (hx : separator ∉ x)
    (h : x ++ y = a ++ separator :: b) : ∃ rest, a = x ++ rest ∧ y = rest ++ separator :: b := by
  rcases List.append_eq_append_iff.1 h with hrest | ⟨rest,hfront,hrest⟩
  · exact hrest
  · cases rest with
    | nil => exact ⟨[],by simpa using hfront.symm,hrest.symm⟩
    | cons c rest =>
      obtain ⟨rfl,-⟩ := List.cons.inj hrest
      exact absurd (hfront ▸ List.mem_append_right a List.mem_cons_self) hx

section Single

variable {c d : Char} (hd : d.toNat < 0x80)

include hd

/-- A character below 128 is written as one byte. -/
lemma encodeChar_of_lt : encodeChar d = [UInt8.ofNat d.toNat] := if_pos hd

/-- The byte of a character below 128 is in no other form. -/
lemma eq_of_mem_encodeChar (h : UInt8.ofNat d.toNat ∈ encodeChar c) : c = d := by
  have hbyte : ∀ {m : Nat}, m < 256 → UInt8.ofNat d.toNat = UInt8.ofNat m → m = d.toNat := by
    intro m hm heq
    have hnumber := congrArg UInt8.toNat heq
    rw [toNat_ofNat_of_lt hm,toNat_ofNat_of_lt (by omega)] at hnumber
    exact hnumber.symm
  have hcontinuation : ∀ n, UInt8.ofNat d.toNat ≠ continuationByte n := by
    intro n heq
    have hnumber := hbyte (by omega) heq
    omega
  have hvalid := toNat_cases c
  unfold encodeChar at h
  dsimp only at h
  split_ifs at h with hone htwo hthree <;>
    simp only [List.mem_cons,List.not_mem_nil,or_false,hcontinuation] at h
  · exact Char.toNat_inj.1 (hbyte (by omega) h)
  · have hnumber := hbyte (by omega) h
    omega
  · have hnumber := hbyte (by omega) h
    omega
  · have hnumber := hbyte (by omega) h
    omega

lemma mem_encodeUtf8_iff (text : List Char) : UInt8.ofNat d.toNat ∈ encodeUtf8 text ↔ d ∈ text := by
  rw [encodeUtf8,List.mem_flatMap]
  constructor
  · rintro ⟨c,hc,hmem⟩
    rwa [← eq_of_mem_encodeChar hd hmem]
  · intro h
    exact ⟨d,h,by rw [encodeChar_of_lt hd]; exact List.mem_singleton_self _⟩

/-- The form of a text is cut at the character where the text is cut. -/
lemma fields_encodeUtf8 (text : List Char) :
    fields (· == UInt8.ofNat d.toNat) (encodeUtf8 text) = (fields (· == d) text).map encodeUtf8 := by
  induction text with
  | nil => rfl
  | cons c text ih =>
    by_cases hc : c = d
    · subst hc
      rw [encodeUtf8_cons,encodeChar_of_lt hd,List.singleton_append,fields,fields,ih]
      simp [encodeUtf8]
    · have hfree : ∀ b ∈ encodeChar c, (b == UInt8.ofNat d.toNat) = false := by
        intro b hb
        have hne : b ≠ UInt8.ofNat d.toNat := by
          rintro rfl
          exact hc (eq_of_mem_encodeChar hd hb)
        simpa using hne
      obtain ⟨first,rest,hfields,happend⟩ := fields_append_left hfree (encodeUtf8 text)
      rw [ih] at hfields
      obtain ⟨front,back,htext,rfl,rfl⟩ := List.map_eq_cons_iff.1 hfields
      rw [encodeUtf8_cons,happend,fields,htext]
      simp [hc,encodeUtf8_cons]

end Single

end NoteIndex.Text
