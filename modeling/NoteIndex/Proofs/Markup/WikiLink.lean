import NoteIndex.Proofs.Markup.Search
import NoteIndex.Proofs.Text.Trim

/-! Wiki links: exactly the texts of the form `[[target#anchor|display]]` are found, wherever they stand.
No part of a link holds a bracket, so links never overlap. -/
namespace NoteIndex.Markup

open Text

/-- An optional part of a link after its mark. -/
def marked (mark : Char) : Option (List Char) → List Char
  | none => []
  | some part => mark :: part

/-- A text that is written as a wiki link with these parts. -/
structure WikiLinkText (piece target : List Char) (anchor display : Option (List Char)) : Prop where
  piece_eq : piece = ['[','['] ++ target ++ marked '#' anchor ++ marked '|' display ++ [']',']']
  targetChars : ∀ c ∈ target, c ∉ ['[',']','|','#','\n']
  anchorChars : ∀ part ∈ anchor, ∀ c ∈ part, c ∉ ['[',']','|','\n']
  displayChars : ∀ part ∈ display, ∀ c ∈ part, c ∉ ['[',']','\n']

section Chars

variable {c : Char}

lemma isDisplayChar_iff : isDisplayChar c = true ↔ c ∉ ['[',']','\n'] := by
  simp [isDisplayChar,and_assoc]

lemma isAnchorChar_iff : isAnchorChar c = true ↔ c ∉ ['[',']','|','\n'] := by
  simp [isAnchorChar,isDisplayChar]
  tauto

lemma isTargetChar_iff : isTargetChar c = true ↔ c ∉ ['[',']','|','#','\n'] := by
  simp [isTargetChar,isAnchorChar,isDisplayChar]
  tauto

end Chars

section Marked

variable {mark : Char} {isPart : Char → Bool}

lemma length_marked (mark : Char) (part : Option (List Char)) :
    (marked mark part).length = markedLength part := by
  cases part <;> rfl

section Read

variable {text : List Char} {found : Option (List Char) × List Char}
  (h : markedPart mark isPart text = found)

include h

lemma marked_of_markedPart : marked mark found.1 ++ found.2 = text := by
  subst h
  cases text with
  | nil => rfl
  | cons c rest => by_cases hc : c = mark <;> simp [markedPart,marked,hc]

lemma isPart_of_markedPart {part : List Char} (hpart : part ∈ found.1) : ∀ c ∈ part, isPart c = true := by
  subst h
  cases text with
  | nil => simp [markedPart] at hpart
  | cons c rest =>
    by_cases hc : c = mark
    · obtain rfl : rest.takeWhile isPart = part := by simpa [markedPart,hc] using hpart
      intro d hd
      exact List.mem_takeWhile_imp hd
    · simp [markedPart,hc] at hpart

end Read

lemma mem_of_mem_marked {c : Char} {part : Option (List Char)} (hc : c ≠ mark)
    (h : c ∈ marked mark part) : ∃ chars ∈ part, c ∈ chars := by
  cases part with
  | none => simp [marked] at h
  | some chars => exact ⟨chars,rfl,by simpa [marked,hc] using h⟩

/-- A part is read back if what follows it neither goes on with it nor starts with the mark. -/
lemma markedPart_marked_append {part : Option (List Char)} {rest : List Char}
    (hpart : ∀ chars ∈ part, ∀ c ∈ chars, isPart c = true) (hmark : rest.head? ≠ some mark)
    (hrest : ∀ c, rest.head? = some c → isPart c = false) :
    markedPart mark isPart (marked mark part ++ rest) = (part,rest) := by
  cases part with
  | none =>
    cases rest with
    | nil => rfl
    | cons c rest =>
      have hc : c ≠ mark := by simpa using hmark
      simp [marked,markedPart,hc]
  | some chars =>
    have hchars := hpart chars rfl
    simp [marked,markedPart,takeWhile_append_of_stop hchars hrest,dropWhile_append_of_stop hchars hrest]

end Marked

namespace WikiLinkText

variable {piece target : List Char} {anchor display : Option (List Char)}

lemma length_eq (h : WikiLinkText piece target anchor display) :
    piece.length = target.length+markedLength anchor+markedLength display+4 := by
  rw [h.piece_eq]
  simp only [List.length_append,List.length_cons,List.length_nil,length_marked]
  omega

/-- Only the first two characters of a link are opening brackets. -/
lemma getElem?_ne_bracket (h : WikiLinkText piece target anchor display) {i : Nat} (hi : 2 ≤ i) :
    piece[i]? ≠ some '[' := by
  have hanchor : '[' ∉ marked '#' anchor := by
    intro hmem
    obtain ⟨part,hpart,hmem⟩ := mem_of_mem_marked (by decide) hmem
    simpa using h.anchorChars part hpart _ hmem
  have hdisplay : '[' ∉ marked '|' display := by
    intro hmem
    obtain ⟨part,hpart,hmem⟩ := mem_of_mem_marked (by decide) hmem
    simpa using h.displayChars part hpart _ hmem
  have htarget : '[' ∉ target := by
    intro hmem
    simpa using h.targetChars _ hmem
  have hinner : '[' ∉ piece.drop 2 := by
    rw [h.piece_eq]
    simp [hanchor,hdisplay,htarget]
  intro hbracket
  apply hinner
  apply List.mem_of_getElem? (i := i-2)
  rw [List.getElem?_drop,Nat.add_sub_cancel' hi,hbracket]

end WikiLinkText

section Form

variable {before : Option Char} {text : List Char}

/-- What is found at the start of a text is written as a wiki link. -/
lemma exists_wikiLinkText {found : Nat × Option RawWikiLink}
    (h : wikiLinkForm before text = some found) : ∃ piece rest target anchor display,
      text = piece ++ rest ∧ WikiLinkText piece target anchor display ∧
      found = (piece.length,some ⟨trimmed? target,anchor.bind trimmed?⟩) := by
  obtain ⟨body,anchor,display,rest,rfl,hanchor,hdisplay,hclose,rfl⟩ := wikiLinkForm_eq_some_iff.1 h
  have hlink : WikiLinkText (['[','['] ++ body.takeWhile isTargetChar ++ marked '#' anchor.1 ++
      marked '|' display.1 ++ [']',']']) (body.takeWhile isTargetChar) anchor.1 display.1 := by
    refine ⟨rfl,?_,?_,?_⟩
    · intro c hc
      exact isTargetChar_iff.1 (List.mem_takeWhile_imp hc)
    · intro part hpart c hc
      exact isAnchorChar_iff.1 (isPart_of_markedPart hanchor hpart c hc)
    · intro part hpart c hc
      exact isDisplayChar_iff.1 (isPart_of_markedPart hdisplay hpart c hc)
  have hbody : body = body.takeWhile isTargetChar ++
      (marked '#' anchor.1 ++ (marked '|' display.1 ++ ']' :: ']' :: rest)) := by
    rw [← hclose,marked_of_markedPart hdisplay,marked_of_markedPart hanchor,
      List.takeWhile_append_dropWhile]
  refine ⟨_,rest,_,_,_,?_,hlink,by rw [hlink.length_eq]⟩
  conv_lhs => rw [hbody]
  simp

/-- What is written as a wiki link is found with its parts, whatever follows it. -/
lemma WikiLinkText.form {piece target : List Char} {anchor display : Option (List Char)}
    (h : WikiLinkText piece target anchor display) (before : Option Char) (rest : List Char) :
    wikiLinkForm before (piece ++ rest) =
      some (piece.length,some ⟨trimmed? target,anchor.bind trimmed?⟩) := by
  -- Each part ends where the next mark or the closing bracket stands, which none of its characters is.
  have hafterTarget : ∀ c, (marked '#' anchor ++ (marked '|' display ++ ']' :: ']' :: rest)).head? =
      some c → isTargetChar c = false := by
    intro c hc
    cases anchor <;> cases display <;> cases hc <;> rfl
  have hafterAnchor : ∀ c, (marked '|' display ++ ']' :: ']' :: rest).head? = some c →
      isAnchorChar c = false := by
    intro c hc
    cases display <;> cases hc <;> rfl
  have hmark : (marked '|' display ++ ']' :: ']' :: rest).head? ≠ some '#' := by
    cases display <;> simp [marked]
  have htarget : ∀ c ∈ target, isTargetChar c = true := fun c hc =>
    isTargetChar_iff.2 (h.targetChars c hc)
  have hanchor := markedPart_marked_append (fun part hpart c hc =>
    isAnchorChar_iff.2 (h.anchorChars part hpart c hc)) hmark hafterAnchor
  have hdisplay : markedPart '|' isDisplayChar (marked '|' display ++ ']' :: ']' :: rest) =
      (display,']' :: ']' :: rest) := by
    refine markedPart_marked_append (fun part hpart c hc =>
      isDisplayChar_iff.2 (h.displayChars part hpart c hc)) (by simp) ?_
    intro c hc
    cases hc
    rfl
  have hpiece : piece ++ rest = '[' :: '[' :: (target ++
      (marked '#' anchor ++ (marked '|' display ++ ']' :: ']' :: rest))) := by
    rw [h.piece_eq]
    simp
  refine wikiLinkForm_eq_some_iff.2 ⟨_,(anchor,_),(display,_),rest,hpiece,?_,hdisplay,rfl,?_⟩
  · rw [dropWhile_append_of_stop htarget hafterTarget]
    exact hanchor
  · rw [takeWhile_append_of_stop htarget hafterTarget,h.length_eq]

end Form

/-- The opening brackets of a link are its first two characters. -/
lemma brackets_of_wikiLinkForm {text : List Char} {place length : Nat} {value : Option RawWikiLink}
    (h : formAt wikiLinkForm text place = some (length,value)) :
    4 ≤ length ∧ ∀ i < length, text[place+i]? = some '[' ↔ i < 2 := by
  obtain ⟨piece,rest,_,_,_,hpiece,hlink,heq⟩ := exists_wikiLinkText h
  cases heq
  have hlength := hlink.length_eq
  refine ⟨by omega,?_⟩
  intro i hi
  rw [← List.getElem?_drop,hpiece,List.getElem?_append_left hi]
  constructor
  · intro hbracket
    by_contra htwo
    exact hlink.getElem?_ne_bracket (by omega) hbracket
  · intro htwo
    rw [hlink.piece_eq]
    obtain rfl | rfl : i = 0 ∨ i = 1 := by omega
    · rfl
    · rfl

/-- A link that starts in another one would have its two brackets there. -/
lemma standApart_wikiLinkForm : StandApart wikiLinkForm := by
  intro text first second reach found length value hlt hfirst hsecond
  obtain ⟨hfour,hbrackets⟩ := brackets_of_wikiLinkForm hfirst
  obtain ⟨hfour',hbrackets'⟩ := brackets_of_wikiLinkForm hsecond
  by_contra hreach
  obtain ⟨k,rfl⟩ : ∃ k, second = first+k := ⟨second-first,by omega⟩
  have hk := (hbrackets k (by omega)).1 ((hbrackets' 0 (by omega)).2 (by omega))
  obtain rfl : k = 1 := by omega
  have hthird := (hbrackets 2 (by omega)).1 ((hbrackets' 1 (by omega)).2 (by omega))
  omega

lemma trimmed?_anchor_iff {anchor part : Option (List Char)} :
    anchor.bind trimmed? = part ↔ Trimmed (anchor.getD []) part := by
  rw [← trimmed?_eq_iff]
  cases anchor <;> rfl

lemma mem_wikiLinks_iff {text : List Char} {f : Found RawWikiLink} :
    f ∈ wikiLinks text ↔ ∃ before piece after target anchor display,
      text = before ++ piece ++ after ∧ f.span = ⟨before.length,before.length+piece.length⟩ ∧
      WikiLinkText piece target anchor display ∧ Trimmed target f.value.target ∧
      Trimmed (anchor.getD []) f.value.anchor := by
  rw [wikiLinks,mem_find_iff lineLocal_wikiLinkForm standApart_wikiLinkForm]
  constructor
  · intro h
    obtain ⟨length,hform,hstop⟩ := h
    obtain ⟨piece,rest,target,anchor,display,hpiece,hlink,heq⟩ := exists_wikiLinkText hform
    obtain ⟨rfl,hvalue⟩ : length = piece.length ∧ f.value = ⟨trimmed? target,anchor.bind trimmed?⟩ := by
      simpa using heq
    have hfits := lineLocal_wikiLinkForm.fits hform
    have hstart : (text.take f.span.start).length = f.span.start := by
      rw [List.length_drop] at hfits
      rw [List.length_take]
      omega
    refine ⟨text.take f.span.start,piece,rest,target,anchor,display,?_,?_,hlink,?_,?_⟩
    · rw [List.append_assoc,← hpiece,List.take_append_drop]
    · rw [hstart,← hstop]
    · rw [← trimmed?_eq_iff,hvalue]
    · rw [← trimmed?_anchor_iff,hvalue]
  · intro h
    obtain ⟨before,piece,after,target,anchor,display,rfl,hspan,hlink,htarget,hanchor⟩ := h
    refine ⟨piece.length,?_,by rw [hspan]⟩
    rw [hspan,List.append_assoc,formAt_append,hlink.form,trimmed?_eq_iff.2 htarget,
      trimmed?_anchor_iff.2 hanchor]

/-- The wiki links of a text are found one after the other and without overlap, and they are exactly the
stretches of bytes that are written as wiki links. What is trimmed and not blank of the target and the
anchor is what they stand for. -/
theorem wikiLinks_exact (text : String) :
    ((inBytes text.toList (wikiLinks text.toList)).Pairwise fun f g =>
      f.span.start < g.span.start ∧ f.span.stop ≤ g.span.start) ∧
    ∀ (i j : Nat) (link : RawWikiLink),
      ⟨⟨i,j⟩,link⟩ ∈ inBytes text.toList (wikiLinks text.toList) ↔
        ∃ (before piece after : String) (target : List Char) (anchor display : Option (List Char)),
          text = before ++ piece ++ after ∧ i = before.utf8ByteSize ∧
          j = (before ++ piece).utf8ByteSize ∧ WikiLinkText piece.toList target anchor display ∧
          Trimmed target link.target ∧ Trimmed (anchor.getD []) link.anchor := by
  refine ⟨standApart_wikiLinkForm.pairwise_inBytes lineLocal_wikiLinkForm text.toList,?_⟩
  intro i j link
  constructor
  · intro h
    obtain ⟨f,hf,heq⟩ := List.mem_map.1 h
    cases heq
    obtain ⟨before,piece,after,target,anchor,display,htext,hspan,hlink,htarget,hanchor⟩ :=
      mem_wikiLinks_iff.1 hf
    refine ⟨String.ofList before,String.ofList piece,String.ofList after,target,anchor,display,?_,?_,?_,
      ?_,htarget,hanchor⟩
    · rw [← String.ofList_append,← String.ofList_append,← htext,String.ofList_toList]
    · rw [hspan,htext,List.append_assoc,byteOfChar_length]
    · rw [hspan,htext,← List.length_append,byteOfChar_length,String.ofList_append]
    · rw [String.toList_ofList]
      exact hlink
  · intro h
    obtain ⟨before,piece,after,target,anchor,display,rfl,rfl,rfl,hlink,htarget,hanchor⟩ := h
    have hmem : (⟨⟨before.toList.length,before.toList.length+piece.toList.length⟩,link⟩ :
        Found RawWikiLink) ∈ wikiLinks (before ++ piece ++ after).toList :=
      mem_wikiLinks_iff.2 ⟨before.toList,piece.toList,after.toList,target,anchor,display,by simp,rfl,
        hlink,htarget,hanchor⟩
    have hstart : byteOfChar (before ++ piece ++ after).toList before.toList.length =
        before.utf8ByteSize := by
      rw [String.append_assoc,String.toList_append,byteOfChar_length,String.ofList_toList]
    have hstop : byteOfChar (before ++ piece ++ after).toList
        (before.toList.length+piece.toList.length) = (before ++ piece).utf8ByteSize := by
      rw [← List.length_append,← String.toList_append,String.toList_append,byteOfChar_length,
        String.ofList_toList]
    refine List.mem_map.2 ⟨_,hmem,?_⟩
    rw [Found.moved,Span.moved,hstart,hstop]

example : wikiLinks "[[[a#b|c]]]] [[ |]]".toList =
    [⟨⟨1,10⟩,⟨some ['a'],some ['b']⟩⟩,⟨⟨13,19⟩,⟨none,none⟩⟩] := by decide

end NoteIndex.Markup
