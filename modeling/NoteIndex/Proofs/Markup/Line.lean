import NoteIndex.Proofs.Markup.Shape

/-! Lines and forms: a form is decided by the line that it starts on and ends on that line. So the
forms of a text are those of its lines. -/
namespace NoteIndex.Markup

open Text

section Feed

variable {p : Char → Bool}

lemma takeWhile_append_feed (hp : p '\n' = false) (text rest : List Char) :
    (text ++ '\n' :: rest).takeWhile p = text.takeWhile p := by
  induction text with
  | nil => simp [hp]
  | cons c text ih => simp [List.takeWhile_cons,ih]

lemma dropWhile_append_feed (hp : p '\n' = false) (text rest : List Char) :
    (text ++ '\n' :: rest).dropWhile p = text.dropWhile p ++ '\n' :: rest := by
  induction text with
  | nil => simp [hp]
  | cons c text ih =>
    rw [List.cons_append,List.dropWhile_cons,List.dropWhile_cons,ih]
    split <;> rfl

/-- What a text starts with before its line feed is not the line feed. -/
lemma append_feed_eq_cons_iff {c : Char} (hc : c ≠ '\n') {text rest tail : List Char} :
    text ++ '\n' :: rest = c :: tail ↔ ∃ body, text = c :: body ∧ tail = body ++ '\n' :: rest := by
  cases text with
  | nil => simp [hc.symm]
  | cons a body => simp [eq_comm,and_assoc]

lemma append_feed_eq_cons_cons_iff {c d : Char} (hc : c ≠ '\n') (hd : d ≠ '\n')
    {text rest tail : List Char} :
    text ++ '\n' :: rest = c :: d :: tail ↔
      ∃ body, text = c :: d :: body ∧ tail = body ++ '\n' :: rest := by
  rw [append_feed_eq_cons_iff hc]
  constructor
  · rintro ⟨body,rfl,hbody⟩
    obtain ⟨body,rfl,rfl⟩ := (append_feed_eq_cons_iff hd).1 hbody.symm
    exact ⟨body,rfl,rfl⟩
  · rintro ⟨body,rfl,rfl⟩
    exact ⟨_,rfl,rfl⟩

lemma isPrefixOf_append_feed {mark : List Char} (hmark : '\n' ∉ mark) (text rest : List Char) :
    mark.isPrefixOf (text ++ '\n' :: rest) = mark.isPrefixOf text := by
  induction mark generalizing text with
  | nil => rfl
  | cons c mark ih =>
    obtain ⟨hc,hmark⟩ := not_or.1 (fun h => hmark (List.mem_cons.2 h))
    cases text with
    | nil => simp [List.isPrefixOf,Ne.symm hc]
    | cons d text => simp [List.isPrefixOf,ih hmark]

lemma isTargetChar_feed : isTargetChar '\n' = false := rfl
lemma isAnchorChar_feed : isAnchorChar '\n' = false := rfl
lemma isDisplayChar_feed : isDisplayChar '\n' = false := rfl
lemma isBracketChar_feed : isBracketChar '\n' = false := rfl
lemma isAngledChar_feed : isAngledChar '\n' = false := rfl
lemma isPlainChar_feed : isPlainChar '\n' = false := by decide
lemma isSpaceOrTab_feed : isSpaceOrTab '\n' = false := rfl
lemma isBlank_feed : isBlank '\n' = true := by decide

end Feed

/-- What a form looks like is decided by the line that it starts on, and it ends on that line. -/
structure LineLocal {α : Type} (form : Form α) : Prop where
  /-- What comes after a line feed does not matter. -/
  cut : ∀ before text rest, form before (text ++ '\n' :: rest) = form before text
  /-- A line feed before a form is as good as the start of the text. -/
  start : ∀ text, form (some '\n') text = form none text
  fits : ∀ {before text length value}, form before text = some (length,value) →
    0 < length ∧ length ≤ text.length

lemma isFenceLine_append_feed (text rest : List Char) :
    isFenceLine (text ++ '\n' :: rest) = isFenceLine text := by
  simp [isFenceLine,takeWhile_append_feed,dropWhile_append_feed,isPrefixOf_append_feed]

lemma lineLocal_fenceLine : LineLocal fenceLine where
  cut before text rest := by
    simp [fenceLine,isFenceLine_append_feed,takeWhile_append_feed]
  start text := rfl
  fits {before text length value} h := by
    unfold fenceLine at h
    split at h
    · rename_i hfence
      cases h
      have hlength := length_takeWhile_add (· != '\n') text
      cases text with
      | nil => simp [isFenceLine] at hfence
      | cons c rest =>
        have hc : c ≠ '\n' := by
          rintro rfl
          simp [isFenceLine] at hfence
        exact ⟨by simp [hc],by omega⟩
    · cases h

lemma lineLocal_codeSpan : LineLocal codeSpan where
  cut before text rest := by
    cases text with
    | nil => rfl
    | cons c text =>
      by_cases hc : c = '\x60'
      · subst hc
        simp only [codeSpan,List.cons_append,drop_length_takeWhile]
        rw [takeWhile_append_feed (by rfl),dropWhile_append_feed (by rfl)]
        cases text.dropWhile fun c => c != '\x60' && c != '\n' <;> simp
      · simp [codeSpan,hc]
  start text := rfl
  fits {before text length value} h := by
    obtain ⟨body,rest,rfl,-,hclose,heq⟩ := codeSpan_eq_some_iff.1 h
    cases heq
    have hlength := length_takeWhile_add (fun c => c != '\x60' && c != '\n') body
    simp only [hclose,List.length_cons] at hlength ⊢
    omega

lemma lineLocal_headingForm : LineLocal headingForm where
  cut before text rest := by
    unfold headingForm
    simp only [drop_length_takeWhile]
    simp [takeWhile_append_feed,dropWhile_append_feed]
  start text := rfl
  fits {before text length value} h := (closes_of_headingForm h).fits

lemma markedPart_append_feed {mark : Char} {isPart : Char → Bool} (hmark : mark ≠ '\n')
    (hpart : isPart '\n' = false) (text rest : List Char) :
    markedPart mark isPart (text ++ '\n' :: rest) =
      ((markedPart mark isPart text).1,(markedPart mark isPart text).2 ++ '\n' :: rest) := by
  cases text with
  | nil => simp [markedPart,hmark.symm]
  | cons c text =>
    by_cases hc : c = mark
    · simp [markedPart,hc,takeWhile_append_feed hpart,dropWhile_append_feed hpart]
    · simp [markedPart,hc]

lemma lineLocal_wikiLinkForm : LineLocal wikiLinkForm where
  cut before text rest := by
    apply Option.ext
    intro found
    simp only [wikiLinkForm_eq_some_iff]
    constructor
    · rintro ⟨body,anchor,display,tail,hopen,rfl,rfl,hclose,rfl⟩
      obtain ⟨body,rfl,rfl⟩ := (append_feed_eq_cons_cons_iff (by decide) (by decide)).1 hopen
      simp only [dropWhile_append_feed isTargetChar_feed,takeWhile_append_feed isTargetChar_feed,
        markedPart_append_feed (by decide : '#' ≠ '\n') isAnchorChar_feed,
        markedPart_append_feed (by decide : '|' ≠ '\n') isDisplayChar_feed] at hclose ⊢
      obtain ⟨tail,hend,-⟩ := (append_feed_eq_cons_cons_iff (by decide) (by decide)).1 hclose
      exact ⟨body,_,_,tail,rfl,rfl,rfl,hend,rfl⟩
    · rintro ⟨body,anchor,display,tail,rfl,rfl,rfl,hclose,rfl⟩
      refine ⟨body ++ '\n' :: rest,_,_,tail ++ '\n' :: rest,rfl,rfl,rfl,?_⟩
      simp only [dropWhile_append_feed isTargetChar_feed,takeWhile_append_feed isTargetChar_feed,
        markedPart_append_feed (by decide : '#' ≠ '\n') isAnchorChar_feed,
        markedPart_append_feed (by decide : '|' ≠ '\n') isDisplayChar_feed,hclose]
      exact ⟨rfl,trivial⟩
  start text := rfl
  fits {before text length value} h := (closes_of_wikiLinkForm h).fits

lemma destination?_append_feed (text rest : List Char) :
    destination? (text ++ '\n' :: rest) =
      (destination? text).map fun found => (found.1,found.2 ++ '\n' :: rest) := by
  cases text with
  | nil => simp [destination?,isPlainChar_feed]
  | cons c body =>
    by_cases hc : c = '<'
    · subst hc
      simp only [destination?,List.cons_append,takeWhile_append_feed isAngledChar_feed,
        dropWhile_append_feed isAngledChar_feed]
      cases body.dropWhile isAngledChar with
      | nil => simp
      | cons d after => by_cases hd : d = '>' <;> simp [hd]
    · have hopen : ∀ tail, destination? (c :: tail) =
          some ((c :: tail).takeWhile isPlainChar,(c :: tail).dropWhile isPlainChar) := by
        intro tail
        simp [destination?,hc]
      rw [List.cons_append,hopen,hopen,← List.cons_append,takeWhile_append_feed isPlainChar_feed,
        dropWhile_append_feed isPlainChar_feed,Option.map_some]

lemma linkEnd?_append_feed (text rest : List Char) :
    linkEnd? (text ++ '\n' :: rest) = (linkEnd? text).map (· ++ '\n' :: rest) := by
  apply Option.ext
  intro found
  simp only [Option.map_eq_some_iff,linkEnd?_eq_some_iff]
  constructor
  · rintro (hend | ⟨c,body,title,htext,hc,hquote,hend⟩)
    · obtain ⟨tail,rfl,rfl⟩ := (append_feed_eq_cons_iff (by decide)).1 hend
      exact ⟨tail,.inl rfl,rfl⟩
    · have hne : c ≠ '\n' := by
        rintro rfl
        cases hc
      obtain ⟨body,rfl,rfl⟩ := (append_feed_eq_cons_iff hne).1 htext
      rw [dropWhile_append_feed isSpaceOrTab_feed] at hquote
      obtain ⟨title,hopen,rfl⟩ := (append_feed_eq_cons_iff (by decide)).1 hquote
      rw [dropWhile_append_feed (by rfl)] at hend
      obtain ⟨tail,hclose,rfl⟩ := (append_feed_eq_cons_cons_iff (by decide) (by decide)).1 hend
      exact ⟨tail,.inr ⟨c,body,title,rfl,hc,hopen,hclose⟩,rfl⟩
  · rintro ⟨tail,rfl | ⟨c,body,title,rfl,hc,hopen,hclose⟩,rfl⟩
    · exact .inl rfl
    · refine .inr ⟨c,body ++ '\n' :: rest,title ++ '\n' :: rest,rfl,hc,?_,?_⟩
      · rw [dropWhile_append_feed isSpaceOrTab_feed,hopen]
        rfl
      · rw [dropWhile_append_feed (by rfl),hclose]
        rfl

lemma lineLocal_inlineLinkForm : LineLocal inlineLinkForm where
  cut before text rest := by
    apply Option.ext
    intro found
    simp only [inlineLinkForm_eq_some_iff]
    constructor
    · rintro ⟨body,inner,destination,tail,hopen,hbracket,hfound,hend,rfl⟩
      obtain ⟨body,rfl,rfl⟩ := (append_feed_eq_cons_iff (by decide)).1 hopen
      rw [dropWhile_append_feed isBracketChar_feed] at hbracket
      obtain ⟨inner,hclose,rfl⟩ := (append_feed_eq_cons_cons_iff (by decide) (by decide)).1 hbracket
      rw [destination?_append_feed] at hfound
      obtain ⟨destination,hdestination,rfl⟩ := Option.map_eq_some_iff.1 hfound
      rw [linkEnd?_append_feed] at hend
      obtain ⟨tail,htail,rfl⟩ := Option.map_eq_some_iff.1 hend
      refine ⟨body,inner,destination,tail,rfl,hclose,hdestination,htail,?_⟩
      simp only [List.length_append,Nat.add_sub_add_right,takeWhile_append_feed isBracketChar_feed]
    · rintro ⟨body,inner,destination,tail,rfl,hclose,hdestination,htail,rfl⟩
      refine ⟨body ++ '\n' :: rest,inner ++ '\n' :: rest,(destination.1,destination.2 ++ '\n' :: rest),
        tail ++ '\n' :: rest,rfl,?_,?_,?_,?_⟩
      · rw [dropWhile_append_feed isBracketChar_feed,hclose]
        rfl
      · rw [destination?_append_feed,hdestination]
        rfl
      · rw [linkEnd?_append_feed,htail]
        rfl
      · simp only [List.length_append,Nat.add_sub_add_right,takeWhile_append_feed isBracketChar_feed]
  start text := rfl
  fits {before text length value} h := (closes_of_inlineLinkForm h).fits

lemma lineLocal_definitionForm : LineLocal definitionForm where
  cut before text rest := by
    have hindents := takeWhile_append_feed (p := (· == ' ')) rfl
    have hopens := dropWhile_append_feed (p := (· == ' ')) rfl
    have hurls := takeWhile_append_feed (p := (!isBlank ·)) (by rw [isBlank_feed]; rfl)
    apply Option.ext
    intro found
    simp only [definitionForm_eq_some_iff]
    constructor
    · rintro ⟨body,inner,label,url,hstart,hindent,hbracket,rfl,hcolon,rfl,hlabel,hcaret,hurl,rfl⟩
      rw [hopens] at hbracket
      obtain ⟨body,hopen,rfl⟩ := (append_feed_eq_cons_iff (by decide)).1 hbracket
      rw [dropWhile_append_feed isBracketChar_feed] at hcolon
      obtain ⟨inner,hclose,rfl⟩ := (append_feed_eq_cons_cons_iff (by decide) (by decide)).1 hcolon
      simp only [hindents,hurls,takeWhile_append_feed isBracketChar_feed,
        takeWhile_append_feed isSpaceOrTab_feed,dropWhile_append_feed isSpaceOrTab_feed]
        at hindent hlabel hcaret hurl ⊢
      exact ⟨body,inner,_,_,hstart,hindent,hopen,rfl,hclose,rfl,hlabel,hcaret,hurl,rfl⟩
    · rintro ⟨body,inner,label,url,hstart,hindent,hopen,hbody,hclose,hinner,hlabel,hcaret,hurl,rfl⟩
      refine ⟨body ++ '\n' :: rest,inner ++ '\n' :: rest,label,url,hstart,?_⟩
      simp only [hindents,hopens,hurls,takeWhile_append_feed isBracketChar_feed,
        takeWhile_append_feed isSpaceOrTab_feed,dropWhile_append_feed isSpaceOrTab_feed,
        dropWhile_append_feed isBracketChar_feed,hopen,hclose,hbody,hinner]
      exact ⟨hindent,rfl,trivial,rfl,trivial,hlabel,hcaret,hurl,trivial⟩
  start text := rfl
  fits {before text length value} h := (closes_of_definitionForm h).fits

lemma secondLabel?_append_feed (text rest : List Char) :
    secondLabel? (text ++ '\n' :: rest) = secondLabel? text := by
  apply Option.ext
  intro label
  simp only [secondLabel?_eq_some_iff]
  constructor
  · rintro ⟨body,tail,hopen,hbracket,rfl⟩
    obtain ⟨body,rfl,rfl⟩ := (append_feed_eq_cons_iff (by decide)).1 hopen
    rw [dropWhile_append_feed isBracketChar_feed] at hbracket
    obtain ⟨tail,hclose,rfl⟩ := (append_feed_eq_cons_iff (by decide)).1 hbracket
    exact ⟨body,tail,rfl,hclose,takeWhile_append_feed isBracketChar_feed _ _⟩
  · rintro ⟨body,tail,rfl,hclose,rfl⟩
    refine ⟨body ++ '\n' :: rest,tail ++ '\n' :: rest,rfl,?_,?_⟩
    · rw [dropWhile_append_feed isBracketChar_feed,hclose]
      rfl
    · rw [takeWhile_append_feed isBracketChar_feed]

/-- A line feed after brackets is as good as the end of the text. -/
lemma labelUse?_append_feed (before : Option Char) (label : List Char) (second : Option (List Char))
    (text rest : List Char) :
    labelUse? before label second (text ++ '\n' :: rest).head? =
      labelUse? before label second text.head? := by
  cases text with
  | nil => cases second <;> simp [labelUse?]
  | cons c text => rfl

lemma lineLocal_labelUseForm : LineLocal labelUseForm where
  cut before text rest := by
    apply Option.ext
    intro found
    simp only [labelUseForm_eq_some_iff]
    constructor
    · rintro ⟨body,inner,label,hopen,rfl,hbracket,hlabel,rfl⟩
      obtain ⟨body,rfl,rfl⟩ := (append_feed_eq_cons_iff (by decide)).1 hopen
      rw [dropWhile_append_feed isBracketChar_feed] at hbracket
      obtain ⟨inner,hclose,rfl⟩ := (append_feed_eq_cons_iff (by decide)).1 hbracket
      rw [takeWhile_append_feed isBracketChar_feed] at hlabel ⊢
      refine ⟨body,inner,_,rfl,rfl,hclose,hlabel,?_⟩
      rw [secondLabel?_append_feed,labelUse?_append_feed]
    · rintro ⟨body,inner,label,rfl,rfl,hclose,hlabel,rfl⟩
      refine ⟨body ++ '\n' :: rest,inner ++ '\n' :: rest,_,rfl,
        takeWhile_append_feed isBracketChar_feed _ _,?_,hlabel,?_⟩
      · rw [dropWhile_append_feed isBracketChar_feed,hclose]
        rfl
      · rw [secondLabel?_append_feed,labelUse?_append_feed]
  start text := rfl
  fits {before text length value} h := (closes_of_labelUseForm h).fits

/-- A span with both ends moved. -/
def Span.moved (move : Nat → Nat) (span : Span) : Span := ⟨move span.start,move span.stop⟩

def Found.moved {α : Type} (move : Nat → Nat) (found : Found α) : Found α :=
  ⟨found.span.moved move,found.value⟩

section Find

variable {α : Type} {form : Form α}

/-- Counting from a later index moves everything that is found. -/
lemma findFrom_add (form : Form α) (skip index offset : Nat) (before : Option Char)
    (text : List Char) :
    findFrom form skip before (index+offset) text =
      (findFrom form skip before index text).map (Found.moved (· + offset)) := by
  fun_induction findFrom form skip before index text with
  | case1 => rfl
  | case2 before index c rest skip ih =>
    rw [findFrom,← ih,Nat.add_right_comm]
  | case3 before index c rest hform ih =>
    rw [findFrom,← ih,Nat.add_right_comm]
    simp only [hform]
  | case4 before index c rest length hform ih =>
    rw [findFrom,← ih,Nat.add_right_comm]
    simp only [hform]
  | case5 before index c rest length value hform ih =>
    rw [findFrom,List.map_cons,← ih,Nat.add_right_comm index 1]
    simp only [hform,Found.moved,Span.moved,Nat.add_right_comm index length]

/-- A search that is not in the middle of a form at a line feed starts anew after it. -/
lemma findFrom_append_feed (h : LineLocal form) (skip index : Nat) (before : Option Char)
    (text rest : List Char) (hskip : skip ≤ text.length) :
    findFrom form skip before index (text ++ '\n' :: rest) =
      findFrom form skip before index text ++
        findFrom form 0 (some '\n') (index+text.length+1) rest := by
  fun_induction findFrom form skip before index text with
  | case1 skip before index =>
    obtain rfl : skip = 0 := Nat.le_zero.1 hskip
    have hnone : form before ('\n' :: rest) = none := by
      rw [← List.nil_append ('\n' :: rest),h.cut]
      cases hform : form before [] with
      | none => rfl
      | some found =>
        have hfits := h.fits hform
        simp only [List.length_nil] at hfits
        omega
    rw [List.nil_append,findFrom,hnone]
    rfl
  | case2 before index c text skip ih =>
    simp only [List.length_cons] at hskip ⊢
    rw [List.cons_append,findFrom,ih (by omega),Nat.add_right_comm index 1,Nat.add_assoc index]
  | case3 before index c text hform ih =>
    rw [List.cons_append,findFrom,← List.cons_append,h.cut,hform]
    simp only
    rw [ih (by omega),List.length_cons,Nat.add_right_comm index 1,Nat.add_assoc index]
  | case4 before index c text length hform ih =>
    have hfits := h.fits hform
    rw [List.length_cons] at hfits
    rw [List.cons_append,findFrom,← List.cons_append,h.cut,hform]
    simp only
    rw [ih (by omega),List.length_cons,Nat.add_right_comm index 1,Nat.add_assoc index]
  | case5 before index c text length value hform ih =>
    have hfits := h.fits hform
    rw [List.length_cons] at hfits
    rw [List.cons_append,findFrom,← List.cons_append,h.cut,hform]
    simp only
    rw [ih (by omega),List.length_cons,Nat.add_right_comm index 1,Nat.add_assoc index]
    rfl

/-- Forms are found line by line. -/
theorem find_append_feed (h : LineLocal form) (text rest : List Char) :
    find form (text ++ '\n' :: rest) =
      find form text ++ (find form rest).map (Found.moved (· + (text.length+1))) := by
  have hstart : ∀ index, findFrom form 0 (some '\n') index rest = findFrom form 0 none index rest := by
    intro index
    cases rest with
    | nil => rfl
    | cons c rest =>
      rw [findFrom,findFrom,h.start]
  unfold find
  rw [findFrom_append_feed h 0 0 none text rest (Nat.zero_le _),hstart,← findFrom_add,Nat.add_assoc]

/-- What is found is not empty and lies in the text. -/
lemma span_of_mem_findFrom (h : LineLocal form) {skip index : Nat} {before : Option Char}
    {text : List Char} {f : Found α} (hf : f ∈ findFrom form skip before index text) :
    f.span.start < f.span.stop ∧ f.span.stop ≤ index+text.length := by
  fun_induction findFrom form skip before index text with
  | case1 => simp at hf
  | case2 before index c rest skip ih =>
    have hrest := ih hf
    rw [List.length_cons]
    omega
  | case3 before index c rest hform ih =>
    have hrest := ih hf
    rw [List.length_cons]
    omega
  | case4 before index c rest length hform ih =>
    have hrest := ih hf
    rw [List.length_cons]
    omega
  | case5 before index c rest length value hform ih =>
    have hfits := h.fits hform
    rcases List.mem_cons.1 hf with rfl | hf
    · dsimp only
      omega
    · have hrest := ih hf
      rw [List.length_cons]
      omega

lemma span_of_mem_find (h : LineLocal form) {text : List Char} {f : Found α}
    (hf : f ∈ find form text) : f.span.start < f.span.stop ∧ f.span.stop ≤ text.length := by
  simpa using span_of_mem_findFrom h hf

/-- Texts can be taken line by line. -/
theorem line_induction {P : List Char → Prop} (last : ∀ line, '\n' ∉ line → P line)
    (more : ∀ line rest, '\n' ∉ line → P rest → P (line ++ '\n' :: rest)) (text : List Char) :
    P text := by
  induction hlength : text.length using Nat.strongRecOn generalizing text with
  | _ length ih =>
    by_cases hfeed : '\n' ∈ text
    · obtain ⟨line,rest,rfl,hline⟩ := List.eq_append_cons_of_mem hfeed
      refine more line rest hline (ih rest.length ?_ rest rfl)
      simp only [List.length_append,List.length_cons] at hlength
      omega
    · exact last text hfeed

end Find

end NoteIndex.Markup
