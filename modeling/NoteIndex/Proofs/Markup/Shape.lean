import Mathlib.Data.List.Infix
import Mathlib.Data.List.TakeWhile
import NoteIndex.Markup.Element
import NoteIndex.Proofs.Text.Trim

/-! Shapes of forms: what has to stand at a place for a form to be found there, and how long the form
is then. -/
namespace NoteIndex.Markup

open Text

lemma drop_length_takeWhile (p : Char → Bool) (text : List Char) :
    text.drop (text.takeWhile p).length = text.dropWhile p := by
  calc text.drop (text.takeWhile p).length
      = (text.takeWhile p ++ text.dropWhile p).drop (text.takeWhile p).length := by
        rw [List.takeWhile_append_dropWhile]
    _ = text.dropWhile p := List.drop_left

lemma length_takeWhile_add (p : Char → Bool) (text : List Char) :
    (text.takeWhile p).length + (text.dropWhile p).length = text.length := by
  rw [← List.length_append,List.takeWhile_append_dropWhile]

section Stop

variable {p : Char → Bool} {part rest : List Char} (hpart : ∀ c ∈ part, p c = true)
  (hrest : ∀ c, rest.head? = some c → p c = false)

include hpart hrest

/-- A run of characters ends where another character follows. -/
lemma takeWhile_append_of_stop : (part ++ rest).takeWhile p = part := by
  rw [List.takeWhile_append_of_pos hpart]
  cases rest with
  | nil => simp
  | cons c rest => simp [hrest c rfl]

lemma dropWhile_append_of_stop : (part ++ rest).dropWhile p = rest := by
  rw [List.dropWhile_append_of_pos hpart,dropWhile_of_head? hrest]

end Stop

section Bracket

variable {label : List Char} (h : ∀ c ∈ label, isBracketChar c = true) (rest : List Char)

include h

/-- A label goes on up to the closing bracket. -/
lemma takeWhile_bracket : (label ++ ']' :: rest).takeWhile isBracketChar = label :=
  takeWhile_append_of_stop h (by simp [isBracketChar])

lemma dropWhile_bracket : (label ++ ']' :: rest).dropWhile isBracketChar = ']' :: rest :=
  dropWhile_append_of_stop h (by simp [isBracketChar])

end Bracket

variable {before : Option Char} {text : List Char}

lemma suffix_of_dropWhile {p : Char → Bool} {rest : List Char} (h : text.dropWhile p = rest) :
    rest <:+ text := by
  rw [← h]
  exact List.dropWhile_suffix p

/-- Backticks around at least one character. -/
lemma codeSpan_eq_some_iff {found : Nat × Option Unit} :
    codeSpan before text = some found ↔ ∃ body rest, text = '\x60' :: body ∧
      body.takeWhile (fun c => c != '\x60' && c != '\n') ≠ [] ∧
      body.dropWhile (fun c => c != '\x60' && c != '\n') = '\x60' :: rest ∧
      found = ((body.takeWhile fun c => c != '\x60' && c != '\n').length + 2,some ()) := by
  constructor
  · intro h
    unfold codeSpan at h
    split at h
    · rename_i body
      simp only [drop_length_takeWhile] at h
      split at h
      · rename_i hclose
        cases h
        simp only [Bool.and_eq_true,Bool.not_eq_true',List.isEmpty_eq_false_iff,beq_iff_eq] at hclose
        obtain ⟨rest,hrest⟩ := List.head?_eq_some_iff.1 hclose.2
        exact ⟨body,rest,rfl,hclose.1,hrest,rfl⟩
      · cases h
    · cases h
  · rintro ⟨body,rest,rfl,hinner,hclose,rfl⟩
    simp [codeSpan,drop_length_takeWhile,hinner,hclose]

/-- One to six number signs at the start of a line, and a blank and something else after them. -/
lemma headingForm_eq_some_iff {found : Nat × Option RawHeading} :
    headingForm before text = some found ↔ ∃ line, atLineStart before = true ∧
      1 ≤ (text.takeWhile (· == '#')).length ∧ (text.takeWhile (· == '#')).length ≤ 6 ∧
      (text.dropWhile (· == '#')).takeWhile (fun c => c != '\r' && c != '\n') = line ∧
      line.head?.any isSpaceOrTab = true ∧ 2 ≤ line.length ∧
      found = ((text.takeWhile (· == '#')).length + line.length,
        some ⟨(text.takeWhile (· == '#')).length,withoutClosing (line.dropWhile isSpaceOrTab)⟩) := by
  unfold headingForm
  simp only [drop_length_takeWhile]
  split
  · rename_i hstart
    split
    · rename_i hform
      simp only [Bool.and_eq_true,decide_eq_true_eq] at hform
      obtain ⟨⟨⟨hone,hsix⟩,hblank⟩,htwo⟩ := hform
      simp [hone,hsix,hblank,htwo,hstart,eq_comm]
    · rename_i hform
      simp only [Bool.and_eq_true,decide_eq_true_eq] at hform
      simp only [reduceCtorEq,false_iff]
      rintro ⟨line,-,hone,hsix,rfl,hblank,htwo,-⟩
      exact hform ⟨⟨⟨hone,hsix⟩,hblank⟩,htwo⟩
  · simp_all

lemma length_markedPart (mark : Char) (isPart : Char → Bool) (text : List Char) :
    markedLength (markedPart mark isPart text).1 + (markedPart mark isPart text).2.length =
      text.length := by
  cases text with
  | nil => rfl
  | cons c text =>
    have hlength := length_takeWhile_add isPart text
    by_cases hc : c = mark
    · simp only [markedPart,hc,beq_self_eq_true,if_true,markedLength,List.length_cons]
      omega
    · simp [markedPart,hc,markedLength]

lemma suffix_markedPart (mark : Char) (isPart : Char → Bool) (text : List Char) :
    (markedPart mark isPart text).2 <:+ text := by
  cases text with
  | nil => exact List.suffix_rfl
  | cons c text =>
    by_cases hc : c = mark
    · simp only [markedPart,hc,beq_self_eq_true,if_true]
      exact (List.dropWhile_suffix _).trans (List.suffix_cons _ _)
    · simp [markedPart,hc]

/-- Two brackets on both sides, with the marks of anchor and display text between them. -/
lemma wikiLinkForm_eq_some_iff {found : Nat × Option RawWikiLink} :
    wikiLinkForm before text = some found ↔ ∃ body anchor display rest,
      text = '[' :: '[' :: body ∧
      markedPart '#' isAnchorChar (body.dropWhile isTargetChar) = anchor ∧
      markedPart '|' isDisplayChar anchor.2 = display ∧ display.2 = ']' :: ']' :: rest ∧
      found = ((body.takeWhile isTargetChar).length + markedLength anchor.1 + markedLength display.1
        + 4,some ⟨trimmed? (body.takeWhile isTargetChar),anchor.1.bind trimmed?⟩) := by
  constructor
  · intro h
    unfold wikiLinkForm at h
    split at h
    · rename_i body
      dsimp only at h
      split at h
      · rename_i rest hclose
        cases h
        exact ⟨body,_,_,rest,rfl,rfl,rfl,hclose,rfl⟩
      · cases h
    · cases h
  · rintro ⟨body,anchor,display,rest,rfl,hanchor,hdisplay,hclose,rfl⟩
    simp [wikiLinkForm,hanchor,hdisplay,hclose]

/-- A destination in angle brackets, or one that ends before the first character that it cannot
hold. -/
lemma destination?_eq_some_iff {found : List Char × List Char} :
    destination? text = some found ↔
      (∃ body after, text = '<' :: body ∧ body.dropWhile isAngledChar = '>' :: after ∧
        found = (body.takeWhile isAngledChar,after)) ∨
      (text.head? ≠ some '<' ∧ found = (text.takeWhile isPlainChar,text.dropWhile isPlainChar)) := by
  constructor
  · intro h
    unfold destination? at h
    split at h
    · rename_i body
      split at h
      · rename_i after hclose
        cases h
        exact .inl ⟨body,after,rfl,hclose,rfl⟩
      · cases h
    · rename_i hopen
      cases h
      refine .inr ⟨?_,rfl⟩
      intro hhead
      obtain ⟨body,rfl⟩ := List.head?_eq_some_iff.1 hhead
      exact hopen body rfl
  · rintro (⟨body,after,rfl,hclose,rfl⟩ | ⟨hopen,rfl⟩)
    · simp [destination?,hclose]
    · cases text with
      | nil => rfl
      | cons c body =>
        have hc : c ≠ '<' := by simpa using hopen
        simp [destination?,hc]

/-- A closing parenthesis, or a blank and a title in quotes before it. -/
lemma linkEnd?_eq_some_iff {rest : List Char} :
    linkEnd? text = some rest ↔ text = ')' :: rest ∨ ∃ c body title,
      text = c :: body ∧ isSpaceOrTab c = true ∧ text.dropWhile isSpaceOrTab = '"' :: title ∧
      title.dropWhile (fun c => c != '"' && c != '\n') = '"' :: ')' :: rest := by
  unfold linkEnd?
  split
  · simp [isSpaceOrTab]
  · split
    · split
      · split <;> simp_all
      · simp_all
    · simp_all
  · simp

lemma suffix_of_destination? {found : List Char × List Char} (h : destination? text = some found) :
    found.2 <:+ text := by
  rcases destination?_eq_some_iff.1 h with ⟨body,after,rfl,hclose,rfl⟩ | ⟨-,rfl⟩
  · exact ((List.suffix_cons _ _).trans (suffix_of_dropWhile hclose)).trans (List.suffix_cons _ _)
  · exact List.dropWhile_suffix _

lemma suffix_of_linkEnd? {rest : List Char} (h : linkEnd? text = some rest) :
    ')' :: rest <:+ text := by
  rcases linkEnd?_eq_some_iff.1 h with rfl | ⟨c,body,title,-,-,hopen,hclose⟩
  · exact List.suffix_rfl
  · have htext := (List.suffix_cons _ _).trans (suffix_of_dropWhile hopen)
    exact ((List.suffix_cons _ _).trans (suffix_of_dropWhile hclose)).trans htext

/-- A pair of brackets, and a destination in parentheses right after it. -/
lemma inlineLinkForm_eq_some_iff {found : Nat × Option RawInlineLink} :
    inlineLinkForm before text = some found ↔ ∃ body rest destination tail,
      text = '[' :: body ∧ body.dropWhile isBracketChar = ']' :: '(' :: rest ∧
      destination? rest = some destination ∧ linkEnd? destination.2 = some tail ∧
      found = (text.length - tail.length,if before == some '!' then none else
        some ⟨body.takeWhile isBracketChar,(trimmed? (splitAnchor destination.1).1).map decodeUrl,
          (splitAnchor destination.1).2.bind trimmed?⟩) := by
  constructor
  · intro h
    unfold inlineLinkForm at h
    split at h
    · rename_i body
      split at h
      · rename_i rest hopen
        obtain ⟨destination,hdestination,h⟩ := Option.bind_eq_some_iff.1 h
        obtain ⟨tail,htail,h⟩ := Option.bind_eq_some_iff.1 h
        cases h
        exact ⟨body,rest,destination,tail,rfl,hopen,hdestination,htail,rfl⟩
      · cases h
    · cases h
  · rintro ⟨body,rest,destination,tail,rfl,hopen,hdestination,htail,rfl⟩
    simp [inlineLinkForm,hopen,hdestination,htail]

/-- A label in brackets at the start of a line, and after a colon an address. -/
lemma definitionForm_eq_some_iff {found : Nat × Option RawDefinition} :
    definitionForm before text = some found ↔ ∃ body rest label url,
      atLineStart before = true ∧ (text.takeWhile (· == ' ')).length ≤ 3 ∧
      text.dropWhile (· == ' ') = '[' :: body ∧ body.takeWhile isBracketChar = label ∧
      body.dropWhile isBracketChar = ']' :: ':' :: rest ∧
      (rest.dropWhile isSpaceOrTab).takeWhile (!isBlank ·) = url ∧
      label ≠ [] ∧ label.head? ≠ some '^' ∧ url ≠ [] ∧
      found = ((text.takeWhile (· == ' ')).length + label.length + 3 +
        (rest.takeWhile isSpaceOrTab).length + url.length,some ⟨label,url⟩) := by
  constructor
  · intro h
    unfold definitionForm at h
    simp only [drop_length_takeWhile] at h
    split at h
    · rename_i hstart
      simp only [Bool.and_eq_true,decide_eq_true_eq] at hstart
      split at h
      · rename_i body hopen
        split at h
        · rename_i rest hclose
          split at h
          · cases h
          · rename_i hempty
            cases h
            simp only [Bool.or_eq_true,List.isEmpty_iff,beq_iff_eq,not_or] at hempty
            obtain ⟨⟨hlabel,hcaret⟩,hurl⟩ := hempty
            exact ⟨body,rest,_,_,hstart.1,hstart.2,hopen,rfl,hclose,rfl,hlabel,hcaret,hurl,rfl⟩
        · cases h
      · cases h
    · cases h
  · rintro ⟨body,rest,label,url,hstart,hindent,hopen,hlabel,hclose,hurl,hlabel',hcaret,hurl',rfl⟩
    simp [definitionForm,drop_length_takeWhile,hstart,hindent,hopen,hlabel,hclose,hurl,hlabel',
      hcaret,hurl']

lemma secondLabel?_eq_some_iff {label : List Char} :
    secondLabel? text = some label ↔ ∃ body rest, text = '[' :: body ∧
      body.dropWhile isBracketChar = ']' :: rest ∧ label = body.takeWhile isBracketChar := by
  constructor
  · intro h
    unfold secondLabel? at h
    split at h
    · rename_i body
      split at h
      · rename_i hclose
        cases h
        obtain ⟨rest,hrest⟩ := List.head?_eq_some_iff.1 (beq_iff_eq.1 hclose)
        exact ⟨body,rest,rfl,hrest,rfl⟩
      · cases h
    · cases h
  · rintro ⟨body,rest,rfl,hclose,rfl⟩
    simp [secondLabel?,hclose]

/-- A label in brackets, and maybe a second pair of brackets right after it. -/
lemma labelUseForm_eq_some_iff {found : Nat × Option (List Char)} :
    labelUseForm before text = some found ↔ ∃ body rest label,
      text = '[' :: body ∧ body.takeWhile isBracketChar = label ∧
      body.dropWhile isBracketChar = ']' :: rest ∧ label ≠ [] ∧
      found = (label.length + 2 + ((secondLabel? rest).map (·.length + 2)).getD 0,
        labelUse? before label (secondLabel? rest) rest.head?) := by
  constructor
  · intro h
    unfold labelUseForm at h
    split at h
    · rename_i body
      dsimp only at h
      split at h
      · rename_i rest hclose
        split at h
        · cases h
        · rename_i hlabel
          cases h
          exact ⟨body,rest,_,rfl,rfl,hclose,by simpa using hlabel,rfl⟩
      · cases h
    · cases h
  · rintro ⟨body,rest,label,rfl,hlabel,hclose,hlabel',rfl⟩
    simp [labelUseForm,hlabel,hclose,hlabel']

/-- How a form of some length closes: with one or more characters, none of them a return. -/
def Closes (text : List Char) (length : Nat) : Prop :=
  ∃ piece rest, piece ++ rest <:+ text ∧ piece ≠ [] ∧ '\r' ∉ piece ∧ length+rest.length = text.length

section Closes

variable {length : Nat}

lemma Closes.fits (h : Closes text length) : 0 < length ∧ length ≤ text.length := by
  obtain ⟨piece,rest,hsuffix,hpiece,-,hlength⟩ := h
  have hle := hsuffix.length_le
  have hpos := List.length_pos_of_ne_nil hpiece
  rw [List.length_append] at hle
  omega

lemma Closes.getLast?_ne_return (h : Closes text length) :
    (text.take length).getLast? ≠ some '\r' := by
  obtain ⟨piece,rest,⟨front,rfl⟩,hpiece,hreturn,hlength⟩ := h
  obtain rfl : length = (front ++ piece).length := by
    simp only [List.length_append] at hlength ⊢
    omega
  rw [← List.append_assoc,List.take_left,List.getLast?_append_of_ne_nil front hpiece]
  exact fun hlast => hreturn (List.mem_of_getLast? hlast)

lemma closes_of_headingForm {value : Option RawHeading}
    (h : headingForm before text = some (length,value)) : Closes text length := by
  obtain ⟨line,-,-,-,hline,-,htwo,heq⟩ := headingForm_eq_some_iff.1 h
  cases heq
  have hlevel := length_takeWhile_add (· == '#') text
  have hlength := length_takeWhile_add (fun c => c != '\r' && c != '\n') (text.dropWhile (· == '#'))
  have hsplit : line ++ (text.dropWhile (· == '#')).dropWhile (fun c => c != '\r' && c != '\n') =
      text.dropWhile (· == '#') := by
    rw [← hline,List.takeWhile_append_dropWhile]
  have hpiece : line ≠ [] := by
    rintro rfl
    simp at htwo
  have hreturn : '\r' ∉ line := by
    intro hmem
    rw [← hline] at hmem
    simpa using List.mem_takeWhile_imp hmem
  refine ⟨_,_,suffix_of_dropWhile hsplit.symm,hpiece,hreturn,?_⟩
  rw [hline] at hlength
  omega

lemma closes_of_wikiLinkForm {value : Option RawWikiLink}
    (h : wikiLinkForm before text = some (length,value)) : Closes text length := by
  obtain ⟨body,anchor,display,rest,rfl,hanchor,hdisplay,hclose,heq⟩ := wikiLinkForm_eq_some_iff.1 h
  cases heq
  have hbody := length_takeWhile_add isTargetChar body
  have hanchorLength := length_markedPart '#' isAnchorChar (body.dropWhile isTargetChar)
  have hdisplayLength := length_markedPart '|' isDisplayChar anchor.2
  have hafter := suffix_markedPart '#' isAnchorChar (body.dropWhile isTargetChar)
  have hend := suffix_markedPart '|' isDisplayChar anchor.2
  rw [hanchor] at hanchorLength hafter
  rw [hdisplay,hclose] at hdisplayLength hend
  have hsuffix : [']',']'] ++ rest <:+ '[' :: '[' :: body := calc
    [']',']'] ++ rest <:+ anchor.2 := hend
    _ <:+ body.dropWhile isTargetChar := hafter
    _ <:+ body := List.dropWhile_suffix _
    _ <:+ '[' :: '[' :: body := (List.suffix_cons _ _).trans (List.suffix_cons _ _)
  refine ⟨_,_,hsuffix,by decide,by decide,?_⟩
  simp only [List.length_cons] at hdisplayLength ⊢
  omega

lemma closes_of_inlineLinkForm {value : Option RawInlineLink}
    (h : inlineLinkForm before text = some (length,value)) : Closes text length := by
  obtain ⟨body,inner,destination,tail,rfl,hclose,hdestination,htail,heq⟩ :=
    inlineLinkForm_eq_some_iff.1 h
  have hlength := congrArg Prod.fst heq
  have hsuffix : [')'] ++ tail <:+ '[' :: body := calc
    [')'] ++ tail <:+ destination.2 := suffix_of_linkEnd? htail
    _ <:+ inner := suffix_of_destination? hdestination
    _ <:+ ']' :: '(' :: inner := (List.suffix_cons _ _).trans (List.suffix_cons _ _)
    _ <:+ body := suffix_of_dropWhile hclose
    _ <:+ '[' :: body := List.suffix_cons _ _
  refine ⟨_,_,hsuffix,by decide,by decide,?_⟩
  have hle := hsuffix.length_le
  simp only [List.length_append] at hlength hle
  omega

lemma closes_of_definitionForm {value : Option RawDefinition}
    (h : definitionForm before text = some (length,value)) : Closes text length := by
  obtain ⟨body,inner,label,url,-,-,hopen,hlabel,hclose,hurl,-,-,hpiece,heq⟩ :=
    definitionForm_eq_some_iff.1 h
  cases heq
  have htext := length_takeWhile_add (· == ' ') text
  have hbody := length_takeWhile_add isBracketChar body
  have hinner := length_takeWhile_add isSpaceOrTab inner
  have hrest := length_takeWhile_add (!isBlank ·) (inner.dropWhile isSpaceOrTab)
  have hsplit : url ++ (inner.dropWhile isSpaceOrTab).dropWhile (!isBlank ·) =
      inner.dropWhile isSpaceOrTab := by
    rw [← hurl,List.takeWhile_append_dropWhile]
  have hreturn : '\r' ∉ url := by
    intro hmem
    rw [← hurl] at hmem
    have hblank : isBlank '\r' = true := by decide
    simpa [hblank] using List.mem_takeWhile_imp hmem
  have hsuffix : url ++ (inner.dropWhile isSpaceOrTab).dropWhile (!isBlank ·) <:+ text := calc
    url ++ (inner.dropWhile isSpaceOrTab).dropWhile (!isBlank ·) <:+ inner :=
      suffix_of_dropWhile hsplit.symm
    _ <:+ ']' :: ':' :: inner := (List.suffix_cons _ _).trans (List.suffix_cons _ _)
    _ <:+ body := suffix_of_dropWhile hclose
    _ <:+ '[' :: body := List.suffix_cons _ _
    _ <:+ text := suffix_of_dropWhile hopen
  refine ⟨_,_,hsuffix,hpiece,hreturn,?_⟩
  rw [hopen,List.length_cons] at htext
  rw [hlabel,hclose,List.length_cons,List.length_cons] at hbody
  rw [hurl] at hrest
  omega

lemma closes_of_labelUseForm {value : Option (List Char)}
    (h : labelUseForm before text = some (length,value)) : Closes text length := by
  obtain ⟨body,rest,label,rfl,hlabel,hclose,-,heq⟩ := labelUseForm_eq_some_iff.1 h
  have hlength := congrArg Prod.fst heq
  have hbody := length_takeWhile_add isBracketChar body
  have hrest : [']'] ++ rest <:+ '[' :: body := calc
    [']'] ++ rest <:+ body := suffix_of_dropWhile hclose
    _ <:+ '[' :: body := List.suffix_cons _ _
  rw [hlabel,hclose,List.length_cons] at hbody
  cases hsecond : secondLabel? rest with
  | none =>
    rw [hsecond,Option.map_none,Option.getD_none] at hlength
    refine ⟨_,_,hrest,by decide,by decide,?_⟩
    rw [List.length_cons]
    omega
  | some second =>
    rw [hsecond,Option.map_some,Option.getD_some] at hlength
    obtain ⟨inner,tail,rfl,hend,rfl⟩ := secondLabel?_eq_some_iff.1 hsecond
    have hinner := length_takeWhile_add isBracketChar inner
    have htail : [']'] ++ tail <:+ '[' :: body := calc
      [']'] ++ tail <:+ inner := suffix_of_dropWhile hend
      _ <:+ ']' :: '[' :: inner := (List.suffix_cons _ _).trans (List.suffix_cons _ _)
      _ <:+ '[' :: body := hrest
    refine ⟨_,_,htail,by decide,by decide,?_⟩
    rw [hend,List.length_cons] at hinner
    rw [List.length_cons] at hbody ⊢
    omega

end Closes

end NoteIndex.Markup
