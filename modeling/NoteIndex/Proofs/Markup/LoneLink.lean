import Mathlib.Data.List.TakeWhile
import NoteIndex.Proofs.Markup.Fence

/-! A text that is one inline link has no other elements, as long as nothing in it is a mark of
another form. -/
namespace NoteIndex.Markup

open Text

section Find

variable {α : Type} {form : Form α} {text : List Char}

lemma find_eq_nil (h : ∀ previous start length value,
    form previous (text.drop start) ≠ some (length,some value)) : find form text = [] := by
  apply List.eq_nil_iff_forall_not_mem.2
  intro f hf
  obtain ⟨length,hform,-⟩ := form_of_mem_find hf
  exact h _ f.span.start length f.value hform

lemma findFrom_of_length_le {skip index : Nat} {before : Option Char} (h : text.length ≤ skip) :
    findFrom form skip before index text = [] := by
  induction text generalizing skip index before with
  | nil => rfl
  | cons c rest ih =>
    obtain ⟨skip,rfl⟩ := Nat.exists_eq_add_of_le' (Nat.le_trans (Nat.le_add_left 1 _) h)
    rw [findFrom]
    exact ih (Nat.le_of_succ_le_succ h)

/-- A form that takes up all of a text is all that is found there. -/
lemma find_of_whole {c : Char} {rest : List Char} {value : α}
    (h : form none (c :: rest) = some (rest.length+1,some value)) :
    find form (c :: rest) = [⟨⟨0,rest.length+1⟩,value⟩] := by
  rw [find,findFrom,h]
  dsimp only
  rw [findFrom_of_length_le (Nat.le_of_eq (Nat.add_sub_cancel rest.length 1).symm),Nat.zero_add]

lemma definitions_eq_nil (h : ':' ∉ text) : definitions text = [] := by
  apply find_eq_nil
  intro previous start length value hform
  obtain ⟨body,rest,-,-,-,-,hopen,-,hclose,-⟩ := definitionForm_eq_some_iff.1 hform
  have hbody : ':' ∈ body := (List.dropWhile_suffix isBracketChar).subset (by simp [hclose])
  have hplace : ':' ∈ text.drop start :=
    (List.dropWhile_suffix (· == ' ')).subset (hopen ▸ List.mem_cons_of_mem '[' hbody)
  exact h ((List.drop_suffix start text).subset hplace)

/-- A line without backticks has no code, unless it is a fence line. -/
lemma code_eq_nil (htick : '\x60' ∉ text) (hfeed : '\n' ∉ text) (hfence : isFenceLine text = false) :
    code text = [] := by
  have hspans : find codeSpan text = [] := by
    apply find_eq_nil
    intro previous start length value hform
    obtain ⟨body,rest,hopen,-⟩ := codeSpan_eq_some_iff.1 hform
    exact htick ((List.drop_suffix start text).subset (hopen ▸ List.mem_cons_self))
  rw [code_eq,fences,find_fenceLine_of_line hfeed hfence,hspans]
  rfl

end Find

lemma trimmed?_of_not_blank {text : List Char} (hne : text ≠ [])
    (h : ∀ c ∈ text, isBlank c = false) : trimmed? text = some text := by
  refine trimmed?_eq_iff.2 ⟨hne,⟨[],[],by simp,by simp,by simp⟩,?_,?_⟩
  · intro c hc
    exact h c (List.mem_of_head? hc)
  · intro c hc
    exact h c (List.mem_of_getLast? hc)

lemma splitAnchor_of_no_sign {destination : List Char} (h : '#' ∉ destination) :
    splitAnchor destination = (destination,none) := by
  have hdrop : destination.dropWhile (· != '#') = [] := by
    rw [List.dropWhile_eq_nil_iff]
    intro c hc
    simpa using fun heq : c = '#' => h (heq ▸ hc)
  rw [splitAnchor,hdrop]

/-- An inline link without a title. -/
def loneLink (label url : List Char) : List Char :=
  '[' :: (label ++ ']' :: '(' :: (url ++ [')']))

/-- A label and an address that hold no marks of other forms. -/
structure Plain (label url : List Char) : Prop where
  bracket : ∀ c ∈ label, isBracketChar c = true
  plain : ∀ c ∈ url, isPlainChar c = true
  nonempty : url ≠ []
  unmarked : ∀ c ∈ label ++ url, c ≠ '#' ∧ c ≠ '[' ∧ c ≠ ':' ∧ c ≠ '\x60'

namespace Plain

variable {label url : List Char} (h : Plain label url)

include h

lemma unmarked_tail {c : Char} (hc : c ∈ label ++ ']' :: '(' :: (url ++ [')'])) :
    c ≠ '#' ∧ c ≠ '[' ∧ c ≠ ':' ∧ c ≠ '\x60' ∧ c ≠ '\n' := by
  have hfeed : c ∈ label ++ url → c ≠ '\n' := by
    rintro hc rfl
    rcases List.mem_append.1 hc with hc | hc
    · simpa [isBracketChar_feed] using h.bracket _ hc
    · simpa [isPlainChar_feed] using h.plain _ hc
  have hcases : c ∈ label ++ url ∨ c = ']' ∨ c = '(' ∨ c = ')' := by
    simp only [List.mem_append,List.mem_cons,List.not_mem_nil,or_false] at hc ⊢
    tauto
  rcases hcases with hc | rfl | rfl | rfl
  · obtain ⟨hsign,hbracket,hcolon,htick⟩ := h.unmarked c hc
    exact ⟨hsign,hbracket,hcolon,htick,hfeed hc⟩
  all_goals decide

lemma not_mem_loneLink {c : Char} (hc : c = ':' ∨ c = '\x60' ∨ c = '\n') :
    c ∉ loneLink label url := by
  intro hmem
  rcases List.mem_cons.1 hmem with rfl | hmem
  · revert hc
    decide
  · have htail := h.unmarked_tail hmem
    tauto

lemma destination?_url : destination? (url ++ [')']) = some (url,[')']) := by
  refine destination?_eq_some_iff.2 (.inr ⟨?_,?_⟩)
  · rw [List.head?_append_of_ne_nil _ h.nonempty]
    intro hhead
    simpa [isPlainChar] using h.plain _ (List.mem_of_head? hhead)
  · rw [List.takeWhile_append_of_pos h.plain,List.dropWhile_append_of_pos h.plain]
    simp [isPlainChar]

lemma inlineLinkForm_loneLink : inlineLinkForm none (loneLink label url) =
    some ((loneLink label url).length,some ⟨label,some (decodeUrl url),none⟩) := by
  have hblank : ∀ c ∈ url, isBlank c = false := by
    intro c hc
    have hplain := h.plain c hc
    simp only [isPlainChar,Bool.and_eq_true,Bool.not_eq_true'] at hplain
    exact hplain.2
  have hsign : '#' ∉ url := fun hc => (h.unmarked _ (List.mem_append_right label hc)).1 rfl
  refine inlineLinkForm_eq_some_iff.2
    ⟨_,_,_,[],rfl,dropWhile_bracket h.bracket _,h.destination?_url,rfl,?_⟩
  simp [takeWhile_bracket h.bracket,splitAnchor_of_no_sign hsign,trimmed?_of_not_blank h.nonempty hblank,
    loneLink]

lemma code_loneLink : code (loneLink label url) = [] :=
  code_eq_nil (h.not_mem_loneLink (by simp)) (h.not_mem_loneLink (by simp)) rfl

/-- Only the bracket at its start can start an element, and that is the link. -/
lemma kindOf_drop {start : Nat} (hstart : start < (loneLink label url).length) :
    kindOf ((loneLink label url).drop start) = if start = 0 then .inlineLink else .definition := by
  cases start with
  | zero => simp [loneLink,kindOf,dropWhile_bracket h.bracket]
  | succ start =>
    obtain ⟨c,rest,hdrop⟩ : ∃ c rest, (loneLink label url).drop (start+1) = c :: rest :=
      List.exists_cons_of_ne_nil (by simpa using hstart)
    have hmem : c ∈ label ++ ']' :: '(' :: (url ++ [')']) :=
      (List.drop_suffix start _).subset (by
        rw [loneLink,List.drop_succ_cons] at hdrop
        simp [hdrop])
    obtain ⟨hsign,hbracket,-⟩ := h.unmarked_tail hmem
    simp [hdrop,kindOf,hsign,hbracket]

lemma elementsOf_loneLink {kind : Kind} (hkind : kind ≠ .inlineLink) :
    elementsOf (loneLink label url) kind = [] := by
  apply List.eq_nil_iff_forall_not_mem.2
  intro f hf
  have hplaced := placed_of_mem_elementsOf hf
  have hstart := h.kindOf_drop (Nat.lt_of_lt_of_le hplaced.nonempty hplaced.inside)
  rw [hplaced.kind] at hstart
  split at hstart
  · exact hkind hstart
  · subst hstart
    simp [elementsOf,definitions_eq_nil (h.not_mem_loneLink (by simp)),outside] at hf

/-- The link is all that there is, with its address decoded. -/
theorem parse_loneLink : parse (String.ofList (loneLink label url)) =
    [.inlineLink ⟨String.ofList label,some (String.ofList (decodeUrl url)),none,
      rangeOfChars (loneLink label url) 0 (loneLink label url).length⟩] := by
  have hlinks : inlineLinks (loneLink label url) =
      [⟨⟨0,(loneLink label url).length⟩,⟨label,some (decodeUrl url),none⟩⟩] :=
    find_of_whole h.inlineLinkForm_loneLink
  have hfound : foundElements (loneLink label url) =
      elementsOf (loneLink label url) .inlineLink := by
    rw [foundElements_eq]
    simp [Kind.all,h.elementsOf_loneLink]
  rw [parse,String.toList_ofList,hfound,elementsOf,h.code_loneLink,hlinks]
  simp [outside,inlineLinkElement,Span.range]

end Plain

end NoteIndex.Markup
