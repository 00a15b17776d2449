import NoteIndex.Proofs.Markup.Search

/-! Labels in brackets of their own: wherever a defined label stands between brackets outside code, with no
other bracket beside them, it is used there, unless a parenthesis or a colon follows. -/
namespace NoteIndex.Markup

open Text

/-- Where the brackets around a label stand. -/
def bracketSpan (before label : List Char) : Span := ⟨before.length,before.length+(label.length+2)⟩

/-- A defined label in brackets outside code, with no bracket beside them and no parenthesis after
them. -/
structure Alone (text : String) (before label after : List Char) : Prop where
  split : text.toList = before ++ '[' :: (label ++ ']' :: after)
  nonempty : label ≠ []
  labelChars : ∀ c ∈ label, c ∉ ['[',']','\n']
  defined : ∃ d, .definition d ∈ parse text ∧
    normalizeLabel d.label = normalizeLabel (String.ofList label)
  left : before.getLast? ∉ [some '[',some ']']
  right : after.head? ∉ [some '[',some ']',some '(']
  uncovered : ∀ piece ∈ code text.toList, piece.covers (bracketSpan before label) = false

section Bracket

lemma isBracketChar_iff {c : Char} : isBracketChar c = true ↔ c ∉ ['[',']','\n'] := by
  simp [isBracketChar,and_assoc]

variable {text label rest : List Char} {first place : Nat}

/-- The next opening bracket after a pair of brackets around a label comes behind the pair. -/
lemma le_of_bracket (hdrop : text.drop first = '[' :: (label ++ ']' :: rest))
    (hlabel : ∀ c ∈ label, isBracketChar c = true) (hplace : text[place]? = some '[')
    (hlt : first < place) : first+(label.length+2) ≤ place := by
  obtain ⟨k,rfl⟩ : ∃ k, place = first+(k+1) := ⟨place-first-1,by omega⟩
  by_contra hinside
  rw [← List.getElem?_drop,hdrop,List.getElem?_cons_succ] at hplace
  by_cases hk : k < label.length
  · rw [List.getElem?_append_left hk] at hplace
    simpa [isBracketChar] using hlabel _ (List.mem_of_getElem? hplace)
  · obtain rfl : k = label.length := by omega
    simp at hplace

lemma secondLabel?_eq_none (h : text.head? ≠ some '[') : secondLabel? text = none := by
  cases hsecond : secondLabel? text with
  | none => rfl
  | some second =>
    obtain ⟨body,rest,rfl,-⟩ := secondLabel?_eq_some_iff.1 hsecond
    exact absurd rfl h

/-- What a text is made of where a label is used: one pair of brackets, or two. -/
lemma exists_brackets {before : Option Char} {length : Nat} {value : Option (List Char)}
    (h : labelUseForm before text = some (length,value)) : ∃ label rest,
      (∀ c ∈ label, isBracketChar c = true) ∧ text = '[' :: (label ++ ']' :: rest) ∧
      (length = label.length+2 ∨ ∃ second tail, (∀ c ∈ second, isBracketChar c = true) ∧
        rest = '[' :: (second ++ ']' :: tail) ∧ length = label.length+2+(second.length+2)) := by
  have hchars : ∀ cs : List Char, ∀ c ∈ cs.takeWhile isBracketChar, isBracketChar c = true :=
    fun cs c hc => List.mem_takeWhile_imp hc
  obtain ⟨body,rest,label,rfl,rfl,hclose,-,heq⟩ := labelUseForm_eq_some_iff.1 h
  have hlength := congrArg Prod.fst heq
  refine ⟨_,rest,hchars body,by rw [← hclose,List.takeWhile_append_dropWhile],?_⟩
  cases hsecond : secondLabel? rest with
  | none =>
    rw [hsecond] at hlength
    exact .inl hlength
  | some second =>
    rw [hsecond] at hlength
    obtain ⟨inner,tail,rfl,hend,rfl⟩ := secondLabel?_eq_some_iff.1 hsecond
    exact .inr ⟨_,tail,hchars inner,by rw [← hend,List.takeWhile_append_dropWhile],hlength⟩

/-- The use of a label reaches over no opening bracket but the one of its second pair. -/
lemma exists_second {start length : Nat} {value : Option (List Char)}
    (h : formAt labelUseForm text start = some (length,value)) (hplace : text[place]? = some '[')
    (hlt : start < place) (hreach : place < start+length) : ∃ label second rest,
      (∀ c ∈ label, isBracketChar c = true) ∧ (∀ c ∈ second, isBracketChar c = true) ∧
      text.drop start = '[' :: (label ++ ']' :: '[' :: (second ++ ']' :: rest)) ∧
      place = start+(label.length+2) ∧ length = label.length+2+(second.length+2) := by
  obtain ⟨label,rest,hlabel,hdrop,hlength⟩ := exists_brackets h
  have hbehind := le_of_bracket hdrop hlabel hplace hlt
  cases hlength with
  | inl hone => omega
  | inr htwo =>
    obtain ⟨second,tail,hsecond,rfl,hlength⟩ := htwo
    refine ⟨label,second,tail,hlabel,hsecond,hdrop,?_,hlength⟩
    by_contra hne
    have hnext : text.drop (start+(label.length+2)) = '[' :: (second ++ ']' :: tail) := by
      rw [← List.drop_drop,hdrop]
      simp
    have hpast := le_of_bracket hnext hsecond hplace (by omega)
    omega

end Bracket

namespace Alone

variable {text : String} {before label after : List Char} (h : Alone text before label after)

include h

lemma bracketChars : ∀ c ∈ label, isBracketChar c = true :=
  fun c hc => isBracketChar_iff.2 (h.labelChars c hc)

lemma form : formAt labelUseForm text.toList before.length =
    some (label.length+2,if after.head? = some ':' then none else some label) := by
  have hleft := h.left
  have hright := h.right
  simp only [List.mem_cons,List.not_mem_nil,or_false,not_or] at hleft hright
  rw [h.split,formAt_append]
  refine labelUseForm_eq_some_iff.2 ⟨_,after,label,rfl,takeWhile_bracket h.bracketChars after,
    dropWhile_bracket h.bracketChars after,h.nonempty,?_⟩
  rw [secondLabel?_eq_none hright.1]
  simp [labelUse?,hleft,hright]

/-- Nothing before the brackets reaches over them: their opening bracket would be the one of a second pair,
which a closing bracket comes before. -/
lemma free {other reach : Nat} {found : Option (List Char)} (hlt : other < before.length)
    (hform : formAt labelUseForm text.toList other = some (reach,found)) :
    other+reach ≤ before.length := by
  by_contra hreach
  have hplace : text.toList[before.length]? = some '[' := by
    rw [h.split]
    simp
  obtain ⟨first,second,rest,-,-,hdrop,hsame,-⟩ := exists_second hform hplace hlt (by omega)
  have hindex : before.length-1 = other+(first.length+1) := by omega
  have hlast : text.toList[before.length-1]? = some ']' := by
    rw [hindex,← List.getElem?_drop,hdrop]
    simp
  rw [h.split,List.getElem?_append_left (by omega),← List.getLast?_eq_getElem?] at hlast
  exact absurd (by simp [hlast]) h.left

/-- Unless a colon follows, the brackets are found. -/
lemma mem_labelUses (hcolon : after.head? ≠ some ':') :
    ⟨bracketSpan before label,label⟩ ∈ labelUses text.toList := by
  apply mem_find_of_formAt
  · rw [h.split]
    simp
  · rw [h.form,if_neg hcolon]
  · intro other reach found hlt hform
    exact h.free hlt hform

/-- Before a colon, nothing that meets the brackets is found. -/
lemma not_meets (hcolon : after.head? = some ':') {f : Found (List Char)}
    (hf : f ∈ labelUses text.toList) : f.span.meets (bracketSpan before label) = false := by
  obtain ⟨length,hform,hstop⟩ := form_of_mem_find hf
  obtain ⟨first,rest,-,hdrop,-⟩ := exists_brackets hform
  have hopen : text.toList[f.span.start]? = some '[' := by
    rw [← List.head?_drop,hdrop,List.head?_cons]
  have hown : text.toList.drop before.length = '[' :: (label ++ ']' :: after) := by
    rw [h.split,List.drop_left]
  rw [Bool.eq_false_iff,ne_eq,Span.meets,Bool.and_eq_true,decide_eq_true_eq,decide_eq_true_eq]
  intro hmeets
  obtain ⟨hbefore,hafter⟩ := hmeets
  dsimp only [bracketSpan] at hbefore hafter
  obtain hlt | heq | hgt := Nat.lt_trichotomy f.span.start before.length
  · have hreach := h.free hlt hform
    omega
  · have hvalue : formAt labelUseForm text.toList before.length = some (length,some f.value) :=
      heq ▸ hform
    rw [h.form,if_pos hcolon] at hvalue
    cases hvalue
  · have hbehind := le_of_bracket hown h.bracketChars hopen hgt
    omega

lemma mem_sortedElements (hcolon : after.head? ≠ some ':') :
    labelUseElement text.toList ⟨bracketSpan before label,label⟩ ∈ sortedElements text.toList := by
  have houtside : ⟨bracketSpan before label,label⟩ ∈ outside (code text.toList) (labelUses text.toList) := by
    refine List.mem_filter.2 ⟨h.mem_labelUses hcolon,?_⟩
    rw [Bool.not_eq_true',List.any_eq_false]
    intro piece hpiece
    rw [h.uncovered piece hpiece]
    decide
  apply mem_sortedElements_iff.2
  apply List.mem_map_of_mem
  refine List.mem_filter.2 ⟨houtside,List.contains_iff_mem.2 ?_⟩
  exact (mem_definedLabels_iff text _).2 h.defined

end Alone

/-- A defined label in brackets of its own is used there, with exactly its label and range, unless a colon
follows. Before a colon, no use of a label takes up any part of the brackets, even where the colon makes no
definition of them. -/
theorem labelUse_of_alone {text : String} {before label after : List Char}
    (h : Alone text before label after) :
    parse text = (sortedElements text.toList).map Found.value ∧
    (after.head? ≠ some ':' →
      ⟨bracketSpan before label,.labelUse ⟨String.ofList label,
        (bracketSpan before label).range text.toList⟩⟩ ∈ sortedElements text.toList) ∧
    (after.head? = some ':' → ∀ f ∈ sortedElements text.toList, f.value.kind = .labelUse →
      f.span.meets (bracketSpan before label) = false) := by
  refine ⟨parse_eq text,h.mem_sortedElements,?_⟩
  intro hcolon f hf hkind
  rw [mem_sortedElements_iff,hkind] at hf
  obtain ⟨g,hg,rfl⟩ := List.mem_map.1 hf
  exact h.not_meets hcolon (List.mem_filter.1 (List.mem_filter.1 hg).1).1

/-- Another use of the label right before it makes no difference. -/
theorem labelUse_of_alone_repeated :
    Alone "[a]: z\n[t][a] [A ]!" "[a]: z\n[t][a] ".toList ['A',' '] ['!'] ∧
    .labelUse ⟨"A ",⟨1,7⟩,⟨1,11⟩⟩ ∈ parse "[a]: z\n[t][a] [A ]!" := by
  let d : Definition := ⟨"a","z",⟨0,0⟩,⟨0,6⟩⟩
  have hd : .definition d ∈ parse "[a]: z\n[t][a] [A ]!" :=
    (mem_parse_iff _ _).2 ⟨⟨⟨0,6⟩,.definition d⟩,by decide +kernel,rfl⟩
  have halone : Alone "[a]: z\n[t][a] [A ]!" "[a]: z\n[t][a] ".toList ['A',' '] ['!'] := by
    refine ⟨by decide,by decide,by simp,⟨d,hd,by decide +kernel⟩,by decide,by decide,?_⟩
    decide +kernel
  obtain ⟨hparse,huse,-⟩ := labelUse_of_alone halone
  refine ⟨halone,?_⟩
  rw [hparse]
  exact List.mem_map_of_mem (huse (by decide))

/-- A colon in the middle of a line defines nothing, but the brackets before it are no use of their label
either. -/
theorem labelUse_of_alone_colon :
    Alone "x [a]: y\n[a]: z" ['x',' '] ['a'] ": y\n[a]: z".toList ∧
    (∀ f ∈ sortedElements "x [a]: y\n[a]: z".toList,
      f.span.meets (bracketSpan ['x',' '] ['a']) = false) ∧
    parse "x [a]: y\n[a]: z" = [.definition ⟨"a","z",⟨1,0⟩,⟨1,6⟩⟩] := by
  have hparse : parse "x [a]: y\n[a]: z" = [.definition ⟨"a","z",⟨1,0⟩,⟨1,6⟩⟩] := by
    rw [parse_of_pairwise (by decide +kernel)]
    decide +kernel
  refine ⟨⟨by decide,by decide,by simp,?_,by decide,by decide,by decide +kernel⟩,?_,hparse⟩
  · exact ⟨⟨"a","z",⟨1,0⟩,⟨1,6⟩⟩,by rw [hparse]; simp,rfl⟩
  · intro f hf
    rw [(perm_sortedElements _).mem_iff] at hf
    revert f
    decide +kernel

end NoteIndex.Markup
