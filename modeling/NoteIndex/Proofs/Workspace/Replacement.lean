import Mathlib.Data.List.Chain
import NoteIndex.Proofs.Text.Clamp
import NoteIndex.Proofs.Workspace.Change

/-! Several edits at once: replacements that are made one after the other from the end of a text to its
start, all with positions in the text as it was, come out as if they were made at the same time. -/
namespace NoteIndex.Edit

open Text

/-- New text in the place of the characters from `first` up to `last`. -/
structure Replacement where
  first : Nat
  last : Nat
  text : String
  deriving DecidableEq, Repr

/-- The edit that makes a replacement, with the positions that its ends have in a text. -/
def Replacement.toEdit (text : List Char) (r : Replacement) : Edit :=
  ⟨some ⟨positionOfByte text (byteOfChar text r.first),positionOfByte text (byteOfChar text r.last)⟩,
    r.text⟩

/-- The characters from `start` up to `stop` after replacements that are made all at once, given in the
order of their places. -/
def replaced (text : List Char) (start stop : Nat) : List Replacement → List Char
  | [] => (text.take stop).drop start
  | r :: rest => (text.take r.first).drop start ++ r.text.toList ++ replaced text r.last stop rest

/-- Replacements from the last to the first, with at least one character between any two of them, and
none of them from or to the middle of a break or a place without position. -/
structure Separate (text : List Char) (replacements : List Replacement) : Prop where
  ordered : ∀ r ∈ replacements, r.first ≤ r.last ∧ r.last ≤ text.length
  apart : replacements.IsChain fun r next => next.last < r.first
  whole : ∀ r ∈ replacements, ¬ InsideBreak text r.first ∧ ¬ InsideBreak text r.last
  located : ∀ r ∈ replacements, HasPosition text r.first ∧ HasPosition text r.last

variable {text current : List Char} {r : Replacement} {replacements : List Replacement}

lemma Separate.tail (h : Separate text (r :: replacements)) : Separate text replacements where
  ordered next hnext := h.ordered next (List.mem_cons_of_mem r hnext)
  apart := h.apart.tail
  whole next hnext := h.whole next (List.mem_cons_of_mem r hnext)
  located next hnext := h.located next (List.mem_cons_of_mem r hnext)

/-- The last replacement comes after what the others leave. -/
lemma replaced_append_singleton (text : List Char) (start stop : Nat)
    (replacements : List Replacement) (r : Replacement) :
    replaced text start stop (replacements ++ [r]) =
      replaced text start r.first replacements ++ r.text.toList ++ (text.take stop).drop r.last := by
  induction replacements generalizing start with
  | nil => rfl
  | cons next rest ih => simp [replaced,ih]

/-- A replacement is made where it belongs in any text that has not changed up to there. -/
lemma apply_toEdit (hr : Separate text (r :: replacements))
    (hsame : current.take (r.last+1) = text.take (r.last+1)) :
    (r.toEdit text).apply (String.ofList current) =
      String.ofList (current.take r.first ++ r.text.toList ++ current.drop r.last) := by
  obtain ⟨hle,hlast⟩ := hr.ordered r List.mem_cons_self
  obtain ⟨hfirstWhole,hlastWhole⟩ := hr.whole r List.mem_cons_self
  obtain ⟨hfirstLocated,hlastLocated⟩ := hr.located r List.mem_cons_self
  have hsameFirst : current.take (r.first+1) = text.take (r.first+1) := by
    have htake := congrArg (List.take (r.first+1)) hsame
    rwa [List.take_take,List.take_take,Nat.min_eq_left (Nat.succ_le_succ hle)] at htake
  have hstart := charOfPosition_congr hsameFirst (Nat.le_trans hle hlast) hfirstLocated hfirstWhole
  have hstop := charOfPosition_congr hsame hlast hlastLocated hlastWhole
  simp only [Replacement.toEdit,apply,splice,String.toList_ofList,
    positionOfByte_byteOfChar (Nat.le_trans hle hlast),positionOfByte_byteOfChar hlast,hstart,hstop,
    Nat.max_eq_left hle]

/-- Up to `stop` nothing has changed yet, and what follows stays as it is. -/
lemma applyAll_toEdit (h : Separate text replacements) (stop : Nat) (rest : List Char)
    (hnext : ∀ r ∈ replacements.head?, r.last ≤ stop ∧
      (text.take stop ++ rest).take (r.last+1) = text.take (r.last+1)) :
    applyAll (replacements.map (·.toEdit text)) (String.ofList (text.take stop ++ rest)) =
      String.ofList (replaced text 0 stop replacements.reverse ++ rest) := by
  induction replacements generalizing stop rest with
  | nil => rfl
  | cons r replacements ih =>
    obtain ⟨hle,hlast⟩ := h.ordered r List.mem_cons_self
    obtain ⟨hstop,hsame⟩ := hnext r rfl
    have hlength : r.last ≤ (text.take stop).length := by
      rw [List.length_take]
      omega
    have hfront : (text.take stop ++ rest).take r.first = text.take r.first := by
      rw [List.take_append_of_le_length (Nat.le_trans hle hlength),List.take_take,
        Nat.min_eq_left (Nat.le_trans hle hstop)]
    have hback : (text.take stop ++ rest).drop r.last = (text.take stop).drop r.last ++ rest :=
      List.drop_append_of_le_length hlength
    have hstep := apply_toEdit h hsame
    rw [hfront,hback,List.append_assoc] at hstep
    -- From here on the text is unchanged up to the start of this replacement.
    have hrun := ih h.tail r.first (r.text.toList ++ ((text.take stop).drop r.last ++ rest)) ?_
    · rw [List.map_cons,applyAll,List.foldl_cons,hstep,← applyAll,hrun,List.reverse_cons,
        replaced_append_singleton]
      simp only [List.append_assoc]
    · intro next hmem
      have hlt : next.last < r.first := h.apart.rel_head? hmem
      refine ⟨Nat.le_of_lt hlt,?_⟩
      have hshort : next.last+1 ≤ (text.take r.first).length := by
        rw [List.length_take]
        omega
      rw [List.take_append_of_le_length hshort,List.take_take,Nat.min_eq_left hlt]

/-- What is inserted at the position of the start comes first, wherever it belongs. -/
lemma apply_toEdit_of_origin {index : Nat} (inserted : String)
    (h : positionOfByte text (byteOfChar text index) = ⟨0,0⟩) :
    (Replacement.toEdit text ⟨index,index,inserted⟩).apply (String.ofList text) =
      String.ofList (inserted.toList ++ text) := by
  have horigin : charOfPosition text ⟨0,0⟩ = 0 := by
    unfold charOfPosition
    cases lines text with
    | nil => rfl
    | cons line rest => exact charsInUnits_zero _
  simp [Replacement.toEdit,apply,splice,h,horigin]

/-- The end of a line of 2^32 characters has the position of its start. -/
lemma positionOfByte_replicate {size : Nat} (h : size = UInt32.size) :
    positionOfByte (List.replicate size 'a') (byteOfChar (List.replicate size 'a') size) = ⟨0,0⟩ := by
  have hunbroken : ∀ c ∈ List.replicate size 'a', isLineBreak c = false := by
    intro c hc
    rw [List.eq_of_mem_replicate hc]
    rfl
  have hwidth : ∀ n, width (List.replicate n 'a') = n := by
    intro n
    induction n with
    | zero => rfl
    | succ n ih =>
      rw [List.replicate_succ,width,ih]
      exact Nat.add_comm 1 n
  have hlocate := locateFrom_unbroken hunbroken 0 0 0 []
  rw [List.append_nil,List.length_replicate,hwidth,Nat.add_zero,Nat.zero_add] at hlocate
  rw [positionOfByte_byteOfChar List.length_replicate.ge,positionOfChar,hlocate,h]
  rfl

end NoteIndex.Edit

namespace NoteIndex.Document

open Text Edit

/-- Edits listed from the end of a text to its start do not move each other: with the positions that
their ends had before the first of them, they replace all the ranges at once. -/
theorem change_replaces_at_once (document : Document) (version : Option Int32)
    {replacements : List Replacement} (h : Separate document.text.toList replacements) :
    (document.change version (replacements.map (·.toEdit document.text.toList))).value.text =
      String.ofList (replaced document.text.toList 0 document.text.toList.length
        replacements.reverse) := by
  have hrun := applyAll_toEdit h document.text.toList.length [] ?_
  · rw [List.take_length,List.append_nil,List.append_nil,String.ofList_toList] at hrun
    rw [value_change]
    exact hrun
  · intro r hr
    rw [List.take_length,List.append_nil]
    exact ⟨(h.ordered r (List.mem_of_mem_head? hr)).2,rfl⟩

/-- A line feed that comes after a return joins its break, and the edits before it stay in place. -/
theorem change_replaces_at_once_joined : ∃ (document : Document) (replacements : List Replacement),
    document.text = "ab\rcd\r\né😀f" ∧ replacements = [⟨9,10,"g"⟩,⟨3,4,"\n"⟩,⟨0,1,"😀"⟩] ∧
    Separate document.text.toList replacements ∧
    (document.change (some 4) (replacements.map (·.toEdit document.text.toList))).value.text =
      "😀b\r\nd\r\né😀g" := by
  let document := opened "/n/a.md" "ab\rcd\r\né😀f" 1
  have hseparate : Separate document.text.toList [⟨9,10,"g"⟩,⟨3,4,"\n"⟩,⟨0,1,"😀"⟩] := by
    refine ⟨by decide,by simp,by decide,?_⟩
    intro r _
    have hsize : document.text.utf8ByteSize < UInt32.size := by decide +kernel
    exact ⟨hasPosition_of_size hsize _,hasPosition_of_size hsize _⟩
  refine ⟨document,_,rfl,rfl,hseparate,?_⟩
  rw [change_replaces_at_once document (some 4) hseparate]
  decide

/-- What is inserted at the end of a line of 2^32 characters comes first. -/
theorem change_moves_insertion : ∃ (document : Document) (r : Replacement),
    r.first ≤ r.last ∧ r.last ≤ document.text.toList.length ∧
    ¬ InsideBreak document.text.toList r.first ∧ ¬ InsideBreak document.text.toList r.last ∧
    (document.change none [r.toEdit document.text.toList]).value.text ≠
      String.ofList (replaced document.text.toList 0 document.text.toList.length [r]) := by
  obtain ⟨count,hcount⟩ : ∃ count, count+1 = UInt32.size := ⟨_,rfl⟩
  let text := List.replicate (count+1) 'a'
  have hlength : text.length = count+1 := List.length_replicate
  have hend : ¬ InsideBreak text (count+1) := by
    rintro ⟨-,hfeed⟩
    rw [List.drop_eq_nil_of_le hlength.le] at hfeed
    cases hfeed
  refine ⟨.ofText "/n/a.md" none (String.ofList text),⟨count+1,count+1,"b"⟩,le_rfl,?_⟩
  rw [value_change]
  simp only [ofText,String.toList_ofList]
  refine ⟨hlength.ge,hend,hend,?_⟩
  rw [applyAll,List.foldl_cons,List.foldl_nil,
    apply_toEdit_of_origin "b" (positionOfByte_replicate hcount)]
  intro heq
  have hhead := congrArg (fun result : String => result.toList.head?) heq
  simp [replaced,text,List.replicate_succ] at hhead

end NoteIndex.Document
