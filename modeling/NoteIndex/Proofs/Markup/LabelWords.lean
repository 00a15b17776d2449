import Mathlib.Data.List.Forall2
import NoteIndex.Markup.Slug
import NoteIndex.Proofs.Text.Letter
import NoteIndex.Proofs.Text.Word

/-! Labels by their words. The normal form of a label has the words of the label, each in lowercase, so
labels are equal if their words are equal one by one. -/
namespace NoteIndex.Markup

open Text

lemma isStop_space : IsStop ' ' where
  uncased := by decide
  counted := by decide
  lower := by decide

lemma toList_normalizeLabel (label : String) :
    (normalizeLabel label).toList = [' '].intercalate ((words label.toList).map lowercase) := by
  rw [normalizeLabel,lowercaseString,String.toList_ofList,String.toList_ofList,
    lowercase_intercalate isStop_space]

lemma words_normalizeLabel (label : String) :
    words (normalizeLabel label).toList = (words label.toList).map lowercase := by
  rw [toList_normalizeLabel]
  apply wordsBy_intercalate (by decide)
  rw [List.forall_mem_map]
  intro word hword
  have hisWord := isWord_of_mem_wordsBy hword
  exact ⟨lowercase_ne_nil hisWord.ne_nil,fun d hd => isBlank_eq_false_of_mem_lowercase hisWord.free hd⟩

/-- Labels have the same normal form if and only if they have the same number of words, and those are equal
one by one in lowercase. There a sigma at the end of a word has its own form. The normal form of a label is
its own normal form. -/
theorem normalizeLabel_eq_iff (a b : String) :
    (normalizeLabel a = normalizeLabel b ↔
      List.Forall₂ (fun v w => lowercase v = lowercase w) (words a.toList) (words b.toList)) ∧
    normalizeLabel (normalizeLabel a) = normalizeLabel a := by
  constructor
  · have hforms : List.Forall₂ (· = ·) ((words a.toList).map lowercase)
        ((words b.toList).map lowercase) ↔
        List.Forall₂ (fun v w => lowercase v = lowercase w) (words a.toList) (words b.toList) := by
      rw [List.forall₂_map_left_iff,List.forall₂_map_right_iff]
    rw [← hforms,List.forall₂_eq_eq_eq]
    constructor
    · intro h
      rw [← words_normalizeLabel,h,words_normalizeLabel]
    · intro h
      apply String.toList_inj.1
      rw [toList_normalizeLabel,h,toList_normalizeLabel]
  · apply String.toList_inj.1
    have htwice : lowercase ∘ lowercase = lowercase := funext lowercase_lowercase
    rw [toList_normalizeLabel,words_normalizeLabel,List.map_map,htwice,toList_normalizeLabel]

end NoteIndex.Markup
