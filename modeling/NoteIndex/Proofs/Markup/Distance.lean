import NoteIndex.Proofs.Markup.Visibility

/-! Distances in a text: lines have 32-bit numbers, so after that many lines the positions start again,
and elements that are so far apart share their ranges. -/
namespace NoteIndex.Markup

open Text

/-- Two texts, each on lines of its own, with `count` empty lines between them. -/
def apart (count : Nat) (first last : List Char) : List Char :=
  first ++ List.replicate (count+1) '\n' ++ last

variable {first last : List Char} {count : Nat}

lemma find_feeds {α : Type} {form : Form α} (h : LineLocal form) (count : Nat) (rest : List Char) :
    find form (List.replicate count '\n' ++ rest) =
      (find form rest).map (Found.moved (· + count)) := by
  induction count with
  | zero =>
    have hsame : Found.moved (α := α) (· + 0) = id := rfl
    rw [hsame,List.map_id]
    rfl
  | succ count ih =>
    have hfeed := find_append_feed h [] (List.replicate count '\n' ++ rest)
    rw [ih,List.map_map,List.nil_append] at hfeed
    rw [List.replicate_succ,List.cons_append,hfeed]
    rfl

/-- Empty lines add nothing to what is found. -/
lemma find_apart {α : Type} {form : Form α} (h : LineLocal form) :
    find form (apart count first last) =
      find form first ++ (find form last).map (Found.moved (· + (first.length+(count+1)))) := by
  have htext : apart count first last = first ++ '\n' :: (List.replicate count '\n' ++ last) := by
    simp [apart,List.replicate_succ]
  rw [htext,find_append_feed h,find_feeds h,List.map_map]
  congr 2
  funext f
  simp only [Function.comp_apply,Found.moved,Span.moved]
  congr 2 <;> omega

/-- The lines of the second text are numbered as if it stood alone, if 32 bits cannot tell the number of
line feeds before it from none. -/
lemma positionOfChar_apart (hfirst : ∀ c ∈ first, isLineBreak c = false)
    (hcount : count+1 = UInt32.size) (index : Nat) :
    positionOfChar (apart count first last) (first.length+(count+1)+index) =
      positionOfChar last index := by
  have hplace : locateFrom 0 0 (first.length+(count+1)+index) (apart count first last) =
      ((locateFrom 0 0 index last).1+UInt32.size,(locateFrom 0 0 index last).2) := by
    rw [apart,List.append_assoc,Nat.add_assoc,locateFrom_unbroken hfirst,locateFrom_feeds,hcount,
      locateFrom_add]
  have hwrap : UInt32.ofNat UInt32.size = 0 := by decide
  simp only [positionOfChar,hplace,UInt32.ofNat_add,hwrap,UInt32.add_zero]

/-- The characters of the first text are where they are without the second one. -/
lemma positionOfChar_apart_of_le (hfirst : ∀ c ∈ first, isLineBreak c = false) {index : Nat}
    (hindex : index ≤ first.length) :
    positionOfChar (apart count first last) index = positionOfChar first index := by
  have hplace : ∀ rest, locateFrom 0 0 index (first ++ rest) = (0,0+width (first.take index)) := by
    intro rest
    have htake : ∀ c ∈ first.take index, isLineBreak c = false :=
      fun c hc => hfirst c (List.mem_of_mem_take hc)
    have hlocate := locateFrom_unbroken htake 0 0 0 (first.drop index ++ rest)
    rw [← List.append_assoc,List.take_append_drop,List.length_take,Nat.min_eq_left hindex] at hlocate
    exact hlocate
  have halone := hplace []
  rw [List.append_nil] at halone
  simp only [positionOfChar,apart,List.append_assoc,hplace,halone]

section Elements

variable (hfirst : ∀ c ∈ first, isLineBreak c = false) (hcount : count+1 = UInt32.size)
  (hcode : code (apart count first last) = [])

include hfirst hcount hcode in
/-- Definitions of either text are definitions of both together, with the ranges they have alone. -/
lemma definition_mem_parse_apart {d : Definition}
    (hd : .definition d ∈ parse (String.ofList first) ∨ .definition d ∈ parse (String.ofList last)) :
    .definition d ∈ parse (String.ofList (apart count first last)) := by
  rw [definition_mem_parse_iff,String.toList_ofList,hcode,definitions,
    find_apart lineLocal_definitionForm]
  rcases hd with hd | hd
  · obtain ⟨f,hf,heq⟩ := (definition_mem_parse_iff _ d).1 hd
    rw [String.toList_ofList] at hf heq
    have hfound := (List.mem_filter.1 hf).1
    obtain ⟨hstart,hstop⟩ := inside_of_mem_find lineLocal_definitionForm hfound
    refine ⟨f,List.mem_filter.2 ⟨List.mem_append_left _ hfound,rfl⟩,?_⟩
    rw [← heq]
    simp only [definitionElement,Span.range,rangeOfChars,positionOfChar_apart_of_le hfirst hstart,
      positionOfChar_apart_of_le hfirst hstop]
  · obtain ⟨f,hf,heq⟩ := (definition_mem_parse_iff _ d).1 hd
    rw [String.toList_ofList] at hf heq
    have hfound := (List.mem_filter.1 hf).1
    refine ⟨f.moved (· + (first.length+(count+1))),List.mem_filter.2 ⟨?_,rfl⟩,?_⟩
    · exact List.mem_append_right _ (List.mem_map_of_mem hfound)
    · rw [← heq]
      simp only [definitionElement,Found.moved,Span.moved,Span.range,rangeOfChars,
        Nat.add_comm _ (first.length+(count+1)),positionOfChar_apart hfirst hcount]

include hfirst hcount hcode in
lemma labelUse_mem_parse_apart {use : LabelUse}
    (huse : .labelUse use ∈ parse (String.ofList last)) :
    .labelUse use ∈ parse (String.ofList (apart count first last)) := by
  obtain ⟨f,hf,heq⟩ := (mem_parse_iff _ _).1 huse
  rw [mem_foundElements_iff,heq,String.toList_ofList] at hf
  obtain ⟨g,hg,rfl⟩ := List.mem_map.1 hf
  obtain ⟨hg,hlabel⟩ := List.mem_filter.1 hg
  have hdefined := (mem_definedLabels_iff (String.ofList last) _).1 (by
    rw [String.toList_ofList]
    exact List.contains_iff_mem.1 hlabel)
  obtain ⟨d,hd,hsame⟩ := hdefined
  have hfar := (mem_definedLabels_iff (String.ofList (apart count first last)) _).2
    ⟨d,definition_mem_parse_apart hfirst hcount hcode (.inr hd),hsame⟩
  rw [String.toList_ofList] at hfar
  refine (mem_parse_iff _ _).2
    ⟨labelUseElement (apart count first last) (g.moved (· + (first.length+(count+1)))),?_,?_⟩
  · rw [mem_foundElements_iff,String.toList_ofList]
    refine List.mem_map_of_mem (List.mem_filter.2 ⟨?_,List.contains_iff_mem.2 hfar⟩)
    rw [hcode,labelUses,find_apart lineLocal_labelUseForm]
    refine List.mem_filter.2 ⟨List.mem_append_right _ (List.mem_map_of_mem ?_),rfl⟩
    exact (List.mem_filter.1 hg).1
  · rw [← heq]
    simp only [labelUseElement,Found.moved,Span.moved,Span.range,rangeOfChars,
      Nat.add_comm _ (first.length+(count+1)),positionOfChar_apart hfirst hcount]

end Elements

/-- Two definitions of one label that are different have the same range, when they are 2^32 lines
apart. -/
theorem exists_definitions_at_one_place :
    ∃ (text : String) (a b : Definition) (use : LabelUse),
      .definition a ∈ parse text ∧ .definition b ∈ parse text ∧ .labelUse use ∈ parse text ∧
      a.label = use.label ∧ b.label = use.label ∧ a.range = b.range ∧ a ≠ b := by
  obtain ⟨count,hcount⟩ : ∃ count, count+1 = UInt32.size := ⟨_,rfl⟩
  let first := "[a]: x".toList
  let last := "[a]: y\n[a]".toList
  have hfirst : ∀ c ∈ first, isLineBreak c = false := by simp [first,isLineBreak]
  have hcode : code (apart count first last) = [] := by
    have hfences : find fenceLine (apart count first last) = [] := find_apart lineLocal_fenceLine
    have hspans : find codeSpan (apart count first last) = [] := find_apart lineLocal_codeSpan
    simp [code,fences,codeSpans,hfences,hspans,pairUp]
  refine ⟨String.ofList (apart count first last),⟨"a","x",⟨0,0⟩,⟨0,6⟩⟩,⟨"a","y",⟨0,0⟩,⟨0,6⟩⟩,
    ⟨"a",⟨1,0⟩,⟨1,3⟩⟩,definition_mem_parse_apart hfirst hcount hcode (.inl ?_),
    definition_mem_parse_apart hfirst hcount hcode (.inr ?_),
    labelUse_mem_parse_apart hfirst hcount hcode ?_,rfl,rfl,rfl,by decide⟩
  all_goals exact (mem_parse_iff _ _).2 (by decide +kernel)

end NoteIndex.Markup
