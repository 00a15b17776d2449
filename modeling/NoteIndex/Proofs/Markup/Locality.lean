import NoteIndex.Proofs.Markup.Line
import NoteIndex.Proofs.Text.Line

/-! Extraction line by line: what is found in two texts joined by a line feed is what is found in the
first one, and then what is found in the second one with its places moved behind the first. Places are
given in bytes of the UTF-8 form here. -/
namespace NoteIndex.Markup

open Text

/-- What is found in a text, with the bytes of its spans. -/
def inBytes {α : Type} (text : List Char) (found : List (Found α)) : List (Found α) :=
  found.map (Found.moved (byteOfChar text))

/-- A search that looks at each line by itself. -/
def LineByLine {α : Type} (search : List Char → List (Found α)) : Prop :=
  ∀ first second : String,
    inBytes (first ++ "\n" ++ second).toList (search (first ++ "\n" ++ second).toList) =
      inBytes first.toList (search first.toList) ++
        (inBytes second.toList (search second.toList)).map
          (Found.moved (· + (first.utf8ByteSize+1)))

section Find

variable {α : Type} {form : Form α}

lemma inBytes_append (text : List Char) (found other : List (Found α)) :
    inBytes text (found ++ other) = inBytes text found ++ inBytes text other := List.map_append

/-- What comes after a text does not move what is found in it. -/
lemma inBytes_find_append (h : LineLocal form) (text rest : List Char) :
    inBytes (text ++ rest) (find form text) = inBytes text (find form text) := by
  apply List.map_congr_left
  intro f hf
  obtain ⟨hnonempty,hinside⟩ := span_of_mem_find h hf
  have hstart := byteOfChar_append_of_le (Nat.le_trans (Nat.le_of_lt hnonempty) hinside) rest
  have hstop := byteOfChar_append_of_le hinside rest
  simp only [Found.moved,Span.moved,hstart,hstop]

lemma inBytes_moved (text rest : List Char) (found : List (Found α)) :
    inBytes (text ++ '\n' :: rest) (found.map (Found.moved (· + (text.length+1)))) =
      (inBytes rest found).map (Found.moved (· + ((String.ofList text).utf8ByteSize+1))) := by
  rw [inBytes,inBytes,List.map_map,List.map_map]
  apply List.map_congr_left
  intro f _
  simp only [Function.comp_apply,Found.moved,Span.moved,byteOfChar_append_feed]

lemma lineByLine_find (h : LineLocal form) : LineByLine (find form) := by
  intro first second
  have htext : (first ++ "\n" ++ second).toList = first.toList ++ '\n' :: second.toList := by simp
  rw [htext,find_append_feed h,inBytes_append,inBytes_find_append h,inBytes_moved,String.ofList_toList]

end Find

/-- Headings, links, definitions and uses of labels are found line by line before code is left out, and
so are code spans: no form goes on over a line feed, and none looks at what is on another line. -/
theorem extraction_line_by_line : LineByLine headings ∧ LineByLine wikiLinks ∧
    LineByLine inlineLinks ∧ LineByLine definitions ∧ LineByLine labelUses ∧
    LineByLine (find codeSpan) :=
  ⟨lineByLine_find lineLocal_headingForm,lineByLine_find lineLocal_wikiLinkForm,
    lineByLine_find lineLocal_inlineLinkForm,lineByLine_find lineLocal_definitionForm,
    lineByLine_find lineLocal_labelUseForm,lineByLine_find lineLocal_codeSpan⟩

example : inBytes "é[[\n[[a]]".toList (wikiLinks "é[[\n[[a]]".toList) =
    [⟨⟨5,10⟩,⟨some ['a'],none⟩⟩] := by decide +kernel

end NoteIndex.Markup
