import NoteIndex.Proofs.Markup.Order
import NoteIndex.Proofs.Text.Line
import NoteIndex.Proofs.Workspace.Change

/-! Extents of elements: no form starts or ends between a return and its line feed, so the range of an
element takes in exactly the characters that were read as the element, and an edit of the range replaces
these and nothing else. -/
namespace NoteIndex.Markup

open Text

/-- A line feed is as good as the end of the text, and nothing starts there. -/
lemma LineLocal.head?_ne_feed {α : Type} {form : Form α} (h : LineLocal form) {text : List Char}
    {before : Option Char} {length : Nat} {value : Option α}
    (hform : form before text = some (length,value)) : text.head? ≠ some '\n' := by
  intro hhead
  obtain ⟨rest,rfl⟩ := List.head?_eq_some_iff.1 hhead
  have hcut : form before [] = some (length,value) := (h.cut before [] rest).symm.trans hform
  obtain ⟨hpos,hle⟩ := h.fits hcut
  rw [List.length_nil] at hle
  omega

/-- A span of a text that cuts no return off its line feed. -/
structure Whole (text : List Char) (span : Span) : Prop where
  ordered : span.start ≤ span.stop
  inside : span.stop ≤ text.length
  start : ¬ InsideBreak text span.start
  stop : ¬ InsideBreak text span.stop

lemma whole_of_mem_find {α : Type} {form : Form α} {text : List Char} {f : Found α}
    (hlocal : LineLocal form)
    (hcloses : ∀ {before text length value}, form before text = some (length,value) →
      Closes text length)
    (hf : f ∈ find form text) : Whole text f.span := by
  obtain ⟨hnonempty,hinside⟩ := span_of_mem_find hlocal hf
  obtain ⟨length,hform,hstop⟩ := form_of_mem_find hf
  refine ⟨Nat.le_of_lt hnonempty,hinside,?_,?_⟩
  · intro hbreak
    exact hlocal.head?_ne_feed hform hbreak.2
  · intro hbreak
    have hne : (text.drop f.span.start).take length ≠ [] := by
      rw [ne_eq,List.take_eq_nil_iff,List.drop_eq_nil_iff]
      omega
    have hlast := hbreak.1
    rw [hstop,List.take_add,List.getLast?_append_of_ne_nil _ hne] at hlast
    exact (hcloses hform).getLast?_ne_return hlast

/-- What is read at a span of a text, before code is left out, makes for the element. -/
def ReadAt (text : List Char) (span : Span) : Element → Prop
  | .heading heading => ∃ raw, ⟨span,raw⟩ ∈ headings text ∧
      heading.level = raw.level ∧ heading.text = String.ofList raw.text
  | .wikiLink link => ∃ raw, ⟨span,raw⟩ ∈ wikiLinks text ∧
      link.target = raw.target.map String.ofList ∧ link.anchor = raw.anchor.map String.ofList
  | .inlineLink link => ∃ raw, ⟨span,raw⟩ ∈ inlineLinks text ∧
      link.text = String.ofList raw.text ∧ link.url = raw.url.map String.ofList ∧
      link.anchor = raw.anchor.map String.ofList
  | .definition definition => ∃ raw, ⟨span,raw⟩ ∈ definitions text ∧
      definition.label = String.ofList raw.label ∧ definition.url = String.ofList raw.url
  | .labelUse use => ∃ raw, ⟨span,raw⟩ ∈ labelUses text ∧ use.label = String.ofList raw

lemma readAt_of_mem_foundElements {text : List Char} {f : Found Element}
    (hf : f ∈ foundElements text) : ReadAt text f.span f.value := by
  rw [foundElements_eq,List.mem_flatMap] at hf
  obtain ⟨kind,-,hf⟩ := hf
  cases kind with
  | heading =>
    obtain ⟨g,hg,rfl⟩ := List.mem_map.1 hf
    exact ⟨g.value.1,(List.mem_filter.1 (raw_of_mem_titledHeadings hg)).1,rfl,rfl⟩
  | wikiLink =>
    obtain ⟨g,hg,rfl⟩ := List.mem_map.1 hf
    exact ⟨g.value,(List.mem_filter.1 hg).1,rfl,rfl⟩
  | inlineLink =>
    obtain ⟨g,hg,rfl⟩ := List.mem_map.1 hf
    exact ⟨g.value,(List.mem_filter.1 hg).1,rfl,rfl,rfl⟩
  | definition =>
    obtain ⟨g,hg,rfl⟩ := List.mem_map.1 hf
    exact ⟨g.value,(List.mem_filter.1 hg).1,rfl,rfl⟩
  | labelUse =>
    obtain ⟨g,hg,rfl⟩ := List.mem_map.1 hf
    exact ⟨g.value,(List.mem_filter.1 (List.mem_filter.1 hg).1).1,rfl⟩

lemma ReadAt.whole {text : List Char} {span : Span} {e : Element} (h : ReadAt text span e) :
    Whole text span := by
  cases e with
  | heading heading =>
    obtain ⟨raw,hraw,-⟩ := h
    exact whole_of_mem_find lineLocal_headingForm closes_of_headingForm hraw
  | wikiLink link =>
    obtain ⟨raw,hraw,-⟩ := h
    exact whole_of_mem_find lineLocal_wikiLinkForm closes_of_wikiLinkForm hraw
  | inlineLink link =>
    obtain ⟨raw,hraw,-⟩ := h
    exact whole_of_mem_find lineLocal_inlineLinkForm closes_of_inlineLinkForm hraw
  | definition definition =>
    obtain ⟨raw,hraw,-⟩ := h
    exact whole_of_mem_find lineLocal_definitionForm closes_of_definitionForm hraw
  | labelUse use =>
    obtain ⟨raw,hraw,-⟩ := h
    exact whole_of_mem_find lineLocal_labelUseForm closes_of_labelUseForm hraw

/-- The range of an element leads back to the span where it was read. -/
lemma exists_span_of_mem_parse {text : String} (hsize : text.utf8ByteSize < UInt32.size)
    {e : Element} (he : e ∈ parse text) : ∃ span, ReadAt text.toList span e ∧
    charOfPosition text.toList e.range.start = span.start ∧
    charOfPosition text.toList e.range.stop = span.stop := by
  obtain ⟨f,hf,rfl⟩ := (mem_parse_iff text e).1 he
  obtain ⟨kind,hplaced⟩ := placed_of_mem_foundElements hf
  have hread := readAt_of_mem_foundElements hf
  have hwhole := hread.whole
  refine ⟨f.span,hread,?_,?_⟩
  · rw [hplaced.range]
    exact charOfPosition_positionOfChar (Nat.le_trans hwhole.ordered hwhole.inside)
      (hasPosition_of_size hsize _) hwhole.start
  · rw [hplaced.range]
    exact charOfPosition_positionOfChar hwhole.inside (hasPosition_of_size hsize _) hwhole.stop

/-- A text is cut in three at the ends of a span. -/
lemma Whole.exists_split {text : List Char} {span : Span} (h : Whole text span) :
    ∃ before matched after, text = before ++ matched ++ after ∧
      span = ⟨before.length,before.length+matched.length⟩ := by
  have hfront : text.take span.start = (text.take span.stop).take span.start := by
    rw [List.take_take,Nat.min_eq_left h.ordered]
  refine ⟨text.take span.start,(text.take span.stop).drop span.start,text.drop span.stop,?_,?_⟩
  · rw [hfront,List.take_append_drop,List.take_append_drop]
  · have hordered := h.ordered
    have hinside := h.inside
    obtain ⟨start,stop⟩ := span
    simp only [List.length_take,List.length_drop,Span.mk.injEq] at hordered hinside ⊢
    omega

end NoteIndex.Markup

namespace NoteIndex.Text

/-- The characters that a range takes in. -/
def slice (text : List Char) (range : Range) : List Char :=
  (text.take (charOfPosition text range.stop)).drop (charOfPosition text range.start)

end NoteIndex.Text

namespace NoteIndex.Document

open Text Markup

/-- In a text of less than four gigabytes, the range of an element takes in exactly the characters that
were read as the element, and an edit of that range puts the new text in their place. -/
theorem change_element_range {text : String} (hsize : text.utf8ByteSize < UInt32.size) {e : Element}
    (he : e ∈ parse text) : ∃ before matched after : List Char,
    text.toList = before ++ matched ++ after ∧
    ReadAt text.toList ⟨before.length,before.length+matched.length⟩ e ∧
    charOfPosition text.toList e.range.start = before.length ∧
    charOfPosition text.toList e.range.stop = before.length+matched.length ∧
    slice text.toList e.range = matched ∧
    ∀ (document : Document) (version : Option Int32) (new : String), document.text = text →
      (document.change version [⟨some e.range,new⟩]).value.text =
        String.ofList before ++ new ++ String.ofList after := by
  obtain ⟨span,hread,hstart,hstop⟩ := exists_span_of_mem_parse hsize he
  obtain ⟨before,matched,after,htext,rfl⟩ := hread.whole.exists_split
  have hfront : text.toList.take before.length = before := by
    rw [htext,List.append_assoc,List.take_left]
  have hthrough : text.toList.take (before.length+matched.length) = before ++ matched := by
    rw [htext,← List.length_append,List.take_left]
  have hback : text.toList.drop (before.length+matched.length) = after := by
    rw [htext,← List.length_append,List.drop_left]
  refine ⟨before,matched,after,htext,hread,hstart,hstop,?_,?_⟩
  · rw [slice,hstart,hstop,hthrough,List.drop_left]
  · rintro document version new rfl
    calc (document.change version [⟨some e.range,new⟩]).value.text
        = Edit.apply ⟨some e.range,new⟩ document.text := by
          rw [value_change]
          rfl
      _ = String.ofList (before ++ new.toList ++ after) := by
          simp only [Edit.apply,Edit.splice,hstart,hstop,Nat.max_eq_left (Nat.le_add_right _ _),
            hfront,hback]
      _ = String.ofList before ++ new ++ String.ofList after := by
          rw [String.ofList_append,String.ofList_append,String.ofList_toList]

/-- A return inside a wiki link breaks the line but not the link. -/
theorem change_element_range_broken : ∃ (text : String) (e : Element),
    text = "é\r\n# 😀[[a\rb]]\r\n" ∧ text.utf8ByteSize < UInt32.size ∧ e ∈ parse text ∧
    e.range = ⟨⟨1,4⟩,⟨2,3⟩⟩ ∧ slice text.toList e.range = "[[a\rb]]".toList ∧
    ∀ document : Document, document.text = text → ∃ before after : List Char,
      text.toList = before ++ "[[a\rb]]".toList ++ after ∧
      (document.change none [⟨some e.range,"c"⟩]).value.text =
        String.ofList before ++ "c" ++ String.ofList after := by
  let text := "é\r\n# 😀[[a\rb]]\r\n"
  let e : Element := .wikiLink ⟨some "a\rb",none,⟨1,4⟩,⟨2,3⟩⟩
  have hsize : text.utf8ByteSize < UInt32.size := by decide +kernel
  have he : e ∈ parse text := (mem_parse_iff text e).2 ⟨⟨⟨6,13⟩,e⟩,by decide +kernel,rfl⟩
  have hslice : slice text.toList e.range = "[[a\rb]]".toList := by decide +kernel
  obtain ⟨before,matched,after,htext,-,-,-,hmatched,hchange⟩ := change_element_range hsize he
  rw [hslice] at hmatched
  subst hmatched
  exact ⟨text,e,rfl,hsize,he,rfl,hslice,fun document hdocument =>
    ⟨before,after,htext,hchange document none "c" hdocument⟩⟩

end NoteIndex.Document
