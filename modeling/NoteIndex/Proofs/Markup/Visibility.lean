import NoteIndex.Proofs.Markup.Extent
import NoteIndex.Proofs.Markup.Fence
import NoteIndex.Proofs.Markup.Locality

/-! Visibility: fenced blocks are made of whole lines and every form ends on the line that it starts on,
so what meets a block lies in it. What becomes an element is then exactly what meets no block and lies in
no code span. -/
namespace NoteIndex.Markup

open Text

/-- Whether two spans have something in common. -/
def Span.meets (a b : Span) : Bool := decide (a.start < b.stop) && decide (b.start < a.stop)

/-- A span that starts where a line starts and stops where a line stops. -/
structure WholeLines (text : List Char) (span : Span) : Prop where
  start : span.start = 0 ∨ text[span.start-1]? = some '\n'
  stop : text[span.stop]? = none ∨ text[span.stop]? = some '\n'

/-- Where a line starts, the character before is a line feed, if there is one. -/
lemma feed_of_atLineStart {text : List Char} {place : Nat} (hinside : place ≤ text.length)
    (h : atLineStart (text.take place).getLast? = true) :
    place = 0 ∨ text[place-1]? = some '\n' := by
  by_cases hzero : place = 0
  · exact .inl hzero
  · have hbefore : text[place-1]? = some (text[place-1]) := List.getElem?_eq_getElem (by omega)
    rw [List.getLast?_take,if_neg hzero,hbefore,Option.some_or] at h
    right
    rw [hbefore]
    simpa [atLineStart] using h

lemma wholeLines_of_mem_find {text : List Char} {f : Found Unit} (hf : f ∈ find fenceLine text) :
    WholeLines text f.span := by
  obtain ⟨length,hform,hstop⟩ := form_of_mem_find hf
  have hinside := (ordered_find fenceLine text).inside f hf
  unfold fenceLine at hform
  split at hform
  · rename_i hfence
    cases hform
    rw [Bool.and_eq_true] at hfence
    constructor
    · exact feed_of_atLineStart (Nat.le_of_lt hinside) hfence.1
    · have hafter := List.head?_dropWhile_not (· != '\n') (text.drop f.span.start)
      rw [hstop,← List.getElem?_drop,← List.head?_drop,drop_length_takeWhile]
      cases hhead : ((text.drop f.span.start).dropWhile (· != '\n')).head? with
      | none => exact .inl rfl
      | some c =>
        rw [hhead] at hafter
        right
        simpa using hafter
  · cases hform

/-- A fenced block goes from one fence line to another. -/
lemma exists_fenceLines {text : List Char} {block : Span} (h : block ∈ fences text) :
    ∃ f ∈ find fenceLine text, ∃ g ∈ find fenceLine text, block = ⟨f.span.start,g.span.stop⟩ := by
  obtain ⟨first,hfirst,second,hsecond,rfl⟩ := mem_pairUp h
  obtain ⟨f,hf,rfl⟩ := List.mem_map.1 hfirst
  obtain ⟨g,hg,rfl⟩ := List.mem_map.1 hsecond
  exact ⟨f,hf,g,hg,rfl⟩

lemma wholeLines_of_mem_fences {text : List Char} {block : Span} (h : block ∈ fences text) :
    WholeLines text block := by
  obtain ⟨f,hf,g,hg,rfl⟩ := exists_fenceLines h
  exact ⟨(wholeLines_of_mem_find hf).start,(wholeLines_of_mem_find hg).stop⟩

section Line

variable {α : Type} {form : Form α} {text : List Char} (hlocal : LineLocal form)

include hlocal

/-- A form ends on the line that it starts on. -/
lemma LineLocal.feed_not_mem {before : Option Char} {length : Nat} {value : Option α}
    (hform : form before text = some (length,value)) : '\n' ∉ text.take length := by
  intro hfeed
  obtain ⟨line,rest,rfl,hline⟩ := List.eq_append_cons_of_mem (List.mem_of_mem_take hfeed)
  rw [hlocal.cut] at hform
  rw [List.take_append_of_le_length (hlocal.fits hform).2] at hfeed
  exact hline (List.mem_of_mem_take hfeed)

lemma LineLocal.ne_feed_of_form {before : Option Char} {place length i : Nat} {value : Option α}
    (hform : form before (text.drop place) = some (length,value)) (hstart : place ≤ i)
    (hstop : i < place+length) : text[i]? ≠ some '\n' := by
  intro hfeed
  apply hlocal.feed_not_mem hform
  apply List.mem_of_getElem? (i := i-place)
  rw [List.getElem?_take_of_lt (by omega),List.getElem?_drop,Nat.add_sub_cancel' hstart,hfeed]

lemma getElem?_ne_feed {f : Found α} (hf : f ∈ find form text) {i : Nat} (hstart : f.span.start ≤ i)
    (hstop : i < f.span.stop) : text[i]? ≠ some '\n' := by
  obtain ⟨length,hform,hlength⟩ := form_of_mem_find hf
  exact hlocal.ne_feed_of_form hform hstart (by omega)

/-- What meets whole lines lies in them. -/
lemma WholeLines.meets_eq_covers {block : Span} (h : WholeLines text block) {f : Found α}
    (hf : f ∈ find form text) : block.meets f.span = block.covers f.span := by
  obtain ⟨hnonempty,hinside⟩ := span_of_mem_find hlocal hf
  rw [Bool.eq_iff_iff,Span.covers_iff,Span.meets,Bool.and_eq_true,decide_eq_true_eq,
    decide_eq_true_eq]
  constructor
  · rintro ⟨hbefore,hafter⟩
    constructor
    · by_contra hlt
      rcases h.start with hzero | hfeed
      · omega
      · exact getElem?_ne_feed hlocal hf (by omega) (by omega) hfeed
    · by_contra hlt
      rcases h.stop with hend | hfeed
      · rw [List.getElem?_eq_none_iff] at hend
        omega
      · exact getElem?_ne_feed hlocal hf (by omega) (by omega) hfeed
  · rintro ⟨hstart,hstop⟩
    omega

end Line

section Bytes

variable {text : List Char} {a b : Span}

/-- A span of places of a text. -/
def Span.Inside (text : List Char) (span : Span) : Prop :=
  span.start ≤ text.length ∧ span.stop ≤ text.length

lemma meets_inBytes (ha : a.Inside text) (hb : b.Inside text) :
    (a.moved (byteOfChar text)).meets (b.moved (byteOfChar text)) = a.meets b := by
  simp only [Span.meets,Span.moved,← Nat.not_le,byteOfChar_le_iff hb.2 ha.1,
    byteOfChar_le_iff ha.2 hb.1]

lemma covers_inBytes (ha : a.Inside text) (hb : b.Inside text) :
    (a.moved (byteOfChar text)).covers (b.moved (byteOfChar text)) = a.covers b := by
  simp only [Span.covers,Span.moved,byteOfChar_le_iff ha.1 hb.1,byteOfChar_le_iff hb.2 ha.2]

lemma inside_of_mem_find {α : Type} {form : Form α} (hlocal : LineLocal form) {f : Found α}
    (hf : f ∈ find form text) : f.span.Inside text := by
  obtain ⟨hnonempty,hinside⟩ := span_of_mem_find hlocal hf
  exact ⟨Nat.le_trans (Nat.le_of_lt hnonempty) hinside,hinside⟩

lemma inside_of_mem_fences (h : a ∈ fences text) : a.Inside text := by
  obtain ⟨f,hf,g,hg,rfl⟩ := exists_fenceLines h
  exact ⟨(inside_of_mem_find lineLocal_fenceLine hf).1,(inside_of_mem_find lineLocal_fenceLine hg).2⟩

lemma inside_of_mem_codeSpans {blocks : List Span} (h : a ∈ codeSpans blocks text) :
    a.Inside text := by
  obtain ⟨f,hf,rfl⟩ := List.mem_map.1 (List.mem_filter.1 h).1
  exact inside_of_mem_find lineLocal_codeSpan hf

end Bytes

/-- A span whose bytes meet no fenced block and do not lie in a code span. -/
def Exposed (text : List Char) (span : Span) : Prop :=
  (∀ block ∈ fences text,
    (block.moved (byteOfChar text)).meets (span.moved (byteOfChar text)) = false) ∧
  ∀ piece ∈ codeSpans (fences text) text,
    (piece.moved (byteOfChar text)).covers (span.moved (byteOfChar text)) = false

instance (text : List Char) (span : Span) : Decidable (Exposed text span) :=
  inferInstanceAs (Decidable ((∀ block ∈ fences text,
      (block.moved (byteOfChar text)).meets (span.moved (byteOfChar text)) = false) ∧
    ∀ piece ∈ codeSpans (fences text) text,
      (piece.moved (byteOfChar text)).covers (span.moved (byteOfChar text)) = false))

section Found

variable {α : Type} {form : Form α} {text : List Char} {f : Found α}

/-- What is left when code is taken out is what is exposed. -/
lemma mem_outside_iff (hlocal : LineLocal form) :
    f ∈ outside (code text) (find form text) ↔ f ∈ find form text ∧ Exposed text f.span := by
  rw [outside,List.mem_filter]
  apply and_congr_right
  intro hf
  have hinside := inside_of_mem_find hlocal hf
  rw [Bool.not_eq_true',List.any_eq_false,code,List.forall_mem_append]
  simp only [Bool.not_eq_true]
  apply and_congr
  · apply forall₂_congr
    intro block hblock
    rw [meets_inBytes (inside_of_mem_fences hblock) hinside,
      (wholeLines_of_mem_fences hblock).meets_eq_covers hlocal hf]
  · apply forall₂_congr
    intro piece hpiece
    rw [covers_inBytes (inside_of_mem_codeSpans hpiece) hinside]

/-- No two forms are found at the same place. -/
lemma eq_of_span {g : Found α} (hf : f ∈ find form text) (hg : g ∈ find form text)
    (h : f.span = g.span) : f = g := by
  have hstarts : ((find form text).map (·.span.start)).Nodup :=
    List.pairwise_map.2 ((ordered_find form text).increasing.imp fun hlt => Nat.ne_of_lt hlt)
  exact List.inj_on_of_nodup_map hstarts hf hg (congrArg Span.start h)

variable {convert : Found α → Found Element}

lemma exposed_of_mem_map (hlocal : LineLocal form) (hspan : ∀ g, (convert g).span = g.span)
    {element : Found Element}
    (h : element ∈ (outside (code text) (find form text)).map convert) :
    Exposed text element.span := by
  obtain ⟨g,hg,rfl⟩ := List.mem_map.1 h
  rw [hspan]
  exact ((mem_outside_iff hlocal).1 hg).2

lemma mem_map_outside_iff (hlocal : LineLocal form) (hspan : ∀ g, (convert g).span = g.span)
    (hf : f ∈ find form text) :
    convert f ∈ (outside (code text) (find form text)).map convert ↔ Exposed text f.span := by
  constructor
  · intro hmem
    rw [← hspan]
    exact exposed_of_mem_map hlocal hspan hmem
  · intro hexposed
    exact List.mem_map_of_mem ((mem_outside_iff hlocal).2 ⟨hf,hexposed⟩)

end Found

section Elements

variable {text : List Char}

lemma mem_sortedElements_iff {f : Found Element} :
    f ∈ sortedElements text ↔ f ∈ elementsOf text f.value.kind :=
  (perm_sortedElements text).mem_iff.trans mem_foundElements_iff

lemma heading_mem_sortedElements_iff {f : Found RawHeading} (hf : f ∈ headings text) :
    (∃ isTitle, headingElement text ⟨f.span,(f.value,isTitle)⟩ ∈ sortedElements text) ↔
      Exposed text f.span := by
  constructor
  · rintro ⟨isTitle,hmem⟩
    obtain ⟨g,hg,heq⟩ := List.mem_map.1 (mem_sortedElements_iff.1 hmem)
    have hspan : g.span = f.span := congrArg Found.span heq
    rw [← hspan]
    exact ((mem_outside_iff lineLocal_headingForm).1 (raw_of_mem_titledHeadings hg)).2
  · intro hexposed
    have hmem : f ∈ outside (code text) (headings text) :=
      (mem_outside_iff lineLocal_headingForm).2 ⟨hf,hexposed⟩
    obtain ⟨g,hg,hspan,hvalue⟩ := exists_titled hmem
    rw [← hspan,← hvalue]
    exact ⟨g.value.2,mem_sortedElements_iff.2 (List.mem_map_of_mem hg)⟩

/-- The labels that count are those of the definitions among the elements. -/
lemma mem_definedLabels_iff (text : String) (label : String) :
    label ∈ definedLabels (outside (code text.toList) (definitions text.toList)) ↔
      ∃ d, .definition d ∈ parse text ∧ normalizeLabel d.label = label := by
  simp only [definition_mem_parse_iff]
  constructor
  · intro hlabel
    obtain ⟨f,hf,rfl⟩ := List.mem_map.1 hlabel
    exact ⟨_,⟨f,hf,rfl⟩,rfl⟩
  · rintro ⟨d,⟨f,hf,heq⟩,rfl⟩
    cases heq
    exact List.mem_map_of_mem hf

lemma labelUse_mem_sortedElements_iff {text : String} {f : Found (List Char)}
    (hf : f ∈ labelUses text.toList) :
    labelUseElement text.toList f ∈ sortedElements text.toList ↔ Exposed text.toList f.span ∧
      ∃ d, .definition d ∈ parse text ∧
        normalizeLabel d.label = normalizeLabel (String.ofList f.value) := by
  rw [mem_sortedElements_iff,← mem_definedLabels_iff]
  constructor
  · intro hmem
    obtain ⟨g,hg,heq⟩ := List.mem_map.1 hmem
    obtain ⟨hg,hlabel⟩ := List.mem_filter.1 hg
    obtain ⟨hg,hexposed⟩ := (mem_outside_iff lineLocal_labelUseForm).1 hg
    have hspan := congrArg Found.span heq
    obtain rfl := eq_of_span hg hf hspan
    exact ⟨hexposed,List.contains_iff_mem.1 hlabel⟩
  · rintro ⟨hexposed,hlabel⟩
    refine List.mem_map_of_mem (List.mem_filter.2 ⟨?_,List.contains_iff_mem.2 hlabel⟩)
    exact (mem_outside_iff lineLocal_labelUseForm).2 ⟨hf,hexposed⟩

lemma exposed_of_mem_elementsOf {kind : Kind} {f : Found Element} (hf : f ∈ elementsOf text kind) :
    Exposed text f.span := by
  cases kind with
  | heading =>
    obtain ⟨g,hg,rfl⟩ := List.mem_map.1 hf
    exact ((mem_outside_iff lineLocal_headingForm).1 (raw_of_mem_titledHeadings hg)).2
  | wikiLink => exact exposed_of_mem_map lineLocal_wikiLinkForm (fun _ => rfl) hf
  | inlineLink => exact exposed_of_mem_map lineLocal_inlineLinkForm (fun _ => rfl) hf
  | definition => exact exposed_of_mem_map lineLocal_definitionForm (fun _ => rfl) hf
  | labelUse =>
    obtain ⟨g,hg,rfl⟩ := List.mem_map.1 hf
    exact ((mem_outside_iff lineLocal_labelUseForm).1 (List.mem_filter.1 hg).1).2

end Elements

/-- Exactly the code of a text is hidden. What is found of a kind becomes an element, at its place, if
and only if its bytes meet no fenced block and do not lie in a code span, and for the use of a label if in
addition a definition among the elements defines the label. There are no other elements, so none meets a
fenced block even in part. -/
theorem parse_iff_exposed (text : String) :
    parse text = (sortedElements text.toList).map Found.value ∧
    (∀ f ∈ sortedElements text.toList, ReadAt text.toList f.span f.value) ∧
    (∀ f ∈ headings text.toList,
      (∃ isTitle, headingElement text.toList ⟨f.span,(f.value,isTitle)⟩ ∈
        sortedElements text.toList) ↔ Exposed text.toList f.span) ∧
    (∀ f ∈ wikiLinks text.toList,
      wikiLinkElement text.toList f ∈ sortedElements text.toList ↔ Exposed text.toList f.span) ∧
    (∀ f ∈ inlineLinks text.toList,
      inlineLinkElement text.toList f ∈ sortedElements text.toList ↔ Exposed text.toList f.span) ∧
    (∀ f ∈ definitions text.toList,
      definitionElement text.toList f ∈ sortedElements text.toList ↔ Exposed text.toList f.span) ∧
    (∀ f ∈ labelUses text.toList,
      labelUseElement text.toList f ∈ sortedElements text.toList ↔ Exposed text.toList f.span ∧
        ∃ d, .definition d ∈ parse text ∧
          normalizeLabel d.label = normalizeLabel (String.ofList f.value)) ∧
    ∀ f ∈ sortedElements text.toList, ∀ block ∈ fences text.toList,
      (block.moved (byteOfChar text.toList)).meets
        (f.span.moved (byteOfChar text.toList)) = false := by
  refine ⟨parse_eq text,?_,fun f hf => heading_mem_sortedElements_iff hf,?_,?_,?_,
    fun f hf => labelUse_mem_sortedElements_iff hf,
    fun f hf => (exposed_of_mem_elementsOf (mem_sortedElements_iff.1 hf)).1⟩
  · intro f hf
    exact readAt_of_mem_foundElements ((perm_sortedElements _).mem_iff.1 hf)
  · intro f hf
    rw [mem_sortedElements_iff]
    exact mem_map_outside_iff lineLocal_wikiLinkForm (fun _ => rfl) hf
  · intro f hf
    rw [mem_sortedElements_iff]
    exact mem_map_outside_iff lineLocal_inlineLinkForm (fun _ => rfl) hf
  · intro f hf
    rw [mem_sortedElements_iff]
    exact mem_map_outside_iff lineLocal_definitionForm (fun _ => rfl) hf

example :
    let text := "~~~\n[[a]]\n \x60\x60\x60\n[[b]] \x60[[c]]\x60\n~~~\n[[d]]".toList
    (wikiLinks text).map (fun f => decide (Exposed text f.span)) = [false,true,false,true] := by
  decide +kernel

end NoteIndex.Markup
