import NoteIndex.Proofs.Markup.Order

/-! Fenced blocks hide what is in them: other lines in the place of those between two fence lines leave
the elements of a text as they are, up to the places that they are moved to. -/
namespace NoteIndex.Markup

open Text

/-- Lines between the text before and the text after them. -/
def framed (head inner tail : List Char) : List Char := head ++ '\n' :: (inner ++ '\n' :: tail)

section Carry

variable (head old new : List Char)

/-- Where a place outside the inner lines gets to when new ones take the place of the old ones. -/
def carry (place : Nat) : Nat :=
  if place ≤ head.length then place else place+new.length-old.length

/-- A place that is not on the inner lines. -/
def Clear (place : Nat) : Prop := place ≤ head.length ∨ head.length+old.length+2 ≤ place

def Span.Clear (span : Span) : Prop := Markup.Clear head old span.start ∧ Markup.Clear head old span.stop

variable {head old new}

lemma carry_of_le {place : Nat} (h : place ≤ head.length) : carry head old new place = place :=
  if_pos h

lemma carry_add (place : Nat) :
    carry head old new (place+(head.length+old.length+2)) = place+(head.length+new.length+2) := by
  unfold carry
  rw [if_neg (by omega)]
  omega

lemma carry_le_carry_iff {x y : Nat} (hx : Clear head old x) (hy : Clear head old y) :
    carry head old new x ≤ carry head old new y ↔ x ≤ y := by
  unfold Clear at hx hy
  unfold carry
  split <;> split <;> omega

lemma Span.covers_iff (outer inner : Span) :
    outer.covers inner = true ↔ outer.start ≤ inner.start ∧ inner.stop ≤ outer.stop := by
  simp [covers]

lemma covers_carry {outer inner : Span} (houter : outer.Clear head old)
    (hinner : inner.Clear head old) :
    (outer.moved (carry head old new)).covers (inner.moved (carry head old new)) =
      outer.covers inner := by
  simp only [Span.covers,Span.moved,carry_le_carry_iff houter.1 hinner.1,
    carry_le_carry_iff hinner.2 houter.2]

lemma positionOfChar_carry (tail : List Char)
    (hbreaks : breakCount (old ++ ['\n']) = breakCount (new ++ ['\n'])) {place : Nat}
    (h : Clear head old place) :
    positionOfChar (framed head new tail) (carry head old new place) =
      positionOfChar (framed head old tail) place := by
  unfold positionOfChar
  rcases h with h | h
  · rw [carry_of_le h,framed,framed,locateFrom_of_le 0 0 h (new ++ '\n' :: tail)]
  · obtain ⟨offset,rfl⟩ := Nat.exists_eq_add_of_le' h
    have hlocate : ∀ inner : List Char,
        locateFrom 0 0 (offset+(head.length+inner.length+2)) (framed head inner tail) =
          locateFrom (0+breakCount (head ++ ['\n'])+breakCount (inner ++ ['\n'])) 0 offset tail := by
      intro inner
      rw [show offset+(head.length+inner.length+2) = head.length+1+(inner.length+1+offset) by omega,
        framed,locateFrom_append_feed,locateFrom_append_feed]
    rw [carry_add,hlocate,hlocate,hbreaks]

/-- What is found in one text is found in the other, at the place that it has been carried to. -/
structure Carried {α : Type} (head old new : List Char) (found found' : List (Found α)) : Prop where
  moved : found' = found.map (Found.moved (carry head old new))
  clear : ∀ f ∈ found, f.span.Clear head old

end Carry

section Find

variable {α : Type} {form : Form α} {head old new tail : List Char}

lemma find_framed (h : LineLocal form) (head inner tail : List Char) :
    find form (framed head inner tail) = find form head ++
      ((find form inner).map (Found.moved (· + (head.length+1))) ++
        (find form tail).map (Found.moved (· + (head.length+inner.length+2)))) := by
  unfold framed
  rw [find_append_feed h,find_append_feed h,List.map_append,List.map_map]
  congr 3
  funext f
  simp only [Function.comp_apply,Found.moved,Span.moved]
  congr 2 <;> omega

/-- What is found outside the inner lines. -/
def foundAround (form : Form α) (head inner tail : List Char) : List (Found α) :=
  find form head ++ (find form tail).map (Found.moved (· + (head.length+inner.length+2)))

lemma carried_foundAround (h : LineLocal form) (head old new tail : List Char) :
    Carried head old new (foundAround form head old tail) (foundAround form head new tail) := by
  have hhead : ∀ f ∈ find form head, f.span.start ≤ head.length ∧ f.span.stop ≤ head.length := by
    intro f hf
    have hspan := span_of_mem_find h hf
    omega
  constructor
  · have hstay : (find form head).map (Found.moved (carry head old new)) = find form head := by
      conv_rhs => rw [← List.map_id (find form head)]
      apply List.map_congr_left
      intro f hf
      obtain ⟨hstart,hstop⟩ := hhead f hf
      simp [Found.moved,Span.moved,carry_of_le hstart,carry_of_le hstop]
    rw [foundAround,foundAround,List.map_append,hstay,List.map_map]
    congr 2
    funext f
    simp [Found.moved,Span.moved,carry_add]
  · intro f hf
    rcases List.mem_append.1 hf with hf | hf
    · exact ⟨.inl (hhead f hf).1,.inl (hhead f hf).2⟩
    · obtain ⟨g,-,rfl⟩ := List.mem_map.1 hf
      exact ⟨.inr (Nat.le_add_left _ _),.inr (Nat.le_add_left _ _)⟩

/-- One of the blocks has all of the inner lines in it. -/
def Hides (blocks : List Span) (head inner : List Char) : Prop :=
  ∃ block ∈ blocks, block.start ≤ head.length ∧ head.length+inner.length+1 ≤ block.stop

/-- Of what is found on lines that a block hides nothing is left. -/
lemma outside_find_framed (h : LineLocal form) {blocks : List Span} {inner : List Char}
    (hhides : Hides blocks head inner) :
    outside blocks (find form (framed head inner tail)) =
      outside blocks (foundAround form head inner tail) := by
  obtain ⟨block,hblock,hstart,hstop⟩ := hhides
  have hinner : outside blocks ((find form inner).map (Found.moved (· + (head.length+1)))) = [] := by
    rw [outside,List.filter_eq_nil_iff]
    intro f hf
    obtain ⟨g,hg,rfl⟩ := List.mem_map.1 hf
    have hspan := span_of_mem_find h hg
    have hcovers : block.covers (g.moved (· + (head.length+1))).span = true := by
      rw [Span.covers_iff]
      dsimp only [Found.moved,Span.moved]
      omega
    simpa using ⟨block,hblock,hcovers⟩
  rw [find_framed h,foundAround]
  unfold outside at hinner ⊢
  rw [List.filter_append,List.filter_append,hinner,List.nil_append,List.filter_append]

lemma Carried.outside {found found' : List (Found α)} (h : Carried head old new found found')
    {blocks : List Span} (hblocks : ∀ block ∈ blocks, block.Clear head old) :
    Carried head old new (outside blocks found)
      (outside (blocks.map (Span.moved (carry head old new))) found') := by
  refine ⟨?_,fun f hf => h.clear f (List.mem_filter.1 hf).1⟩
  rw [h.moved]
  unfold Markup.outside
  rw [List.filter_map]
  congr 1
  apply List.filter_congr
  intro f hf
  have hany : (blocks.map (Span.moved (carry head old new))).any
      (·.covers (f.span.moved (carry head old new))) = blocks.any (·.covers f.span) := by
    rw [Bool.eq_iff_iff]
    simp only [List.any_eq_true,List.mem_map,exists_exists_and_eq_and]
    apply exists_congr
    intro block
    apply and_congr_right
    intro hblock
    rw [covers_carry (hblocks block hblock) (h.clear f hf)]
  exact congrArg _ hany

end Find

lemma pairUp_map (move : Nat → Nat) (spans : List Span) :
    pairUp (spans.map (Span.moved move)) = (pairUp spans).map (Span.moved move) := by
  fun_induction pairUp spans with
  | case1 first second rest ih => simp [pairUp,ih,Span.moved]
  | case2 spans hspans =>
    cases spans with
    | nil => rfl
    | cons first rest =>
      cases rest with
      | nil => rfl
      | cons second rest => exact absurd rfl (hspans first second rest)

lemma mem_pairUp {span : Span} {spans : List Span} (h : span ∈ pairUp spans) :
    ∃ first ∈ spans, ∃ second ∈ spans, span = ⟨first.start,second.stop⟩ := by
  fun_induction pairUp spans with
  | case1 first second rest ih =>
    rcases List.mem_cons.1 h with rfl | h
    · exact ⟨first,by simp,second,by simp,rfl⟩
    · obtain ⟨a,ha,b,hb,rfl⟩ := ih h
      exact ⟨a,by simp [ha],b,by simp [hb],rfl⟩
  | case2 => simp at h

/-- Only the start of a line can start a fence line. -/
lemma find_fenceLine_of_line {line : List Char} (hfeed : '\n' ∉ line)
    (hfence : isFenceLine line = false) : find fenceLine line = [] := by
  have hrest : ∀ (c : Char) (index : Nat) (rest : List Char), c ≠ '\n' → '\n' ∉ rest →
      findFrom fenceLine 0 (some c) index rest = [] := by
    intro c index rest hc hrest
    induction rest generalizing c index with
    | nil => rfl
    | cons d rest ih =>
      obtain ⟨hd,hrest⟩ := not_or.1 (fun h => hrest (List.mem_cons.2 h))
      have hnone : fenceLine (some c) (d :: rest) = none := by simp [fenceLine,atLineStart,hc]
      rw [findFrom,hnone]
      exact ih d (index+1) (Ne.symm hd) hrest
  cases line with
  | nil => rfl
  | cons c rest =>
    obtain ⟨hc,hfeed⟩ := not_or.1 (fun h => hfeed (List.mem_cons.2 h))
    have hnone : fenceLine none (c :: rest) = none := by simp [fenceLine,hfence]
    rw [find,findFrom,hnone]
    exact hrest c 1 rest (Ne.symm hc) hfeed

/-- Lines none of which is a fence line have no fence lines. -/
lemma find_fenceLine_eq_nil {text : List Char}
    (h : ∀ line ∈ fields (· == '\n') text, isFenceLine line = false) : find fenceLine text = [] := by
  have hline : ∀ line : List Char, '\n' ∉ line → fields (· == '\n') line = [line] := by
    intro line hfeed
    apply fields_eq_singleton
    intro c hc
    simpa using fun heq : c = '\n' => hfeed (heq ▸ hc)
  induction text using line_induction with
  | last line hfeed =>
    rw [hline line hfeed] at h
    exact find_fenceLine_of_line hfeed (h line List.mem_cons_self)
  | more line rest hfeed ih =>
    rw [fields_append_separator (by rfl),hline line hfeed] at h
    rw [find_append_feed lineLocal_fenceLine,
      find_fenceLine_of_line hfeed (h line List.mem_cons_self),
      ih fun other hother => h other (List.mem_cons_of_mem line hother)]
    rfl

lemma code_eq (text : List Char) :
    code text = fences text ++ (outside (fences text) (find codeSpan text)).map Found.span := by
  simp only [code,codeSpans,outside,List.filter_map]
  rfl

section Framed

variable {head old new tail : List Char} (hold : find fenceLine old = [])
  (hnew : find fenceLine new = [])

lemma find_fenceLine_framed {inner : List Char} (h : find fenceLine inner = []) :
    find fenceLine (framed head inner tail) = foundAround fenceLine head inner tail := by
  rw [find_framed lineLocal_fenceLine,h,List.map_nil,List.nil_append,foundAround]

include hold

lemma clear_of_mem_fences {block : Span} (h : block ∈ fences (framed head old tail)) :
    block.Clear head old := by
  have hclear := (carried_foundAround lineLocal_fenceLine head old old tail).clear
  rw [fences,find_fenceLine_framed hold] at h
  obtain ⟨first,hfirst,second,hsecond,rfl⟩ := mem_pairUp h
  obtain ⟨f,hf,rfl⟩ := List.mem_map.1 hfirst
  obtain ⟨g,hg,rfl⟩ := List.mem_map.1 hsecond
  exact ⟨(hclear f hf).1,(hclear g hg).2⟩

include hnew

lemma fences_framed : fences (framed head new tail) =
    (fences (framed head old tail)).map (Span.moved (carry head old new)) := by
  rw [fences,fences,find_fenceLine_framed hold,find_fenceLine_framed hnew,
    (carried_foundAround lineLocal_fenceLine head old new tail).moved,List.map_map,← pairUp_map,
    List.map_map]
  rfl

variable (hhides : Hides (fences (framed head old tail)) head old)

include hhides

/-- The block that hides the old lines becomes one that hides the new ones. -/
lemma hides_fences : Hides (fences (framed head new tail)) head new := by
  obtain ⟨block,hblock,hstart,hstop⟩ := hhides
  have hclear := (clear_of_mem_fences hold hblock).2
  refine ⟨block.moved (carry head old new),?_,?_,?_⟩
  · rw [fences_framed hold hnew]
    exact List.mem_map_of_mem hblock
  · exact Nat.le_trans (Nat.le_of_eq (carry_of_le hstart)) hstart
  · unfold Clear at hclear
    simp only [Span.moved,carry]
    split <;> omega

lemma carried_codeSpans : Carried head old new
    (outside (fences (framed head old tail)) (find codeSpan (framed head old tail)))
    (outside (fences (framed head new tail)) (find codeSpan (framed head new tail))) := by
  rw [outside_find_framed lineLocal_codeSpan hhides,
    outside_find_framed lineLocal_codeSpan (hides_fences hold hnew hhides),fences_framed hold hnew]
  exact (carried_foundAround lineLocal_codeSpan head old new tail).outside
    fun block hblock => clear_of_mem_fences hold hblock

lemma code_framed : code (framed head new tail) =
    (code (framed head old tail)).map (Span.moved (carry head old new)) := by
  rw [code_eq,code_eq,(carried_codeSpans hold hnew hhides).moved,fences_framed hold hnew,
    List.map_append,List.map_map,List.map_map]
  rfl

lemma clear_of_mem_code {block : Span} (h : block ∈ code (framed head old tail)) :
    block.Clear head old := by
  rw [code_eq] at h
  rcases List.mem_append.1 h with h | h
  · exact clear_of_mem_fences hold h
  · obtain ⟨f,hf,rfl⟩ := List.mem_map.1 h
    exact (carried_codeSpans hold hnew hhides).clear f hf

/-- What is found outside code is the same for both texts. -/
lemma carried_outside {α : Type} {form : Form α} (hform : LineLocal form) : Carried head old new
    (outside (code (framed head old tail)) (find form (framed head old tail)))
    (outside (code (framed head new tail)) (find form (framed head new tail))) := by
  have hcode : ∀ {inner : List Char}, Hides (fences (framed head inner tail)) head inner →
      Hides (code (framed head inner tail)) head inner := by
    rintro inner ⟨block,hblock,hplace⟩
    exact ⟨block,List.mem_append_left _ hblock,hplace⟩
  rw [outside_find_framed hform (hcode hhides),
    outside_find_framed hform (hcode (hides_fences hold hnew hhides)),code_framed hold hnew hhides]
  exact (carried_foundAround hform head old new tail).outside
    fun block hblock => clear_of_mem_code hold hnew hhides hblock

end Framed

section Carried

variable {α β : Type} {head old new : List Char} {found found' : List (Found α)}

lemma Carried.filter (h : Carried head old new found found') (p : α → Bool) :
    Carried head old new (found.filter fun f => p f.value) (found'.filter fun f => p f.value) := by
  refine ⟨?_,fun f hf => h.clear f (List.mem_filter.1 hf).1⟩
  rw [h.moved,List.filter_map]
  rfl

lemma Carried.map (h : Carried head old new found found') {convert convert' : Found α → Found β}
    (hspan : ∀ f, (convert f).span = f.span)
    (hconvert : ∀ f, f.span.Clear head old →
      convert' (f.moved (carry head old new)) = (convert f).moved (carry head old new)) :
    Carried head old new (found.map convert) (found'.map convert') := by
  constructor
  · rw [h.moved,List.map_map,List.map_map]
    apply List.map_congr_left
    intro f hf
    exact hconvert f (h.clear f hf)
  · intro g hg
    obtain ⟨f,hf,rfl⟩ := List.mem_map.1 hg
    rw [hspan]
    exact h.clear f hf

lemma withTitle_moved (move : Nat → Nat) (seen : Bool) (found : List (Found RawHeading)) :
    withTitle seen (found.map (Found.moved move)) =
      (withTitle seen found).map (Found.moved move) := by
  induction found generalizing seen with
  | nil => rfl
  | cons f rest ih => simp [withTitle,ih,Found.moved]

lemma Carried.withTitle {found found' : List (Found RawHeading)}
    (h : Carried head old new found found') (seen : Bool) :
    Carried head old new (withTitle seen found) (withTitle seen found') := by
  refine ⟨by rw [h.moved,withTitle_moved],?_⟩
  intro f hf
  refine h.clear ⟨f.span,f.value.1⟩ ?_
  rw [← map_withTitle seen found]
  exact List.mem_map_of_mem hf

lemma Carried.definedLabels {found found' : List (Found RawDefinition)}
    (h : Carried head old new found found') : definedLabels found' = definedLabels found := by
  rw [h.moved,Markup.definedLabels,List.map_map]
  rfl

end Carried

section Elements

variable {head old new tail : List Char} (hold : find fenceLine old = [])
  (hnew : find fenceLine new = []) (hhides : Hides (fences (framed head old tail)) head old)
  (hbreaks : breakCount (old ++ ['\n']) = breakCount (new ++ ['\n']))

include hbreaks

lemma range_carry {span : Span} (h : span.Clear head old) :
    (span.moved (carry head old new)).range (framed head new tail) =
      span.range (framed head old tail) := by
  simp only [Span.range,rangeOfChars,Span.moved,positionOfChar_carry tail hbreaks h.1,
    positionOfChar_carry tail hbreaks h.2]

include hold hnew hhides

lemma carried_elementsOf (kind : Kind) : Carried head old new
    (elementsOf (framed head old tail) kind) (elementsOf (framed head new tail) kind) := by
  have hdefinitions := carried_outside hold hnew hhides lineLocal_definitionForm
  cases kind with
  | heading =>
    refine ((carried_outside hold hnew hhides lineLocal_headingForm).withTitle false).map
      (fun _ => rfl) ?_
    intro f hf
    simp only [headingElement,Found.moved,range_carry hbreaks hf]
  | wikiLink =>
    refine (carried_outside hold hnew hhides lineLocal_wikiLinkForm).map (fun _ => rfl) ?_
    intro f hf
    simp only [wikiLinkElement,Found.moved,range_carry hbreaks hf]
  | inlineLink =>
    refine (carried_outside hold hnew hhides lineLocal_inlineLinkForm).map (fun _ => rfl) ?_
    intro f hf
    simp only [inlineLinkElement,Found.moved,range_carry hbreaks hf]
  | definition =>
    refine hdefinitions.map (fun _ => rfl) ?_
    intro f hf
    simp only [definitionElement,Found.moved,range_carry hbreaks hf]
  | labelUse =>
    have huses := (carried_outside hold hnew hhides lineLocal_labelUseForm).filter fun label =>
      (definedLabels (outside (code (framed head old tail))
        (definitions (framed head old tail)))).contains (normalizeLabel (String.ofList label))
    rw [elementsOf,elementsOf,definitions,definitions,hdefinitions.definedLabels]
    refine huses.map (fun _ => rfl) ?_
    intro f hf
    simp only [labelUseElement,Found.moved,range_carry hbreaks hf]

lemma carried_foundElements : Carried head old new
    (foundElements (framed head old tail)) (foundElements (framed head new tail)) := by
  have hkinds := carried_elementsOf hold hnew hhides hbreaks
  constructor
  · rw [foundElements_eq,foundElements_eq,List.map_flatMap]
    congr 1
    funext kind
    exact (hkinds kind).moved
  · intro f hf
    rw [foundElements_eq,List.mem_flatMap] at hf
    obtain ⟨kind,-,hf⟩ := hf
    exact (hkinds kind).clear f hf

/-- Carried elements keep their order. -/
lemma sortedElements_framed : sortedElements (framed head new tail) =
    (sortedElements (framed head old tail)).map (Found.moved (carry head old new)) := by
  have hcarried := carried_foundElements hold hnew hhides hbreaks
  rw [sortedElements,sortedElements,hcarried.moved]
  symm
  apply List.map_mergeSort
  intro f hf g hg
  have hf := (hcarried.clear f hf).1
  have hg := (hcarried.clear g hg).1
  simp only [Found.moved,Span.moved,carry_le_carry_iff hf hg]

end Elements

/-- Other lines between two fence lines leave all elements as they are, with their ranges, if none of
them is a fence line and they have as many line breaks. -/
theorem parse_congr_of_fenced (before opening inner inner' closing after : String)
    (hfence : (⟨before.length,(before ++ opening ++ "\n" ++ inner ++ "\n" ++ closing).length⟩ : Span) ∈
      fences (before ++ opening ++ "\n" ++ inner ++ "\n" ++ closing ++ after).toList)
    (hinner : ∀ line ∈ fields (· == '\n') inner.toList, isFenceLine line = false)
    (hinner' : ∀ line ∈ fields (· == '\n') inner'.toList, isFenceLine line = false)
    (hbreaks : breakCount (inner ++ "\n").toList = breakCount (inner' ++ "\n").toList) :
    parse (before ++ opening ++ "\n" ++ inner ++ "\n" ++ closing ++ after) =
      parse (before ++ opening ++ "\n" ++ inner' ++ "\n" ++ closing ++ after) := by
  have hframed : ∀ lines : String,
      (before ++ opening ++ "\n" ++ lines ++ "\n" ++ closing ++ after).toList =
        framed (before ++ opening).toList lines.toList (closing ++ after).toList := by
    intro lines
    simp [framed]
  have hhides : Hides (fences (framed (before ++ opening).toList inner.toList
      (closing ++ after).toList)) (before ++ opening).toList inner.toList := by
    rw [hframed] at hfence
    have hfeed : "\n".length = 1 := rfl
    refine ⟨_,hfence,?_,?_⟩ <;> simp only [String.length_toList,String.length_append] <;> omega
  have hsorted := sortedElements_framed (find_fenceLine_eq_nil hinner)
    (find_fenceLine_eq_nil hinner') hhides (by simpa using hbreaks)
  rw [parse_eq,parse_eq,hframed,hframed,hsorted,List.map_map]
  rfl

theorem parse_congr_of_fenced_definition :
    ∃ before opening inner inner' closing after : String,
    (⟨before.length,(before ++ opening ++ "\n" ++ inner ++ "\n" ++ closing).length⟩ : Span) ∈
      fences (before ++ opening ++ "\n" ++ inner ++ "\n" ++ closing ++ after).toList ∧
    (∀ line ∈ fields (· == '\n') inner.toList, isFenceLine line = false) ∧
    (∀ line ∈ fields (· == '\n') inner'.toList, isFenceLine line = false) ∧
    breakCount (inner ++ "\n").toList = breakCount (inner' ++ "\n").toList ∧ inner ≠ inner' ∧
    (parse (before ++ opening ++ "\n" ++ inner ++ "\n" ++ closing ++ after)).length = 2 ∧
    parse (before ++ opening ++ "\n" ++ inner ++ "\n" ++ closing ++ after) =
      parse (before ++ opening ++ "\n" ++ inner' ++ "\n" ++ closing ++ after) := by
  refine ⟨"[[a]] [b]\n"," ~~~","[b]: c\r\n\x60","# D\r\r","\x60\x60\x60 x","\n# E [b]",?_,?_,?_,?_,?_,?_,
    parse_congr_of_fenced _ _ _ _ _ _ ?_ ?_ ?_ ?_⟩
  case refine_6 =>
    rw [parse_eq,List.length_map,(perm_sortedElements _).length_eq]
    decide +kernel
  all_goals decide +kernel

end NoteIndex.Markup
