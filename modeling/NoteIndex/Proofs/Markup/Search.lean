import NoteIndex.Proofs.Markup.Visibility

/-! Completeness of the search: what stands at a place is found, unless a form that starts before the place
reaches over it. -/
namespace NoteIndex.Markup

open Text

variable {α : Type} {form : Form α} {text : List Char}

/-- What a form looks like at a place of a text. -/
def formAt (form : Form α) (text : List Char) (place : Nat) : Option (Nat × Option α) :=
  form (text.take place).getLast? (text.drop place)

lemma formAt_append (form : Form α) (before rest : List Char) :
    formAt form (before ++ rest) before.length = form before.getLast? rest := by
  rw [formAt,List.take_left,List.drop_left]

/-- A form that the search comes to: no other form that starts after the skipped characters and before
the place reaches over it. -/
structure Ahead (form : Form α) (skip : Nat) (before : Option Char) (text : List Char)
    (place length : Nat) (value : α) : Prop where
  skip_le : skip ≤ place
  inside : place < text.length
  form_eq : form ((text.take place).getLast?.or before) (text.drop place) = some (length,some value)
  free : ∀ other reach found, skip ≤ other → other < place →
    form ((text.take other).getLast?.or before) (text.drop other) = some (reach,found) →
    other+reach ≤ place

/-- One character further on, it is still ahead. -/
lemma Ahead.tail {skip place length : Nat} {before : Option Char} {c : Char} {rest : List Char}
    {value : α} (h : Ahead form skip before (c :: rest) (place+1) length value) {next : Nat}
    (hskip : skip ≤ next+1) (hnext : next ≤ place) :
    Ahead form next (some c) rest place length value := by
  constructor
  · exact hnext
  · have hinside := h.inside
    rw [List.length_cons] at hinside
    omega
  · rw [← getLast?_take_succ]
    exact h.form_eq
  · intro other reach found hle hlt hform
    rw [← getLast?_take_succ c rest other before] at hform
    have hfree := h.free (other+1) reach found (by omega) (by omega) hform
    omega

lemma Ahead.mem_findFrom {skip index place length : Nat} {before : Option Char} {value : α}
    (h : Ahead form skip before text place length value) :
    ⟨⟨index+place,index+place+length⟩,value⟩ ∈ findFrom form skip before index text := by
  -- The search goes to the place by itself: what it finds on the way ends before the place.
  have hmove : ∀ i j : Nat, i+(j+1) = i+1+j := by omega
  fun_induction findFrom form skip before index text generalizing place with
  | case1 => simpa using h.inside
  | case2 before index c rest skip ih =>
    cases place with
    | zero => simpa using h.skip_le
    | succ place =>
      have hskip := h.skip_le
      rw [hmove index place]
      exact ih (h.tail (by omega) (by omega))
  | case3 before index c rest hnone ih =>
    cases place with
    | zero => simpa [hnone] using h.form_eq
    | succ place =>
      rw [hmove index place]
      exact ih (h.tail (by omega) (by omega))
  | case4 before index c rest reach hform ih =>
    cases place with
    | zero => simpa [hform] using h.form_eq
    | succ place =>
      have hfree := h.free 0 reach none (by omega) (by omega) (by simpa using hform)
      rw [hmove index place]
      exact ih (h.tail (by omega) (by omega))
  | case5 before index c rest reach first hform ih =>
    cases place with
    | zero =>
      obtain ⟨rfl,rfl⟩ : reach = length ∧ first = value := by simpa [hform] using h.form_eq
      exact List.mem_cons_self
    | succ place =>
      have hfree := h.free 0 reach (some first) (by omega) (by omega) (by simpa using hform)
      rw [hmove index place]
      exact List.mem_cons_of_mem _ (ih (h.tail (by omega) (by omega)))

/-- What stands at a place is found if nothing before it reaches over it. -/
lemma mem_find_of_formAt {place length : Nat} {value : α} (hinside : place < text.length)
    (hform : formAt form text place = some (length,some value))
    (hfree : ∀ other reach found, other < place → formAt form text other = some (reach,found) →
      other+reach ≤ place) :
    ⟨⟨place,place+length⟩,value⟩ ∈ find form text := by
  have hahead : Ahead form 0 none text place length value := by
    refine ⟨Nat.zero_le _,hinside,by simpa [formAt] using hform,?_⟩
    intro other reach found _ hlt hother
    exact hfree other reach found hlt (by simpa [formAt] using hother)
  have hmem : ⟨⟨0+place,0+place+length⟩,value⟩ ∈ findFrom form 0 none 0 text := hahead.mem_findFrom
  rw [Nat.zero_add] at hmem
  exact hmem

/-- Forms that stand apart: none reaches over the start of another one. -/
def StandApart (form : Form α) : Prop :=
  ∀ text first second reach found length value, first < second →
    formAt form text first = some (reach,found) → formAt form text second = some (length,some value) →
    first+reach ≤ second

/-- Forms that stand apart are all found. -/
lemma mem_find_iff (hlocal : LineLocal form) (hapart : StandApart form) {f : Found α} :
    f ∈ find form text ↔
      ∃ length, formAt form text f.span.start = some (length,some f.value) ∧
        f.span.stop = f.span.start+length := by
  constructor
  · exact form_of_mem_find
  · intro h
    obtain ⟨length,hform,hstop⟩ := h
    have hfits := hlocal.fits hform
    have hmem := mem_find_of_formAt (by rw [List.length_drop] at hfits; omega) hform
      fun other reach found hlt hother => hapart text _ _ reach found _ _ hlt hother hform
    rw [← hstop] at hmem
    exact hmem

lemma StandApart.pairwise_find (h : StandApart form) (text : List Char) :
    (find form text).Pairwise fun f g => f.span.stop ≤ g.span.start := by
  refine (ordered_find form text).increasing.imp_of_mem ?_
  intro f g hf hg hlt
  obtain ⟨length,hform,hstop⟩ := form_of_mem_find hf
  obtain ⟨_,hother,-⟩ := form_of_mem_find hg
  rw [hstop]
  exact h text _ _ _ _ _ _ hlt hform hother

/-- Forms that stand apart are found one after the other, in bytes as well. -/
lemma StandApart.pairwise_inBytes (h : StandApart form) (hlocal : LineLocal form) (text : List Char) :
    (inBytes text (find form text)).Pairwise fun f g =>
      f.span.start < g.span.start ∧ f.span.stop ≤ g.span.start := by
  rw [inBytes,List.pairwise_map]
  refine (h.pairwise_find text).imp_of_mem ?_
  intro f g hf hg hle
  obtain ⟨hnonempty,hinside⟩ := span_of_mem_find hlocal hf
  obtain ⟨hstart,-⟩ := inside_of_mem_find hlocal hg
  exact ⟨byteOfChar_lt (Nat.lt_of_lt_of_le hnonempty hle) hstart,
    (byteOfChar_le_iff hinside hstart).2 hle⟩

/-- No form reaches over a line feed, so forms that start lines stand apart. -/
lemma standApart_of_atLineStart (hlocal : LineLocal form)
    (hstart : ∀ {before text length value}, form before text = some (length,some value) →
      atLineStart before = true) : StandApart form := by
  intro text first second reach found length value hlt hfirst hsecond
  by_contra hreach
  have hfits := hlocal.fits hsecond
  rw [List.length_drop] at hfits
  cases feed_of_atLineStart (by omega) (hstart hsecond) with
  | inl hzero => omega
  | inr hfeed => exact hlocal.ne_feed_of_form hfirst (by omega) (by omega) hfeed

end NoteIndex.Markup
