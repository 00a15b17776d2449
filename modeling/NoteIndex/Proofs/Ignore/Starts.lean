import NoteIndex.Ignore
import NoteIndex.Proofs.Path.Key
import NoteIndex.Proofs.Text.Utf8

/-! Starts of paths: a path is ignored if one of its starts is excluded. What stands before a slash in the
text of a path is the text of a start, except for the leading slash, which has nothing before it. -/
namespace NoteIndex.Ignore

/-- Patterns that take nothing in exclude what any of them matches. -/
lemma excludes_iff_of_forall {ignore : Ignore} (h : ∀ found ∈ ignore.patterns, found.includes = false)
    (text : List UInt8) : ignore.excludes text = true ↔
      ∃ found ∈ ignore.patterns, found.matches text = true := by
  unfold excludes
  cases hfind : ignore.patterns.find? (·.matches text) with
  | none =>
    rw [List.find?_eq_none] at hfind
    simpa using hfind
  | some found =>
    have hmem := List.mem_of_find?_eq_some hfind
    have hmatches := List.find?_some hfind
    simp only [h found hmem,Bool.not_false,true_iff]
    exact ⟨found,hmem,hmatches⟩

/-- A path is ignored if and only if it is below the root and a start of what is below is excluded. -/
theorem isIgnored_iff (ignore : Ignore) (path : Path) : ignore.isIgnored path = true ↔
    ∃ inner, path.components = ignore.root.components ++ inner ∧
      ∃ start, start ≠ [] ∧ start <+: inner ∧ ignore.excludes (renderPath start) = true := by
  unfold isIgnored Path.below?
  cases hbelow : dropStart? ignore.root.components path.components with
  | none =>
    simp only [Bool.false_eq_true,false_iff,not_exists,not_and]
    intro inner hinner
    rw [← dropStart?_eq_some_iff,hbelow] at hinner
    cases hinner
  | some inner =>
    have hinner := (dropStart?_eq_some_iff _ _ _).1 hbelow
    simp only [List.any_eq_true,mem_starts_iff,hinner,List.append_cancel_left_eq,exists_eq_left',
      and_assoc]

/-- Components as they stand in a path: only the first can be the leading slash, and no other one is
written with a slash. -/
structure Inner (components : List Component) : Prop where
  root : .root ∉ components.tail
  slash : ∀ component ∈ components, component ≠ .root → Path.slash ∉ component.render

lemma inner_of_append {root path : Path} {rest : List Component}
    (h : path.components = root.components ++ rest) : Inner rest := by
  have hmem : ∀ component ∈ rest, component ∈ path.components :=
    fun component hc => h ▸ List.mem_append_right _ hc
  refine ⟨?_,fun component hc => Path.slash_not_mem_render (hmem component hc)⟩
  intro hroot
  have htail : .root ∈ path.components.tail := by
    rw [h]
    cases root.components with
    | nil => exact hroot
    | cons first more => exact List.mem_append_right _ (List.mem_of_mem_tail hroot)
  rcases Path.up_or_name_of_mem_tail htail with hup | ⟨name,hname⟩
  · cases hup
  · cases hname

lemma Inner.of_start {components start : List Component} (h : Inner components)
    (hstart : start <+: components) : Inner start := by
  obtain ⟨rest,rfl⟩ := hstart
  refine ⟨?_,fun component hc => h.slash component (List.mem_append_left _ hc)⟩
  cases start with
  | nil => simp
  | cons first more => exact fun hmem => h.root (List.mem_append_left _ hmem)

/-- Components with a slash before each. -/
def trail (components : List Component) : List UInt8 :=
  components.flatMap fun component => Path.slash :: component.render

lemma trail_append (front back : List Component) : trail (front ++ back) = trail front ++ trail back :=
  List.flatMap_append

lemma joinBytes_cons (component : Component) (rest : List Component) :
    Path.joinBytes (component :: rest) = component.render ++ trail rest := by
  induction rest generalizing component with
  | nil => simp [Path.joinBytes,trail]
  | cons second rest ih =>
    have hjoin : Path.joinBytes (component :: second :: rest) =
        component.render ++ Path.slash :: Path.joinBytes (second :: rest) := by
      simp [Path.joinBytes]
    rw [hjoin,ih]
    rfl

lemma renderPath_cons {component : Component} (h : component ≠ .root) (rest : List Component) :
    renderPath (component :: rest) = component.render ++ trail rest := by
  rw [← joinBytes_cons]
  cases component with
  | root => exact absurd rfl h
  | _ => rfl

lemma renderPath_root {rest : List Component} (h : rest ≠ []) :
    renderPath (.root :: rest) = trail rest := by
  cases rest with
  | nil => exact absurd rfl h
  | cons second rest => simp [renderPath,joinBytes_cons,trail]

/-- A text of components with slashes before them is cut before one of the components. -/
lemma exists_cut_trail {components : List Component} {a b : List UInt8}
    (hslash : ∀ component ∈ components, Path.slash ∉ component.render)
    (h : trail components = a ++ Path.slash :: b) :
    ∃ front, front <+: components ∧ trail front = a := by
  induction components generalizing a with
  | nil => simp [trail] at h
  | cons component rest ih =>
    cases a with
    | nil => exact ⟨[],List.nil_prefix,rfl⟩
    | cons c a =>
      obtain ⟨hcomponent,hrest⟩ := List.forall_mem_cons.1 hslash
      obtain ⟨hc,htail⟩ : Path.slash = c ∧ component.render ++ trail rest = a ++ Path.slash :: b :=
        List.cons.inj h
      obtain ⟨back,rfl,hback⟩ := Text.exists_rest_of_not_mem hcomponent htail
      obtain ⟨front,hfront,rfl⟩ := ih hrest hback
      exact ⟨component :: front,List.cons_prefix_cons.2 ⟨rfl,hfront⟩,by rw [← hc]; rfl⟩

/-- What stands before a slash in the text of a path is the text of a start of the path, or nothing if
the path has a leading slash. -/
theorem exists_start_of_cut {components : List Component} (hinner : Inner components) {a b : List UInt8}
    (h : renderPath components = a ++ Path.slash :: b) :
    (a = [] ∧ components.head? = some .root) ∨
      ∃ start, start ≠ [] ∧ start <+: components ∧ renderPath start = a := by
  cases components with
  | nil => simp [renderPath,Path.joinBytes] at h
  | cons first rest =>
    have hslash : ∀ component ∈ rest, Path.slash ∉ component.render := by
      intro component hc
      refine hinner.slash component (List.mem_cons_of_mem first hc) ?_
      rintro rfl
      exact hinner.root hc
    by_cases hfirst : first = .root
    · subst hfirst
      by_cases ha : a = []
      · exact .inl ⟨ha,rfl⟩
      · right
        have hrest : rest ≠ [] := by
          rintro rfl
          cases a with
          | nil => exact ha rfl
          | cons c a => simp [renderPath,Path.joinBytes] at h
        rw [renderPath_root hrest] at h
        obtain ⟨front,hfront,rfl⟩ := exists_cut_trail hslash h
        have hne : front ≠ [] := by
          rintro rfl
          exact ha rfl
        exact ⟨.root :: front,by simp,List.cons_prefix_cons.2 ⟨rfl,hfront⟩,renderPath_root hne⟩
    · right
      rw [renderPath_cons hfirst] at h
      obtain ⟨back,rfl,hback⟩ := Text.exists_rest_of_not_mem
        (hinner.slash first List.mem_cons_self hfirst) h
      obtain ⟨front,hfront,rfl⟩ := exists_cut_trail hslash hback
      exact ⟨first :: front,by simp,List.cons_prefix_cons.2 ⟨rfl,hfront⟩,renderPath_cons hfirst _⟩

/-- What is below a path is written after the text of the path and a slash. -/
lemma exists_renderPath_append {front back : List Component} (hfront : front ≠ [])
    (hroot : front ≠ [.root]) (hback : back ≠ []) : ∃ rest,
    renderPath (front ++ back) = renderPath front ++ Path.slash :: rest := by
  obtain ⟨rest,hrest⟩ : ∃ rest, trail back = Path.slash :: rest := by
    cases back with
    | nil => exact absurd rfl hback
    | cons component back => exact ⟨_,rfl⟩
  refine ⟨rest,?_⟩
  cases front with
  | nil => exact absurd rfl hfront
  | cons first more =>
    by_cases hfirst : first = .root
    · subst hfirst
      have hmore : more ≠ [] := fun heq => hroot (heq ▸ rfl)
      rw [List.cons_append,renderPath_root (by simp [hmore]),renderPath_root hmore,
        trail_append,hrest]
    · rw [List.cons_append,renderPath_cons hfirst,renderPath_cons hfirst,trail_append,hrest,
        List.append_assoc]

/-- A name is the whole text, or what stands after its last slash. -/
def EndsIn (text name : List UInt8) : Prop := text = name ∨ ∃ before, text = before ++ Path.slash :: name

lemma eq_of_append_slash {a b x y : List UInt8} (hx : Path.slash ∉ x) (hy : Path.slash ∉ y)
    (h : a ++ Path.slash :: x = b ++ Path.slash :: y) : x = y := by
  rcases List.append_eq_append_iff.1 h with ⟨rest,-,hrest⟩ | ⟨rest,-,hrest⟩
  · cases rest with
    | nil => exact (List.cons.inj hrest).2
    | cons c rest =>
      obtain ⟨-,rfl⟩ := List.cons.inj hrest
      simp at hx
  · cases rest with
    | nil => exact (List.cons.inj hrest).2.symm
    | cons c rest =>
      obtain ⟨-,rfl⟩ := List.cons.inj hrest
      simp at hy

lemma EndsIn.unique {text x y : List UInt8} (h : EndsIn text x) (hother : EndsIn text y)
    (hx : Path.slash ∉ x) (hy : Path.slash ∉ y) : x = y := by
  rcases h with rfl | ⟨a,rfl⟩
  · rcases hother with rfl | ⟨b,rfl⟩
    · rfl
    · simp at hx
  · rcases hother with rfl | ⟨b,hb⟩
    · simp at hy
    · exact eq_of_append_slash hx hy hb

/-- The last component is written at the end. -/
lemma endsIn_renderPath {component : Component} (h : component ≠ .root) (front : List Component) :
    EndsIn (renderPath (front ++ [component])) component.render := by
  have htrail : trail [component] = Path.slash :: component.render := by simp [trail]
  cases front with
  | nil => exact .inl (by simp [renderPath_cons h,trail])
  | cons first more =>
    right
    by_cases hfirst : first = .root
    · subst hfirst
      refine ⟨trail more,?_⟩
      rw [List.cons_append,renderPath_root (by simp),trail_append,htrail]
    · refine ⟨first.render ++ trail more,?_⟩
      rw [List.cons_append,renderPath_cons hfirst,trail_append,htrail,List.append_assoc]

/-- Components end in a name if and only if their text does. -/
theorem endsIn_renderPath_iff {components : List Component} (hinner : Inner components)
    {name : List UInt8} (hne : name ≠ []) (hslash : Path.slash ∉ name)
    (hdots : name ≠ [Path.dot] ∧ name ≠ [Path.dot,Path.dot]) :
    EndsIn (renderPath components) name ↔
      components.getLast? = some (.name name) := by
  rcases List.eq_nil_or_concat components with rfl | ⟨front,last,rfl⟩
  · have htext : renderPath [] = [] := rfl
    simp [EndsIn,htext,hne.symm]
  · rw [List.concat_eq_append] at hinner ⊢
    rw [List.getLast?_concat,Option.some.injEq]
    by_cases hroot : last = .root
    · -- The leading slash stands alone, with an empty name after it.
      subst hroot
      have hfront : front = [] := by
        cases front with
        | nil => rfl
        | cons first more => exact absurd (List.mem_append_right more List.mem_cons_self) hinner.root
      subst hfront
      simp only [List.nil_append,reduceCtorEq,iff_false]
      intro hends
      exact hne (hends.unique (.inr ⟨[],rfl⟩) hslash (by simp))
    · have hlast := endsIn_renderPath hroot front
      constructor
      · intro hends
        have hrender := hlast.unique hends
          (hinner.slash last (List.mem_append_right front List.mem_cons_self) hroot) hslash
        cases last with
        | root => exact absurd rfl hroot
        | here => exact absurd hrender.symm hdots.1
        | up => exact absurd hrender.symm hdots.2
        | name bytes => exact congrArg Component.name hrender
      · rintro rfl
        simpa [Component.render] using hlast

end NoteIndex.Ignore
