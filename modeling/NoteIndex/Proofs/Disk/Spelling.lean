import Mathlib.Data.Set.List
import NoteIndex.Proofs.Disk.Walk

/-! Spellings: paths with the same components lead to the same place, if they lead anywhere, through the
same links. If one of them leads to something, no other is said to lead nowhere. -/
namespace NoteIndex

open Text

namespace Component

/-- Whether a component leads from one place to another. -/
def isStep : Component → Bool
  | up => true
  | name _ => true
  | _ => false

lemma up_or_name_of_ofField? {field : List UInt8} {component : Component}
    (h : ofField? field = some component) : component = .up ∨ ∃ bytes, component = .name bytes := by
  unfold ofField? at h
  split_ifs at h
  · cases h
    exact .inl rfl
  · cases h
    exact .inr ⟨_,rfl⟩

lemma isStep_of_ofField? {field : List UInt8} {component : Component}
    (h : ofField? field = some component) : component.isStep = true := by
  rcases up_or_name_of_ofField? h with rfl | ⟨text,rfl⟩ <;> rfl

lemma render_of_ofField? {field : List UInt8} {component : Component}
    (h : ofField? field = some component) : component.render = field := by
  unfold ofField? at h
  split_ifs at h with hnone hdots
  · cases h
    exact hdots.symm
  · cases h
    rfl

/-- The steps that fields between slashes stand for. -/
def steps (fields : List (List UInt8)) : List Component := fields.filterMap ofField?

lemma steps_cons (field : List UInt8) (rest : List (List UInt8)) :
    steps (field :: rest) = (ofField? field).toList ++ steps rest := by
  unfold steps
  rw [List.filterMap_cons]
  cases ofField? field <;> rfl

end Component

namespace Path

lemma components_ne_nil {path : Path} (h : path.bytes ≠ []) : path.components ≠ [] := by
  unfold components parse
  cases hfields : fields (· == Path.slash) path.bytes with
  | nil => exact absurd hfields (fields_ne_nil _ _)
  | cons first rest =>
    -- Only a text without slashes can start with an empty field that is no root.
    have hfirst : Component.ofFirstField? first rest.isEmpty ≠ none := by
      unfold Component.ofFirstField? Component.ofField?
      split_ifs with hnil hempty
      · cases rest with
        | nil => exact absurd (hnil ▸ hfields) (fields_ne_singleton_nil h)
        | cons next rest => simp at hempty
      all_goals simp_all
    simp [hfirst]

/-- After the first component there are names and two dots only. -/
lemma up_or_name_of_mem_tail {path : Path} {component : Component}
    (h : component ∈ path.components.tail) :
    component = .up ∨ ∃ name, component = .name name := by
  have hfield : ∃ field, Component.ofField? field = some component := by
    unfold components parse at h
    split at h
    · simp at h
    · rename_i first rest _
      have hrest : component ∈ rest.filterMap Component.ofField? := by
        cases hfirst : Component.ofFirstField? first rest.isEmpty with
        | none => exact List.mem_of_mem_tail (by simpa [hfirst] using h)
        | some head => simpa [hfirst] using h
      obtain ⟨field,-,hfield⟩ := List.mem_filterMap.1 hrest
      exact ⟨field,hfield⟩
  obtain ⟨field,hfield⟩ := hfield
  exact Component.up_or_name_of_ofField? hfield

/-- How a path starts leads nowhere: what it does after that are the steps of its fields. -/
lemma steps_fields (path : Path) :
    Component.steps (fields (· == Path.slash) path.bytes) =
      path.components.filter Component.isStep := by
  unfold components parse
  cases fields (· == Path.slash) path.bytes with
  | nil => rfl
  | cons first rest =>
    have hfirst : (Component.ofFirstField? first rest.isEmpty).toList.filter Component.isStep =
        (Component.ofField? first).toList := by
      unfold Component.ofFirstField?
      split_ifs with hnil hempty hdot
      · subst hnil
        rfl
      · subst hnil
        rfl
      · subst hdot
        rfl
      · cases hfield : Component.ofField? first with
        | none => rfl
        | some component => simp [Component.isStep_of_ofField? hfield]
    have hrest : (rest.filterMap Component.ofField?).filter Component.isStep =
        rest.filterMap Component.ofField? := by
      rw [List.filter_eq_self]
      intro component hmem
      obtain ⟨field,-,hfield⟩ := List.mem_filterMap.1 hmem
      exact Component.isStep_of_ofField? hfield
    rw [Component.steps_cons,List.filter_append,hfirst,hrest,Component.steps]

/-- A name in a path is written as it is. -/
lemma ofField?_of_mem (path : Path) {name : List UInt8} (h : .name name ∈ path.components) :
    Component.ofField? name = some (.name name) := by
  have hsteps : .name name ∈ path.components.filter Component.isStep :=
    List.mem_filter.2 ⟨h,rfl⟩
  rw [← path.steps_fields] at hsteps
  obtain ⟨field,-,hfield⟩ := List.mem_filterMap.1 hsteps
  have hrender : name = field := Component.render_of_ofField? hfield
  rwa [← hrender] at hfield

lemma exists_names {components : List Component}
    (h : ∀ component ∈ components, ∃ name, component = .name name) :
    ∃ names : List (List UInt8), components = names.map .name := by
  have hnames : components ∈ Set.range (List.map Component.name) := by
    rw [Set.range_list_map]
    intro component hmem
    obtain ⟨name,rfl⟩ := h component hmem
    exact ⟨name,rfl⟩
  obtain ⟨names,rfl⟩ := hnames
  exact ⟨names,rfl⟩

/-- What a path without two dots has below its start are names. -/
lemma exists_names_below {root path : Path} (hroot : root.bytes ≠ [])
    (hbelow : root.components <+: path.components) (hup : .up ∉ path.components) :
    ∃ names : List (List UInt8), path.components = root.components ++ names.map .name := by
  obtain ⟨rest,hrest⟩ := hbelow
  obtain ⟨names,rfl⟩ : ∃ names : List (List UInt8), rest = names.map .name := by
    apply exists_names
    intro component hmem
    have htail : component ∈ path.components.tail := by
      rw [← hrest,List.tail_append_of_ne_nil (components_ne_nil hroot)]
      exact List.mem_append_right _ hmem
    rcases up_or_name_of_mem_tail htail with rfl | hname
    · exact absurd (List.mem_of_mem_tail htail) hup
    · exact hname
  exact ⟨names,hrest.symm⟩

end Path

namespace Disk

/-- Fields of which some that stand for nothing have been left out. -/
inductive Skips : List (List UInt8) → List (List UInt8) → Prop
  | nil : Skips [] []
  | skip {field : List UInt8} {fields kept : List (List UInt8)} :
      Component.ofField? field = none → Skips fields kept → Skips (field :: fields) kept
  | keep {field : List UInt8} {fields kept : List (List UInt8)} :
      Skips fields kept → Skips (field :: fields) (field :: kept)

lemma Skips.append {fields kept : List (List UInt8)} (front : List (List UInt8))
    (h : Skips fields kept) : Skips (front ++ fields) (front ++ kept) := by
  induction front with
  | nil => exact h
  | cons field front ih => exact .keep ih

/-- The steps of a path as they are written, which leaves out everything else. -/
lemma skips_steps (fields : List (List UInt8)) :
    Skips fields ((Component.steps fields).map Component.render) := by
  induction fields with
  | nil => exact .nil
  | cons field fields ih =>
    rw [Component.steps_cons]
    cases hfield : Component.ofField? field with
    | none => exact .skip hfield ih
    | some component =>
      rw [Option.toList_some,List.singleton_append,List.map_cons,Component.render_of_ofField? hfield]
      exact .keep ih

section Skips

variable {disk : Disk} {links : Nat} {place fields kept : List (List UInt8)}
  {reached : Nat × List (List UInt8)}

lemma eq_on_of_skipped {field : List UInt8} {turn : Turn} (hfield : Component.ofField? field = none)
    (hturn : disk.turn place field = .ok turn) : turn = .on place := by
  rw [turn_of_isDirectory (isDirectory_of_turn hturn),hfield] at hturn
  exact (Except.ok.inj hturn).symm

/-- A walk that arrives does so without the fields that stand for nothing. -/
lemma Skips.walk_eq_ok (h : Skips fields kept) (hwalk : disk.walk links place fields = .ok reached) :
    disk.walk links place kept = .ok reached := by
  induction links, place, fields using walk_induction disk generalizing kept with
  | done links place =>
    cases h
    exact hwalk
  | error links place field rest fault hturn =>
    rw [walk_of_error hturn] at hwalk
    cases hwalk
  | on links place field rest next hturn ih =>
    rw [walk_of_on hturn] at hwalk
    cases h with
    | skip hfield h =>
      cases eq_on_of_skipped hfield hturn
      exact ih h hwalk
    | keep h =>
      rw [walk_of_on hturn]
      exact ih h hwalk
  | stop place field rest start fields hturn =>
    rw [walk_of_last_link hturn] at hwalk
    cases hwalk
  | along links place field rest start fields hturn ih =>
    rw [walk_of_link hturn] at hwalk
    cases h with
    | skip hfield h => cases eq_on_of_skipped hfield hturn
    | keep h =>
      rw [walk_of_link hturn]
      exact ih (h.append fields) hwalk

/-- A walk that arrives at something has started from something. -/
lemma at?_of_walk (hwalk : disk.walk links place fields = .ok reached)
    (hat : disk.at? reached.2 ≠ none) : disk.at? place ≠ none := by
  cases fields with
  | nil =>
    rw [walk_nil] at hwalk
    cases hwalk
    exact hat
  | cons field rest =>
    obtain ⟨listable,hdirectory⟩ := isDirectory_of_walk hwalk
    simp [hdirectory]

lemma turn_ne_notFound (h : disk.at? place ≠ none) (field : List UInt8) :
    disk.turn place field ≠ .error .notFound := by
  unfold turn
  split
  · exact absurd ‹_› h
  · split
    · split
      · unfold enter
        split
        · simp
        · split <;> simp
      · simp
      · simp
    · simp

/-- Fields that stand for nothing may stop a walk, but not for want of an entry. -/
lemma Skips.walk_or_fault (h : Skips fields kept) (hwalk : disk.walk links place kept = .ok reached)
    (hat : disk.at? reached.2 ≠ none) : disk.walk links place fields = .ok reached ∨
      ∃ fault, fault ≠ .notFound ∧ disk.walk links place fields = .error fault := by
  induction links, place, fields using walk_induction disk generalizing kept with
  | done links place =>
    cases h
    exact .inl hwalk
  | error links place field rest fault hturn =>
    refine .inr ⟨fault,?_,walk_of_error hturn⟩
    rintro rfl
    exact turn_ne_notFound (at?_of_walk hwalk hat) field hturn
  | on links place field rest next hturn ih =>
    rw [walk_of_on hturn]
    cases h with
    | skip hfield h =>
      cases eq_on_of_skipped hfield hturn
      exact ih h hwalk
    | keep h =>
      rw [walk_of_on hturn] at hwalk
      exact ih h hwalk
  | stop place field rest start fields hturn =>
    exact .inr ⟨_,by simp,walk_of_last_link hturn⟩
  | along links place field rest start fields hturn ih =>
    rw [walk_of_link hturn]
    cases h with
    | skip hfield h => cases eq_on_of_skipped hfield hturn
    | keep h =>
      rw [walk_of_link hturn] at hwalk
      exact ih (h.append fields) hwalk

end Skips

variable {disk : Disk} {p q : Path}

/-- The steps of a path as they are written. -/
def stepsOf (path : Path) : List (List UInt8) :=
  (path.components.filter Component.isStep).map Component.render

lemma skips_stepsOf (path : Path) : Skips (fields (· == Path.slash) path.bytes) (stepsOf path) := by
  rw [stepsOf,← path.steps_fields]
  exact skips_steps _

lemma walk_stepsOf_of_locate {path : Path} {place : List (List UInt8)}
    (h : disk.locate path = .ok place) :
    ∃ left, disk.walk linkLimit [] (stepsOf path) = .ok (left,place) := by
  obtain ⟨-,-,left,hwalk⟩ := (locate_eq_ok_iff _ _ _).1 h
  exact ⟨left,(skips_stepsOf path).walk_eq_ok hwalk⟩

/-- Two spellings of a path lead to the same entry, if they lead to one. -/
theorem find_unique {entry other : Entry} (h : p.components = q.components)
    (hp : disk.find p = .ok entry) (hq : disk.find q = .ok other) : entry = other := by
  obtain ⟨place,hplace,hat⟩ := (find_eq_ok_iff _ _ _).1 hp
  obtain ⟨place',hplace',hat'⟩ := (find_eq_ok_iff _ _ _).1 hq
  obtain ⟨left,hwalk⟩ := walk_stepsOf_of_locate hplace
  obtain ⟨left',hwalk'⟩ := walk_stepsOf_of_locate hplace'
  rw [stepsOf,h,← stepsOf,hwalk'] at hwalk
  cases hwalk
  exact Option.some.inj (hat.symm.trans hat')

lemma locate_or_fault {place : List (List UInt8)} (h : p.components = q.components)
    (hp : disk.locate p = .ok place) (hat : disk.at? place ≠ none) :
    disk.locate q = .ok place ∨ ∃ fault, fault ≠ .notFound ∧ disk.locate q = .error fault := by
  obtain ⟨left,hwalk⟩ := walk_stepsOf_of_locate hp
  rw [stepsOf,h,← stepsOf] at hwalk
  have hnil : q.bytes ≠ [] := by
    intro hnil
    refine Path.components_ne_nil ((locate_eq_ok_iff _ _ _).1 hp).2.1 ?_
    rw [h,Path.components,hnil]
    rfl
  by_cases hzero : 0 ∈ q.bytes
  · exact .inr ⟨.nulInName,by simp,by simp [locate,hzero]⟩
  · rcases (skips_stepsOf q).walk_or_fault hwalk hat with hok | ⟨fault,hfault,herror⟩
    · exact .inl ((locate_eq_ok_iff _ _ _).2 ⟨hzero,hnil,left,hok⟩)
    · refine .inr ⟨fault,hfault,?_⟩
      simp [locate,hzero,hnil,herror,bind,Except.bind]

/-- If one spelling of a path leads to something, no other is said to lead nowhere. -/
theorem find_ne_notFound_of_components {entry : Entry} (h : p.components = q.components)
    (hp : disk.find p = .ok entry) : disk.find q ≠ .error .notFound := by
  obtain ⟨place,hplace,hat⟩ := (find_eq_ok_iff _ _ _).1 hp
  intro hq
  rcases locate_or_fault h hplace (by simp [hat]) with hok | ⟨fault,hfault,herror⟩
  · cases hq.symm.trans ((find_eq_ok_iff _ _ _).2 ⟨place,hok,hat⟩)
  · rw [find,herror] at hq
    cases hq
    exact hfault rfl

section Below

variable {root path : Path} {place names : List (List UInt8)}

/-- Names lead on from a place, if there is no link on the way. -/
lemma eq_of_walk_names {links : Nat} {reached : Nat × List (List UInt8)}
    (hnames : ∀ name ∈ names, Component.ofField? name = some (.name name))
    (hlinks : ∀ start ∈ starts names, disk.Linkless (place ++ start))
    (h : disk.walk links place names = .ok reached) : reached.2 = place ++ names := by
  induction names generalizing place with
  | nil =>
    rw [walk_nil] at h
    cases h
    exact (List.append_nil place).symm
  | cons name names ih =>
    obtain ⟨hlink,hrest⟩ : disk.Linkless (place ++ [name]) ∧
        ∀ start ∈ starts names, disk.Linkless ((place ++ [name]) ++ start) := by
      simpa [starts] using hlinks
    have hturn := turn_of_isDirectory (isDirectory_of_walk h) name
    rw [hnames name List.mem_cons_self] at hturn
    dsimp only at hturn
    by_cases hlimit : name.length ≤ Entry.nameLimit
    · rw [enter_of_linkless hlink hlimit] at hturn
      rw [walk_of_on hturn] at h
      rw [ih (fun n hn => hnames n (List.mem_cons_of_mem name hn)) hrest h,List.append_assoc]
      rfl
    · rw [enter,if_pos (by omega)] at hturn
      rw [walk_of_error hturn] at h
      cases h

lemma stepsOf_below (h : path.components = root.components ++ names.map .name) :
    stepsOf path = stepsOf root ++ names := by
  have hsteps : (names.map Component.name).filter Component.isStep = names.map .name := by
    rw [List.filter_eq_self]
    intro component hmem
    obtain ⟨name,-,rfl⟩ := List.mem_map.1 hmem
    rfl
  have hrender : (names.map Component.name).map Component.render = names := by
    rw [List.map_map]
    exact List.map_id names
  rw [stepsOf,h,List.filter_append,List.map_append,hsteps,hrender,stepsOf]

/-- What a path leads to stands below its root by its names, if there is no link on the way. -/
theorem at?_of_find_below (h : path.components = root.components ++ names.map .name)
    (hroot : disk.locate root = .ok place)
    (hlinks : ∀ start ∈ starts names, disk.Linkless (place ++ start)) {entry : Entry}
    (hfind : disk.find path = .ok entry) : disk.at? (place ++ names) = some entry := by
  obtain ⟨found,hfound,hat⟩ := (find_eq_ok_iff _ _ _).1 hfind
  obtain ⟨left,hwalkRoot⟩ := walk_stepsOf_of_locate hroot
  obtain ⟨left',hwalk⟩ := walk_stepsOf_of_locate hfound
  rw [stepsOf_below h,walk_append,hwalkRoot] at hwalk
  have hnames : ∀ name ∈ names, Component.ofField? name = some (.name name) := by
    intro name hname
    apply path.ofField?_of_mem
    rw [h]
    exact List.mem_append_right _ (List.mem_map_of_mem hname)
  rw [← eq_of_walk_names hnames hlinks hwalk]
  exact hat

end Below

end Disk

end NoteIndex
