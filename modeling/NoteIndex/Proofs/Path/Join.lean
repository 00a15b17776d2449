import Mathlib.Tactic.Common
import NoteIndex.Disk

/-! Components of joined paths: a name added to a path adds one component at its end, however the
path is written. -/
namespace NoteIndex

namespace Entry

lemma isName_iff {name : List UInt8} :
    isName name = true ↔ name ≠ [] ∧ name ≠ [Path.dot] ∧ name ≠ [Path.dot,Path.dot] ∧
      Path.slash ∉ name ∧ 0 ∉ name ∧ name.length ≤ nameLimit := by
  simp [isName,and_assoc]

end Entry

namespace Component

open NoteIndex.Path

lemma ofField?_eq_name {field : List UInt8} (hnil : field ≠ []) (hdot : field ≠ [dot])
    (hdots : field ≠ [dot,dot]) : ofField? field = some (.name field) := by
  rw [ofField?,if_neg (by simp [hnil,hdot]),if_neg hdots]

lemma ofField?_of_isName {name : List UInt8} (h : Entry.isName name = true) :
    ofField? name = some (.name name) := by
  obtain ⟨hnil,hdot,hdots,-⟩ := Entry.isName_iff.1 h
  exact ofField?_eq_name hnil hdot hdots

/-- Whether a field stands alone matters for the empty field only. -/
lemma ofFirstField?_eq {field : List UInt8} (h : field ≠ []) (a b : Bool) :
    ofFirstField? field a = ofFirstField? field b := by
  rw [ofFirstField?,if_neg h,ofFirstField?,if_neg h]

lemma ofFirstField?_eq_ofField? {field : List UInt8} (hnil : field ≠ []) (hdot : field ≠ [dot])
    (isOnly : Bool) : ofFirstField? field isOnly = ofField? field := by
  rw [ofFirstField?,if_neg hnil,if_neg hdot]

end Component

namespace Path

open Text

/-- What comes after a slash adds its own components. -/
lemma parse_append_slash (xs ys : List UInt8) :
    parse (xs ++ slash :: ys) = parse (xs ++ [slash]) ++ (fields (· == slash) ys).filterMap
      Component.ofField? := by
  have hys : fields (· == slash) ys ≠ [] := fields_ne_nil _ _
  unfold parse
  rw [fields_append_separator (by rfl),fields_append_separator (by rfl)]
  cases hxs : fields (· == slash) xs with
  | nil => exact absurd hxs (fields_ne_nil _ _)
  | cons first rest =>
    have hempty : (rest ++ fields (· == slash) ys).isEmpty = false := by simp [hys]
    have hslash : (rest ++ [[]]).isEmpty = false := by simp
    simp [hempty,hslash,fields,Component.ofField?]

lemma fields_ne_singleton_nil {xs : List UInt8} (h : xs ≠ []) : fields (· == slash) xs ≠ [[]] := by
  cases xs with
  | nil => exact absurd rfl h
  | cons x xs =>
    intro hxs
    rw [fields] at hxs
    split at hxs
    · exact fields_ne_nil _ _ (List.cons.inj hxs).2
    · split at hxs <;> simp at hxs

/-- A slash at the end of a path leaves no trace. -/
lemma parse_append_singleton_slash {xs : List UInt8} (h : xs ≠ []) :
    parse (xs ++ [slash]) = parse xs := by
  unfold parse
  rw [fields_append_separator (by rfl)]
  cases hxs : fields (· == slash) xs with
  | nil => exact absurd hxs (fields_ne_nil _ _)
  | cons first rest =>
    cases rest with
    | nil =>
      have hfirst : first ≠ [] := by
        rintro rfl
        exact fields_ne_singleton_nil h hxs
      simp [fields,Component.ofField?,Component.ofFirstField?_eq hfirst true false]
    | cons second rest => simp [fields,List.filterMap_cons,Component.ofField?]

lemma fields_of_isName {name : List UInt8} (h : Entry.isName name = true) :
    fields (· == slash) name = [name] := by
  obtain ⟨-,-,-,hslash,-⟩ := Entry.isName_iff.1 h
  apply fields_eq_singleton
  intro c hc
  have hne : c ≠ slash := fun heq => hslash (heq ▸ hc)
  simpa using hne

lemma head?_of_isName {name : List UInt8} (h : Entry.isName name = true) :
    name.head? ≠ some slash := by
  obtain ⟨-,-,-,hslash,-⟩ := Entry.isName_iff.1 h
  exact fun heq => hslash (List.mem_of_head? heq)

/-- The bytes of a path followed by a relative one, in the three ways in which the path may end. -/
lemma join_bytes_cases (root : Path) {next : Path} (h : next.bytes.head? ≠ some slash) :
    (root.bytes = [] ∧ (root.join next).bytes = next.bytes) ∨
    (∃ front, root.bytes = front ++ [slash] ∧
      (root.join next).bytes = front ++ slash :: next.bytes) ∨
    (root.bytes ≠ [] ∧ (root.join next).bytes = root.bytes ++ slash :: next.bytes) := by
  have hhead : (next.bytes.head? == some slash) = false := by simpa using h
  unfold join
  rw [if_neg (by simp [hhead])]
  by_cases hnil : root.bytes = []
  · left
    simp [hnil]
  · by_cases hlast : root.bytes.getLast? = some slash
    · right; left
      obtain ⟨front,hfront⟩ := List.getLast?_eq_some_iff.1 hlast
      refine ⟨front,hfront,?_⟩
      simp [hfront]
    · right; right
      simp [hnil,hlast]

lemma join_bytes_ne_nil (root : Path) {name : List UInt8} (h : Entry.isName name = true) :
    (root.join ⟨name⟩).bytes ≠ [] := by
  rcases join_bytes_cases root (head?_of_isName h) with ⟨-,hjoin⟩ | ⟨front,-,hjoin⟩ | ⟨-,hjoin⟩
  · rw [hjoin]
    exact (Entry.isName_iff.1 h).1
  · simp [hjoin]
  · simp [hjoin]

/-- A path that starts neither with a slash nor with a dot adds its own components. -/
lemma components_join_append (root next : Path) (h : next.bytes.head? ≠ some slash)
    (hparse : parse next.bytes = (fields (· == slash) next.bytes).filterMap Component.ofField?) :
    (root.join next).components = root.components ++ parse next.bytes := by
  unfold components
  rcases join_bytes_cases root h with ⟨hroot,hjoin⟩ | ⟨front,hroot,hjoin⟩ | ⟨hroot,hjoin⟩
  · rw [hroot,hjoin]
    rfl
  · rw [hroot,hjoin,parse_append_slash,hparse]
  · rw [hjoin,parse_append_slash,parse_append_singleton_slash hroot,hparse]

theorem components_join (root : Path) {name : List UInt8} (h : Entry.isName name = true) :
    (root.join ⟨name⟩).components = root.components ++ [.name name] := by
  obtain ⟨hnil,hdot,-⟩ := Entry.isName_iff.1 h
  have hfield := Component.ofField?_of_isName h
  have hfields := fields_of_isName h
  have hparse : parse name = [.name name] := by
    simp [parse,hfields,Component.ofFirstField?_eq_ofField? hnil hdot,hfield]
  rw [components_join_append root ⟨name⟩ (head?_of_isName h) (by simp [hparse,hfields,hfield]),hparse]

/-- The path to which names lead from a given one. -/
def descend (path : Path) (names : List (List UInt8)) : Path :=
  names.foldl (fun path name => path.join ⟨name⟩) path

@[simp] lemma descend_nil (path : Path) : path.descend [] = path := rfl

@[simp] lemma descend_cons (path : Path) (name : List UInt8) (names : List (List UInt8)) :
    path.descend (name :: names) = (path.join ⟨name⟩).descend names := rfl

/-- Names added one after the other. -/
theorem components_descend (root : Path) {names : List (List UInt8)}
    (h : ∀ name ∈ names, Entry.isName name = true) :
    (root.descend names).components = root.components ++ names.map .name := by
  induction names generalizing root with
  | nil => simp
  | cons name names ih =>
    have hname := h name List.mem_cons_self
    rw [descend_cons,ih _ fun n hn => h n (List.mem_cons_of_mem name hn),components_join root hname,
      List.append_assoc]
    rfl

theorem startsWith_iff (path root : Path) :
    path.startsWith root = true ↔ root.components <+: path.components := by
  unfold startsWith below?
  rw [Option.isSome_iff_exists]
  constructor
  · rintro ⟨rest,h⟩
    exact ⟨rest,((dropStart?_eq_some_iff _ _ _).1 h).symm⟩
  · rintro ⟨rest,h⟩
    exact ⟨rest,(dropStart?_eq_some_iff _ _ _).2 h.symm⟩

end Path

end NoteIndex
