import NoteIndex.Log
import NoteIndex.Proofs.Path.Join

/-! The walk over the files below a root: it finds a file exactly if everything on the way to it is
admitted, and its paths lead back to the files. -/
namespace NoteIndex

open Text

/-- Neither a link nor a directory that may not be listed. -/
def Entry.isPlain : Entry → Bool
  | directory listable => listable
  | file _ => true
  | link _ => false

namespace Disk

variable {disk : Disk} {place names : List (List UInt8)}

lemma entry?_nil (disk : Disk) : disk.entry? [] = some (.directory true) := rfl

lemma any_isDirectory_iff {found : Option Entry} :
    found.any Entry.isDirectory = true ↔ ∃ listable, found = some (.directory listable) := by
  cases found with
  | none => simp
  | some entry => cases entry <;> simp [Entry.isDirectory]

/-- A directory stands at a place. -/
def IsDirectory (disk : Disk) (place : List (List UInt8)) : Prop :=
  ∃ listable, disk.at? place = some (.directory listable)

lemma reaches_iff (disk : Disk) (place : List (List UInt8)) :
    disk.reaches place = true ↔ ∀ start, start ≠ [] ∧ start <+: place.dropLast →
      ∃ listable, disk.entry? start = some (.directory listable) := by
  simp only [reaches,List.all_eq_true,any_isDirectory_iff,mem_starts_iff]

/-- There is a way to what stands in a place if and only if the place is a directory. -/
lemma reaches_append_singleton (disk : Disk) (place : List (List UInt8)) (name : List UInt8) :
    disk.reaches (place ++ [name]) = true ↔ disk.IsDirectory place := by
  rw [reaches_iff,List.dropLast_concat]
  unfold IsDirectory at?
  rcases List.eq_nil_or_concat place with rfl | ⟨front,last,rfl⟩
  · simp [reaches,starts,entry?_nil]
  · rw [List.concat_eq_append]
    constructor
    · intro h
      have hway : disk.reaches (front ++ [last]) = true := by
        rw [reaches_iff,List.dropLast_concat]
        exact fun start hs => h start ⟨hs.1,hs.2.trans (List.prefix_append front [last])⟩
      rw [if_pos hway]
      exact h (front ++ [last]) ⟨by simp,List.prefix_rfl⟩
    · rintro ⟨listable,h⟩ start hs
      split at h
      · rename_i hway
        rw [reaches_iff,List.dropLast_concat] at hway
        rcases List.prefix_concat_iff.1 hs.2 with rfl | hp
        · exact ⟨listable,h⟩
        · exact hway start ⟨hs.1,hp⟩
      · cases h

lemma isDirectory_of_at?_singleton {name : List UInt8} {entry : Entry}
    (h : disk.at? (place ++ [name]) = some entry) : disk.IsDirectory place := by
  unfold at? at h
  split at h
  · rename_i hway
    exact (reaches_append_singleton disk place name).1 hway
  · cases h

/-- Only a directory has something below it. -/
lemma isDirectory_of_at? {name : List UInt8} {entry : Entry}
    (h : disk.at? (place ++ name :: names) = some entry) : disk.IsDirectory place := by
  induction names generalizing place name with
  | nil => exact isDirectory_of_at?_singleton h
  | cons next names ih =>
    have hentry : disk.at? ((place ++ [name]) ++ next :: names) = some entry := by simpa using h
    obtain ⟨listable,hnext⟩ := ih hentry
    exact isDirectory_of_at?_singleton hnext

lemma mem_entries_of_at? {disk : Disk} {place : List (List UInt8)} {entry : Entry}
    (h : disk.at? place = some entry) (hplace : place ≠ []) : place ∈ disk.entries := by
  unfold at? entry? at h
  split at h
  · rw [if_neg (by simpa using hplace)] at h
    rw [Std.ExtTreeMap.mem_iff_isSome_getElem?,h]
    rfl
  · cases h

lemma isName_of_at? {disk : Disk} {place : List (List UInt8)} {entry : Entry}
    (h : disk.at? place = some entry) : ∀ name ∈ place, Entry.isName name = true := by
  intro name hname
  exact disk.isName_of_mem place (mem_entries_of_at? h (List.ne_nil_of_mem hname)) name hname

lemma mem_namesIn_of_at? {disk : Disk} {place names : List (List UInt8)} {name : List UInt8}
    {entry : Entry} (h : disk.at? (place ++ name :: names) = some entry) : name ∈ disk.namesIn place := by
  apply (mem_namesIn_iff disk place name).2
  cases names with
  | nil => exact mem_entries_of_at? h (by simp)
  | cons next names =>
    have hnext : disk.at? ((place ++ [name]) ++ next :: names) = some entry := by simpa using h
    obtain ⟨listable,hdirectory⟩ := isDirectory_of_at? hnext
    exact mem_entries_of_at? hdirectory (by simp)

/-- Every directory above what some names lead to can be listed. -/
def Lists (disk : Disk) (place : List (List UInt8)) : List (List UInt8) → Prop
  | [] => True
  | name :: names => disk.at? place = some (.directory true) ∧ disk.Lists (place ++ [name]) names

/-- The walk finds what can be reached through admitted entries and listed directories only. -/
theorem mem_entriesFrom_iff (disk : Disk) (admits : Path → Bool) (place : List (List UInt8))
    (root path : Path) (entry : Entry) :
    (path,entry) ∈ disk.entriesFrom admits place root ↔ ∃ names,
      disk.Lists place names ∧ disk.at? (place ++ names) = some entry ∧ path = root.descend names ∧
      ∀ start ∈ starts names, admits (root.descend start) = true := by
  fun_induction entriesFrom disk admits place root with
  | case1 place root hnone =>
    refine ⟨by simp,?_⟩
    rintro ⟨names,-,hat,-⟩
    cases names with
    | nil => simp [hnone] at hat
    | cons name names =>
      obtain ⟨listable,hdirectory⟩ := isDirectory_of_at? hat
      simp [hnone] at hdirectory
  | case2 place root hdirectory ih =>
    simp only [List.mem_cons,Prod.mk.injEq,List.mem_flatMap]
    constructor
    · rintro (⟨rfl,rfl⟩ | ⟨⟨name,hname⟩,-,h⟩)
      · exact ⟨[],trivial,by simpa using hdirectory,rfl,by simp [starts]⟩
      · dsimp only at h
        split at h
        · rename_i hadmits
          obtain ⟨names,hlists,hat,hpath,hway⟩ := (ih name hname).1 h
          refine ⟨name :: names,⟨hdirectory,hlists⟩,by simpa using hat,hpath,?_⟩
          simpa [starts] using ⟨hadmits,hway⟩
        · cases h
    · rintro ⟨names,hlists,hat,hpath,hway⟩
      cases names with
      | nil =>
        rw [List.append_nil,hdirectory] at hat
        exact .inl ⟨hpath,(Option.some.inj hat).symm⟩
      | cons name names =>
        have hname := mem_namesIn_of_at? hat
        obtain ⟨hadmits,hrest⟩ : admits (root.join ⟨name⟩) = true ∧ ∀ start ∈ starts names,
            admits ((root.join ⟨name⟩).descend start) = true := by simpa [starts] using hway
        refine .inr ⟨⟨name,hname⟩,List.mem_attach _ _,?_⟩
        dsimp only
        rw [if_pos hadmits]
        exact (ih name hname).2 ⟨names,hlists.2,by simpa using hat,hpath,hrest⟩
  | case3 place root found hopen hfound =>
    rw [List.mem_singleton,Prod.mk.injEq]
    constructor
    · rintro ⟨rfl,rfl⟩
      exact ⟨[],trivial,by simpa using hfound,rfl,by simp [starts]⟩
    · rintro ⟨names,hlists,hat,rfl,-⟩
      cases names with
      | nil =>
        rw [List.append_nil,hfound] at hat
        exact ⟨rfl,(Option.some.inj hat).symm⟩
      | cons name names => exact absurd (Option.some.inj (hfound.symm.trans hlists.1)) hopen

section Walk

variable {links : Nat} {field : List UInt8} {rest : List (List UInt8)}

lemma walk_nil (disk : Disk) (links : Nat) (place : List (List UInt8)) :
    disk.walk links place [] = .ok (links,place) := by
  cases links <;> rfl

lemma walk_of_error {fault : ReadFault} (h : disk.turn place field = .error fault) :
    disk.walk links place (field :: rest) = .error fault := by
  cases links <;> simp only [walk,walkWith,h] <;> rfl

lemma walk_of_on {next : List (List UInt8)} (h : disk.turn place field = .ok (.on next)) :
    disk.walk links place (field :: rest) = disk.walk links next rest := by
  cases links <;> simp only [walk,walkWith,h] <;> rfl

lemma walk_of_link {start fields : List (List UInt8)}
    (h : disk.turn place field = .ok (.along start fields)) :
    disk.walk (links+1) place (field :: rest) = disk.walk links start (fields ++ rest) := by
  simp only [walk,walkWith,h]
  rfl

lemma walk_of_last_link {start fields : List (List UInt8)}
    (h : disk.turn place field = .ok (.along start fields)) :
    disk.walk 0 place (field :: rest) = .error .tooManyLinks := by
  simp only [walk,walkWith,h]
  rfl

/-- Walks by their turns: the fields get fewer until a link is met, and then one link less may follow. -/
@[elab_as_elim]
lemma walk_induction {P : Nat → List (List UInt8) → List (List UInt8) → Prop} (disk : Disk)
    (done : ∀ links place, P links place [])
    (error : ∀ links place field rest fault, disk.turn place field = .error fault →
      P links place (field :: rest))
    (on : ∀ links place field rest next, disk.turn place field = .ok (.on next) →
      P links next rest → P links place (field :: rest))
    (stop : ∀ place field rest start fields, disk.turn place field = .ok (.along start fields) →
      P 0 place (field :: rest))
    (along : ∀ links place field rest start fields,
      disk.turn place field = .ok (.along start fields) → P links start (fields ++ rest) →
      P (links+1) place (field :: rest))
    (links : Nat) (place fields : List (List UInt8)) : P links place fields := by
  induction links generalizing place fields with
  | zero =>
    induction fields generalizing place with
    | nil => exact done 0 place
    | cons field rest ih =>
      cases hturn : disk.turn place field with
      | error fault => exact error 0 place field rest fault hturn
      | ok turn =>
        cases turn with
        | on next => exact on 0 place field rest next hturn (ih next)
        | along start fields => exact stop place field rest start fields hturn
  | succ links ihLinks =>
    induction fields generalizing place with
    | nil => exact done (links+1) place
    | cons field rest ih =>
      cases hturn : disk.turn place field with
      | error fault => exact error (links+1) place field rest fault hturn
      | ok turn =>
        cases turn with
        | on next => exact on (links+1) place field rest next hturn (ih next)
        | along start fields =>
          exact along links place field rest start fields hturn (ihLinks start (fields ++ rest))

/-- What comes after some fields is walked from where they lead to, with the links that are left. -/
lemma walk_append (disk : Disk) (links : Nat) (place front back : List (List UInt8)) :
    disk.walk links place (front ++ back) =
      disk.walk links place front >>= fun reached => disk.walk reached.1 reached.2 back := by
  induction links, place, front using walk_induction disk with
  | done links place =>
    rw [walk_nil]
    rfl
  | error links place field rest fault h =>
    rw [List.cons_append,walk_of_error h,walk_of_error h]
    rfl
  | on links place field rest next h ih => rw [List.cons_append,walk_of_on h,walk_of_on h,ih]
  | stop place field rest start fields h =>
    rw [List.cons_append,walk_of_last_link h,walk_of_last_link h]
    rfl
  | along links place field rest start fields h ih =>
    rw [List.cons_append,walk_of_link h,walk_of_link h,← List.append_assoc,ih]

/-- A turn is made from a directory. -/
lemma isDirectory_of_turn {turn : Turn} (h : disk.turn place field = .ok turn) :
    disk.IsDirectory place := by
  unfold Disk.turn at h
  split at h
  · cases h
  · rename_i entry hat
    split at h
    · rename_i hdirectory
      obtain ⟨listable,hentry⟩ := any_isDirectory_iff.1 (show (some entry).any _ = true from hdirectory)
      exact ⟨listable,hat.trans hentry⟩
    · cases h

lemma isDirectory_of_walk {reached : Nat × List (List UInt8)}
    (h : disk.walk links place (field :: rest) = .ok reached) : disk.IsDirectory place := by
  cases hturn : disk.turn place field with
  | error fault =>
    rw [walk_of_error hturn] at h
    cases h
  | ok turn => exact isDirectory_of_turn hturn

/-- The turn from a directory is decided by the component that the field stands for. -/
lemma turn_of_isDirectory (h : disk.IsDirectory place) (field : List UInt8) :
    disk.turn place field =
      match Component.ofField? field with
      | some (.name name) => disk.enter place name
      | some .up => .ok (.on place.dropLast)
      | _ => .ok (.on place) := by
  obtain ⟨listable,hat⟩ := h
  unfold turn
  rw [hat]
  rfl

/-- No link stands at a place. -/
def Linkless (disk : Disk) (place : List (List UInt8)) : Prop :=
  ∀ target, disk.at? place ≠ some (.link target)

lemma enter_of_linkless {name : List UInt8} (h : disk.Linkless (place ++ [name]))
    (hlimit : name.length ≤ Entry.nameLimit) : disk.enter place name = .ok (.on (place ++ [name])) := by
  unfold enter
  rw [if_neg (by omega)]
  split
  · rename_i target hlink
    exact absurd hlink (h target)
  · rfl

lemma turn_nil_iff {turn : Turn} :
    disk.turn place [] = .ok turn ↔ disk.IsDirectory place ∧ turn = .on place := by
  constructor
  · intro h
    have hdirectory := isDirectory_of_turn h
    rw [turn_of_isDirectory hdirectory] at h
    exact ⟨hdirectory,(Except.ok.inj h).symm⟩
  · rintro ⟨hdirectory,rfl⟩
    rw [turn_of_isDirectory hdirectory]
    rfl

lemma turn_name_iff {name : List UInt8} (hname : Entry.isName name = true)
    (hlink : disk.Linkless (place ++ [name])) {turn : Turn} :
    disk.turn place name = .ok turn ↔ disk.IsDirectory place ∧ turn = .on (place ++ [name]) := by
  obtain ⟨-,-,-,-,-,hlimit⟩ := Entry.isName_iff.1 hname
  have hturn : disk.IsDirectory place → disk.turn place name = .ok (.on (place ++ [name])) := by
    intro h
    rw [turn_of_isDirectory h,Component.ofField?_of_isName hname]
    exact enter_of_linkless hlink hlimit
  constructor
  · intro h
    have hdirectory := isDirectory_of_turn h
    rw [hturn hdirectory] at h
    exact ⟨hdirectory,(Except.ok.inj h).symm⟩
  · rintro ⟨hdirectory,rfl⟩
    exact hturn hdirectory

/-- A slash at the end asks for a directory. -/
lemma walk_slash_iff {reached : Nat × List (List UInt8)} :
    disk.walk links place [[]] = .ok reached ↔ disk.IsDirectory place ∧ reached = (links,place) := by
  constructor
  · intro h
    have hdirectory := isDirectory_of_walk h
    rw [walk_of_on (turn_nil_iff.2 ⟨hdirectory,rfl⟩),walk_nil] at h
    exact ⟨hdirectory,(Except.ok.inj h).symm⟩
  · rintro ⟨hdirectory,rfl⟩
    rw [walk_of_on (turn_nil_iff.2 ⟨hdirectory,rfl⟩),walk_nil]

end Walk

lemma locate_eq_ok_iff (disk : Disk) (path : Path) (place : List (List UInt8)) :
    disk.locate path = .ok place ↔ 0 ∉ path.bytes ∧ path.bytes ≠ [] ∧
      ∃ left, disk.walk linkLimit [] (fields (· == Path.slash) path.bytes) = .ok (left,place) := by
  unfold locate
  by_cases hnul : 0 ∈ path.bytes
  · simp [hnul]
  · by_cases hnil : path.bytes = []
    · simp [hnil]
    · cases disk.walk linkLimit [] (fields (· == Path.slash) path.bytes) with
      | error fault => simp [hnul,hnil,bind,Except.bind]
      | ok reached => simp [hnul,hnil,bind,Except.bind,pure,Except.pure,Prod.ext_iff]

/-- The name at the end of a path is looked up where the path leads to without it. -/
lemma walk_join_iff {root : Path} (hroot : root.bytes ≠ []) {name : List UInt8}
    (hname : Entry.isName name = true) {reached : Nat × List (List UInt8)} :
    disk.walk linkLimit [] (fields (· == Path.slash) (root.join ⟨name⟩).bytes) = .ok reached ↔
      ∃ before, disk.walk linkLimit [] (fields (· == Path.slash) root.bytes) = .ok before ∧
        disk.walk before.1 before.2 [name] = .ok reached := by
  have hfields : ∀ front, fields (· == Path.slash) (front ++ Path.slash :: name) =
      fields (· == Path.slash) front ++ [name] := by
    intro front
    rw [fields_append_separator (by rfl),Path.fields_of_isName hname]
  rcases Path.join_bytes_cases root (Path.head?_of_isName hname) with
    ⟨htext,-⟩ | ⟨front,htext,hjoin⟩ | ⟨-,hjoin⟩
  · exact absurd htext hroot
  · -- The slash at the end of the root is the one before the name.
    have hslash : fields (· == Path.slash) root.bytes = fields (· == Path.slash) front ++ [[]] := by
      rw [htext,fields_append_separator (by rfl)]
      rfl
    simp only [hjoin,hfields,hslash,walk_append,bind_eq_ok_iff,walk_slash_iff]
    constructor
    · rintro ⟨before,hbefore,hlast⟩
      exact ⟨before,⟨before,hbefore,isDirectory_of_walk hlast,rfl⟩,hlast⟩
    · rintro ⟨-,⟨before,hbefore,-,rfl⟩,hlast⟩
      exact ⟨before,hbefore,hlast⟩
  · rw [hjoin,hfields,walk_append,bind_eq_ok_iff]

lemma zero_mem_join_iff {root : Path} (hroot : root.bytes ≠ []) {name : List UInt8}
    (hname : Entry.isName name = true) : 0 ∈ (root.join ⟨name⟩).bytes ↔ 0 ∈ root.bytes := by
  have hslash : (0 : UInt8) ≠ Path.slash := by decide
  obtain ⟨-,-,-,-,hzero,-⟩ := Entry.isName_iff.1 hname
  rcases Path.join_bytes_cases root (Path.head?_of_isName hname) with
    ⟨htext,-⟩ | ⟨front,htext,hjoin⟩ | ⟨-,hjoin⟩
  · exact absurd htext hroot
  · simp [hjoin,htext,hzero,hslash]
  · simp [hjoin,hzero,hslash]

/-- A name after a path is looked up where the path leads to. -/
lemma locate_join {root : Path} (hroot : disk.locate root = .ok place) {name : List UInt8}
    (hname : Entry.isName name = true) (hlink : disk.Linkless (place ++ [name]))
    (found : List (List UInt8)) :
    disk.locate (root.join ⟨name⟩) = .ok found ↔ disk.IsDirectory place ∧ found = place ++ [name] := by
  obtain ⟨hzero,hnil,left,hwalk⟩ := (locate_eq_ok_iff _ _ _).1 hroot
  have hlast : ∀ reached, disk.walk left place [name] = .ok reached ↔
      disk.IsDirectory place ∧ reached = (left,place ++ [name]) := by
    intro reached
    constructor
    · intro h
      have hdirectory := isDirectory_of_walk h
      rw [walk_of_on ((turn_name_iff hname hlink).2 ⟨hdirectory,rfl⟩),walk_nil] at h
      exact ⟨hdirectory,(Except.ok.inj h).symm⟩
    · rintro ⟨hdirectory,rfl⟩
      rw [walk_of_on ((turn_name_iff hname hlink).2 ⟨hdirectory,rfl⟩),walk_nil]
  rw [locate_eq_ok_iff]
  simp only [zero_mem_join_iff hnil hname,hzero,walk_join_iff hnil hname,hwalk,Except.ok.injEq,
    exists_eq_left',hlast,Prod.mk.injEq]
  simp [Path.join_bytes_ne_nil root hname]

/-- Where a longer path leads somewhere, so does the path without the name. -/
lemma exists_locate_of_join {path : Path} (hpath : path.bytes ≠ []) {name : List UInt8}
    (hname : Entry.isName name = true) {found : List (List UInt8)}
    (hfound : disk.locate (path.join ⟨name⟩) = .ok found) : ∃ place, disk.locate path = .ok place := by
  obtain ⟨hzero,-,left,hwalk⟩ := (locate_eq_ok_iff _ _ _).1 hfound
  obtain ⟨before,hbefore,-⟩ := (walk_join_iff hpath hname).1 hwalk
  rw [zero_mem_join_iff hpath hname] at hzero
  exact ⟨before.2,(locate_eq_ok_iff _ _ _).2 ⟨hzero,hpath,before.1,hbefore⟩⟩

lemma exists_locate_of_descend {path : Path} (hpath : path.bytes ≠ [])
    (h : ∀ name ∈ names, Entry.isName name = true) {found : List (List UInt8)}
    (hfound : disk.locate (path.descend names) = .ok found) :
    ∃ place, disk.locate path = .ok place := by
  induction names generalizing path with
  | nil => exact ⟨found,hfound⟩
  | cons name names ih =>
    have hname := h name List.mem_cons_self
    obtain ⟨place,hplace⟩ := ih (Path.join_bytes_ne_nil path hname)
      (fun n hn => h n (List.mem_cons_of_mem name hn)) hfound
    exact exists_locate_of_join hpath hname hplace

lemma find_eq_ok_iff (disk : Disk) (path : Path) (entry : Entry) :
    disk.find path = .ok entry ↔ ∃ place, disk.locate path = .ok place ∧ disk.at? place = some entry := by
  unfold find
  rw [bind_eq_ok_iff]
  constructor
  · rintro ⟨place,hplace,h⟩
    split at h
    · cases h
    · cases h
      exact ⟨place,hplace,‹_›⟩
  · rintro ⟨place,hplace,h⟩
    exact ⟨place,hplace,by rw [h]⟩

/-- The paths that names make from a root lead to what stands below the root by these names, unless there
is a link on the way. -/
theorem find_descend {root : Path} (hroot : disk.locate root = .ok place)
    (h : ∀ name ∈ names, Entry.isName name = true)
    (hlinks : ∀ start ∈ starts names, disk.Linkless (place ++ start)) (entry : Entry) :
    disk.find (root.descend names) = .ok entry ↔ disk.at? (place ++ names) = some entry := by
  induction names generalizing root place with
  | nil => simp [find_eq_ok_iff,hroot]
  | cons name names ih =>
    have hname := h name List.mem_cons_self
    have hnames : ∀ n ∈ names, Entry.isName n = true :=
      fun n hn => h n (List.mem_cons_of_mem name hn)
    obtain ⟨hlink,hrest⟩ : disk.Linkless (place ++ [name]) ∧
        ∀ start ∈ starts names, disk.Linkless ((place ++ [name]) ++ start) := by
      simpa [starts] using hlinks
    have happend : place ++ name :: names = (place ++ [name]) ++ names := by simp
    rw [Path.descend_cons,happend]
    constructor
    · intro hfind
      obtain ⟨found,hfound,-⟩ := (find_eq_ok_iff _ _ _).1 hfind
      obtain ⟨next,hnext⟩ :=
        exists_locate_of_descend (Path.join_bytes_ne_nil root hname) hnames hfound
      obtain ⟨-,rfl⟩ := (locate_join hroot hname hlink next).1 hnext
      exact (ih hnext hnames hrest).1 hfind
    · intro hat
      have hdirectory : disk.IsDirectory place := isDirectory_of_at? (happend ▸ hat)
      have hnext := (locate_join hroot hname hlink (place ++ [name])).2 ⟨hdirectory,rfl⟩
      exact (ih hnext hnames hrest).2 hat

lemma isFile_iff (disk : Disk) (path : Path) :
    disk.isFile path = true ↔ ∃ bytes, disk.find path = .ok (.file bytes) := by
  unfold isFile
  split <;> simp_all

/-- A path leads from a root, name by name, to a file at or below the root. -/
def HasFileBelow (disk : Disk) (root path : Path) : Prop :=
  ∃ names : List (List UInt8), (∀ name ∈ names, Entry.isName name = true) ∧
    path = root.descend names ∧ disk.isFile path = true

/-- A file has one path from a root. -/
lemma HasFileBelow.eq_of_components {root p q : Path} (hp : disk.HasFileBelow root p)
    (hq : disk.HasFileBelow root q) (h : p.components = q.components) : p = q := by
  obtain ⟨names,hnames,rfl,-⟩ := hp
  obtain ⟨names',hnames',rfl,-⟩ := hq
  rw [Path.components_descend root hnames,Path.components_descend root hnames',
    List.append_cancel_left_eq] at h
  rw [(List.map_inj_right fun _ _ => Component.name.inj).1 h]

lemma HasFileBelow.below {root path : Path} (h : disk.HasFileBelow root path) :
    root.components <+: path.components := by
  obtain ⟨names,hnames,rfl,-⟩ := h
  rw [Path.components_descend root hnames]
  exact List.prefix_append _ _

/-- A file that a walk comes to by names from a root: it is not behind a link, and the directories on the
way can be listed. -/
structure ListsFile (disk : Disk) (root : Path) (names : List (List UInt8)) : Prop where
  followed : (disk.isLink root && disk.isFile root) = false
  found : ∃ place bytes, disk.locate root = .ok place ∧ disk.Lists place names ∧
    disk.at? (place ++ names) = some (.file bytes)

lemma ListsFile.isName {root : Path} (h : disk.ListsFile root names) :
    ∀ name ∈ names, Entry.isName name = true := by
  obtain ⟨place,bytes,-,-,hat⟩ := h.found
  exact fun name hname => isName_of_at? hat name (List.mem_append_right place hname)

lemma mem_filePaths_iff_entriesAt (disk : Disk) (admits : Path → Bool) (root path : Path) :
    path ∈ disk.filePaths admits root ↔ ∃ bytes, (path,.file bytes) ∈ disk.entriesAt admits root := by
  rw [filePaths,List.mem_filterMap]
  constructor
  · rintro ⟨⟨found,entry⟩,hmem,h⟩
    cases entry with
    | file bytes =>
      cases h
      exact ⟨bytes,hmem⟩
    | directory listable => cases h
    | link target => cases h
  · rintro ⟨bytes,hmem⟩
    exact ⟨_,hmem,rfl⟩

/-- The walk from a path finds the files below it that it comes to through admitted entries only. -/
theorem mem_filePaths_iff (disk : Disk) (admits : Path → Bool) (root path : Path) :
    path ∈ disk.filePaths admits root ↔ ∃ names, disk.ListsFile root names ∧
      path = root.descend names ∧ ∀ start ∈ starts names, admits (root.descend start) = true := by
  rw [mem_filePaths_iff_entriesAt]
  unfold entriesAt
  constructor
  · rintro ⟨bytes,hmem⟩
    split at hmem
    · cases hmem
    · rename_i place hroot
      split at hmem
      · cases hmem
      · rename_i hlink
        obtain ⟨names,hlists,hat,hpath,hway⟩ := (mem_entriesFrom_iff _ _ _ _ _ _).1 hmem
        exact ⟨names,⟨Bool.eq_false_iff.2 hlink,place,bytes,hroot,hlists,hat⟩,hpath,hway⟩
  · rintro ⟨names,⟨hlink,place,bytes,hroot,hlists,hat⟩,hpath,hway⟩
    refine ⟨bytes,?_⟩
    rw [hroot]
    dsimp only
    rw [if_neg (by simp [hlink])]
    exact (mem_entriesFrom_iff _ _ _ _ _ _).2 ⟨names,hlists,hat,hpath,hway⟩

/-- Listed directories that lead to a file have no links between them. -/
lemma Lists.linkless (h : disk.Lists place names) {bytes : List UInt8}
    (hat : disk.at? (place ++ names) = some (.file bytes)) :
    ∀ start ∈ starts names, disk.Linkless (place ++ start) := by
  induction names generalizing place with
  | nil => simp [starts]
  | cons name names ih =>
    have hrest := ih h.2 (by simpa using hat)
    simp only [List.append_assoc,List.singleton_append] at hrest
    have hname : disk.Linkless (place ++ [name]) := by
      intro target hlink
      cases names with
      | nil => simp [hlink] at hat
      | cons next names =>
        rw [h.2.1] at hlink
        cases hlink
    simpa [starts] using ⟨hname,hrest⟩

/-- A walk from a root comes to a file by a path. -/
def IsListed (disk : Disk) (root path : Path) : Prop :=
  ∃ names, disk.ListsFile root names ∧ path = root.descend names

/-- The path by which a walk comes to a file leads to it. -/
lemma IsListed.hasFileBelow {root path : Path} (h : disk.IsListed root path) :
    disk.HasFileBelow root path := by
  obtain ⟨names,hfile,rfl⟩ := h
  obtain ⟨place,bytes,hroot,hlists,hat⟩ := hfile.found
  have hfind := (find_descend hroot hfile.isName (hlists.linkless hat) _).2 hat
  exact ⟨names,hfile.isName,rfl,(isFile_iff _ _).2 ⟨bytes,hfind⟩⟩

lemma startsWith_of_mem_filePaths {admits : Path → Bool} {root path : Path}
    (h : path ∈ disk.filePaths admits root) : path.startsWith root = true := by
  obtain ⟨names,hlists,hpath,-⟩ := (mem_filePaths_iff disk admits root path).1 h
  have hlisted : disk.IsListed root path := ⟨names,hlists,hpath⟩
  exact (Path.startsWith_iff _ root).2 hlisted.hasFileBelow.below

section Plain

/-- From a place on, some names lead through plain entries only. -/
def PlainAlong (disk : Disk) (place names : List (List UInt8)) : Prop :=
  ∀ start, start <+: names → (disk.at? (place ++ start)).all Entry.isPlain = true

lemma PlainAlong.tail {name : List UInt8} (h : disk.PlainAlong place (name :: names)) :
    disk.PlainAlong (place ++ [name]) names := by
  intro start hstart
  have hplain := h (name :: start) (List.cons_prefix_cons.2 ⟨rfl,hstart⟩)
  rwa [List.append_assoc]

lemma PlainAlong.linkless (h : disk.PlainAlong place names) :
    ∀ start ∈ starts names, disk.Linkless (place ++ start) := by
  intro start hstart target hlink
  have hplain := h start ((mem_starts_iff _ _).1 hstart).2
  rw [hlink] at hplain
  cases hplain

lemma PlainAlong.lists (h : disk.PlainAlong place names) {entry : Entry}
    (hat : disk.at? (place ++ names) = some entry) : disk.Lists place names := by
  induction names generalizing place with
  | nil => trivial
  | cons name names ih =>
    obtain ⟨listable,hdirectory⟩ := isDirectory_of_at? hat
    have hplain := h [] List.nil_prefix
    rw [List.append_nil,hdirectory] at hplain
    obtain rfl : listable = true := hplain
    exact ⟨hdirectory,ih h.tail (by simpa using hat)⟩

/-- All that stands at or below a root is plain. The root may be a link to a directory. -/
structure PlainBelow (disk : Disk) (root : Path) : Prop where
  followed : (disk.isLink root && disk.isFile root) = false
  along : ∀ place names, disk.locate root = .ok place → disk.PlainAlong place names

/-- A disk of files and listable directories only. -/
lemma plainBelow_of_entries (h : disk.entries.toList.all (·.2.isPlain) = true) (root : Path) :
    disk.PlainBelow root := by
  have hplain : ∀ place, (disk.at? place).all Entry.isPlain = true := by
    intro place
    rw [Option.all_eq_true]
    intro entry hat
    unfold at? entry? at hat
    split_ifs at hat with hway hroot
    · cases hat
      rfl
    · rw [← Std.ExtTreeMap.mem_toList_iff_getElem?_eq_some] at hat
      exact List.all_eq_true.1 h _ hat
  refine ⟨?_,fun place names _ start _ => hplain (place ++ start)⟩
  have hlink : disk.isLink root = false := by
    unfold isLink
    dsimp only
    split
    · rename_i place name _ _
      have hlast := hplain (place ++ [name])
      cases hat : disk.at? (place ++ [name]) with
      | none => rfl
      | some entry =>
        rw [hat] at hlast
        cases entry with
        | link target => cases hlast
        | directory listable => rfl
        | file bytes => rfl
    · rfl
  rw [hlink,Bool.false_and]

end Plain

end Disk

end NoteIndex
