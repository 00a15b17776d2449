import Std.Data.ExtTreeMap
import NoteIndex.Failure

/-! A disk: files, directories and symbolic links in memory. -/
namespace NoteIndex

/-- What stands at a place of a disk. -/
inductive Entry where
  /-- A directory, and whether its entries may be listed. -/
  | directory (listable : Bool)
  | file (bytes : List UInt8)
  /-- A symbolic link, which stands for the path that it holds. -/
  | link (target : Path)
  deriving DecidableEq, Repr

namespace Entry

def isDirectory : Entry → Bool
  | directory _ => true
  | _ => false

def isLink : Entry → Bool
  | link _ => true
  | _ => false

/-- The longest name of an entry, in bytes. -/
def nameLimit : Nat := 255

/-- Whether an entry of a directory can have a given name. -/
def isName (name : List UInt8) : Bool :=
  name != [] && name != [Path.dot] && name != [Path.dot, Path.dot] && !name.contains Path.slash
    && !name.contains 0 && name.length ≤ nameLimit

end Entry

/-- Entries by the names that lead to them from the root directory. An entry counts only if
everything on the way to it is a directory. -/
structure Disk where
  entries : Std.ExtTreeMap (List (List UInt8)) Entry
  isName_of_mem : ∀ place ∈ entries, ∀ name ∈ place, Entry.isName name = true

namespace Disk

def empty : Disk := ⟨∅, by simp⟩

/-- The entry at a place, without regard to the way. The root directory is always there. -/
def entry? (disk : Disk) (place : List (List UInt8)) : Option Entry :=
  if place.isEmpty then some (.directory true) else disk.entries[place]?

/-- Whether every place on the way to a given one is a directory. -/
def reaches (disk : Disk) (place : List (List UInt8)) : Bool :=
  (starts place.dropLast).all fun start => (disk.entry? start).any Entry.isDirectory

/-- What stands at a place. -/
def at? (disk : Disk) (place : List (List UInt8)) : Option Entry :=
  if disk.reaches place then disk.entry? place else none

/-- Where a field of a path leads from a place. -/
inductive Turn where
  /-- On to a place. -/
  | on (place : List (List UInt8))
  /-- To a link, and from a place along its fields. -/
  | along (start : List (List UInt8)) (fields : List (List UInt8))

/-- The turn to an entry of the directory at a place. -/
def enter (disk : Disk) (place : List (List UInt8)) (name : List UInt8) : Except ReadFault Turn :=
  if Entry.nameLimit < name.length then .error .nameTooLong
  else
    match disk.at? (place ++ [name]) with
    | some (.link target) =>
      .ok (.along (if target.bytes.head? == some Path.slash then [] else place)
        (Text.fields (· == Path.slash) target.bytes))
    | _ => .ok (.on (place ++ [name]))

/-- One step along a path from a place, which has to be a directory. -/
def turn (disk : Disk) (place : List (List UInt8)) (field : List UInt8) : Except ReadFault Turn :=
  match disk.at? place with
  | none => .error .notFound
  | some entry =>
    if entry.isDirectory then
      match Component.ofField? field with
      | some (.name name) => disk.enter place name
      | some .up => .ok (.on place.dropLast)
      | _ => .ok (.on place)
    else .error .notDirectory

/-- Steps along a path from a place, where `follow` goes on from the first link. -/
def walkWith (disk : Disk)
    (follow : List (List UInt8) → List (List UInt8) → Except ReadFault (Nat × List (List UInt8)))
    (links : Nat) (place : List (List UInt8)) :
    List (List UInt8) → Except ReadFault (Nat × List (List UInt8))
  | [] => .ok (links, place)
  | field :: rest => do
    match ← disk.turn place field with
    | .on next => disk.walkWith follow links next rest
    | .along start fields => follow start (fields ++ rest)

/-- The place that fields of a path lead to, if no more than `links` links are on the way, and the number
of links that may still follow. -/
def walk (disk : Disk) : Nat → List (List UInt8) → List (List UInt8) →
    Except ReadFault (Nat × List (List UInt8))
  | 0 => disk.walkWith (fun _ _ => .error .tooManyLinks) 0
  | links + 1 => disk.walkWith (disk.walk links) (links + 1)

/-- The most links on the way along a path. -/
def linkLimit : Nat := 40

/-- The place that a path leads to. Relative paths start at the root directory. -/
def locate (disk : Disk) (path : Path) : Except ReadFault (List (List UInt8)) := do
  if path.bytes.contains 0 then .error .nulInName
  else if path.bytes.isEmpty then .error .notFound
  else return (← disk.walk linkLimit [] (Text.fields (· == Path.slash) path.bytes)).2

/-- Whether a path ends with the name of a link. -/
def isLink (disk : Disk) (path : Path) : Bool :=
  let fields := Text.fields (· == Path.slash) path.bytes
  match disk.walk linkLimit [] fields.dropLast, fields.getLast? with
  | .ok (_, place), some name => (disk.at? (place ++ [name])).any Entry.isLink
  | _, _ => false

/-- The entry that a path leads to. -/
def find (disk : Disk) (path : Path) : Except ReadFault Entry := do
  match disk.at? (← disk.locate path) with
  | none => .error .notFound
  | some entry => .ok entry

def doesExist (disk : Disk) (path : Path) : Bool :=
  match disk.find path with
  | .ok _ => true
  | .error _ => false

def isFile (disk : Disk) (path : Path) : Bool :=
  match disk.find path with
  | .ok (.file _) => true
  | _ => false

/-- The bytes of a file. -/
def read (disk : Disk) (path : Path) : Except ReadFault (List UInt8) := do
  match ← disk.find path with
  | .file bytes => .ok bytes
  | _ => .error .isDirectory

/-- The text of a file that is well-formed UTF-8. -/
def readText (disk : Disk) (path : Path) : Except ReadFault (List Char) := do
  match Text.decodeUtf8? (← disk.read path) with
  | some text => .ok text
  | none => .error .notUtf8

/-- The names of the entries of a directory, in order. -/
def namesIn (disk : Disk) (place : List (List UInt8)) : List (List UInt8) :=
  disk.entries.keys.filterMap fun key =>
    match dropStart? place key with
    | some [name] => some name
    | _ => none

/-- The length of the longest way to an entry. -/
def depth (disk : Disk) : Nat := (disk.entries.keys.map List.length).foldr max 0

theorem mem_namesIn_iff (disk : Disk) (place : List (List UInt8)) (name : List UInt8) :
    name ∈ disk.namesIn place ↔ place ++ [name] ∈ disk.entries := by
  simp only [namesIn, List.mem_filterMap, Std.ExtTreeMap.mem_keys]
  constructor
  · rintro ⟨key, hkey, h⟩
    split at h
    · rename_i found hfound
      cases h
      rwa [← (dropStart?_eq_some_iff _ _ _).1 hfound]
    · cases h
  · intro h
    have hdrop := (dropStart?_eq_some_iff place (place ++ [name]) [name]).2 rfl
    exact ⟨place ++ [name], h, by rw [hdrop]⟩

theorem length_le_depth {disk : Disk} {place : List (List UInt8)} (h : place ∈ disk.entries) :
    place.length ≤ disk.depth := by
  have hmem : place.length ∈ disk.entries.keys.map List.length :=
    List.mem_map_of_mem (Std.ExtTreeMap.mem_keys.2 h)
  have hfold : ∀ lengths : List Nat, place.length ∈ lengths → place.length ≤ lengths.foldr max 0 := by
    intro lengths
    induction lengths with
    | nil => simp
    | cons length rest ih =>
      intro hmem
      rcases List.mem_cons.1 hmem with heq | hmem
      · exact heq ▸ Nat.le_max_left _ _
      · exact Nat.le_trans (ih hmem) (Nat.le_max_right _ _)
  exact hfold _ hmem

/-- The entries at or below a place, which `path` leads to, with their paths. An entry of a directory that
is not admitted is left out, with everything below it. Links are not followed, and nothing is below a
directory that may not be listed. -/
def entriesFrom (disk : Disk) (admits : Path → Bool) (place : List (List UInt8)) (path : Path) :
    List (Path × Entry) :=
  match disk.at? place with
  | none => []
  | some (.directory true) =>
    (path, .directory true) :: (disk.namesIn place).attach.flatMap fun ⟨name, _⟩ =>
      if admits (path.join ⟨name⟩) then disk.entriesFrom admits (place ++ [name]) (path.join ⟨name⟩)
      else []
  | some entry => [(path, entry)]
termination_by disk.depth - place.length
decreasing_by
  have h := length_le_depth ((mem_namesIn_iff disk place name).1 (by assumption))
  simp only [List.length_append, List.length_singleton] at h ⊢
  omega

/-- The entries at or below a path. A path that is a link itself is followed to a directory only. -/
def entriesAt (disk : Disk) (admits : Path → Bool) (root : Path) : List (Path × Entry) :=
  match disk.locate root with
  | .error _ => []
  | .ok place =>
    if disk.isLink root && disk.isFile root then [] else disk.entriesFrom admits place root

/-- The paths of the files at or below a path. An entry below it that is not admitted is left out,
with everything below that. -/
def filePaths (disk : Disk) (admits : Path → Bool) (root : Path) : List Path :=
  (disk.entriesAt admits root).filterMap fun found =>
    match found.2 with
    | .file _ => some found.1
    | _ => none

/-- The paths of the directories at or below a path that may not be listed. -/
def closedPaths (disk : Disk) (admits : Path → Bool) (root : Path) : List Path :=
  (disk.entriesAt admits root).filterMap fun found =>
    if found.2 = .directory false then some found.1 else none

/-- The place that a path names, whether or not anything stands there. -/
def placeOf (path : Path) : List (List UInt8) :=
  path.components.foldl (fun place component =>
    match component with
    | .name bytes => place ++ [bytes]
    | .up => place.dropLast
    | _ => place) []

/-- The disk with an entry at a place. Nothing changes if an entry cannot be there by name. -/
def put (disk : Disk) (place : List (List UInt8)) (entry : Entry) : Disk :=
  if h : ∀ name ∈ place, Entry.isName name = true then
    ⟨disk.entries.insert place entry, by
      intro key hkey
      rcases Std.ExtTreeMap.mem_insert.1 hkey with heq | hkey
      · rwa [← Std.LawfulEqOrd.eq_of_compare heq]
      · exact disk.isName_of_mem key hkey⟩
  else disk

/-- The disk with a directory at a place, and on the way to it. -/
def makeDirectory (disk : Disk) (place : List (List UInt8)) : Disk :=
  (starts place).foldl (fun disk start =>
    if disk.entries.contains start then disk else disk.put start (.directory true)) disk

/-- The disk with a file at a path. Directories on the way are made. -/
def writeFile (disk : Disk) (path : Path) (bytes : List UInt8) : Disk :=
  let place := placeOf path
  (disk.makeDirectory place.dropLast).put place (.file bytes)

/-- The disk with a link to `target` at a path. Directories on the way are made. -/
def makeLink (disk : Disk) (path target : Path) : Disk :=
  let place := placeOf path
  (disk.makeDirectory place.dropLast).put place (.link target)

/-- The disk without what stands at or below a path. -/
def delete (disk : Disk) (path : Path) : Disk :=
  let place := placeOf path
  ⟨disk.entries.filter fun file _ => (dropStart? place file).isNone, fun key hkey =>
    disk.isName_of_mem key (Std.ExtTreeMap.mem_of_mem_filter hkey)⟩

end Disk

/-- A disk and the home directory of its user. -/
structure Machine where
  disk : Disk
  home : Path

end NoteIndex
