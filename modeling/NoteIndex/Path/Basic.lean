import NoteIndex.Start
import NoteIndex.Text.Field
import NoteIndex.Text.Utf8

/-! File paths as they are written, the components by which they are compared, and keys: the names of
documents relative to the root of their folder. A path is made of bytes. Most paths are the UTF-8 forms
of texts, but a name may hold any bytes other than zero and a slash, and one that is no text has no
key. -/
namespace NoteIndex

namespace Path

/-- The byte between the names of a path. -/
def slash : UInt8 := 0x2F

def dot : UInt8 := 0x2E

end Path

/-- One step of a path. -/
inductive Component where
  /-- The leading slash of an absolute path. -/
  | root
  /-- A leading dot of a relative path. -/
  | here
  /-- Two dots. -/
  | up
  | name (bytes : List UInt8)
  deriving DecidableEq, Repr

namespace Component

open NoteIndex.Path

/-- The name that a text is written as. -/
def ofText (text : String) : Component := name (Text.utf8 text)

def render : Component → List UInt8
  | root => [slash]
  | here => [dot]
  | up => [dot, dot]
  | name bytes => bytes

/-- A component as a text, if it is one. -/
def text? (component : Component) : Option String := Text.ofUtf8? component.render

/-- The component written between two slashes, if any: empty stretches and dots are left out. -/
def ofField? (field : List UInt8) : Option Component :=
  if field = [] ∨ field = [dot] then none
  else if field = [dot, dot] then some up
  else some (name field)

/-- The component that a path starts with. -/
def ofFirstField? (field : List UInt8) (isOnly : Bool) : Option Component :=
  if field = [] then if isOnly then none else some root
  else if field = [dot] then some here
  else ofField? field

/-- Kinds of components sort in this order. -/
def rank : Component → Nat
  | root => 0
  | here => 1
  | up => 2
  | name _ => 3

instance : Ord Component := ⟨compareLex (compareOn rank) (compareOn render)⟩

instance : Std.TransOrd Component :=
  inferInstanceAs (Std.TransCmp (compareLex (compareOn rank) (compareOn render)))

instance : Std.LawfulEqOrd Component where
  eq_of_compare {a b} h := by
    obtain ⟨hr, ht⟩ := compareLex_eq_eq.1 h
    have hr := Std.LawfulEqOrd.eq_of_compare hr
    have ht := Std.LawfulEqOrd.eq_of_compare ht
    cases a <;> cases b <;> simp_all [rank, render]

end Component

/-- A path as it was written. -/
structure Path where
  bytes : List UInt8
  deriving DecidableEq, Repr, Inhabited

namespace Path

/-- The path that a text is written as. -/
def ofText (text : String) : Path := ⟨Text.utf8 text⟩

instance : Coe String Path := ⟨ofText⟩

/-- A path as it is shown, with U+FFFD in place of what is no text. -/
def display (path : Path) : String := String.ofList (Text.decodeLossy path.bytes)

/-- The components of a written path. Repeated and trailing slashes and inner dots leave no trace,
two dots are kept. -/
def parse (bytes : List UInt8) : List Component :=
  match Text.fields (· == slash) bytes with
  | [] => []
  | first :: rest =>
    (Component.ofFirstField? first rest.isEmpty).toList ++ rest.filterMap Component.ofField?

def components (path : Path) : List Component := parse path.bytes

/-- The components of `path` below `root`, when `root` is where it starts. -/
def below? (root path : Path) : Option (List Component) :=
  dropStart? root.components path.components

def startsWith (path root : Path) : Bool := (below? root path).isSome

/-- A path followed by another one. An absolute second path replaces the first. -/
def join (path next : Path) : Path :=
  if next.bytes.head? == some slash then next
  else if path.bytes.isEmpty || path.bytes.getLast? == some slash then ⟨path.bytes ++ next.bytes⟩
  else ⟨path.bytes ++ slash :: next.bytes⟩

/-- The last component, if it is a name. -/
def fileName? (components : List Component) : Option (List UInt8) :=
  match components.getLast? with
  | some (.name bytes) => some bytes
  | _ => none

/-- A file name cut at its last dot. A name without a dot, or with a leading dot only, is all
stem. -/
def splitExtension (name : List UInt8) : List UInt8 × Option (List UInt8) :=
  let back := name.reverse
  let extension := (back.takeWhile (· != dot)).reverse
  match back.dropWhile (· != dot) with
  | [] => (name, none)
  | [_] => (name, none)
  | _ :: stem => (stem.reverse, some extension)

/-- The file name up to its extension, if that is a text. -/
def fileStem? (path : Path) : Option String :=
  (fileName? path.components).bind fun name => Text.ofUtf8? (splitExtension name).1

def extension? (path : Path) : Option (List UInt8) :=
  (fileName? path.components).bind fun name => (splitExtension name).2

/-- The components without the last one, which may not be the leading slash. -/
def parent? (components : List Component) : Option (List Component) :=
  match components.getLast? with
  | none => none
  | some .root => none
  | some _ => some components.dropLast

/-- Components with slashes between them. -/
def joinBytes (components : List Component) : List UInt8 :=
  [slash].intercalate (components.map Component.render)

/-- Components joined by slashes, if all of them are texts. -/
def joinKey? (components : List Component) : Option String :=
  (components.mapM Component.text?).map ("/".intercalate ·)

/-- The key of a path below a root. -/
def key? (root path : Path) : Option String := (below? root path).bind joinKey?

example : components "/a//b/./c/" = [.root, .ofText "a", .ofText "b", .ofText "c"] := by decide
example : components "./a/.." = [.here, .ofText "a", .up] := by decide
example : splitExtension (Text.utf8 "a.b.md") = (Text.utf8 "a.b", some (Text.utf8 "md")) := by decide
example : splitExtension (Text.utf8 ".md") = (Text.utf8 ".md", none) := by decide

end Path

end NoteIndex
