import NoteIndex.Text.Lowercase
import NoteIndex.Data.Value

/-! Layers of data files: later ones override earlier ones key by key. -/
namespace NoteIndex.Data

/-- A place in nested tables and arrays. -/
inductive Place where
  | name (key : String)
  | child (parent : Place) (key : String)
  | element (parent : Place) (index : Nat)
  deriving DecidableEq, Repr

namespace Place

def isNameChar (c : Char) : Bool := c.isAlphanum || c == ' ' || c == '_' || c == '-'

/-- The further steps of a place. -/
def steps? : Nat → Place → List Char → Option Place
  | 0, _, _ => none
  | _ + 1, place, [] => some place
  | fuel + 1, place, '.' :: rest =>
    match rest.takeWhile isNameChar with
    | [] => none
    | key => steps? fuel (child place (String.ofList key)) (rest.dropWhile isNameChar)
  | fuel + 1, place, '[' :: rest =>
    let isBlank := fun c => c == ' ' || c == '\t'
    let rest := rest.dropWhile isBlank
    match rest.takeWhile Char.isDigit, (rest.dropWhile Char.isDigit).dropWhile isBlank with
    | [], _ => none
    | digits, ']' :: rest => steps? fuel (element place (ofDigits 10 digits)) rest
    | _, _ => none
  | _ + 1, _, _ => none

/-- The place that a key of a file stands for: names with dots between them and indices in
brackets, or else the whole key as a name. -/
def ofKey (key : String) : Place :=
  let text := key.toList
  match text.takeWhile isNameChar with
  | [] => name key
  | first =>
    (steps? (text.length + 1) (name (String.ofList first)) (text.dropWhile isNameChar)).getD (name key)

end Place

/-- The entries of a table. Any other value has none. -/
def Value.entries : Value → List (String × Value)
  | table entries => entries
  | _ => []

/-- The elements of an array. Any other value has none. -/
def Value.elements : Value → List Value
  | array elements => elements
  | _ => []

mutual

/-- A table with a value at a key, whose letter case does not count. A table is merged into what
is there, any other value replaces it. A value that is no table gives way to one. -/
def Value.assign (root : Value) (key : String) : Value → Value
  | .table incoming =>
    let key := Text.lowercaseString key
    let target := (lookup root.entries key).getD (.table [])
    .table (store root.entries key (assignAll target incoming))
  | value => .table (store root.entries (Text.lowercaseString key) value)

def assignAll (target : Value) : List (String × Value) → Value
  | [] => target
  | (key, value) :: rest => assignAll (target.assign key value) rest

end

/-- Changes the value at a place, where tables on the way are made. -/
def Value.update (change : Value → Value) : Place → Value → Value
  | .name key, root =>
    .table (store root.entries key (change ((lookup root.entries key).getD .null)))
  | .child parent key, root =>
    root.update (fun value =>
      .table (store value.entries key (change ((lookup value.entries key).getD .null)))) parent
  | .element parent index, root =>
    root.update (fun value =>
      let elements := value.elements
      let elements := elements ++ List.replicate (index + 1 - elements.length) .null
      .array (elements.set index (change (elements.getD index .null)))) parent

/-- A table with a value at a place. -/
def Value.assignAt (root : Value) (place : Place) (value : Value) : Value :=
  match place with
  | .name key => root.assign key value
  | .child parent key => root.update (fun table => table.assign key value) parent
  | .element parent index => root.update (fun _ => value) (.element parent index)

/-- A table under the entries of a data file. -/
def Value.overlay (root : Value) (file : Value) : Value :=
  file.entries.foldl (fun root entry => root.assignAt (Place.ofKey entry.1) entry.2) root

end NoteIndex.Data
