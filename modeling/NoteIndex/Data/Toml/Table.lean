import NoteIndex.Data.Value

/-! Tables of TOML texts while they are built up. -/
namespace NoteIndex.Data.Toml

inductive Node where
  | value (value : Value)
  /-- A table. It is implicit while only headers of tables below it have named it, and dotted if a
  dotted key made it. -/
  | table (implicit dotted : Bool) (entries : List (String × Node))
  /-- The tables of one name in an array. -/
  | tables (elements : List Node)

namespace Node

def emptyTable : Node := table false false []

/-- Applies a change to the table at the end of a path and makes the tables on the way. The last
table of an array stands for the array. A dotted key may not reach into a table that has a header
of its own. -/
def descend (dotted : Bool) (change : Node → Option Node) : List String → Node → Option Node
  | [], node => change node
  | key :: path, table implicit isDotted entries =>
    let update (node : Node) : Option Node := do
      return table implicit isDotted (store entries key (← descend dotted change path node))
    match lookup entries key with
    | none => update (table true dotted [])
    | some (value _) => none
    | some (table childImplicit childDotted children) =>
      if dotted && !childImplicit then none
      else update (table childImplicit childDotted children)
    | some (tables elements) =>
      match elements.getLast? with
      | none => none
      | some last => do
        let last ← descend dotted change path last
        return table implicit isDotted (store entries key (tables (elements.dropLast ++ [last])))
  | _ :: _, _ => none

/-- A table with a new value. A table that dotted keys made takes values by dotted keys only, every
other table by plain keys only. -/
def addValue (byDottedKey : Bool) (key : String) (new : Value) : Node → Option Node
  | table implicit dotted entries =>
    if dotted != byDottedKey || (lookup entries key).isSome then none
    else some (table implicit dotted (entries ++ [(key, value new)]))
  | _ => none

/-- A table whose entry at a key is opened by a header. -/
def openTable (key : String) : Node → Option Node
  | table implicit dotted entries =>
    match lookup entries key with
    | none => some (table implicit dotted (entries ++ [(key, emptyTable)]))
    | some (table true false children) =>
      some (table implicit dotted (store entries key (table false false children)))
    | some _ => none
  | _ => none

/-- A table whose entry at a key is an array with a new table at its end. -/
def openElement (key : String) : Node → Option Node
  | table implicit dotted entries =>
    match lookup entries key with
    | none => some (table implicit dotted (entries ++ [(key, tables [emptyTable])]))
    | some (tables elements) =>
      some (table implicit dotted (store entries key (tables (elements ++ [emptyTable]))))
    | some _ => none
  | _ => none

end Node

mutual

def Node.toValue : Node → Value
  | .value v => v
  | .table _ _ entries => .table (entryValues entries)
  | .tables elements => .array (elementValues elements)

def entryValues : List (String × Node) → List (String × Value)
  | [] => []
  | (key, node) :: rest => (key, node.toValue) :: entryValues rest

def elementValues : List Node → List Value
  | [] => []
  | node :: rest => node.toValue :: elementValues rest

end

/-- A table with a value at a dotted key. -/
def Node.assign (path : List String) (value : Value) (node : Node) : Option Node :=
  match path.getLast? with
  | none => none
  | some key =>
    node.descend (!path.dropLast.isEmpty) (Node.addValue (!path.dropLast.isEmpty) key value)
      path.dropLast

end NoteIndex.Data.Toml
