import NoteIndex.Data.Toml.Scalar
import NoteIndex.Data.Toml.Table

/-! Reading of TOML texts. -/
namespace NoteIndex.Data.Toml

def isBareKeyChar (c : Char) : Bool := c.isAlphanum || c == '_' || c == '-'

/-- One part of a key, bare or quoted. -/
def simpleKey? (text : List Char) : Option (String × List Char) :=
  match text.takeWhile isBareKeyChar with
  | [] => (shortString? text).map fun (chars, rest) => (String.ofList chars, rest)
  | key => some (String.ofList key, text.dropWhile isBareKeyChar)

/-- The parts of a key, with dots between them. -/
def keyParts? : Nat → List Char → Option (List String × List Char)
  | 0, _ => none
  | fuel + 1, text => do
    let (key, rest) ← simpleKey? (skipSpace text)
    match skipSpace rest with
    | '.' :: rest =>
      let (keys, rest) ← keyParts? fuel rest
      return (key :: keys, rest)
    | rest => return ([key], rest)

/-- How deep values and keys may be nested. -/
def depthLimit : Nat := 80

def key? (text : List Char) : Option (List String × List Char) := do
  let (keys, rest) ← keyParts? (text.length + 1) text
  if keys.length < depthLimit then some (keys, rest) else none

/-- The text after a comment up to the end of the line. -/
def skipComment (text : List Char) : List Char :=
  match text with
  | '#' :: rest => rest.dropWhile isTextChar
  | _ => text

/-- The text without leading blanks, line breaks and comments. -/
def skipFiller : Nat → List Char → List Char
  | 0, text => text
  | fuel + 1, text =>
    let rest := skipComment (skipSpace text)
    match newline? rest with
    | some rest => skipFiller fuel rest
    | none => rest

mutual

/-- A value, with at most `depth` levels of arrays and inline tables. -/
def value? : Nat → Nat → List Char → Option (Value × List Char)
  | 0, _, _ => none
  | fuel + 1, depth, text =>
    match text with
    | '"' :: _ => string? text
    | '\'' :: _ => string? text
    | 't' :: 'r' :: 'u' :: 'e' :: rest => some (.bool true, rest)
    | 'f' :: 'a' :: 'l' :: 's' :: 'e' :: rest => some (.bool false, rest)
    | '[' :: rest =>
      match depth with
      | 0 => none
      | depth + 1 => (elements? fuel depth rest).map fun (vs, rest) => (.array vs, rest)
    | '\x7b' :: rest =>
      match depth, skipSpace rest with
      | 0, _ => none
      | _, '\x7d' :: rest => some (.table [], rest)
      | depth + 1, rest =>
        (members? fuel depth .emptyTable rest).map fun (node, rest) => (node.toValue, rest)
    | _ => numeric? text

/-- The elements of an array up to its end. A comma may follow the last one. -/
def elements? : Nat → Nat → List Char → Option (List Value × List Char)
  | 0, _, _ => none
  | fuel + 1, depth, text =>
    match skipFiller text.length text with
    | ']' :: rest => some ([], rest)
    | text => do
      let (value, rest) ← value? fuel depth text
      match skipFiller rest.length rest with
      | ',' :: rest =>
        let (values, rest) ← elements? fuel depth rest
        return (value :: values, rest)
      | ']' :: rest => return ([value], rest)
      | _ => none

/-- The members of an inline table up to its end, after those read before. -/
def members? : Nat → Nat → Node → List Char → Option (Node × List Char)
  | 0, _, _, _ => none
  | fuel + 1, depth, node, text => do
    let (key, rest) ← key? text
    let rest ← mark? '=' rest
    let (value, rest) ← value? fuel depth (skipSpace rest)
    let node ← node.assign key value
    match skipSpace rest with
    | ',' :: rest => members? fuel depth node rest
    | '\x7d' :: rest => return (node, rest)
    | _ => none

end

/-- The text after the end of a line, where only blanks and a comment may stand. -/
def endLine? (text : List Char) : Option (List Char) :=
  match skipComment (skipSpace text) with
  | [] => some []
  | rest => newline? rest

/-- The header of a table, given the text after its opening bracket. -/
def tableHeader? (root : Node) (text : List Char) : Option (Node × List String × List Char) := do
  let (key, rest) ← key? text
  let rest ← mark? ']' rest
  let root ← root.descend false (Node.openTable (key.getLastD "")) key.dropLast
  return (root, key, rest)

/-- The header of a table in an array, given the text after its opening brackets. -/
def elementHeader? (root : Node) (text : List Char) : Option (Node × List String × List Char) := do
  let (key, rest) ← key? text
  let rest ← mark? ']' (← mark? ']' rest)
  let root ← root.descend false (Node.openElement (key.getLastD "")) key.dropLast
  return (root, key, rest)

/-- A value at a key of the table that the last header has opened. -/
def keyValue? (root : Node) (current : List String) (text : List Char) :
    Option (Node × List String × List Char) := do
  let (key, rest) ← key? text
  let rest ← mark? '=' rest
  let (value, rest) ← value? (2 * text.length + 2) depthLimit (skipSpace rest)
  let root ← root.descend false (Node.assign key value) current
  return (root, current, rest)

/-- The lines of a text, given what earlier lines have built and the table that they have opened. -/
def lines? : Nat → Node → List String → List Char → Option Node
  | 0, _, _, _ => none
  | fuel + 1, root, current, text => do
    let text := skipFiller text.length text
    let (root, current, rest) ← match text with
      | [] => return root
      | '[' :: '[' :: rest => elementHeader? root rest
      | '[' :: rest => tableHeader? root rest
      | _ => keyValue? root current text
    lines? fuel root current (← endLine? rest)

/-- The table of a TOML text, which a byte order mark may precede. -/
def parse? (text : List Char) : Option Value := do
  let text := match text with
    | '\ufeff' :: rest => rest
    | _ => text
  return (← lines? (text.length + 1) .emptyTable [] text).toValue

end NoteIndex.Data.Toml
