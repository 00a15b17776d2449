import NoteIndex.Text.Field
import NoteIndex.Uri.Basic

/-! Reading of URIs. -/
namespace NoteIndex.Uri

open Text

def isSchemeChar (c : Char) : Bool := c.isAlphanum || c == '+' || c == '-' || c == '.'

/-- The scheme in lower case and the text after it. -/
def scheme? (text : List Char) : Option (List Char × List Char) :=
  match text with
  | c :: _ =>
    match text.dropWhile isSchemeChar with
    | ':' :: rest =>
      if c.isAlpha then some ((text.takeWhile isSchemeChar).map Char.toLower, rest) else none
    | _ => none
  | [] => none

/-- Schemes whose URIs always have a host, with the numbers that usually follow it. -/
def hostSchemes : List (List Char × Nat) :=
  [("http".toList, 80), ("https".toList, 443), ("ws".toList, 80), ("wss".toList, 443),
    ("ftp".toList, 21)]

/-- A text cut before its fragment and query. -/
def splitEnd (text : List Char) : List Char × Option (List Char) × Option (List Char) :=
  let front := text.takeWhile (· != '#')
  let fragment := match text.dropWhile (· != '#') with
    | _ :: fragment => some fragment
    | [] => none
  let query := match front.dropWhile (· != '?') with
    | _ :: query => some query
    | [] => none
  (front.takeWhile (· != '?'), query, fragment)

/-- A segment of one dot, which may be escaped. -/
def isDot (segment : List Char) : Bool :=
  segment == ['.'] || segment.map Char.toLower == "%2e".toList

/-- A segment of two dots, which may be escaped. -/
def isDoubleDot (segment : List Char) : Bool :=
  ["..".toList, ".%2e".toList, "%2e.".toList, "%2e%2e".toList].contains (segment.map Char.toLower)

/-- The segments without the last one. A drive letter in a file path stays. -/
def shorten (isFile : Bool) (segments : List (List Char)) : List (List Char) :=
  match segments with
  | [[letter, ':']] => if isFile && letter.isAlpha then segments else []
  | segments => segments.dropLast

/-- Segments with those of dots followed. -/
def followDots (isFile : Bool) (before : List (List Char)) : List (List Char) → List (List Char)
  | [] => before
  | segment :: rest =>
    if isDoubleDot segment then
      let before := shorten isFile before
      followDots isFile (if rest.isEmpty then before ++ [[]] else before) rest
    else if isDot segment then
      followDots isFile (if rest.isEmpty then before ++ [[]] else before) rest
    else if isFile && before.isEmpty && isDriveLetter segment then
      followDots isFile [segment.take 1 ++ [':']] rest
    else followDots isFile (before ++ [escape pathReserved segment]) rest

/-- Segments without empty ones at the start, where one stays if there is nothing else. -/
def dropEmpty : List (List Char) → List (List Char)
  | [] => [[]]
  | [segment] => [segment]
  | [] :: rest => dropEmpty rest
  | segments => segments

/-- The segments of a path that follows a host. -/
def pathSegments (isFile special : Bool) (text : List Char) : List (List Char) :=
  let isSlash := fun c => c == '/' || (special && c == '\\')
  let text := match text with
    | c :: rest => if isSlash c then rest else text
    | [] => []
  let segments := followDots isFile [] (fields isSlash text)
  if isFile then dropEmpty segments else segments

/-- Characters that no host may hold. -/
def isForbiddenInHost (c : Char) : Bool :=
  c ≤ ' ' || c == '\x7f' || "#/:<>?@[\\]^|%".toList.contains c

/-- A host in normal form. -/
def normalHost (special : Bool) (text : List Char) : Except Fault (List Char) :=
  if text.head? == some '[' then .ok (text.map Char.toLower)
  else if special then
    match decodeUtf8? (percentDecode (encodeUtf8 text)) with
    | none => .error .invalidHost
    | some name =>
      if name.any fun c => isForbiddenInHost c || 0x7F < c.toNat then .error .invalidHost
      else .ok (name.map Char.toLower)
  else if text.any fun c => isForbiddenInHost c && c != '%' then .error .invalidHost
  else .ok (escape [] text)

/-- A text cut at the last place of a mark. -/
def splitLast (mark : Char) (text : List Char) : Option (List Char × List Char) :=
  match text.reverse.dropWhile (· != mark) with
  | [] => none
  | _ :: front =>
    some (front.reverse, (text.reverse.takeWhile (· != mark)).reverse)

/-- The user part of an authority in normal form. -/
def userPart (text : List Char) : List Char :=
  let user := escape userReserved (text.takeWhile (· != ':'))
  match text.dropWhile (· != ':') with
  | _ :: word =>
    if word.isEmpty then if user.isEmpty then [] else user ++ ['@']
    else user ++ [':'] ++ escape userReserved word ++ ['@']
  | [] => if user.isEmpty then [] else user ++ ['@']

/-- The number after a host in normal form: the usual one is left out. -/
def portPart (usual : Option Nat) (text : List Char) : Except Fault (List Char) :=
  if text.isEmpty then .ok []
  else if text.all Char.isDigit then
    let number := text.foldl (fun n c => n * 10 + (c.toNat - 48)) 0
    if 65535 < number then .error .invalidPort
    else if usual == some number then .ok []
    else .ok (':' :: (Nat.repr number).toList)
  else .error .invalidPort

/-- The host of an authority and the number after it. A colon in brackets belongs to the host. -/
def splitPort (text : List Char) : List Char × List Char :=
  if text.head? == some '[' then
    let inner := text.takeWhile (· != ']')
    match text.dropWhile (· != ']') with
    | close :: rest => (inner ++ [close], rest.drop 1)
    | [] => (text, [])
  else (text.takeWhile (· != ':'), (text.dropWhile (· != ':')).drop 1)

/-- An authority in normal form, and its host. -/
def normalAuthority (usual : Option Nat) (text : List Char) :
    Except Fault (List Char × Option (List Char)) := do
  let (user, rest) := match splitLast '@' text with
    | some (user, rest) => (userPart user, rest)
    | none => ([], text)
  let (name, number) := splitPort rest
  if name.isEmpty then
    if usual.isSome || !user.isEmpty then throw .emptyHost
    else return ([], none)
  else
    let name ← normalHost usual.isSome name
    return (user ++ name ++ (← portPart usual number), some name)

/-- A file URI, given the text after its scheme. -/
def ofFileText (text : List Char) (query fragment : Option (List Char)) : Except Fault Uri := do
  let isSlash := fun c => c == '/' || c == '\\'
  let make (host : Option (List Char)) (path : List Char) : Uri :=
    ⟨"file".toList, some (host.getD []), host, .segments (pathSegments true true path), query,
      fragment⟩
  match text with
  | a :: b :: rest =>
    if isSlash a && isSlash b then
      let name := rest.takeWhile (!isSlash ·)
      if isDriveLetter name || name.isEmpty then return make none rest
      else
        let name ← normalHost true name
        let path := rest.dropWhile (!isSlash ·)
        let startsAtDrive := (pathSegments true true path).head?.any isDriveLetter
        return make (if name == "localhost".toList || startsAtDrive then none else some name) path
    else return make none text
  | _ => return make none text

/-- Reads a URI. -/
def parse (text : String) : Except Fault Uri := do
  let isEdge := fun c => decide (c ≤ ' ')
  let text := dropEndWhile isEdge (text.toList.dropWhile isEdge)
  let text := text.filter fun c => c != '\t' && c != '\n' && c != '\r'
  let (scheme, rest) ← match scheme? text with
    | some found => pure found
    | none => throw .noScheme
  let usual := (hostSchemes.find? (·.1 == scheme)).map Prod.snd
  let isFile := scheme == "file".toList
  let special := isFile || usual.isSome
  let (front, query, fragment) := splitEnd rest
  let query := query.map (escape (queryReserved special))
  let fragment := fragment.map (escape fragmentReserved)
  if isFile then ofFileText front query fragment
  else if special then
    let isSlash := fun c => c == '/' || c == '\\'
    let inner := front.dropWhile isSlash
    let (written, host) ← normalAuthority usual (inner.takeWhile (!isSlash ·))
    return ⟨scheme, some written, host,
      .segments (pathSegments false true (inner.dropWhile (!isSlash ·))), query, fragment⟩
  else
    match front with
    | '/' :: '/' :: inner =>
      let (written, host) ← normalAuthority none (inner.takeWhile (· != '/'))
      let path := inner.dropWhile (· != '/')
      let tail : Tail := if path.isEmpty then .plain [] else .segments (pathSegments false false path)
      return ⟨scheme, some written, host, tail, query, fragment⟩
    | '/' :: _ => return ⟨scheme, none, none, .segments (pathSegments false false front), query, fragment⟩
    | _ => return ⟨scheme, none, none, .plain (escape [] front), query, fragment⟩

end NoteIndex.Uri
