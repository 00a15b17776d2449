import NoteIndex.Data.Layer
import NoteIndex.Uri.Parser
import NoteIndex.Workspace.Basic

/-! Messages of an editor. -/
namespace NoteIndex.Server

open Data Text

/-- Why the parameters of a message cannot be used. -/
inductive ParamFault where
  | noParams
  | missing (field : String)
  | wrongKind (field : String)
  | badUri (text : String) (fault : Uri.Fault)
  deriving DecidableEq, Repr

/-- A text in quotes, with escapes. -/
def quoted (text : String) : String :=
  let inner := text.toList.flatMap fun c =>
    match c with
    | '\x22' => ['\\', '\x22']
    | '\\' => ['\\', '\\']
    | '\n' => ['\\', 'n']
    | '\r' => ['\\', 'r']
    | '\t' => ['\\', 't']
    | c => [c]
  "\"" ++ String.ofList inner ++ "\""

def ParamFault.message : ParamFault → String
  | noParams => "Missing params field"
  | missing field => "missing field \x60" ++ field ++ "\x60"
  | wrongKind field => "invalid type of field \x60" ++ field ++ "\x60"
  | badUri text fault => "invalid value: string " ++ quoted text ++ ", expected " ++ fault.message

abbrev Params (α : Type) := Except ParamFault α

/-- A folder as an editor names it. -/
structure FolderUri where
  name : String
  uri : Uri

/-- What an editor wants at its start. -/
structure StartParams where
  client : Option Client
  folders : Option (List FolderUri)
  root : Option Uri

inductive Notification where
  | ready
  | opened (uri : Uri) (text : String) (version : Int32)
  | changed (uri : Uri) (version : Int32) (edits : List Edit)
  | closed (uri : Uri)
  | created (uris : List String)
  | deleted (uris : List String)
  | foldersChanged (added removed : List FolderUri)

inductive Request where
  | start (params : StartParams)
  | stop
  | definition (uri : Uri) (position : Position)
  | references (uri : Uri) (position : Position) (includeDeclarations : Bool)

/-- A member of an object. Null counts as missing. -/
def member? (value : Value) (field : String) : Option Value :=
  match lookup value.entries field with
  | some .null => none
  | found => found

def member (value : Value) (field : String) : Params Value :=
  match member? value field with
  | some found => .ok found
  | none => .error (.missing field)

def stringMember (value : Value) (field : String) : Params String := do
  match ← member value field with
  | .string s => return s
  | _ => throw (.wrongKind field)

def boolMember (value : Value) (field : String) : Params Bool := do
  match ← member value field with
  | .bool b => return b
  | _ => throw (.wrongKind field)

def listMember (value : Value) (field : String) : Params (List Value) := do
  match ← member value field with
  | .array elements => return elements
  | _ => throw (.wrongKind field)

/-- A whole number within bounds. -/
def intMember (low high : Int) (value : Value) (field : String) : Params Int := do
  match ← member value field with
  | .int n => if low ≤ n && n ≤ high then return n else throw (.wrongKind field)
  | _ => throw (.wrongKind field)

def versionMember (value : Value) : Params Int32 := do
  return Int32.ofInt (← intMember Int32.minValue.toInt Int32.maxValue.toInt value "version")

def uriMember (value : Value) (field : String) : Params Uri := do
  let text ← stringMember value field
  match Uri.parse text with
  | .ok uri => return uri
  | .error fault => throw (.badUri text fault)

def position (value : Value) : Params Position := do
  let line ← intMember 0 (UInt32.size - 1) value "line"
  let character ← intMember 0 (UInt32.size - 1) value "character"
  return ⟨UInt32.ofNat line.toNat, UInt32.ofNat character.toNat⟩

def range (value : Value) : Params Range := do
  return ⟨← position (← member value "start"), ← position (← member value "end")⟩

def edit (value : Value) : Params Edit := do
  let range ← match member? value "range" with
    | none => pure none
    | some found => some <$> range found
  return ⟨range, ← stringMember value "text"⟩

def folderUri (value : Value) : Params FolderUri := do
  let uri ← uriMember value "uri"
  return ⟨← stringMember value "name", uri⟩

def client (value : Value) : Params Client := do
  let version ← match member? value "version" with
    | none => pure none
    | some _ => some <$> stringMember value "version"
  return ⟨← stringMember value "name", version⟩

/-- A member that may be missing. -/
def optional {α : Type} (value : Value) (field : String) (read : Value → Params α) :
    Params (Option α) :=
  match member? value field with
  | none => .ok none
  | some found => some <$> read found

def startParams (params : Value) : Params StartParams := do
  let root ← optional params "rootUri" fun _ => uriMember params "rootUri"
  let _ ← member params "capabilities"
  let folders ← optional params "workspaceFolders" fun _ => do
    (← listMember params "workspaceFolders").mapM folderUri
  let client ← optional params "clientInfo" client
  return ⟨client, folders, root⟩

def fileUris (params : Value) : Params (List String) := do
  (← listMember params "files").mapM fun file => stringMember file "uri"

/-- The notification of a method, unless the server does not know it. -/
def notification (method : String) (params : Value) : Params (Option Notification) := do
  match method with
  | "initialized" =>
    match params with
    | .table _ => return some .ready
    | _ => throw .noParams
  | "textDocument/didOpen" =>
    let document ← member params "textDocument"
    let uri ← uriMember document "uri"
    let _ ← stringMember document "languageId"
    let version ← versionMember document
    return some (.opened uri (← stringMember document "text") version)
  | "textDocument/didChange" =>
    let document ← member params "textDocument"
    return some (.changed (← uriMember document "uri") (← versionMember document)
      (← (← listMember params "contentChanges").mapM edit))
  | "textDocument/didClose" =>
    return some (.closed (← uriMember (← member params "textDocument") "uri"))
  | "workspace/didCreateFiles" => return some (.created (← fileUris params))
  | "workspace/didDeleteFiles" => return some (.deleted (← fileUris params))
  | "workspace/didChangeWorkspaceFolders" =>
    let event ← member params "event"
    return some (.foldersChanged (← (← listMember event "added").mapM folderUri)
      (← (← listMember event "removed").mapM folderUri))
  | _ => return none

/-- The document and position that a request names. -/
def documentPosition (params : Value) : Params (Uri × Position) := do
  let uri ← uriMember (← member params "textDocument") "uri"
  return (uri, ← position (← member params "position"))

/-- The request of a method, unless the server does not know it. -/
def request (method : String) (params : Option Value) : Params (Option Request) := do
  let required : Params Value := match params with
    | some params => .ok params
    | none => .error .noParams
  match method with
  | "initialize" => return some (.start (← startParams (← required)))
  | "shutdown" => return some .stop
  | "textDocument/definition" =>
    let (uri, position) ← documentPosition (← required)
    return some (.definition uri position)
  | "textDocument/references" =>
    let (uri, position) ← documentPosition (← required)
    let declarations ← boolMember (← member (← required) "context") "includeDeclaration"
    return some (.references uri position declarations)
  | _ => return none

end NoteIndex.Server
