import NoteIndex.Navigation.Query
import NoteIndex.Server.Capabilities
import NoteIndex.Server.Message
import NoteIndex.Workspace.Event

/-! A session: the life of the server from its start to its stop, message by message. -/
namespace NoteIndex.Server

open Data Text

/-- A session has a workspace after a successful start and until it is stopped. -/
inductive Session where
  | fresh
  | running (workspace : Workspace)
  | stopped

/-- Errors that an editor is told. -/
inductive RpcError where
  | notStarted
  | invalidRequest
  | invalidParams (message : String)
  | unknownMethod (method : String)
  | failedStart (failure : Failure)

def RpcError.toValue : RpcError → Value
  | notStarted => error (-32002) "Server not initialized"
  | invalidRequest => error (-32600) "Invalid request"
  | invalidParams message => error (-32602) message
  | unknownMethod method =>
    .table [("code", .int (-32601)), ("message", .string "Method not found"), ("data", .string method)]
  | failedStart failure => error (-32603) failure.message
where
  error (code : Int) (message : String) : Value :=
    .table [("code", .int code), ("message", .string message)]

/-- What a message leads to. -/
structure Reply where
  response : Option Value
  /-- Messages of the server's own. -/
  sent : List Value
  log : List Notice

def Reply.silent : Reply := ⟨none, [], []⟩

def respond (id : Value) (log : List Notice) : Except RpcError Value → Reply
  | .ok result => ⟨some (.table [("id", id), ("result", result)]), [], log⟩
  | .error error => ⟨some (.table [("id", id), ("error", error.toValue)]), [], log⟩

def readyMessage : Value :=
  .table [
    ("jsonrpc", .string "2.0"),
    ("method", .string "window/logMessage"),
    ("params", .table [("type", .int 3), ("message", .string "marklink ready")])]

/-- The folder of a file URI. Others are noted and left out. -/
def folderSpec? (folder : FolderUri) : Logged (Option FolderSpec) := do
  match folder.uri.filePath? with
  | some root => return some ⟨folder.name, root⟩
  | none =>
    Logged.note .nonFileFolder
    return none

def folderSpecs (folders : List FolderUri) : Logged (List FolderSpec) := do
  return (← folders.mapM folderSpec?).filterMap id

/-- The folders to start with: those that the editor lists, or else its root. -/
def initialFolders (params : StartParams) : Logged (List FolderSpec) := do
  match params.folders with
  | some folders => folderSpecs folders
  | none =>
    return (params.root.bind Uri.filePath?).toList.map fun root =>
      ⟨String.ofList (decodeLossy ((Path.fileName? root.components).getD [])), root⟩

/-- Starts a session: scans the folders and tells what the server can do. -/
def startWorkspace (machine : Machine) (params : StartParams) : Step (Workspace × Value) := do
  let specs ← initialFolders params
  let settings ← specs.mapM fun spec => do
    return (spec.root.components, ← Settings.forRoot machine spec.root)
  let settingsFor (root : Path) : Logged Settings :=
    return ((settings.find? (·.1 == root.components)).map Prod.snd).getD Settings.default
  let workspace ← Workspace.ofSpecs machine.disk params.client specs settingsFor
  let extensions :=
    if settings.isEmpty then Settings.default.markdownExtensions
    else settings.flatMap fun entry => entry.2.markdownExtensions
  return (workspace, welcome extensions)

/-- Changes the workspace. A change that fails is noted and leaves it as it is. -/
def update (workspace : Workspace) (change : Step Workspace) : Logged Workspace := do
  match ← change.run with
  | .ok next => return next
  | .error _ =>
    Logged.note .failedEvent
    return workspace

/-- Changes the workspace at the path of a file URI. Other URIs are noted. -/
def updateAt (workspace : Workspace) (uri : Uri) (change : Path → Step Workspace) :
    Logged Workspace := do
  match uri.filePath? with
  | some path => update workspace (change path)
  | none =>
    Logged.note .nonFileDocument
    return workspace

/-- The paths of those texts that are file URIs. -/
def filePaths (uris : List String) : List Path :=
  uris.filterMap fun text => (Uri.parse text).toOption.bind Uri.filePath?

/-- The workspace after a notification. -/
def notified (machine : Machine) (workspace : Workspace) : Notification → Logged Workspace
  | .ready => return workspace
  | .opened uri text version =>
    updateAt workspace uri fun path => workspace.openDocument path text version
  | .changed uri version edits =>
    updateAt workspace uri fun path => workspace.changeDocument path (some version) edits
  | .closed uri => updateAt workspace uri (Workspace.closeDocument machine.disk workspace)
  | .created uris => update workspace (Workspace.createFiles machine.disk workspace (filePaths uris))
  | .deleted uris => update workspace (workspace.deleteFiles (filePaths uris))
  | .foldersChanged added removed => do
    let added ← folderSpecs added
    let removed := removed.filterMap fun folder => folder.uri.filePath?
    Workspace.reconcile machine.disk workspace added removed (Settings.forRoot machine)

def positionValue (p : Position) : Value :=
  .table [("line", .int p.line.toNat), ("character", .int p.character.toNat)]

def locationValue (location : Navigation.Location) : Value :=
  .table [
    ("uri", .string location.uri),
    ("range", .table [
      ("start", positionValue location.range.start),
      ("end", positionValue location.range.stop)])]

/-- Answers a query about a file. One that fails is noted and has no result. -/
def query (id : Value) (uri : Uri)
    (ask : Path → Step (Option (List Navigation.Location))) : Reply :=
  match uri.filePath? with
  | none => respond id [] (.error (.invalidParams ("not a file URI: " ++ uri.render)))
  | some path =>
    let step := ask path
    match step.outcome with
    | .ok (some locations) => respond id step.log (.ok (.array (locations.map locationValue)))
    | .ok none => respond id step.log (.ok .null)
    | .error _ => respond id (step.log ++ [.failedRequest]) (.ok .null)

/-- Answers a request. -/
def answer (machine : Machine) (session : Session) (id : Value) (method : String)
    (params : Option Value) : Session × Reply :=
  match request method params with
  | .error fault =>
    match session, method with
    | .fresh, "initialize" => (session, respond id [] (.error (.invalidParams fault.message)))
    | .fresh, _ => (session, respond id [] (.error .notStarted))
    | .running _, "initialize" => (session, respond id [] (.error .invalidRequest))
    | .running _, _ => (session, respond id [] (.error (.invalidParams fault.message)))
    | .stopped, _ => (session, respond id [] (.error .invalidRequest))
  | .ok none =>
    match session with
    | .fresh => (session, respond id [] (.error .notStarted))
    | .running _ => (session, respond id [] (.error (.unknownMethod method)))
    | .stopped => (session, respond id [] (.error .invalidRequest))
  | .ok (some (.start params)) =>
    match session with
    | .fresh =>
      let step := startWorkspace machine params
      match step.outcome with
      | .ok (workspace, result) => (.running workspace, respond id step.log (.ok result))
      | .error failure => (.fresh, respond id step.log (.error (.failedStart failure)))
    | _ => (session, respond id [] (.error .invalidRequest))
  | .ok (some request) =>
    match session, request with
    | .fresh, _ => (session, respond id [] (.error .notStarted))
    | .stopped, _ => (session, respond id [] (.error .invalidRequest))
    | .running _, .stop => (.stopped, respond id [] (.ok .null))
    | .running workspace, .definition uri position =>
      (session, query id uri fun path => Navigation.definition workspace path position)
    | .running workspace, .references uri position declarations =>
      (session, query id uri fun path => Navigation.references workspace path position declarations)
    | .running _, .start _ => (session, respond id [] (.error .invalidRequest))

/-- Takes note of a notification. Those that come outside a running session, or that the server
cannot make out, are dropped. -/
def notify (machine : Machine) (session : Session) (method : String) (params : Value) :
    Session × Reply :=
  match session, notification method params with
  | .running workspace, .ok (some notification) =>
    let next := notified machine workspace notification
    let sent := match notification with
      | .ready => [readyMessage]
      | _ => []
    (.running next.value, ⟨none, sent, next.log⟩)
  | _, _ => (session, .silent)

/-- Handles a message: a request has an identifier, a notification has none. -/
def Session.handle (machine : Machine) (session : Session) (message : Value) : Session × Reply :=
  match lookup message.entries "method" with
  | some (.string method) =>
    match lookup message.entries "id" with
    | some id => answer machine session id method (lookup message.entries "params")
    | none => notify machine session method ((lookup message.entries "params").getD .null)
  | _ => (session, .silent)

end NoteIndex.Server
