import NoteIndex.Workspace.Folder

/-! The workspace: all folders at one moment. -/
namespace NoteIndex

/-- The editor at the other end. -/
structure Client where
  name : String
  version : Option String
  deriving DecidableEq, Repr

/-- A folder to take in: its name and its root. -/
structure FolderSpec where
  name : String
  root : Path
  deriving DecidableEq, Repr

/-- The folders are kept by the components of their roots, in path order. The revision counts the
changes. It is a number without a bound: 64 bits, in which it would start again, are never used up. -/
structure Workspace where
  client : Option Client
  folders : Std.ExtTreeMap (List Component) Folder
  revision : Nat

namespace Workspace

/-- A workspace of given folders, at least one. Of two with one root the later counts. -/
def ofFolders (client : Option Client) (folders : List Folder) : Except Failure Workspace :=
  if folders.isEmpty then .error .noFolders
  else
    .ok ⟨client, folders.foldl (fun all folder => all.insert folder.root.components folder) ∅, 0⟩

/-- The workspace of scanned folders. Folders whose roots do not exist are left out. -/
def ofSpecs (disk : Disk) (client : Option Client) (specs : List FolderSpec)
    (settingsFor : Path → Logged Settings) : Step Workspace := do
  let folders ← specs.mapM fun spec => do
    Folder.scan? disk spec.name spec.root (← settingsFor spec.root)
  ofFolders client (folders.filterMap id)

/-- The folders in the order of their roots. -/
def folderList (workspace : Workspace) : List Folder := workspace.folders.toList.map Prod.snd

def folder? (workspace : Workspace) (root : Path) : Option Folder :=
  workspace.folders[root.components]?

/-- The first folder, in the order of roots, that owns a path. -/
def owner? (workspace : Workspace) (path : Path) : Option Folder :=
  workspace.folderList.find? (·.owns path)

/-- The folder that owns a path, which has to exist. -/
def owner (workspace : Workspace) (path : Path) : Step Folder :=
  match workspace.owner? path with
  | some folder => return folder
  | none => do
    Step.note .outsideFolders
    throw (.unowned path)

def document? (workspace : Workspace) (path : Path) : Step (Option Document) := do
  return (← workspace.owner path).document? path

/-- The next revision of a workspace. -/
def bumped (workspace : Workspace) : Workspace :=
  { workspace with revision := workspace.revision + 1 }

/-- The workspace with a folder in the place of the one with its root. -/
def withFolder (workspace : Workspace) (folder : Folder) : Workspace :=
  { workspace with
    folders := workspace.folders.insert folder.root.components folder
    revision := workspace.revision + 1 }

def upsert (workspace : Workspace) (document : Document) : Step Workspace := do
  return workspace.withFolder ((← workspace.owner document.path).withDocument document)

def remove (workspace : Workspace) (path : Path) : Step Workspace := do
  return workspace.withFolder ((← workspace.owner path).withoutDocument path)

def reload (disk : Disk) (workspace : Workspace) (path : Path) : Step Workspace := do
  let folder ← workspace.owner path
  return workspace.withFolder (← Folder.reload disk folder path)

/-- The workspace without a folder. -/
def dropFolder (workspace : Workspace) (root : Path) : Logged Workspace := do
  if !workspace.folders.contains root.components then Logged.note .unknownFolder
  return { workspace with folders := workspace.folders.erase root.components }

/-- The workspace with a newly scanned folder. One that cannot be scanned is left out. -/
def addFolder (disk : Disk) (settingsFor : Path → Logged Settings) (workspace : Workspace)
    (spec : FolderSpec) : Logged Workspace := do
  match ← (Folder.scan? disk spec.name spec.root (← settingsFor spec.root)).run with
  | .ok (some folder) =>
    return { workspace with folders := workspace.folders.insert spec.root.components folder }
  | .ok none => return workspace
  | .error _ =>
    Logged.note .failedFolder
    return workspace

/-- The workspace after folders have been removed and then others added. -/
def reconcile (disk : Disk) (workspace : Workspace) (added : List FolderSpec)
    (removed : List Path) (settingsFor : Path → Logged Settings) : Logged Workspace := do
  let rest ← removed.foldlM dropFolder workspace
  return (← added.foldlM (addFolder disk settingsFor) rest).bumped

end Workspace

end NoteIndex
