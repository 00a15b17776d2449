import NoteIndex.Workspace.Basic

/-! What happens to a workspace when an editor or the disk changes documents. -/
namespace NoteIndex.Workspace

/-- An editor opens a document. -/
def openDocument (workspace : Workspace) (path : Path) (text : String) (version : Int32) :
    Step Workspace :=
  workspace.upsert (Document.opened path text version)

/-- An editor edits a document. Edits of a document that is not there are noted and dropped. -/
def changeDocument (workspace : Workspace) (path : Path) (version : Option Int32)
    (edits : List Edit) : Step Workspace := do
  match (← workspace.owner path).document? path with
  | none =>
    Step.note .unindexedChange
    return workspace.bumped
  | some document => workspace.upsert (← document.change version edits)

/-- An editor closes a document. What is on the disk takes its place. -/
def closeDocument (disk : Disk) (workspace : Workspace) (path : Path) : Step Workspace := do
  match ← Document.load disk path with
  | some document => workspace.upsert document
  | none => workspace.remove path

/-- A file has been created. It counts if it is Markdown, not ignored and not open. -/
def createFile (disk : Disk) (workspace : Workspace) (path : Path) : Step Workspace := do
  let folder ← workspace.owner path
  if !folder.isMarkdown path || folder.isIgnored path || folder.hasOpen path then return workspace
  else reload disk workspace path

/-- Files have been created. -/
def createFiles (disk : Disk) (workspace : Workspace) (paths : List Path) : Step Workspace :=
  paths.foldlM (createFile disk) workspace.bumped

/-- A file has been deleted. It stays in the index while it is open. -/
def deleteFile (workspace : Workspace) (path : Path) : Step Workspace := do
  let folder ← workspace.owner path
  if folder.hasOpen path then return workspace else workspace.remove path

/-- Files have been deleted. -/
def deleteFiles (workspace : Workspace) (paths : List Path) : Step Workspace :=
  paths.foldlM deleteFile workspace.bumped

end NoteIndex.Workspace
