import NoteIndex.Ignore
import NoteIndex.Settings
import NoteIndex.Workspace.Document

/-! Folders: a root directory and the documents below it. -/
namespace NoteIndex

/-- The documents of a folder are kept by the components of their paths, in path order. -/
structure Folder where
  name : String
  root : Path
  ignore : Ignore
  extensions : List String
  documents : Std.ExtTreeMap (List Component) Document

namespace Ignore

/-- The lines of an ignore file. A file that is not there has none. -/
def fileLines (disk : Disk) (root : Path) (name : String) : Except Failure (List String) :=
  match disk.readText (root.join name) with
  | .ok text => .ok ((Text.fields (· == '\n') text).map String.ofList)
  | .error .notFound => .ok []
  | .error fault => .error (.read (root.join name) fault)

/-- The patterns of all named ignore files of a root, in order, and after them the default ones. -/
def ofFiles (disk : Disk) (root : Path) (names : List String) : Except Failure Ignore := do
  let lines ← names.mapM (fileLines disk root)
  ofLines root (lines.flatten ++ defaultLines)

end Ignore

namespace Folder

/-- A folder without documents, with default settings. -/
def empty (name : String) (root : Path) : Folder :=
  ⟨name, root, Ignore.defaults root, Settings.default.markdownExtensions, ∅⟩

/-- Whether a path is the root or below it. -/
def owns (folder : Folder) (path : Path) : Bool := path.startsWith folder.root

def isIgnored (folder : Folder) (path : Path) : Bool := folder.ignore.isIgnored path

def isMarkdown (folder : Folder) (path : Path) : Bool :=
  match path.extension?.bind Text.ofUtf8? with
  | none => false
  | some extension => folder.extensions.any (Text.eqIgnoringAsciiCase · extension)

def document? (folder : Folder) (path : Path) : Option Document :=
  folder.documents[path.components]?

/-- Whether an editor has a document of the folder open. -/
def hasOpen (folder : Folder) (path : Path) : Bool :=
  (folder.document? path).any Document.isOpen

/-- The documents in path order. -/
def documentList (folder : Folder) : List Document := folder.documents.toList.map Prod.snd

/-- The name of a path relative to the root. -/
def key? (folder : Folder) (path : Path) : Option String := Path.key? folder.root path

def withDocument (folder : Folder) (document : Document) : Folder :=
  { folder with documents := folder.documents.insert document.path.components document }

def withoutDocument (folder : Folder) (path : Path) : Folder :=
  { folder with documents := folder.documents.erase path.components }

/-- The folder with the document of a path read again. Nothing changes if the file is gone. -/
def reload (disk : Disk) (folder : Folder) (path : Path) : Except Failure Folder := do
  match ← Document.load disk path with
  | some document => return folder.withDocument document
  | none => return folder

/-- The ignore patterns that settings ask for. -/
def ignoreFor (disk : Disk) (root : Path) (settings : Settings) : Except Failure Ignore :=
  if settings.respectIgnoreFiles then Ignore.ofFiles disk root settings.ignoreFiles
  else .ok (Ignore.defaults root)

/-- Reads all Markdown files at or below a root. Ignored directories are not entered, and ignored
files are left out. -/
def scan (disk : Disk) (name : String) (root : Path) (settings : Settings) :
    Except Failure Folder := do
  let folder : Folder :=
    ⟨name, root, ← ignoreFor disk root settings, settings.markdownExtensions, ∅⟩
  let paths := disk.filePaths (fun path => !folder.isIgnored path) root
  (paths.filter folder.isMarkdown).foldlM (reload disk) folder

/-- The folder of a root, unless there is nothing at the root. Directories that may not be listed are
noted. -/
def scan? (disk : Disk) (name : String) (root : Path) (settings : Settings) :
    Step (Option Folder) := do
  if disk.doesExist root then
    let folder ← scan disk name root settings
    let closed := disk.closedPaths (fun path => !folder.isIgnored path) root
    Step.noteAll (closed.map fun _ => .unreadableDirectory)
    return some folder
  else
    Step.note .missingFolder
    return none

end Folder

end NoteIndex
