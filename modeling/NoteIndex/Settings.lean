import NoteIndex.Disk
import NoteIndex.Log
import NoteIndex.Data.Json
import NoteIndex.Data.Toml.Parser
import NoteIndex.Data.Layer

/-! Settings of a folder: defaults, over them those of the home directory, and over these the
folder's own. -/
namespace NoteIndex

structure Settings where
  /-- Extensions of the files that count as Markdown, in any letter case. -/
  markdownExtensions : List String
  /-- Whether ignore files count, or only the patterns that are always in force. -/
  respectIgnoreFiles : Bool
  ignoreFiles : List String
  deriving DecidableEq, Repr

namespace Settings

open Data

def default : Settings := ⟨["md"], true, [".ignore", ".gitignore"]⟩

/-- Why settings cannot be used. -/
inductive Fault where
  /-- The root has no text to name a settings file by. -/
  | rootNotText
  /-- A settings file cannot be read as what its extension says. -/
  | unreadable
  /-- A setting has a value of the wrong kind. -/
  | wrongKind
  deriving DecidableEq, Repr

/-- The contents of a settings file, given its path without extension. A file that is not there or
is no text counts as empty, and so do both files if a file without extension is in their place. -/
def file (disk : Disk) (base : Path) : Except Fault Value :=
  let read (extension : String) : Option (List Char) :=
    let path : Path := ⟨base.bytes ++ Text.utf8 extension⟩
    if disk.isFile path then (disk.readText path).toOption else none
  if disk.isFile base then .ok (.table [])
  else
    match read ".toml", read ".json" with
    | some text, _ =>
      match Toml.parse? text with
      | some value => .ok value
      | none => .error .unreadable
    | none, some text =>
      match Json.parse? text with
      | some (.table entries) => .ok (.table entries)
      | _ => .error .unreadable
    | none, none => .ok (.table [])

/-- A setting that is true or false. Numbers are true unless they are zero, and some words stand for
true or false in any letter case. -/
def asBool? : Value → Option Bool
  | .bool b => some b
  | .int n => some (n != 0)
  | .float x => some (!x.isZero)
  | .string s =>
    let word := Text.lowercaseString s
    if ["1", "true", "on", "yes"].contains word then some true
    else if ["0", "false", "off", "no"].contains word then some false
    else none
  | _ => none

def asString? : Value → Option String
  | .string s => some s
  | .bool b => some (if b then "true" else "false")
  | .int n => some (toString n)
  | .float x => some x.render
  | _ => none

def asStrings? : Value → Option (List String)
  | .array elements => elements.mapM asString?
  | _ => none

def toValue (settings : Settings) : Value :=
  .table [
    ("markdown_extensions", .array (settings.markdownExtensions.map .string)),
    ("respect_ignore_files", .bool settings.respectIgnoreFiles),
    ("ignore_files", .array (settings.ignoreFiles.map .string))]

def ofValue? (value : Value) : Option Settings := do
  return ⟨← asStrings? (← lookup value.entries "markdown_extensions"),
    ← asBool? (← lookup value.entries "respect_ignore_files"),
    ← asStrings? (← lookup value.entries "ignore_files")⟩

/-- The settings files that apply to a root, without their extensions. -/
def bases (home root : Path) : List Path :=
  [⟨home.bytes ++ Text.utf8 "/.config/marklink/settings"⟩, ⟨root.bytes ++ Text.utf8 "/.marklink"⟩]

/-- The settings for a root. -/
def load (machine : Machine) (root : Path) : Except Fault Settings := do
  if (Text.ofUtf8? root.bytes).isNone then throw .rootNotText
  let files ← (bases machine.home root).mapM (file machine.disk)
  match ofValue? (files.foldl Value.overlay default.toValue) with
  | some settings => return settings
  | none => throw .wrongKind

/-- The settings for a root, or the defaults if its files cannot be used. -/
def forRoot (machine : Machine) (root : Path) : Logged Settings :=
  match load machine root with
  | .ok settings => pure settings
  | .error _ => do
    Logged.note .defaultSettings
    return default

end Settings

end NoteIndex
