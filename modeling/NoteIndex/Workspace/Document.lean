import NoteIndex.Disk
import NoteIndex.Log
import NoteIndex.Markup.Element

/-! Documents: texts with their elements, and the edits that change them. -/
namespace NoteIndex

open Text Markup

/-- A Markdown file as the index knows it. It has a version only while an editor has it open. -/
structure Document where
  path : Path
  version : Option Int32
  text : String
  elements : List Element
  elements_eq : elements = parse text
  deriving DecidableEq

/-- A change of a text: new text in the place of a range, or of everything. -/
structure Edit where
  range : Option Range
  text : String
  deriving DecidableEq, Repr

namespace Edit

/-- Characters in the place of those from `first` up to `last`. -/
def splice (text : List Char) (first last : Nat) (new : List Char) : List Char :=
  text.take first ++ new ++ text.drop last

/-- The text after an edit. A range that ends before its start is empty. -/
def apply (edit : Edit) (text : String) : String :=
  match edit.range with
  | none => edit.text
  | some range =>
    let first := charOfPosition text.toList range.start
    let last := max (charOfPosition text.toList range.stop) first
    String.ofList (splice text.toList first last edit.text.toList)

/-- The text after edits in order. -/
def applyAll (edits : List Edit) (text : String) : String :=
  edits.foldl (fun text edit => edit.apply text) text

end Edit

namespace Document

def ofText (path : Path) (version : Option Int32) (text : String) : Document :=
  ⟨path, version, text, parse text, rfl⟩

/-- A document that an editor has opened. -/
def opened (path : Path) (text : String) (version : Int32) : Document :=
  ofText path (some version) text

/-- The document of a file, if there is one. Bytes that are not UTF-8 are replaced. -/
def load (disk : Disk) (path : Path) : Except Failure (Option Document) :=
  match disk.read path with
  | .ok bytes => .ok (some (ofText path none (String.ofList (decodeLossy bytes))))
  | .error .notFound => .ok none
  | .error fault => .error (.read path fault)

/-- Whether a version follows from another one by a number of edits. A missing version fits. -/
def versionFits (current new : Option Int32) (edits : Nat) : Bool :=
  match current, new with
  | some current, some new => current + Int32.ofNat edits == new
  | _, _ => true

/-- The document after edits. A version that does not follow from the one before is noted, and
taken over all the same. -/
def change (document : Document) (version : Option Int32) (edits : List Edit) : Logged Document := do
  if !versionFits document.version version edits.length then Logged.note .unexpectedVersion
  return ofText document.path (version <|> document.version) (Edit.applyAll edits document.text)

def isOpen (document : Document) : Bool := document.version.isSome

def title? (document : Document) : Option Heading := document.elements.findSome? Element.asTitle?

end Document

end NoteIndex
