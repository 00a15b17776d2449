import NoteIndex.Navigation.Search
import NoteIndex.Workspace.Basic
import NoteIndex.Uri.Basic

/-! Questions of an editor about the element at a position. -/
namespace NoteIndex.Navigation

open Text Markup

/-- A range of a file. -/
structure Location where
  uri : String
  range : Range
  deriving DecidableEq, Repr

/-- The location of a range in the file of a path. Only absolute paths have one. -/
def location? (path : Path) (range : Range) : Option Location :=
  (Uri.ofPath? path).map fun uri => ⟨uri, range⟩

/-- Answers a question about the element at a position, if there is one. -/
def atElement {α : Type} (workspace : Workspace) (path : Path) (p : Position)
    (answer : Folder → Document → Element → α) : Step (Option α) := do
  let folder ← workspace.owner path
  return do
    let document ← folder.document? path
    let element ← elementAt? p document.elements
    return answer folder document element

/-- The references of the element at a position. -/
def references (workspace : Workspace) (path : Path) (p : Position) (includeDeclarations : Bool) :
    Step (Option (List Location)) :=
  atElement workspace path p fun folder document element =>
    (findReferences includeDeclarations folder document element).filterMap fun site =>
      location? site.document.path site.element.range

/-- A document as a whole is shown at its first character. -/
def Origin.range : Origin → Range
  | element site => site.element.range
  | document _ => ⟨⟨0, 0⟩, ⟨0, 1⟩⟩

/-- The definitions of the element at a position. -/
def definition (workspace : Workspace) (path : Path) (p : Position) :
    Step (Option (List Location)) :=
  atElement workspace path p fun folder document element =>
    (findDefinitions folder document element).filterMap fun origin =>
      location? origin.path origin.range

end NoteIndex.Navigation
