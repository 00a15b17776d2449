import NoteIndex.Proofs.Workspace.Coherence

/-! Runs: operations one after the other, each on the disk as it is at that moment. An operation
that fails leaves the workspace as it is. Whatever the run, folders stay under their roots and
documents under their paths. -/
namespace NoteIndex

open Markup

/-- What an editor or the disk reports. -/
inductive Event where
  | opened (path : Path) (text : String) (version : Int32)
  | changed (path : Path) (version : Option Int32) (edits : List Edit)
  | closed (path : Path)
  | created (paths : List Path)
  | deleted (paths : List Path)

def Event.step (disk : Disk) (workspace : Workspace) : Event → Step Workspace
  | .opened path text version => workspace.openDocument path text version
  | .changed path version edits => workspace.changeDocument path version edits
  | .closed path => workspace.closeDocument disk path
  | .created paths => workspace.createFiles disk paths
  | .deleted paths => workspace.deleteFiles paths

/-- Everything that changes a workspace. -/
inductive Operation where
  | event (event : Event)
  | remove (path : Path)
  | reload (path : Path)
  | reconcile (added : List FolderSpec) (removed : List Path)
      (settingsFor : Path → Logged Settings)

def Operation.step (disk : Disk) (workspace : Workspace) : Operation → Step Workspace
  | .event reported => reported.step disk workspace
  | .remove path => workspace.remove path
  | .reload path => workspace.reload disk path
  | .reconcile added removed settingsFor =>
    liftM (workspace.reconcile disk added removed settingsFor)

namespace Workspace

/-- The workspace after a step, which may fail. -/
def after (workspace : Workspace) (step : Step Workspace) : Workspace :=
  match step.outcome with
  | .ok next => next
  | .error _ => workspace

lemma after_of_ok {workspace next : Workspace} {step : Step Workspace}
    (h : step.outcome = .ok next) : workspace.after step = next := by
  simp [after,h]

/-- The workspace after several steps, each with the disk that it finds. -/
def run {α : Type} (step : Disk → Workspace → α → Step Workspace) (workspace : Workspace)
    (moves : List (Disk × α)) : Workspace :=
  moves.foldl (fun current move => current.after (step move.1 current move.2)) workspace

lemma run_append {α : Type} (step : Disk → Workspace → α → Step Workspace) (workspace : Workspace)
    (first second : List (Disk × α)) :
    workspace.run step (first ++ second) = (workspace.run step first).run step second := by
  simp [run,List.foldl_append]

lemma after_preserves {P : Workspace → Prop} {workspace : Workspace} {step : Step Workspace}
    (hstep : ∀ next, step.outcome = .ok next → P next) (h : P workspace) :
    P (workspace.after step) := by
  unfold after
  split
  · exact hstep _ ‹_›
  · exact h

/-- What every successful step of a run preserves holds after the run. -/
theorem run_preserves_of_mem {α : Type} {step : Disk → Workspace → α → Step Workspace}
    {P : Workspace → Prop} {moves : List (Disk × α)}
    (hstep : ∀ move ∈ moves, ∀ current next, (step move.1 current move.2).outcome = .ok next →
      P current → P next) {workspace : Workspace} (h : P workspace) :
    P (workspace.run step moves) := by
  apply List.foldlRecOn _ _ h
  intro current hcurrent move hmove
  exact after_preserves (fun next hnext => hstep move hmove current next hnext hcurrent) hcurrent

/-- What every successful step preserves holds after every run. -/
theorem run_preserves {α : Type} {step : Disk → Workspace → α → Step Workspace}
    {P : Workspace → Prop}
    (hstep : ∀ disk current move next, (step disk current move).outcome = .ok next → P current →
      P next) {workspace : Workspace} (h : P workspace) (moves : List (Disk × α)) :
    P (workspace.run step moves) :=
  run_preserves_of_mem (fun move _ current next => hstep move.1 current move.2 next) h

/-- No event takes a path away from its owner. -/
theorem keeps_of_event {workspace next : Workspace} (h : workspace.Keyed) {disk : Disk} {event : Event}
    (hok : (event.step disk workspace).outcome = .ok next) : workspace.Keeps next := by
  cases event with
  | opened q text version => exact (sets_of_upsert h hok).toKeeps
  | changed q version edits =>
    obtain ⟨folder,-,hcases⟩ := (changeDocument_eq_ok_iff q version edits).1 hok
    rcases hcases with ⟨-,rfl⟩ | ⟨document,-,hupsert⟩
    · exact Keeps.bumped h
    · exact (sets_of_upsert h hupsert).toKeeps
  | closed q =>
    rcases (closeDocument_eq_ok_iff disk q).1 hok with ⟨document,-,hupsert⟩ | ⟨-,hremove⟩
    · exact (sets_of_upsert h hupsert).toKeeps
    · exact (sets_of_remove h hremove).toKeeps
  | created paths =>
    refine createFiles_preserves ?_ hok (Keeps.bumped h)
    intro current q _ after hafter hcurrent
    exact hcurrent.trans (keeps_of_createFile hcurrent.keyed hafter)
  | deleted paths =>
    refine deleteFiles_preserves ?_ hok (Keeps.bumped h)
    intro current q _ after hafter hcurrent
    exact hcurrent.trans (keeps_of_deleteFile hcurrent.keyed hafter)

/-- Workspaces to start from: scanned from a disk, or put together from documents. -/
inductive Initial : Workspace → Prop where
  | scanned {disk : Disk} {client : Option Client} {specs : List FolderSpec}
      {settingsFor : Path → Logged Settings} {workspace : Workspace}
      (ok : (ofSpecs disk client specs settingsFor).outcome = .ok workspace) : Initial workspace
  | built {client : Option Client} {folders : List Folder} {workspace : Workspace}
      (built : ∀ folder ∈ folders, folder.Built) (ok : ofFolders client folders = .ok workspace) :
      Initial workspace

/-- Folders without documents make a workspace to start from. -/
lemma Initial.of_empty (specs : List FolderSpec) {workspace : Workspace}
    (ok : ofFolders none (specs.map fun spec => Folder.empty spec.name spec.root) = .ok workspace) :
    workspace.Initial := by
  refine .built ?_ ok
  intro folder hfolder
  obtain ⟨spec,-,rfl⟩ := List.mem_map.1 hfolder
  exact .empty spec.name spec.root

lemma Initial.coherent {workspace : Workspace} (h : workspace.Initial) : workspace.Coherent := by
  cases h with
  | scanned ok => exact coherent_of_ofSpecs ok
  | built built ok => exact coherent_of_ofFolders (fun folder hf => (built folder hf).coherent) ok

lemma Coherent.event {workspace next : Workspace} (h : workspace.Coherent) {disk : Disk}
    {event : Event} (hok : (event.step disk workspace).outcome = .ok next) : next.Coherent := by
  cases event with
  | opened path text version => exact h.upsert hok
  | changed path version edits => exact h.changeDocument hok
  | closed path => exact h.closeDocument hok
  | created paths => exact h.createFiles hok
  | deleted paths => exact h.deleteFiles hok

lemma Coherent.operation {workspace next : Workspace} (h : workspace.Coherent) {disk : Disk}
    {operation : Operation} (hok : (operation.step disk workspace).outcome = .ok next) :
    next.Coherent := by
  cases operation with
  | event event => exact h.event hok
  | remove path => exact h.remove hok
  | reload path => exact h.reload hok
  | reconcile added removed settingsFor =>
    cases hok
    exact h.reconcile disk added removed settingsFor

/-- After every run, each folder is stored under its own root, and each of its documents under its
own path, below the root and with the elements of its text. -/
theorem run_stored_in_place {workspace : Workspace} (h : workspace.Initial)
    (moves : List (Disk × Operation)) :
    ∀ (root : List Component) (folder : Folder),
      (workspace.run Operation.step moves).folders[root]? = some folder →
      folder.root.components = root ∧
      ∀ (key : List Component) (document : Document), folder.documents[key]? = some document →
        document.path.components = key ∧ document.path.startsWith folder.root = true ∧
        document.elements = parse document.text := by
  intro root folder hfolder
  have hrun : (workspace.run Operation.step moves).Coherent :=
    run_preserves (fun disk current move next hok hcurrent => hcurrent.operation hok) h.coherent moves
  have hcoherent := hrun.folders root folder hfolder
  refine ⟨hrun.rooted root folder hfolder,?_⟩
  intro key document hdocument
  exact ⟨hcoherent.keyed key document hdocument,hcoherent.below key document hdocument,
    document.elements_eq⟩

theorem run_stored_in_place_opened : ∃ workspace : Workspace,
    ofFolders none [Folder.empty "n" "/n"] = .ok workspace ∧
    ((workspace.run Operation.step [(Disk.empty,.event (.opened "/n//a.md" "# A" 1)),
      (Disk.empty,.event (.deleted ["/n/a.md"]))]).held? "/n/a.md").isSome = true ∧
    ∀ (root : List Component) (folder : Folder),
      (workspace.run Operation.step [(Disk.empty,.event (.opened "/n//a.md" "# A" 1)),
        (Disk.empty,.event (.deleted ["/n/a.md"]))]).folders[root]? = some folder →
      folder.root.components = root ∧
      ∀ (key : List Component) (document : Document), folder.documents[key]? = some document →
        document.path.components = key ∧ document.path.startsWith folder.root = true ∧
        document.elements = parse document.text := by
  exact ⟨_,rfl,by decide +kernel,run_stored_in_place (.of_empty [⟨"n","/n"⟩] rfl) _⟩

end Workspace

end NoteIndex
