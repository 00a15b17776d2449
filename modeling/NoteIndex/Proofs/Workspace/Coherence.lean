import NoteIndex.Proofs.Disk.Walk
import NoteIndex.Proofs.Workspace.Change

/-! Coherence: folders are stored under their roots, and documents under their paths and below the
roots of their folders. Every operation on folders and workspaces keeps it. -/
namespace NoteIndex

namespace Folder

/-- Every document is stored under its own path, below the root. -/
structure Coherent (folder : Folder) : Prop where
  keyed : folder.Keyed
  below : ∀ (key : List Component) (document : Document),
    folder.documents[key]? = some document → folder.owns document.path = true

lemma coherent_of_documents_eq_empty {folder : Folder} (h : folder.documents = ∅) :
    folder.Coherent := by
  constructor
  · intro key document hfound
    simp [h] at hfound
  · intro key document hfound
    simp [h] at hfound

lemma Coherent.withDocument {folder : Folder} (h : folder.Coherent) {document : Document}
    (howns : folder.owns document.path = true) : (folder.withDocument document).Coherent := by
  refine ⟨h.keyed.withDocument document,?_⟩
  intro key found hfound
  rw [documents_withDocument] at hfound
  split at hfound
  · cases hfound
    exact howns
  · exact h.below key found hfound

lemma Coherent.withoutDocument {folder : Folder} (h : folder.Coherent) (path : Path) :
    (folder.withoutDocument path).Coherent := by
  refine ⟨h.keyed.withoutDocument path,?_⟩
  intro key found hfound
  rw [documents_withoutDocument] at hfound
  split at hfound
  · cases hfound
  · exact h.below key found hfound

lemma Coherent.reload {disk : Disk} {folder next : Folder} (h : folder.Coherent) {path : Path}
    (howns : folder.owns path = true) (hok : Folder.reload disk folder path = .ok next) :
    next.Coherent ∧ next.root = folder.root := by
  rcases (reload_eq_ok_iff disk folder path next).1 hok with ⟨document,hload,rfl⟩ | ⟨-,rfl⟩
  · have hpath := Document.path_of_load hload
    exact ⟨h.withDocument (hpath ▸ howns),rfl⟩
  · exact ⟨h,rfl⟩

/-- A scan only finds documents below its root. -/
theorem coherent_of_scan {disk : Disk} {name : String} {root : Path} {settings : Settings}
    {folder : Folder} (h : scan disk name root settings = .ok folder) :
    folder.Coherent ∧ folder.root = root := by
  unfold scan at h
  obtain ⟨ignore,-,h⟩ := bind_eq_ok_iff.1 h
  refine foldlM_preserves (P := fun found : Folder => found.Coherent ∧ found.root = root) ?_ h
    ⟨coherent_of_documents_eq_empty rfl,rfl⟩
  rintro found path hpath next hnext ⟨hcoherent,rfl⟩
  have hwalk := (List.mem_filter.1 hpath).1
  exact hcoherent.reload (Disk.startsWith_of_mem_filePaths hwalk) hnext

lemma scan?_eq_some_iff (disk : Disk) (name : String) (root : Path) (settings : Settings)
    (folder : Folder) :
    (scan? disk name root settings).outcome = .ok (some folder) ↔
      disk.doesExist root = true ∧ scan disk name root settings = .ok folder := by
  unfold scan?
  cases disk.doesExist root with
  | true =>
    rw [if_pos rfl,Step.outcome_bind,bind_eq_ok_iff]
    constructor
    · rintro ⟨found,hfound,h⟩
      cases h
      exact ⟨rfl,hfound⟩
    · rintro ⟨-,h⟩
      exact ⟨folder,h,rfl⟩
  | false =>
    rw [if_neg (by simp),Step.outcome_bind]
    refine ⟨fun h => ?_,fun h => absurd h.1 (by simp)⟩
    cases h

/-- Folders put together from documents below their roots. -/
inductive Built : Folder → Prop where
  | empty (name : String) (root : Path) : Built (Folder.empty name root)
  | withDocument {folder : Folder} {document : Document} (built : Built folder)
      (owns : folder.owns document.path = true) : Built (folder.withDocument document)

lemma Built.coherent {folder : Folder} (h : folder.Built) : folder.Coherent := by
  induction h with
  | empty name root => exact coherent_of_documents_eq_empty rfl
  | withDocument _ howns ih => exact ih.withDocument howns

end Folder

namespace Workspace

/-- Every folder is stored under its own root and keeps its documents as it should. -/
structure Coherent (workspace : Workspace) : Prop where
  rooted : workspace.Rooted
  folders : ∀ (key : List Component) (folder : Folder),
    workspace.folders[key]? = some folder → folder.Coherent

lemma Coherent.keyed {workspace : Workspace} (h : workspace.Coherent) : workspace.Keyed :=
  ⟨h.rooted,fun key folder hfolder => (h.folders key folder hfolder).keyed⟩

lemma Coherent.bumped {workspace : Workspace} (h : workspace.Coherent) : workspace.bumped.Coherent :=
  ⟨h.rooted,h.folders⟩

lemma Coherent.withFolder {workspace : Workspace} (h : workspace.Coherent) {folder : Folder}
    (hfolder : folder.Coherent) : (workspace.withFolder folder).Coherent := by
  refine ⟨h.rooted.withFolder folder,?_⟩
  intro key found hfound
  rw [folders_withFolder] at hfound
  split at hfound
  · cases hfound
    exact hfolder
  · exact h.folders key found hfound

lemma Coherent.of_owner? {workspace : Workspace} (h : workspace.Coherent) {path : Path}
    {folder : Folder} (howner : workspace.owner? path = some folder) :
    folder.Coherent ∧ folder.owns path = true := by
  obtain ⟨hstored,howns,-⟩ := owner?_spec h.rooted howner
  exact ⟨h.folders _ folder hstored,howns⟩

variable {workspace next : Workspace}

lemma Coherent.upsert (h : workspace.Coherent) {document : Document}
    (hok : (workspace.upsert document).outcome = .ok next) : next.Coherent := by
  obtain ⟨folder,howner,rfl⟩ := (upsert_eq_ok_iff document).1 hok
  obtain ⟨hfolder,howns⟩ := h.of_owner? howner
  exact h.withFolder (hfolder.withDocument howns)

lemma Coherent.remove (h : workspace.Coherent) {path : Path}
    (hok : (workspace.remove path).outcome = .ok next) : next.Coherent := by
  obtain ⟨folder,howner,rfl⟩ := (remove_eq_ok_iff path).1 hok
  exact h.withFolder ((h.of_owner? howner).1.withoutDocument path)

lemma Coherent.reload (h : workspace.Coherent) {disk : Disk} {path : Path}
    (hok : (Workspace.reload disk workspace path).outcome = .ok next) : next.Coherent := by
  obtain ⟨folder,howner,hcases⟩ := (reload_eq_ok_iff disk path).1 hok
  obtain ⟨hfolder,howns⟩ := h.of_owner? howner
  rcases hcases with ⟨document,hload,rfl⟩ | ⟨-,rfl⟩
  · have hpath := Document.path_of_load hload
    exact h.withFolder (hfolder.withDocument (hpath ▸ howns))
  · exact h.withFolder hfolder

lemma Coherent.changeDocument (h : workspace.Coherent) {path : Path} {version : Option Int32}
    {edits : List Edit} (hok : (workspace.changeDocument path version edits).outcome = .ok next) :
    next.Coherent := by
  obtain ⟨folder,-,hcases⟩ := (changeDocument_eq_ok_iff path version edits).1 hok
  rcases hcases with ⟨-,rfl⟩ | ⟨document,-,hupsert⟩
  · exact h.bumped
  · exact h.upsert hupsert

lemma Coherent.closeDocument (h : workspace.Coherent) {disk : Disk} {path : Path}
    (hok : (Workspace.closeDocument disk workspace path).outcome = .ok next) : next.Coherent := by
  rcases (closeDocument_eq_ok_iff disk path).1 hok with ⟨document,-,hupsert⟩ | ⟨-,hremove⟩
  · exact h.upsert hupsert
  · exact h.remove hremove

lemma Coherent.createFiles (h : workspace.Coherent) {disk : Disk} {paths : List Path}
    (hok : (Workspace.createFiles disk workspace paths).outcome = .ok next) : next.Coherent := by
  refine createFiles_preserves ?_ hok h.bumped
  intro current path _ after hafter hcurrent
  obtain ⟨folder,-,hcases⟩ := (createFile_eq_ok_iff disk path).1 hafter
  split at hcases
  · exact hcurrent.reload hcases
  · exact hcases ▸ hcurrent

lemma Coherent.deleteFiles (h : workspace.Coherent) {paths : List Path}
    (hok : (workspace.deleteFiles paths).outcome = .ok next) : next.Coherent := by
  refine deleteFiles_preserves ?_ hok h.bumped
  intro current path _ after hafter hcurrent
  obtain ⟨folder,-,hcases⟩ := (deleteFile_eq_ok_iff path).1 hafter
  split at hcases
  · exact hcases ▸ hcurrent
  · exact hcurrent.remove hcases

/-- A folder that is dropped takes nothing else with it. -/
lemma value_dropFolder (workspace : Workspace) (root : Path) :
    (workspace.dropFolder root).value =
      { workspace with folders := workspace.folders.erase root.components } := by
  unfold dropFolder
  split <;> rfl

lemma Coherent.dropFolder (h : workspace.Coherent) (root : Path) :
    (workspace.dropFolder root).value.Coherent := by
  have herase : ∀ (key : List Component) (folder : Folder),
      (workspace.dropFolder root).value.folders[key]? = some folder →
        workspace.folders[key]? = some folder := by
    intro key folder hfolder
    rw [value_dropFolder,Std.ExtTreeMap.getElem?_erase] at hfolder
    split at hfolder
    · cases hfolder
    · exact hfolder
  exact ⟨fun key folder hfolder => h.rooted key folder (herase key folder hfolder),
    fun key folder hfolder => h.folders key folder (herase key folder hfolder)⟩

/-- A folder to take in is left out, or its scan takes the place of what had its root. -/
lemma value_addFolder_cases (disk : Disk) (settingsFor : Path → Logged Settings)
    (workspace : Workspace) (spec : FolderSpec) :
    (addFolder disk settingsFor workspace spec).value = workspace ∨
    ∃ folder, Folder.scan disk spec.name spec.root (settingsFor spec.root).value = .ok folder ∧
      (addFolder disk settingsFor workspace spec).value =
        { workspace with folders := workspace.folders.insert spec.root.components folder } := by
  unfold addFolder
  simp only [Logged.value_bind]
  split
  · rename_i folder hscan
    right
    have hscan := ((Folder.scan?_eq_some_iff _ _ _ _ _).1 hscan).2
    exact ⟨folder,hscan,rfl⟩
  · left
    rfl
  · left
    rfl

lemma Coherent.addFolder (h : workspace.Coherent) (disk : Disk)
    (settingsFor : Path → Logged Settings) (spec : FolderSpec) :
    (Workspace.addFolder disk settingsFor workspace spec).value.Coherent := by
  rcases value_addFolder_cases disk settingsFor workspace spec with heq | ⟨folder,hscan,heq⟩
  · rw [heq]
    exact h
  · obtain ⟨hcoherent,hroot⟩ := Folder.coherent_of_scan hscan
    rw [heq,← hroot]
    exact ⟨(h.withFolder hcoherent).rooted,(h.withFolder hcoherent).folders⟩

lemma Coherent.reconcile (h : workspace.Coherent) (disk : Disk) (added : List FolderSpec)
    (removed : List Path) (settingsFor : Path → Logged Settings) :
    (Workspace.reconcile disk workspace added removed settingsFor).value.Coherent := by
  unfold Workspace.reconcile
  simp only [Logged.value_bind,Logged.value_pure,Logged.value_foldlM]
  apply Coherent.bumped
  apply List.foldlRecOn
  · apply List.foldlRecOn
    · exact h
    · intro current hcurrent root _
      exact hcurrent.dropFolder root
  · intro current hcurrent spec _
    exact hcurrent.addFolder disk settingsFor spec

/-- A new workspace has the given folders, each under its root. -/
lemma mem_of_ofFolders {client : Option Client} {folders : List Folder}
    (hok : ofFolders client folders = .ok workspace) (key : List Component) (folder : Folder)
    (hfolder : workspace.folders[key]? = some folder) :
    folder ∈ folders ∧ folder.root.components = key := by
  unfold ofFolders at hok
  split at hok
  · cases hok
  · cases hok
    revert key folder
    refine List.foldlRecOn (motive := fun all : Std.ExtTreeMap (List Component) Folder =>
      ∀ (key : List Component) (folder : Folder), all[key]? = some folder →
        folder ∈ folders ∧ folder.root.components = key) folders _ ?_ ?_
    · intro key folder hfolder
      simp at hfolder
    · intro all hall added hadded key folder hfolder
      rw [Std.ExtTreeMap.getElem?_insert] at hfolder
      split at hfolder
      · rename_i hkey
        cases hfolder
        exact ⟨hadded,Std.LawfulEqOrd.eq_of_compare hkey⟩
      · exact hall key folder hfolder

lemma coherent_of_ofFolders {client : Option Client} {folders : List Folder}
    (hfolders : ∀ folder ∈ folders, folder.Coherent)
    (hok : ofFolders client folders = .ok workspace) : workspace.Coherent :=
  ⟨fun key folder hfolder => (mem_of_ofFolders hok key folder hfolder).2,
    fun key folder hfolder => hfolders folder (mem_of_ofFolders hok key folder hfolder).1⟩

/-- Each folder of a scanned workspace has been scanned. -/
lemma scan?_of_ofSpecs {disk : Disk} {client : Option Client} {specs : List FolderSpec}
    {settingsFor : Path → Logged Settings}
    (hok : (ofSpecs disk client specs settingsFor).outcome = .ok workspace)
    {key : List Component} {folder : Folder} (hfolder : workspace.folders[key]? = some folder) :
    folder.root.components = key ∧ ∃ spec ∈ specs,
      (Folder.scan? disk spec.name spec.root (settingsFor spec.root).value).outcome =
        .ok (some folder) := by
  unfold ofSpecs at hok
  rw [Step.outcome_bind,Step.outcome_mapM] at hok
  obtain ⟨found,hfound,hok⟩ := bind_eq_ok_iff.1 hok
  obtain ⟨hmem,hroot⟩ := mem_of_ofFolders hok key folder hfolder
  obtain ⟨option,hoption,hsome⟩ := List.mem_filterMap.1 hmem
  obtain ⟨spec,hspec,hscan⟩ := exists_of_mem_mapM hfound option hoption
  cases hsome
  exact ⟨hroot,spec,hspec,hscan⟩

lemma coherent_of_ofSpecs {disk : Disk} {client : Option Client} {specs : List FolderSpec}
    {settingsFor : Path → Logged Settings}
    (hok : (ofSpecs disk client specs settingsFor).outcome = .ok workspace) :
    workspace.Coherent := by
  refine ⟨fun key folder hfolder => (scan?_of_ofSpecs hok hfolder).1,?_⟩
  intro key folder hfolder
  obtain ⟨-,spec,-,hscan⟩ := scan?_of_ofSpecs hok hfolder
  exact (Folder.coherent_of_scan ((Folder.scan?_eq_some_iff _ _ _ _ _).1 hscan).2).1

end Workspace

end NoteIndex
