import NoteIndex.Proofs.Workspace.Reconcile

/-! Admission: documents that no editor has open are Markdown files that are not ignored, apart from
those that have been read again because an editor closed them. -/
namespace NoteIndex

namespace Disk

lemma isFile_of_load {disk : Disk} {path : Path} {document : Document}
    (h : Document.load disk path = .ok (some document)) : disk.isFile path = true := by
  obtain ⟨bytes,hfind,-⟩ := Document.find_of_load_eq_some h
  exact (isFile_iff _ _).2 ⟨bytes,hfind⟩

end Disk

namespace Folder

variable {folder : Folder} {exempt : Path → Prop}

/-- The folder takes in the documents that are not open, apart from some. -/
def Filtered (exempt : Path → Prop) (folder : Folder) : Prop :=
  ∀ (key : List Component) (document : Document), folder.documents[key]? = some document →
    document.version = none → folder.admits document.path = true ∨ exempt document.path

lemma Filtered.withDocument (h : folder.Filtered exempt) {document : Document}
    (hdocument : document.version = none →
      folder.admits document.path = true ∨ exempt document.path) :
    (folder.withDocument document).Filtered exempt := by
  intro key found hfound
  rw [documents_withDocument] at hfound
  split at hfound
  · cases hfound
    exact hdocument
  · exact h key found hfound

lemma Filtered.withoutDocument (h : folder.Filtered exempt) (path : Path) :
    (folder.withoutDocument path).Filtered exempt := by
  intro key found hfound
  rw [documents_withoutDocument] at hfound
  split at hfound
  · cases hfound
  · exact h key found hfound

/-- A scan asks for every file whether to take it in. -/
lemma filtered_of_scan {disk : Disk} {name : String} {root : Path} {settings : Settings}
    (h : (scan? disk name root settings).outcome = .ok (some folder)) : folder.Filtered exempt := by
  intro key document hdocument _
  obtain ⟨path,-,hadmits,-,hload⟩ := (documents_of_scan h key document).1 hdocument
  exact .inl (Document.path_of_load hload ▸ hadmits)

end Folder

namespace Workspace

variable {workspace next : Workspace} {exempt : Path → Prop}

/-- Everything is in its place, and all folders take in their documents that are not open, apart
from some. -/
structure Filtered (exempt : Path → Prop) (workspace : Workspace) : Prop where
  keyed : workspace.Keyed
  folders : ∀ (key : List Component) (folder : Folder),
    workspace.folders[key]? = some folder → folder.Filtered exempt

lemma Filtered.bumped (h : workspace.Filtered exempt) : workspace.bumped.Filtered exempt :=
  ⟨(Keeps.bumped h.keyed).keyed,h.folders⟩

lemma Filtered.of_owner? (h : workspace.Filtered exempt) {path : Path} {folder : Folder}
    (howner : workspace.owner? path = some folder) : folder.Filtered exempt :=
  h.folders _ folder (owner?_spec h.keyed.rooted howner).1

lemma Filtered.withFolder (h : workspace.Filtered exempt) {folder : Folder}
    (hkeyed : folder.Keyed) (hfolder : folder.Filtered exempt) :
    (workspace.withFolder folder).Filtered exempt := by
  refine ⟨h.keyed.withFolder hkeyed,?_⟩
  intro key found hfound
  rw [folders_withFolder] at hfound
  split at hfound
  · cases hfound
    exact hfolder
  · exact h.folders key found hfound

/-- What is put in has to be open, taken in by its folder, or exempt. -/
lemma Filtered.upsert (h : workspace.Filtered exempt) {document : Document}
    (hdocument : document.version = none → ∀ folder, workspace.owner? document.path = some folder →
      folder.admits document.path = true ∨ exempt document.path)
    (hok : (workspace.upsert document).outcome = .ok next) : next.Filtered exempt := by
  obtain ⟨folder,howner,rfl⟩ := (upsert_eq_ok_iff document).1 hok
  exact h.withFolder ((h.keyed.of_owner? howner).withDocument document)
    ((h.of_owner? howner).withDocument fun hversion => hdocument hversion folder howner)

lemma Filtered.remove (h : workspace.Filtered exempt) {path : Path}
    (hok : (workspace.remove path).outcome = .ok next) : next.Filtered exempt := by
  obtain ⟨folder,howner,rfl⟩ := (remove_eq_ok_iff path).1 hok
  exact h.withFolder ((h.keyed.of_owner? howner).withoutDocument path)
    ((h.of_owner? howner).withoutDocument path)

/-- What is read again has to be taken in by its folder, or exempt if it is there. -/
lemma Filtered.reload (h : workspace.Filtered exempt) {disk : Disk} {path : Path}
    (hpath : disk.isFile path = true → ∀ folder, workspace.owner? path = some folder →
      folder.admits path = true ∨ exempt path)
    (hok : (Workspace.reload disk workspace path).outcome = .ok next) : next.Filtered exempt := by
  obtain ⟨folder,howner,hcases⟩ := (reload_eq_ok_iff disk path).1 hok
  rcases hcases with ⟨document,hload,rfl⟩ | ⟨-,rfl⟩
  · obtain rfl := Document.path_of_load hload
    exact h.withFolder ((h.keyed.of_owner? howner).withDocument document)
      ((h.of_owner? howner).withDocument fun _ =>
        hpath (Disk.isFile_of_load hload) folder howner)
  · exact h.withFolder (h.keyed.of_owner? howner) (h.of_owner? howner)

/-- Edits without a version leave a document as open as it was, and where it was. -/
lemma Filtered.changeDocument (h : workspace.Filtered exempt) {path : Path}
    {version : Option Int32} {edits : List Edit}
    (hok : (workspace.changeDocument path version edits).outcome = .ok next) :
    next.Filtered exempt := by
  obtain ⟨folder,howner,hcases⟩ := (changeDocument_eq_ok_iff path version edits).1 hok
  rcases hcases with ⟨-,rfl⟩ | ⟨document,hdocument,hupsert⟩
  · exact h.bumped
  · refine h.upsert ?_ hupsert
    intro hversion holder hholder
    have hkey := h.keyed.of_owner? howner _ document hdocument
    rw [Document.path_change] at hholder ⊢
    rw [workspace.owner?_congr hkey,howner] at hholder
    cases hholder
    refine h.of_owner? howner _ document hdocument ?_
    rw [Document.value_change] at hversion
    cases version with
    | none => exact hversion
    | some version => simp [Document.ofText] at hversion

lemma Filtered.closeDocument (h : workspace.Filtered exempt) {disk : Disk} {path : Path}
    (hpath : disk.isFile path = true → exempt path)
    (hok : (Workspace.closeDocument disk workspace path).outcome = .ok next) :
    next.Filtered exempt := by
  rcases (closeDocument_eq_ok_iff disk path).1 hok with ⟨document,hload,hupsert⟩ | ⟨-,hremove⟩
  · obtain rfl := Document.path_of_load hload
    exact h.upsert (fun _ _ _ => .inr (hpath (Disk.isFile_of_load hload))) hupsert
  · exact h.remove hremove

lemma Filtered.createFiles (h : workspace.Filtered exempt) {disk : Disk} {paths : List Path}
    (hok : (Workspace.createFiles disk workspace paths).outcome = .ok next) :
    next.Filtered exempt := by
  refine createFiles_preserves ?_ hok h.bumped
  intro current path _ after hafter hcurrent
  obtain ⟨folder,howner,hcases⟩ := (createFile_eq_ok_iff disk path).1 hafter
  split at hcases
  · rename_i hadmits
    refine hcurrent.reload ?_ hcases
    intro _ holder hholder
    cases howner.symm.trans hholder
    exact .inl ((Folder.admits_iff _ _).2 ⟨hadmits.1,hadmits.2.1⟩)
  · exact hcases ▸ hcurrent

lemma Filtered.deleteFiles (h : workspace.Filtered exempt) {paths : List Path}
    (hok : (workspace.deleteFiles paths).outcome = .ok next) : next.Filtered exempt := by
  refine deleteFiles_preserves ?_ hok h.bumped
  intro current path _ after hafter hcurrent
  obtain ⟨folder,-,hcases⟩ := (deleteFile_eq_ok_iff path).1 hafter
  split at hcases
  · exact hcases ▸ hcurrent
  · exact hcurrent.remove hcases

lemma Filtered.reconcile (h : workspace.Filtered exempt) (disk : Disk) (added : List FolderSpec)
    (removed : List Path) (settingsFor : Path → Logged Settings) :
    (Workspace.reconcile disk workspace added removed settingsFor).value.Filtered exempt := by
  refine ⟨⟨h.keyed.rooted.reconcile disk added removed settingsFor,?_⟩,?_⟩
  · intro key folder hfolder
    rcases reconcile_folder_cases hfolder with ⟨spec,-,-,hscanned⟩ | ⟨-,hstored⟩
    · exact keyed_of_scanned? hscanned
    · exact h.keyed.keyed key folder hstored
  · intro key folder hfolder
    rcases reconcile_folder_cases hfolder with ⟨spec,-,-,hscanned⟩ | ⟨-,hstored⟩
    · exact Folder.filtered_of_scan ((scanned?_eq_some_iff _ _ _ _).1 hscanned)
    · exact h.folders key folder hstored

lemma filtered_of_ofSpecs {disk : Disk} {client : Option Client} {specs : List FolderSpec}
    {settingsFor : Path → Logged Settings}
    (hok : (ofSpecs disk client specs settingsFor).outcome = .ok workspace) :
    workspace.Filtered exempt := by
  refine ⟨(coherent_of_ofSpecs hok).keyed,?_⟩
  intro key folder hfolder
  obtain ⟨-,spec,-,hscan⟩ := scan?_of_ofSpecs hok hfolder
  exact Folder.filtered_of_scan hscan

/-- Reading a file again, because it was closed or on request, is the only step that does not ask
whether to take it in. -/
lemma Filtered.operation (h : workspace.Filtered exempt) {disk : Disk} {operation : Operation}
    (hexempt : ∀ path, operation = .event (.closed path) ∨ operation = .reload path →
      disk.isFile path = true → exempt path)
    (hok : (operation.step disk workspace).outcome = .ok next) : next.Filtered exempt := by
  cases operation with
  | event event =>
    cases event with
    | opened path text version =>
      refine h.upsert ?_ hok
      intro hversion
      cases hversion
    | changed path version edits => exact h.changeDocument hok
    | closed path => exact h.closeDocument (hexempt path (.inl rfl)) hok
    | created paths => exact h.createFiles hok
    | deleted paths => exact h.deleteFiles hok
  | remove path => exact h.remove hok
  | reload path => exact h.reload (fun hfile _ _ => .inr (hexempt path (.inr rfl) hfile)) hok
  | reconcile added removed settingsFor =>
    cases hok
    exact h.reconcile disk added removed settingsFor

/-- After every run from a scanned workspace, a document that is not open has the extension of a
Markdown file and is not ignored, unless its path was closed, or read again on request, at a moment
when it was a file. -/
theorem run_admitted {disk : Disk} {client : Option Client} {specs : List FolderSpec}
    {settingsFor : Path → Logged Settings}
    (hok : (ofSpecs disk client specs settingsFor).outcome = .ok workspace)
    (moves : List (Disk × Operation)) :
    ∀ (root : List Component) (folder : Folder),
      (workspace.run Operation.step moves).folders[root]? = some folder →
      ∀ (key : List Component) (document : Document), folder.documents[key]? = some document →
        document.version = none →
        (folder.isMarkdown document.path = true ∧ folder.isIgnored document.path = false) ∨
        ∃ found : Disk, ((found,.event (.closed document.path)) ∈ moves ∨
          (found,.reload document.path) ∈ moves) ∧ found.isFile document.path = true := by
  have hrun : (workspace.run Operation.step moves).Filtered fun path => ∃ found : Disk,
      ((found,.event (.closed path)) ∈ moves ∨ (found,.reload path) ∈ moves) ∧
      found.isFile path = true := by
    refine run_preserves_of_mem ?_ (filtered_of_ofSpecs hok)
    rintro ⟨found,operation⟩ hmove current next hnext hcurrent
    refine hcurrent.operation ?_ hnext
    rintro path (rfl | rfl) hfile
    · exact ⟨found,.inl hmove,hfile⟩
    · exact ⟨found,.inr hmove,hfile⟩
  intro root folder hfolder key document hdocument hversion
  rw [← Folder.admits_iff]
  exact hrun.folders root folder hfolder key document hdocument hversion

theorem run_admitted_created : ∃ (disk : Disk) (workspace : Workspace),
    (ofSpecs disk none [⟨"n","/n"⟩] fun _ => pure Settings.default).outcome = .ok workspace ∧
    ((workspace.run Operation.step [(disk,.event (.deleted ["/n/b.md"])),
      (disk,.event (.created ["/n/d/a.md","/n/b.md","/n/c.txt"]))]).folderList.map
        (·.documents.keys)) = [[[.root,.ofText "n",.ofText "b.md"]]] ∧
    ∀ (root : List Component) (folder : Folder),
      (workspace.run Operation.step [(disk,.event (.deleted ["/n/b.md"])),
        (disk,.event (.created ["/n/d/a.md","/n/b.md","/n/c.txt"]))]).folders[root]? =
          some folder →
      ∀ (key : List Component) (document : Document), folder.documents[key]? = some document →
        document.version = none →
        folder.isMarkdown document.path = true ∧ folder.isIgnored document.path = false := by
  let disk := (((Disk.empty.writeFile "/n/d/a.md" [65]).writeFile "/n/b.md" [66]).writeFile
    "/n/c.txt" [67]).writeFile "/n/.gitignore" [100,47]
  let opening := ofSpecs disk none [⟨"n","/n"⟩] fun _ => pure Settings.default
  refine ⟨disk,opening.outcome.toOption.get (by decide +kernel),eq_ok_get _,by decide +kernel,?_⟩
  intro root folder hfolder key document hdocument hversion
  rcases run_admitted (eq_ok_get _) _ root folder hfolder key document hdocument hversion with
    hadmitted | ⟨found,hmoves,-⟩
  · exact hadmitted
  · simp at hmoves

/-- Closing a document takes in its file even if it is ignored, or no Markdown file. -/
theorem close_indexes_ignored : ∃ (disk : Disk) (workspace : Workspace) (folder : Folder)
    (document : Document),
    (ofSpecs disk none [⟨"n","/n"⟩] fun _ => pure Settings.default).outcome = .ok workspace ∧
    (workspace.run Operation.step [(disk,.event (.opened "/n/d/a.txt" "# B" 1)),
      (disk,.event (.closed "/n/d/a.txt"))]).owner? "/n/d/a.txt" = some folder ∧
    folder.document? "/n/d/a.txt" = some document ∧ document.version = none ∧
    folder.isMarkdown document.path = false ∧ folder.isIgnored document.path = true := by
  let disk := (Disk.empty.writeFile "/n/d/a.txt" [65]).writeFile "/n/.gitignore" [100,47]
  let opening := ofSpecs disk none [⟨"n","/n"⟩] fun _ => pure Settings.default
  refine ⟨disk,opening.outcome.toOption.get (by decide +kernel),Option.get _ ?_,Option.get _ ?_,
    eq_ok_get _,(Option.some_get _).symm,(Option.some_get _).symm,?_,?_,?_⟩
  all_goals decide +kernel

end Workspace

end NoteIndex
