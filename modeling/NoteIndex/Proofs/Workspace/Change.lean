import NoteIndex.Proofs.Workspace.Routing
import NoteIndex.Workspace.Event

/-! What each operation on a workspace can do when it succeeds. -/
namespace NoteIndex

namespace Document

lemma load_eq_some_iff (disk : Disk) (path : Path) (document : Document) :
    load disk path = .ok (some document) ↔ ∃ bytes, disk.read path = .ok bytes ∧
      document = ofText path none (String.ofList (Text.decodeLossy bytes)) := by
  unfold load
  split
  · rename_i bytes hread
    simp only [hread,Except.ok.injEq,Option.some.injEq,exists_eq_left']
    exact eq_comm
  · simp_all
  · simp_all

lemma find_of_load_eq_none {disk : Disk} {path : Path} (h : load disk path = .ok none) :
    disk.find path = .error .notFound := by
  unfold load Disk.read at h
  cases hfind : disk.find path with
  | error fault =>
    rw [hfind] at h
    cases fault with
    | notFound => rfl
    | _ => cases h
  | ok entry =>
    rw [hfind] at h
    cases entry <;> cases h

lemma find_of_load_eq_some {disk : Disk} {path : Path} {document : Document}
    (h : load disk path = .ok (some document)) : ∃ bytes, disk.find path = .ok (.file bytes) ∧
      document = ofText path none (String.ofList (Text.decodeLossy bytes)) := by
  obtain ⟨bytes,hread,rfl⟩ := (load_eq_some_iff _ _ _).1 h
  obtain ⟨entry,hfind,hbytes⟩ := bind_eq_ok_iff.1 hread
  cases entry with
  | directory listable => cases hbytes
  | link target => cases hbytes
  | file content =>
    cases hbytes
    exact ⟨bytes,hfind,rfl⟩

lemma load_of_find {disk : Disk} {path : Path} {bytes : List UInt8}
    (h : disk.find path = .ok (.file bytes)) :
    load disk path = .ok (some (ofText path none (String.ofList (Text.decodeLossy bytes)))) := by
  have hread : disk.read path = .ok bytes := by
    rw [Disk.read,h]
    rfl
  exact (load_eq_some_iff _ _ _).2 ⟨bytes,hread,rfl⟩

lemma path_of_load {disk : Disk} {path : Path} {document : Document}
    (h : load disk path = .ok (some document)) : document.path = path := by
  obtain ⟨bytes,-,rfl⟩ := (load_eq_some_iff _ _ _).1 h
  rfl

lemma version_of_load {disk : Disk} {path : Path} {document : Document}
    (h : load disk path = .ok (some document)) : document.version = none := by
  obtain ⟨bytes,-,rfl⟩ := (load_eq_some_iff _ _ _).1 h
  rfl

/-- A version that does not fit leaves a notice and changes nothing else. -/
lemma value_change (document : Document) (version : Option Int32) (edits : List Edit) :
    (document.change version edits).value =
      ofText document.path (version <|> document.version) (Edit.applyAll edits document.text) := by
  unfold change
  split <;> rfl

lemma path_change (document : Document) (version : Option Int32) (edits : List Edit) :
    (document.change version edits).value.path = document.path := by
  rw [value_change]
  rfl

end Document

namespace Folder

lemma reload_eq_ok_iff (disk : Disk) (folder : Folder) (path : Path) (next : Folder) :
    reload disk folder path = .ok next ↔
      (∃ document, Document.load disk path = .ok (some document) ∧
        next = folder.withDocument document) ∨
      (Document.load disk path = .ok none ∧ next = folder) := by
  unfold reload
  rw [bind_eq_ok_iff]
  constructor
  · rintro ⟨found,hload,h⟩
    cases found with
    | none =>
      cases h
      exact .inr ⟨hload,rfl⟩
    | some document =>
      cases h
      exact .inl ⟨document,hload,rfl⟩
  · rintro (⟨document,hload,rfl⟩ | ⟨hload,rfl⟩)
    · exact ⟨some document,hload,rfl⟩
    · exact ⟨none,hload,rfl⟩

end Folder

namespace Workspace

variable {workspace next : Workspace}

lemma upsert_eq_ok_iff (document : Document) :
    (workspace.upsert document).outcome = .ok next ↔ ∃ folder,
      workspace.owner? document.path = some folder ∧
      next = workspace.withFolder (folder.withDocument document) := by
  simp only [upsert,Step.outcome_bind,Step.outcome_pure,bind_eq_ok_iff,owner_outcome_eq_ok_iff,
    Except.ok.injEq]
  exact exists_congr fun folder => and_congr_right' eq_comm

lemma remove_eq_ok_iff (path : Path) :
    (workspace.remove path).outcome = .ok next ↔ ∃ folder,
      workspace.owner? path = some folder ∧
      next = workspace.withFolder (folder.withoutDocument path) := by
  simp only [remove,Step.outcome_bind,Step.outcome_pure,bind_eq_ok_iff,owner_outcome_eq_ok_iff,
    Except.ok.injEq]
  exact exists_congr fun folder => and_congr_right' eq_comm

lemma reload_eq_ok_iff (disk : Disk) (path : Path) :
    (reload disk workspace path).outcome = .ok next ↔ ∃ folder,
      workspace.owner? path = some folder ∧
      ((∃ document, Document.load disk path = .ok (some document) ∧
        next = workspace.withFolder (folder.withDocument document)) ∨
      (Document.load disk path = .ok none ∧ next = workspace.withFolder folder)) := by
  unfold reload
  simp only [Step.outcome_bind,Step.outcome_liftExcept,Step.outcome_pure,bind_eq_ok_iff,
    owner_outcome_eq_ok_iff,Folder.reload_eq_ok_iff]
  constructor
  · rintro ⟨folder,howner,found,(⟨document,hload,rfl⟩ | ⟨hload,rfl⟩),h⟩
    · cases h
      exact ⟨folder,howner,.inl ⟨document,hload,rfl⟩⟩
    · cases h
      exact ⟨found,howner,.inr ⟨hload,rfl⟩⟩
  · rintro ⟨folder,howner,(⟨document,hload,rfl⟩ | ⟨hload,rfl⟩)⟩
    · exact ⟨folder,howner,_,.inl ⟨document,hload,rfl⟩,rfl⟩
    · exact ⟨folder,howner,_,.inr ⟨hload,rfl⟩,rfl⟩

lemma changeDocument_eq_ok_iff (path : Path) (version : Option Int32) (edits : List Edit) :
    (workspace.changeDocument path version edits).outcome = .ok next ↔ ∃ folder,
      workspace.owner? path = some folder ∧
      ((folder.document? path = none ∧ next = workspace.bumped) ∨
      ∃ document, folder.document? path = some document ∧
        (workspace.upsert (document.change version edits).value).outcome = .ok next) := by
  unfold changeDocument
  simp only [Step.outcome_bind,bind_eq_ok_iff,owner_outcome_eq_ok_iff]
  constructor
  · rintro ⟨folder,howner,h⟩
    refine ⟨folder,howner,?_⟩
    cases hdocument : folder.document? path with
    | none =>
      simp only [hdocument,Step.outcome_bind,Step.outcome_note,Step.outcome_pure] at h
      cases h
      exact .inl ⟨rfl,rfl⟩
    | some document =>
      simp only [hdocument,Step.outcome_bind,Step.outcome_liftLogged] at h
      exact .inr ⟨document,rfl,h⟩
  · rintro ⟨folder,howner,(⟨hdocument,rfl⟩ | ⟨document,hdocument,h⟩)⟩
    · exact ⟨folder,howner,by rw [hdocument]; rfl⟩
    · refine ⟨folder,howner,?_⟩
      simp only [hdocument,Step.outcome_bind,Step.outcome_liftLogged]
      exact h

lemma closeDocument_eq_ok_iff (disk : Disk) (path : Path) :
    (closeDocument disk workspace path).outcome = .ok next ↔
      (∃ document, Document.load disk path = .ok (some document) ∧
        (workspace.upsert document).outcome = .ok next) ∨
      (Document.load disk path = .ok none ∧ (workspace.remove path).outcome = .ok next) := by
  unfold closeDocument
  simp only [Step.outcome_bind,Step.outcome_liftExcept,bind_eq_ok_iff]
  constructor
  · rintro ⟨found,hload,h⟩
    cases found with
    | none => exact .inr ⟨hload,h⟩
    | some document => exact .inl ⟨document,hload,h⟩
  · rintro (⟨document,hload,h⟩ | ⟨hload,h⟩)
    · exact ⟨some document,hload,h⟩
    · exact ⟨none,hload,h⟩

lemma createFile_eq_ok_iff (disk : Disk) (path : Path) :
    (createFile disk workspace path).outcome = .ok next ↔ ∃ folder,
      workspace.owner? path = some folder ∧
      if folder.isMarkdown path = true ∧ folder.isIgnored path = false ∧ folder.hasOpen path = false
      then (reload disk workspace path).outcome = .ok next else next = workspace := by
  unfold createFile
  simp only [Step.outcome_bind,bind_eq_ok_iff,owner_outcome_eq_ok_iff]
  apply exists_congr
  intro folder
  apply and_congr_right
  intro _
  cases folder.isMarkdown path <;> cases folder.isIgnored path <;> cases folder.hasOpen path <;>
    simp [eq_comm]

lemma deleteFile_eq_ok_iff (path : Path) :
    (workspace.deleteFile path).outcome = .ok next ↔ ∃ folder,
      workspace.owner? path = some folder ∧
      if folder.hasOpen path = true then next = workspace
      else (workspace.remove path).outcome = .ok next := by
  unfold deleteFile
  simp only [Step.outcome_bind,bind_eq_ok_iff,owner_outcome_eq_ok_iff]
  apply exists_congr
  intro folder
  apply and_congr_right
  intro _
  cases folder.hasOpen path <;> simp [eq_comm]

/-- What each created file preserves holds after all of them. -/
lemma createFiles_preserves {P : Workspace → Prop} {disk : Disk} {paths : List Path}
    (hstep : ∀ current, ∀ q ∈ paths, ∀ after, (createFile disk current q).outcome = .ok after →
      P current → P after) (hok : (createFiles disk workspace paths).outcome = .ok next)
    (h : P workspace.bumped) : P next := by
  rw [createFiles,Step.outcome_foldlM] at hok
  exact foldlM_preserves hstep hok h

lemma deleteFiles_preserves {P : Workspace → Prop} {paths : List Path}
    (hstep : ∀ current, ∀ q ∈ paths, ∀ after, (deleteFile current q).outcome = .ok after →
      P current → P after)
    (hok : (workspace.deleteFiles paths).outcome = .ok next) (h : P workspace.bumped) : P next := by
  rw [deleteFiles,Step.outcome_foldlM] at hok
  exact foldlM_preserves hstep hok h

/-- A step after which everything is in its place and no path has gained or lost its owner. -/
structure Keeps (workspace next : Workspace) : Prop where
  keyed : next.Keyed
  owned : ∀ q, (next.owner? q).isSome = (workspace.owner? q).isSome

/-- A step after which the workspace holds another document, or none, for one path, and for all
others what it held before. -/
structure Sets (workspace : Workspace) (path : Path) (document : Option Document)
    (next : Workspace) : Prop extends workspace.Keeps next where
  held : ∀ q, next.held? q =
    if q.components = path.components then document else workspace.held? q

lemma Keyed.of_owner? (h : workspace.Keyed) {path : Path} {folder : Folder}
    (howner : workspace.owner? path = some folder) : folder.Keyed :=
  h.keyed _ folder (owner?_spec h.rooted howner).1

lemma Sets.withFolder (h : workspace.Keyed) {path : Path} {old : Folder}
    (howner : workspace.owner? path = some old) (new : Folder) (hroot : new.root = old.root)
    (hkeyed : new.Keyed)
    (hdocuments : ∀ key, key ≠ path.components → new.documents[key]? = old.documents[key]?) :
    workspace.Sets path new.documents[path.components]? (workspace.withFolder new) where
  keyed := h.withFolder hkeyed
  owned := owner?_isSome_withFolder h.rooted (owner?_spec h.rooted howner).1 hroot
  held := held?_withFolder h.rooted howner hroot hdocuments

lemma sets_of_upsert (h : workspace.Keyed) {document : Document}
    (hok : (workspace.upsert document).outcome = .ok next) :
    workspace.Sets document.path (some document) next := by
  obtain ⟨folder,howner,rfl⟩ := (upsert_eq_ok_iff document).1 hok
  have hset := Sets.withFolder h howner (folder.withDocument document) rfl
    ((h.of_owner? howner).withDocument document)
    fun key hkey => by rw [Folder.documents_withDocument,if_neg hkey.symm]
  rwa [Folder.documents_withDocument,if_pos rfl] at hset

lemma sets_of_remove (h : workspace.Keyed) {path : Path}
    (hok : (workspace.remove path).outcome = .ok next) : workspace.Sets path none next := by
  obtain ⟨folder,howner,rfl⟩ := (remove_eq_ok_iff path).1 hok
  have hset := Sets.withFolder h howner (folder.withoutDocument path) rfl
    ((h.of_owner? howner).withoutDocument path)
    fun key hkey => by rw [Folder.documents_withoutDocument,if_neg hkey.symm]
  rwa [Folder.documents_withoutDocument,if_pos rfl] at hset

/-- A file that is read again takes the place of what was held, unless it is gone. -/
lemma sets_of_reload (h : workspace.Keyed) {disk : Disk} {path : Path}
    (hok : (reload disk workspace path).outcome = .ok next) : ∃ found,
      Document.load disk path = .ok found ∧
      workspace.Sets path (found.or (workspace.held? path)) next := by
  obtain ⟨folder,howner,hcases⟩ := (reload_eq_ok_iff disk path).1 hok
  rcases hcases with ⟨document,hload,rfl⟩ | ⟨hload,rfl⟩
  · have hpath := Document.path_of_load hload
    have hset := sets_of_upsert h
      ((upsert_eq_ok_iff document).2 ⟨folder,hpath ▸ howner,rfl⟩)
    exact ⟨some document,hload,hpath ▸ hset⟩
  · have hset := Sets.withFolder h howner folder rfl (h.of_owner? howner) fun _ _ => rfl
    have hheld : workspace.held? path = folder.documents[path.components]? := by
      simp [held?,howner,Folder.document?]
    exact ⟨none,hload,by rwa [Option.none_or,hheld]⟩

lemma Keeps.refl (h : workspace.Keyed) : workspace.Keeps workspace := ⟨h,fun _ => rfl⟩

lemma Keeps.bumped (h : workspace.Keyed) : workspace.Keeps workspace.bumped :=
  ⟨⟨h.rooted,h.keyed⟩,fun _ => rfl⟩

lemma Keeps.trans {last : Workspace} (h : workspace.Keeps next) (hlast : next.Keeps last) :
    workspace.Keeps last :=
  ⟨hlast.keyed,fun q => (hlast.owned q).trans (h.owned q)⟩

lemma keeps_of_createFile (h : workspace.Keyed) {disk : Disk} {path : Path}
    (hok : (createFile disk workspace path).outcome = .ok next) : workspace.Keeps next := by
  obtain ⟨folder,-,hcases⟩ := (createFile_eq_ok_iff disk path).1 hok
  split at hcases
  · obtain ⟨found,-,hset⟩ := sets_of_reload h hcases
    exact hset.toKeeps
  · subst hcases
    exact Keeps.refl h

lemma keeps_of_deleteFile (h : workspace.Keyed) {path : Path}
    (hok : (workspace.deleteFile path).outcome = .ok next) : workspace.Keeps next := by
  obtain ⟨folder,-,hcases⟩ := (deleteFile_eq_ok_iff path).1 hok
  split at hcases
  · subst hcases
    exact Keeps.refl h
  · exact (sets_of_remove h hcases).toKeeps

end Workspace

end NoteIndex
