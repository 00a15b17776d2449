import NoteIndex.Navigation.Query
import NoteIndex.Proofs.Workspace.Frame
import NoteIndex.Proofs.Workspace.Run

/-! Footprints: an operation on documents changes nothing but the documents of the paths that it names,
in the folders that own these paths. So it has no influence on questions about other folders. -/
namespace NoteIndex

lemma Folder.eq_of_shell {folder other : Folder} (hshell : folder.shell = other.shell)
    (hdocuments : folder.documents = other.documents) : folder = other := by
  cases folder
  cases other
  simp_all [Folder.shell]

/-- The paths that an operation on documents names. -/
def Event.paths : Event → List Path
  | .opened path _ _ => [path]
  | .changed path _ _ => [path]
  | .closed path => [path]
  | .created paths => paths
  | .deleted paths => paths

def Operation.paths? : Operation → Option (List Path)
  | .event reported => some reported.paths
  | .remove path => some [path]
  | .reload path => some [path]
  | .reconcile .. => none

namespace Workspace

variable {workspace next : Workspace} {paths : List Path}

/-- Workspaces at the end of a run. -/
def Reachable (workspace : Workspace) : Prop :=
  ∃ (start : Workspace) (moves : List (Disk × Operation)),
    start.Initial ∧ start.run Operation.step moves = workspace

lemma Reachable.coherent (h : workspace.Reachable) : workspace.Coherent := by
  obtain ⟨start,moves,hstart,rfl⟩ := h
  exact run_preserves (fun disk current move next hok hcurrent => hcurrent.operation hok)
    hstart.coherent moves

/-- A step that leaves everything as it is, except for the documents of given paths in the folders
that own these. -/
structure Touches (workspace : Workspace) (paths : List Path) (next : Workspace) : Prop where
  keyed : next.Keyed
  client : next.client = workspace.client
  shells : next.shell? = workspace.shell?
  stored : ∀ root key : List Component, (∀ path ∈ paths, path.components = key →
    ∀ folder, workspace.owner? path = some folder → folder.root.components ≠ root) →
    next.stored? root key = workspace.stored? root key
  revision : workspace.revision ≤ next.revision

lemma Touches.refl (h : workspace.Keyed) (paths : List Path) : workspace.Touches paths workspace :=
  ⟨h,rfl,rfl,fun _ _ _ => rfl,Nat.le_refl _⟩

lemma Touches.trans (hrooted : workspace.Rooted) {last : Workspace}
    (h : workspace.Touches paths next) (hlast : next.Touches paths last) :
    workspace.Touches paths last := by
  refine ⟨hlast.keyed,hlast.client.trans h.client,hlast.shells.trans h.shells,?_,
    Nat.le_trans h.revision hlast.revision⟩
  intro root key hfree
  rw [← h.stored root key hfree]
  apply hlast.stored
  -- The owners after the first step have the roots of those before it.
  intro path hpath hkey folder howner
  obtain ⟨origin,horigin,hsame⟩ := owner?_of_shell? h.keyed.rooted hrooted h.shells.symm howner
  rw [← Folder.root_of_shell hsame]
  exact hfree path hpath hkey origin horigin

/-- A step that counts the revision up. -/
lemma Touches.of_bumped (h : workspace.bumped.Touches paths next) :
    workspace.Touches paths next :=
  ⟨h.keyed,h.client,h.shells,h.stored,Nat.le_of_lt h.revision⟩

/-- A write to the documents of named paths in the folder that owns them. -/
lemma Touches.withFolder (h : workspace.Keyed) {path : Path} {old new : Folder}
    (howner : workspace.owner? path = some old) (hshell : new.shell = old.shell)
    (hkeyed : new.Keyed)
    (hdocuments : ∀ key, key ≠ path.components → new.documents[key]? = old.documents[key]?)
    (hpath : path ∈ paths) : workspace.bumped.Touches paths (workspace.withFolder new) := by
  have hold := (owner?_spec h.rooted howner).1
  refine ⟨h.withFolder hkeyed,rfl,shell?_withFolder hold hshell,?_,Nat.le_refl _⟩
  intro root key hfree
  rw [stored?_withFolder,Folder.root_of_shell hshell]
  split
  · rename_i hroot
    rw [hdocuments key fun hkey => hfree path hpath hkey.symm old howner hroot,← hroot]
    exact (stored?_of_folder hold key).symm
  · rfl

lemma touches_of_upsert (h : workspace.Keyed) {document : Document} {path : Path}
    (hpath : path ∈ paths) (hcomponents : document.path.components = path.components)
    (hok : (workspace.upsert document).outcome = .ok next) :
    workspace.bumped.Touches paths next := by
  obtain ⟨folder,howner,rfl⟩ := (upsert_eq_ok_iff document).1 hok
  rw [workspace.owner?_congr hcomponents] at howner
  refine Touches.withFolder h howner rfl ((h.of_owner? howner).withDocument document) ?_ hpath
  intro key hkey
  rw [Folder.documents_withDocument,if_neg (hcomponents ▸ hkey.symm)]

lemma touches_of_remove (h : workspace.Keyed) {path : Path} (hpath : path ∈ paths)
    (hok : (workspace.remove path).outcome = .ok next) : workspace.bumped.Touches paths next := by
  obtain ⟨folder,howner,rfl⟩ := (remove_eq_ok_iff path).1 hok
  refine Touches.withFolder h howner rfl ((h.of_owner? howner).withoutDocument path) ?_ hpath
  intro key hkey
  rw [Folder.documents_withoutDocument,if_neg hkey.symm]

lemma touches_of_reload (h : workspace.Keyed) {disk : Disk} {path : Path} (hpath : path ∈ paths)
    (hok : (reload disk workspace path).outcome = .ok next) :
    workspace.bumped.Touches paths next := by
  obtain ⟨folder,howner,hcases⟩ := (reload_eq_ok_iff disk path).1 hok
  rcases hcases with ⟨document,hload,rfl⟩ | ⟨-,rfl⟩
  · have hdocument := Document.path_of_load hload
    exact touches_of_upsert h hpath (by rw [hdocument])
      ((upsert_eq_ok_iff document).2 ⟨folder,hdocument ▸ howner,rfl⟩)
  · exact Touches.withFolder h howner rfl (h.of_owner? howner) (fun _ _ => rfl) hpath

lemma touches_of_createFile (h : workspace.Keyed) {disk : Disk} {path : Path}
    (hpath : path ∈ paths) (hok : (createFile disk workspace path).outcome = .ok next) :
    workspace.Touches paths next := by
  obtain ⟨folder,-,hcases⟩ := (createFile_eq_ok_iff disk path).1 hok
  split at hcases
  · exact (touches_of_reload h hpath hcases).of_bumped
  · exact hcases ▸ Touches.refl h paths

lemma touches_of_deleteFile (h : workspace.Keyed) {path : Path} (hpath : path ∈ paths)
    (hok : (workspace.deleteFile path).outcome = .ok next) : workspace.Touches paths next := by
  obtain ⟨folder,-,hcases⟩ := (deleteFile_eq_ok_iff path).1 hok
  split at hcases
  · exact hcases ▸ Touches.refl h paths
  · exact (touches_of_remove h hpath hcases).of_bumped

/-- One step: an event touches nothing but the paths that it names, and counts the revision up. -/
lemma touches_of_event (h : workspace.Keyed) {disk : Disk} {event : Event}
    (hok : (event.step disk workspace).outcome = .ok next) :
    workspace.bumped.Touches event.paths next := by
  have hbumped : workspace.bumped.Keyed := ⟨h.rooted,h.keyed⟩
  cases event with
  | opened path text version => exact touches_of_upsert h List.mem_cons_self rfl hok
  | changed path version edits =>
    obtain ⟨folder,howner,hcases⟩ := (changeDocument_eq_ok_iff path version edits).1 hok
    rcases hcases with ⟨-,rfl⟩ | ⟨document,hdocument,hupsert⟩
    · exact Touches.refl hbumped _
    · have hcomponents := (h.of_owner? howner) _ document hdocument
      rw [← Document.path_change document version edits] at hcomponents
      exact touches_of_upsert h List.mem_cons_self hcomponents hupsert
  | closed path =>
    rcases (closeDocument_eq_ok_iff disk path).1 hok with ⟨document,hload,hupsert⟩ | ⟨-,hremove⟩
    · exact touches_of_upsert h List.mem_cons_self (by rw [Document.path_of_load hload]) hupsert
    · exact touches_of_remove h List.mem_cons_self hremove
  | created paths =>
    refine createFiles_preserves ?_ hok (Touches.refl hbumped paths)
    intro current path hpath after hafter hcurrent
    exact hcurrent.trans hbumped.rooted (touches_of_createFile hcurrent.keyed hpath hafter)
  | deleted paths =>
    refine deleteFiles_preserves ?_ hok (Touches.refl hbumped paths)
    intro current path hpath after hafter hcurrent
    exact hcurrent.trans hbumped.rooted (touches_of_deleteFile hcurrent.keyed hpath hafter)

lemma touches_of_operation (h : workspace.Keyed) {disk : Disk} {operation : Operation}
    (hpaths : operation.paths? = some paths)
    (hok : (operation.step disk workspace).outcome = .ok next) :
    workspace.bumped.Touches paths next := by
  cases operation with
  | event event =>
    cases hpaths
    exact touches_of_event h hok
  | remove path =>
    cases hpaths
    exact touches_of_remove h List.mem_cons_self hok
  | reload path =>
    cases hpaths
    exact touches_of_reload h List.mem_cons_self hok
  | reconcile added removed settingsFor => cases hpaths

/-- A folder that owns none of the paths stays as it is. -/
lemma Touches.folder (h : workspace.Touches paths next) {root : List Component}
    (hroot : ∀ path ∈ paths, ∀ folder, workspace.owner? path = some folder →
      folder.root.components ≠ root) : next.folders[root]? = workspace.folders[root]? := by
  have hstored : ∀ key, next.stored? root key = workspace.stored? root key :=
    fun key => h.stored root key fun path hpath _ => hroot path hpath
  cases hfolder : workspace.folders[root]? with
  | none =>
    have hshell : next.folders[root]?.map Folder.shell = none := by
      change next.shell? root = none
      rw [h.shells,shell?,hfolder,Option.map_none]
    simpa using hshell
  | some folder =>
    obtain ⟨found,hfound,hshell⟩ := exists_folder_of_shell? h.shells hfolder
    rw [hfound,Folder.eq_of_shell hshell]
    apply Std.ExtTreeMap.ext_getElem?
    intro key
    rw [← stored?_of_folder hfound,hstored,stored?_of_folder hfolder]

/-- The owner of a path stays the same folder if it owns none of the paths that are touched. -/
lemma Touches.owner? (hrooted : workspace.Rooted) (h : workspace.Touches paths next) {path : Path}
    (hpath : ∀ owner, workspace.owner? path = some owner → ∀ q ∈ paths, ∀ folder,
      workspace.owner? q = some folder → folder.root.components ≠ owner.root.components) :
    next.owner? path = workspace.owner? path := by
  cases howner : workspace.owner? path with
  | none =>
    rw [Option.eq_none_iff_forall_ne_some]
    intro folder hfolder
    obtain ⟨origin,horigin,-⟩ := owner?_of_shell? h.keyed.rooted hrooted h.shells.symm hfolder
    simp [howner] at horigin
  | some owner =>
    obtain ⟨found,hfound,hshell⟩ := owner?_of_shell? hrooted h.keyed.rooted h.shells howner
    have hstored := (owner?_spec h.keyed.rooted hfound).1
    rw [Folder.root_of_shell hshell,h.folder (hpath owner howner),
      (owner?_spec hrooted howner).1] at hstored
    rw [hfound,hstored]

end Workspace

namespace Navigation

variable {workspace next : Workspace} {path : Path}

/-- Questions about a path are answered by the folder that owns it. -/
lemma references_congr (h : next.owner? path = workspace.owner? path) (p : Text.Position)
    (includeDeclarations : Bool) :
    references next path p includeDeclarations = references workspace path p includeDeclarations := by
  simp only [references,atElement,Workspace.owner,h]

lemma definition_congr (h : next.owner? path = workspace.owner? path) (p : Text.Position) :
    definition next path p = definition workspace path p := by
  simp only [definition,atElement,Workspace.owner,h]

end Navigation

namespace Workspace

/-- Whatever run a workspace is the end of, a document operation that succeeds leaves the client, the
roots and the names, patterns and extensions of all folders as they are. It leaves whole folders as
they are if they own none of the paths that it names, and in all folders the documents of paths that
it does not name. It counts the revision up, and questions about paths of other folders have the same
answers before and after it. -/
theorem operation_touches_named_paths {workspace : Workspace} (h : workspace.Reachable) {disk : Disk}
    {operation : Operation} {paths : List Path} (hpaths : operation.paths? = some paths)
    {next : Workspace} (hok : (operation.step disk workspace).outcome = .ok next) :
    next.client = workspace.client ∧ (∀ root, next.shell? root = workspace.shell? root) ∧
    (∀ root, (∀ path ∈ paths, ∀ folder, workspace.owner? path = some folder →
      folder.root.components ≠ root) → next.folders[root]? = workspace.folders[root]?) ∧
    (∀ root key, (∀ path ∈ paths, path.components ≠ key) →
      next.stored? root key = workspace.stored? root key) ∧
    workspace.revision < next.revision ∧
    ∀ q, (∀ owner, workspace.owner? q = some owner → ∀ path ∈ paths, ∀ folder,
      workspace.owner? path = some folder → folder.root.components ≠ owner.root.components) →
      (∀ p includeDeclarations, Navigation.references next q p includeDeclarations =
        Navigation.references workspace q p includeDeclarations) ∧
      ∀ p, Navigation.definition next q p = Navigation.definition workspace q p := by
  have hbumped := touches_of_operation h.coherent.keyed hpaths hok
  have htouches := hbumped.of_bumped
  refine ⟨htouches.client,congrFun htouches.shells,fun root hroot => htouches.folder hroot,?_,
    hbumped.revision,?_⟩
  · intro root key hkey
    exact htouches.stored root key fun path hpath heq => absurd heq (hkey path hpath)
  · intro q hq
    have howner := htouches.owner? h.coherent.rooted hq
    exact ⟨Navigation.references_congr howner,Navigation.definition_congr howner⟩

theorem operation_touches_named_paths_created : ∃ (disk : Disk) (workspace next : Workspace),
    workspace.Reachable ∧
    (Operation.event (.created ["/n/b.md","/n//d.md"])).paths? =
      some [("/n/b.md" : Path),"/n//d.md"] ∧
    ((Operation.event (.created ["/n/b.md","/n//d.md"])).step disk workspace).outcome =
      .ok next ∧
    next.folderList.map (·.documents.keys) = [[[.root,.ofText "m",.ofText "c.md"]],
      [[.root,.ofText "n",.ofText "b.md"],[.root,.ofText "n",.ofText "d.md"]]] ∧
    next.folders[[Component.root,.ofText "m"]]? = workspace.folders[[Component.root,.ofText "m"]]? ∧
    workspace.revision < next.revision ∧
    ∀ p, Navigation.definition next "/m/c.md" p =
      Navigation.definition workspace "/m/c.md" p := by
  let start := (ofFolders none [Folder.empty "n" "/n",Folder.empty "m" "/m"]).toOption.get rfl
  let disk := (Disk.empty.writeFile "/n/b.md" [65]).writeFile "/n/d.md" [66]
  let workspace := start.run Operation.step
    [(Disk.empty,.event (.opened "/m/c.md" "[[c]]" 1))]
  let created := Operation.event (.created ["/n/b.md","/n//d.md"])
  have hreachable : workspace.Reachable :=
    ⟨start,_,.of_empty [⟨"n","/n"⟩,⟨"m","/m"⟩] (eq_ok_get _),rfl⟩
  have hok := eq_ok_get (x := (created.step disk workspace).outcome) (by decide +kernel)
  have hcreated : ∀ path ∈ [("/n/b.md" : Path),"/n//d.md"], ∀ folder,
      workspace.owner? path = some folder → folder.root.components ≠ [.root,.ofText "m"] := by
    decide +kernel
  have hasked : ∀ owner, workspace.owner? "/m/c.md" = some owner →
      owner.root.components = [.root,.ofText "m"] := by
    decide +kernel
  obtain ⟨-,-,hfolder,-,hrevision,hanswers⟩ := operation_touches_named_paths hreachable rfl hok
  refine ⟨disk,workspace,_,hreachable,rfl,hok,by decide +kernel,hfolder _ hcreated,hrevision,
    (hanswers _ ?_).2⟩
  intro owner howner
  rw [hasked owner howner]
  exact hcreated

end Workspace

end NoteIndex
