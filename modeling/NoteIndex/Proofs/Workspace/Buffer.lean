import NoteIndex.Proofs.Workspace.Run

/-! Open documents: while an editor has a document open, the workspace holds the text that the
editor has, whatever else happens to the workspace and to the disk. -/
namespace NoteIndex

open Markup

namespace Event

/-- The edits that an event makes to the document of a path. -/
def editsOf (path : Path) : Event → List Edit
  | .changed q _ edits => if q.components = path.components then edits else []
  | _ => []

/-- The version that an event supplies with edits of the document of a path. -/
def versionOf? (path : Path) : Event → Option Int32
  | .changed q version _ => if q.components = path.components then version else none
  | _ => none

/-- Whether an event opens or closes the document of a path. -/
def switches (path : Path) : Event → Bool
  | .opened q _ _ => q.components == path.components
  | .closed q => q.components == path.components
  | _ => false

end Event

namespace Workspace

variable {workspace next : Workspace} {path : Path} {text : String} {version : Int32}

lemma Keyed.path_of_held? (h : workspace.Keyed) {document : Document}
    (hheld : workspace.held? path = some document) :
    document.path.components = path.components := by
  obtain ⟨folder,howner,hdocument⟩ := Option.bind_eq_some_iff.1 hheld
  exact h.of_owner? howner _ document hdocument

/-- The workspace holds an open document with a given text and version for a path. -/
structure Shows (workspace : Workspace) (path : Path) (text : String) (version : Int32) : Prop where
  keyed : workspace.Keyed
  owned : (workspace.owner? path).isSome = true
  held : ∃ document, workspace.held? path = some document ∧ document.text = text ∧
    document.version = some version

lemma Shows.bumped (h : workspace.Shows path text version) :
    workspace.bumped.Shows path text version :=
  ⟨(Keeps.bumped h.keyed).keyed,h.owned,h.held⟩

/-- What happens to other paths does not show. -/
lemma Shows.sets (h : workspace.Shows path text version) {q : Path} {document : Option Document}
    (hset : workspace.Sets q document next) (hq : path.components ≠ q.components) :
    next.Shows path text version := by
  refine ⟨hset.keyed,by rw [hset.owned,h.owned],?_⟩
  rw [hset.held,if_neg hq]
  exact h.held

lemma Shows.hasOpen (h : workspace.Shows path text version) {q : Path} {folder : Folder}
    (howner : workspace.owner? q = some folder) (hq : path.components = q.components) :
    folder.hasOpen q = true := by
  obtain ⟨document,hheld,-,hversion⟩ := h.held
  have hdocument : folder.document? q = some document := by
    rw [held?,workspace.owner?_congr hq,howner] at hheld
    simpa [Folder.document?,hq] using hheld
  simp [Folder.hasOpen,hdocument,Document.isOpen,hversion]

lemma Shows.createFile (h : workspace.Shows path text version) {disk : Disk} {q : Path}
    (hok : (Workspace.createFile disk workspace q).outcome = .ok next) :
    next.Shows path text version := by
  obtain ⟨folder,howner,hcases⟩ := (createFile_eq_ok_iff disk q).1 hok
  split at hcases
  · rename_i hcond
    obtain ⟨found,-,hset⟩ := sets_of_reload h.keyed hcases
    apply h.sets hset
    intro hq
    simp [h.hasOpen howner hq] at hcond
  · exact hcases ▸ h

lemma Shows.deleteFile (h : workspace.Shows path text version) {q : Path}
    (hok : (workspace.deleteFile q).outcome = .ok next) : next.Shows path text version := by
  obtain ⟨folder,howner,hcases⟩ := (deleteFile_eq_ok_iff q).1 hok
  split at hcases
  · exact hcases ▸ h
  · rename_i hcond
    apply h.sets (sets_of_remove h.keyed hcases)
    intro hq
    exact hcond (h.hasOpen howner hq)

/-- The edited document goes back into the folder that it was found in. -/
lemma Shows.edited (h : workspace.Shows path text version) {q : Path}
    (hq : q.components = path.components) (supplied : Option Int32) (edits : List Edit) :
    (workspace.after (workspace.changeDocument q supplied edits)).Shows path
      (Edit.applyAll edits text) (supplied.getD version) := by
  obtain ⟨document,hheld,rfl,hversion⟩ := h.held
  obtain ⟨folder,howner,hdocument⟩ := Option.bind_eq_some_iff.1 hheld
  have hpath : (document.change supplied edits).value.path.components = path.components := by
    rw [Document.path_change,h.keyed.path_of_held? hheld]
  have hupsert : (workspace.upsert (document.change supplied edits).value).outcome =
      .ok (workspace.withFolder (folder.withDocument (document.change supplied edits).value)) :=
    (upsert_eq_ok_iff _).2 ⟨folder,by rw [workspace.owner?_congr hpath,howner],rfl⟩
  have hok := (changeDocument_eq_ok_iff q supplied edits).2 ⟨folder,
    by rw [workspace.owner?_congr hq,howner],
    .inr ⟨document,by simpa [Folder.document?,hq] using hdocument,hupsert⟩⟩
  have hset := sets_of_upsert h.keyed hupsert
  rw [after_of_ok hok]
  refine ⟨hset.keyed,by rw [hset.owned,h.owned],(document.change supplied edits).value,?_,?_,?_⟩
  · rw [hset.held,if_pos hpath.symm]
  · rw [Document.value_change]
    rfl
  · rw [Document.value_change]
    cases supplied <;> simp [Document.ofText,hversion]

/-- An edit of the document changes what is held for it, and an edit of any other does not. -/
lemma Shows.changed (h : workspace.Shows path text version) (disk : Disk) (q : Path)
    (supplied : Option Int32) (edits : List Edit) :
    (workspace.after ((Event.changed q supplied edits).step disk workspace)).Shows path
      (Edit.applyAll ((Event.changed q supplied edits).editsOf path) text)
      (((Event.changed q supplied edits).versionOf? path).getD version) := by
  by_cases hq : q.components = path.components
  · have hedits : (Event.changed q supplied edits).editsOf path = edits := if_pos hq
    have hversion : (Event.changed q supplied edits).versionOf? path = supplied := if_pos hq
    rw [hedits,hversion]
    exact h.edited hq supplied edits
  · have hedits : (Event.changed q supplied edits).editsOf path = [] := if_neg hq
    have hversion : (Event.changed q supplied edits).versionOf? path = none := if_neg hq
    rw [hedits,hversion]
    refine after_preserves (P := (·.Shows path text version)) ?_ h
    intro next hok
    obtain ⟨folder,howner,hcases⟩ := (changeDocument_eq_ok_iff q supplied edits).1 hok
    rcases hcases with ⟨-,rfl⟩ | ⟨document,hdocument,hupsert⟩
    · exact h.bumped
    · apply h.sets (sets_of_upsert h.keyed hupsert)
      rw [Document.path_change,h.keyed.of_owner? howner _ document hdocument]
      exact Ne.symm hq

/-- One step: an event that neither opens nor closes the document makes its own edits and no
others. -/
lemma Shows.event (h : workspace.Shows path text version) (disk : Disk) {event : Event}
    (hevent : event.switches path = false) :
    (workspace.after (event.step disk workspace)).Shows path
      (Edit.applyAll (event.editsOf path) text) ((event.versionOf? path).getD version) := by
  cases event with
  | opened q newText newVersion =>
    have hq : path.components ≠ q.components := by
      intro hq
      simp [Event.switches,hq] at hevent
    refine after_preserves (P := (·.Shows path text version)) ?_ h
    intro next hok
    exact h.sets (sets_of_upsert h.keyed hok) hq
  | changed q supplied edits => exact h.changed disk q supplied edits
  | closed q =>
    have hq : path.components ≠ q.components := by
      intro hq
      simp [Event.switches,hq] at hevent
    refine after_preserves (P := (·.Shows path text version)) ?_ h
    intro next hok
    rcases (closeDocument_eq_ok_iff disk q).1 hok with ⟨document,hload,hupsert⟩ | ⟨-,hremove⟩
    · exact h.sets (sets_of_upsert h.keyed hupsert) (Document.path_of_load hload ▸ hq)
    · exact h.sets (sets_of_remove h.keyed hremove) hq
  | created paths =>
    refine after_preserves (P := (·.Shows path text version)) ?_ h
    intro next hok
    exact createFiles_preserves (P := (·.Shows path text version))
      (fun current q _ after hafter hcurrent => hcurrent.createFile hafter) hok h.bumped
  | deleted paths =>
    refine after_preserves (P := (·.Shows path text version)) ?_ h
    intro next hok
    exact deleteFiles_preserves (P := (·.Shows path text version))
      (fun current q _ after hafter hcurrent => hcurrent.deleteFile hafter) hok h.bumped

/-- A run: the edits add up in the order of the events, and the last version counts. -/
lemma Shows.run (h : workspace.Shows path text version) (moves : List (Disk × Event))
    (hmoves : ∀ move ∈ moves, move.2.switches path = false) :
    (workspace.run Event.step moves).Shows path
      (Edit.applyAll (moves.flatMap (·.2.editsOf path)) text)
      ((moves.filterMap (·.2.versionOf? path)).getLast?.getD version) := by
  induction moves generalizing workspace text version with
  | nil => exact h
  | cons move moves ih =>
    have hstep := h.event move.1 (hmoves move List.mem_cons_self)
    have hrest := ih hstep fun m hm => hmoves m (List.mem_cons_of_mem move hm)
    have htext : Edit.applyAll ((move :: moves).flatMap (·.2.editsOf path)) text =
        Edit.applyAll (moves.flatMap (·.2.editsOf path))
          (Edit.applyAll (move.2.editsOf path) text) := by
      rw [List.flatMap_cons,Edit.applyAll,List.foldl_append]
      rfl
    have hversion : ((move :: moves).filterMap (·.2.versionOf? path)).getLast?.getD version =
        (moves.filterMap (·.2.versionOf? path)).getLast?.getD
          ((move.2.versionOf? path).getD version) := by
      cases hmove : move.2.versionOf? path <;> simp [hmove,List.getLast?_cons]
    rw [htext,hversion]
    exact hrest

lemma shows_of_opened (h : workspace.Keyed) (howned : (workspace.owner? path).isSome = true)
    (disk : Disk) {q : Path} (hq : q.components = path.components) (text : String)
    (version : Int32) :
    (workspace.after ((Event.opened q text version).step disk workspace)).Shows path text
      version := by
  obtain ⟨folder,howner⟩ := Option.isSome_iff_exists.1 howned
  have hok : (workspace.upsert (Document.opened q text version)).outcome = .ok _ :=
    (upsert_eq_ok_iff _).2 ⟨folder,(workspace.owner?_congr hq).trans howner,rfl⟩
  have hset := sets_of_upsert h hok
  rw [Event.step,openDocument,after_of_ok hok]
  refine ⟨hset.keyed,by rw [hset.owned,howned],Document.opened q text version,?_,rfl,rfl⟩
  rw [hset.held]
  exact if_pos hq.symm

/-- From when a document of a folder is opened until it is opened again or closed, the workspace
has it with the text that it was opened with and all edits since, the elements of that text, and
the last version that came with either. What happened before does not count, nor does anything
that happens to other documents or to the disk. -/
theorem opened_document_in_sync (h : workspace.Keyed)
    (howned : (workspace.owner? path).isSome = true) (before later : List (Disk × Event))
    (disk : Disk) {q : Path} (hq : q.components = path.components) (text : String)
    (version : Int32) (hlater : ∀ move ∈ later, move.2.switches path = false) :
    ∃ document,
      ((workspace.run Event.step (before ++ (disk,.opened q text version) :: later)).document?
        path).outcome = .ok (some document) ∧
      document.path.components = path.components ∧
      document.text = Edit.applyAll (later.flatMap (·.2.editsOf path)) text ∧
      document.elements = parse (Edit.applyAll (later.flatMap (·.2.editsOf path)) text) ∧
      document.version = some ((later.filterMap (·.2.versionOf? path)).getLast?.getD version) := by
  have hbefore : workspace.Keeps (workspace.run Event.step before) := by
    refine run_preserves ?_ (Keeps.refl h) before
    intro disk current event next hok hcurrent
    exact hcurrent.trans (keeps_of_event hcurrent.keyed hok)
  have hopened := shows_of_opened hbefore.keyed (by rw [hbefore.owned,howned]) disk hq text version
  have hshows := hopened.run later hlater
  obtain ⟨document,hheld,htext,hversion⟩ := hshows.held
  refine ⟨document,?_,hshows.keyed.path_of_held? hheld,htext,by rw [← htext,document.elements_eq],
    hversion⟩
  rw [run_append]
  exact (document?_outcome hshows.owned).trans (congrArg Except.ok hheld)

theorem opened_document_in_sync_edited : ∃ workspace : Workspace,
    ofFolders none [Folder.empty "n" "/n"] = .ok workspace ∧
    ∃ document,
      ((workspace.run Event.step (
        [(Disk.empty,.opened "/n/a.md" "x" 7),(Disk.empty,.closed "/n/a.md")] ++
        (Disk.empty,.opened "/n//a.md" "b" 1) ::
        [(Disk.empty,.changed "/n/a.md" (some 2) [⟨some ⟨⟨0,0⟩,⟨0,0⟩⟩,"# "⟩]),
          (Disk.empty,.opened "/n/c.md" "c" 9),
          (Disk.empty.writeFile "/n/a.md" [100],.created ["/n/c.md","/n/a.md"]),
          (Disk.empty,.changed "/n/./a.md" none [⟨none,"# e"⟩,⟨some ⟨⟨0,2⟩,⟨0,2⟩⟩,"f"⟩]),
          (Disk.empty,.deleted ["/n/a.md","/m"])])).document? "/n/a.md").outcome =
        .ok (some document) ∧
      document.text = "# fe" ∧ document.elements = parse "# fe" ∧ document.version = some 2 := by
  have hinitial : ∀ workspace, ofFolders none [Folder.empty "n" "/n"] = .ok workspace →
      workspace.Initial := fun _ => .of_empty [⟨"n","/n"⟩]
  refine ⟨_,rfl,?_⟩
  refine (opened_document_in_sync (hinitial _ rfl).coherent.keyed ?_ _ _ _ ?_ _ _ ?_).imp
    fun document ⟨hok,_,htext,helements,hversion⟩ => ⟨hok,htext.trans ?_,helements.trans ?_,
      hversion.trans ?_⟩
  all_goals decide +kernel

end Workspace

end NoteIndex
