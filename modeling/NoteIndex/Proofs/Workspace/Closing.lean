import NoteIndex.Proofs.Disk.Spelling
import NoteIndex.Proofs.Workspace.Frame
import NoteIndex.Proofs.Workspace.Run
import NoteIndex.Proofs.Workspace.Scan

/-! Closing: once everything that was opened or changed has been closed, a workspace has the
documents that were scanned, whatever else an editor did and whatever files were reported as
created. A scan passes over links and over directories that it cannot list, so this is about paths
without them. -/
namespace NoteIndex

namespace Document

/-- A document, however its path is written. -/
def content (document : Document) : List Component × Option Int32 × String × List Markup.Element :=
  (document.path.components,document.version,document.text,document.elements)

end Document

namespace Disk

/-- On the way from a root to a path there is no link, and every directory can be listed. The root may be
a link to a directory. -/
structure PlainTo (disk : Disk) (root path : Path) : Prop where
  followed : (disk.isLink root && disk.isFile root) = false
  along : ∀ place names, disk.locate root = .ok place →
    path.components = root.components ++ names.map .name → disk.PlainAlong place names

lemma PlainBelow.plainTo {disk : Disk} {root : Path} (h : disk.PlainBelow root) (path : Path) :
    disk.PlainTo root path :=
  ⟨h.followed,fun place names hroot _ => h.along place names hroot⟩

end Disk

namespace Folder

lemma admits_congr (folder : Folder) {p q : Path} (h : p.components = q.components) :
    folder.admits p = folder.admits q := by
  simp only [admits,isMarkdown,isIgnored,Ignore.isIgnored,Path.extension?,Path.below?,h]

section Scan

variable {disk : Disk} {name : String} {root : Path} {settings : Settings} {folder : Folder}
  {path : Path} (h : (scan? disk name root settings).outcome = .ok (some folder))

include h

lemma document_eq_none_of_scan (hload : Document.load disk path = .ok none) :
    folder.documents[path.components]? = none := by
  rw [Option.eq_none_iff_forall_ne_some]
  intro document hdocument
  obtain ⟨q,-,-,hkey,hfound⟩ := (documents_of_scan h _ _).1 hdocument
  obtain ⟨bytes,hfind,-⟩ := Document.find_of_load_eq_some hfound
  exact Disk.find_ne_notFound_of_components hkey hfind (Document.find_of_load_eq_none hload)

variable (hbelow : root.components <+: path.components) (hup : .up ∉ path.components)
  (hplain : disk.PlainTo root path)

include hbelow hup hplain

lemma exists_document_of_scan (hadmits : folder.admits path = true) {document : Document}
    (hload : Document.load disk path = .ok (some document)) :
    ∃ found, folder.documents[path.components]? = some found ∧
      found.content = document.content := by
  obtain ⟨place,hplace⟩ := exists_locate_of_scan? h
  obtain ⟨-,hroot,-⟩ := (Disk.locate_eq_ok_iff _ _ _).1 hplace
  obtain ⟨bytes,hfind,rfl⟩ := Document.find_of_load_eq_some hload
  obtain ⟨names,hnames⟩ := Path.exists_names_below hroot hbelow hup
  have halong := hplain.along place names hplace hnames
  have hat := Disk.at?_of_find_below hnames hplace halong.linkless hfind
  have hlists : disk.ListsFile root names :=
    ⟨hplain.followed,place,bytes,hplace,halong.lists hat,hat⟩
  -- The scan writes the path as names after the root.
  have hkey : (root.descend names).components = path.components := by
    rw [Path.components_descend root hlists.isName,hnames]
  have hjoin := (Disk.find_descend hplace hlists.isName halong.linkless _).2 hat
  have hstored := (documents_of_scan h path.components _).2
    ⟨_,⟨names,hlists,rfl⟩,(folder.admits_congr hkey).trans hadmits,hkey,Document.load_of_find hjoin⟩
  exact ⟨_,hstored,by simp [Document.content,Document.ofText,hkey]⟩

/-- A scan has what any spelling of a path reads, if the folder takes in the path. -/
theorem content_of_scan (hadmits : folder.admits path = true) {found : Option Document}
    (hload : Document.load disk path = .ok found) :
    folder.documents[path.components]?.map Document.content = found.map Document.content := by
  cases found with
  | none => rw [document_eq_none_of_scan h hload]
  | some document =>
    obtain ⟨stored,hstored,hcontent⟩ := exists_document_of_scan h hbelow hup hplain hadmits hload
    rw [hstored,Option.map_some,Option.map_some,hcontent]

end Scan

end Folder

/-- The path that an editor opens or changes. -/
def Event.edited? : Event → Option Path
  | .opened path _ _ => some path
  | .changed path _ _ => some path
  | _ => none

namespace Workspace

variable {workspace current next : Workspace} {disk : Disk} {pending left : List Path}

/-- The path has no two dots, and the way to it from the root of its folder is plain. -/
structure Straight (workspace : Workspace) (disk : Disk) (path : Path) : Prop where
  names : .up ∉ path.components
  plain : ∀ folder, workspace.owner? path = some folder → disk.PlainTo folder.root path

/-- The path is straight, in a folder that takes it in, and is a file or nothing. -/
structure Editable (workspace : Workspace) (disk : Disk) (path : Path) : Prop where
  straight : workspace.Straight disk path
  admitted : ∃ folder, workspace.owner? path = some folder ∧ folder.isMarkdown path = true ∧
    folder.isIgnored path = false
  readable : ∃ found, Document.load disk path = .ok found

/-- An editor keeps to editable paths, and no file is said to be deleted. -/
def Allows (workspace : Workspace) (disk : Disk) : Event → Prop
  | .opened path _ _ => workspace.Editable disk path
  | .changed path _ _ => workspace.Editable disk path
  | .closed path => workspace.Editable disk path
  | .created paths => ∀ path ∈ paths, workspace.Straight disk path
  | .deleted _ => False

/-- The folders are those of another workspace, and so are their documents, apart from those of
pending paths. -/
structure AgreesOff (workspace : Workspace) (pending : List Path) (current : Workspace) : Prop where
  keyed : current.Keyed
  shells : current.shell? = workspace.shell?
  stored : ∀ root key : List Component, (∀ path ∈ pending, path.components = key →
    ∀ folder, workspace.owner? path = some folder → folder.root.components ≠ root) →
    (current.stored? root key).map Document.content =
      (workspace.stored? root key).map Document.content

lemma AgreesOff.bumped (h : workspace.AgreesOff pending current) :
    workspace.AgreesOff pending current.bumped :=
  ⟨⟨h.keyed.rooted,h.keyed.keyed⟩,h.shells,h.stored⟩

/-- A write to the document of a path. It settles the path if it writes what was there. -/
lemma AgreesOff.withFolder (hrooted : workspace.Rooted) (h : workspace.AgreesOff pending current)
    {path : Path} {old new : Folder} (howner : current.owner? path = some old)
    (hshell : new.shell = old.shell) (hkeyed : new.Keyed)
    (hdocuments : ∀ key, key ≠ path.components → new.documents[key]? = old.documents[key]?)
    (hleft : ∀ q ∈ pending, q ∈ left ∨ q.components = path.components)
    (hvalue : (∃ q ∈ left, q.components = path.components) ∨
      new.documents[path.components]?.map Document.content =
        (workspace.stored? old.root.components path.components).map Document.content) :
    workspace.AgreesOff left (current.withFolder new) := by
  have hold := (owner?_spec h.keyed.rooted howner).1
  have hroot := Folder.root_of_shell hshell
  obtain ⟨origin,horigin,horiginSame⟩ :=
    owner?_of_shell? h.keyed.rooted hrooted h.shells.symm howner
  have horiginRoot := Folder.root_of_shell horiginSame
  refine ⟨h.keyed.withFolder hkeyed,(shell?_withFolder hold hshell).trans h.shells,?_⟩
  intro root key hfree
  -- A pending path with these components is still pending, or is the one that is written.
  have hpending : (root = old.root.components → key ≠ path.components) →
      ∀ q ∈ pending, q.components = key → ∀ folder, workspace.owner? q = some folder →
        folder.root.components ≠ root := by
    intro hne q hq hkey folder hfolder
    rcases hleft q hq with hq | hwritten
    · exact hfree q hq hkey folder hfolder
    · rw [workspace.owner?_congr hwritten,horigin] at hfolder
      cases hfolder
      rintro rfl
      exact hne (by rw [horiginRoot]) (hkey ▸ hwritten)
  rw [stored?_withFolder,hroot]
  split
  · rename_i hsame
    subst hsame
    by_cases hkey : key = path.components
    · subst hkey
      rcases hvalue with ⟨q,hq,hwritten⟩ | hvalue
      · rw [← workspace.owner?_congr hwritten] at horigin
        exact absurd (by rw [horiginRoot]) (hfree q hq hwritten origin horigin)
      · exact hvalue
    · rw [hdocuments key hkey,← stored?_of_folder hold]
      exact h.stored _ _ (hpending fun _ => hkey)
  · rename_i hsame
    exact h.stored _ _ (hpending fun heq => absurd heq.symm hsame)

/-- What is written to a pending path does not matter. -/
lemma AgreesOff.upsert (hrooted : workspace.Rooted) (h : workspace.AgreesOff pending current)
    {document : Document} (hpending : ∃ q ∈ pending, q.components = document.path.components)
    (hok : (current.upsert document).outcome = .ok next) : workspace.AgreesOff pending next := by
  obtain ⟨folder,howner,rfl⟩ := (upsert_eq_ok_iff document).1 hok
  refine h.withFolder hrooted howner rfl ((h.keyed.of_owner? howner).withDocument document) ?_
    (fun q hq => .inl hq) (.inl hpending)
  intro key hkey
  rw [Folder.documents_withDocument,if_neg hkey.symm]

lemma AgreesOff.changeDocument (hrooted : workspace.Rooted)
    (h : workspace.AgreesOff pending current) {path : Path} {version : Option Int32}
    {edits : List Edit} (hpending : ∃ q ∈ pending, q.components = path.components)
    (hok : (current.changeDocument path version edits).outcome = .ok next) :
    workspace.AgreesOff pending next := by
  obtain ⟨folder,howner,hcases⟩ := (changeDocument_eq_ok_iff path version edits).1 hok
  rcases hcases with ⟨-,rfl⟩ | ⟨document,hdocument,hupsert⟩
  · exact h.bumped
  · have hkey := h.keyed.of_owner? howner _ document hdocument
    refine h.upsert hrooted ?_ hupsert
    rwa [Document.path_change,hkey]

/-- Writing again what is there changes nothing. -/
lemma AgreesOff.withFolder_owner (hrooted : workspace.Rooted)
    (h : workspace.AgreesOff pending current) {path : Path} {folder : Folder}
    (howner : current.owner? path = some folder) :
    workspace.AgreesOff pending (current.withFolder folder) := by
  refine h.withFolder hrooted howner rfl (h.keyed.of_owner? howner) (fun key _ => rfl)
    (fun q hq => .inl hq) ?_
  by_cases hpending : ∃ q ∈ pending, q.components = path.components
  · exact .inl hpending
  · right
    rw [← stored?_of_folder (owner?_spec h.keyed.rooted howner).1]
    exact h.stored _ _ fun q hq hkey => absurd ⟨q,hq,hkey⟩ hpending

section Scanned

variable {client : Option Client} {specs : List FolderSpec} {settingsFor : Path → Logged Settings}
  (hscanned : (ofSpecs disk client specs settingsFor).outcome = .ok workspace)

include hscanned

/-- A scanned workspace has what is on the disk. -/
lemma content_of_ofSpecs {path : Path} {folder : Folder}
    (howner : workspace.owner? path = some folder) (hpath : workspace.Straight disk path)
    (hadmits : folder.admits path = true) {found : Option Document}
    (hload : Document.load disk path = .ok found) :
    (workspace.stored? folder.root.components path.components).map Document.content =
      found.map Document.content := by
  obtain ⟨hstored,howns,-⟩ := owner?_spec (coherent_of_ofSpecs hscanned).rooted howner
  obtain ⟨-,spec,-,hscan⟩ := scan?_of_ofSpecs hscanned hstored
  have hroot := (Folder.coherent_of_scan ((Folder.scan?_eq_some_iff _ _ _ _ _).1 hscan).2).2
  have hplain := hpath.plain folder howner
  rw [stored?_of_folder hstored]
  rw [Folder.owns_iff,hroot] at howns
  rw [hroot] at hplain
  exact Folder.content_of_scan hscan howns hpath.names hplain hadmits hload

/-- A path that gets what is on the disk is settled. -/
lemma AgreesOff.loaded (h : workspace.AgreesOff pending current) {path : Path} {old new : Folder}
    (howner : current.owner? path = some old) (hpath : workspace.Straight disk path)
    (hadmits : old.admits path = true) (hshell : new.shell = old.shell) (hkeyed : new.Keyed)
    (hdocuments : ∀ key, key ≠ path.components → new.documents[key]? = old.documents[key]?)
    (hload : Document.load disk path = .ok new.documents[path.components]?)
    (hleft : ∀ q ∈ pending, q ∈ left ∨ q.components = path.components) :
    workspace.AgreesOff left (current.withFolder new) := by
  have hrooted := (coherent_of_ofSpecs hscanned).rooted
  refine h.withFolder hrooted howner hshell hkeyed hdocuments hleft (.inr ?_)
  obtain ⟨origin,horigin,hsame⟩ := owner?_of_shell? h.keyed.rooted hrooted h.shells.symm howner
  have hcontent := content_of_ofSpecs hscanned horigin hpath
    ((Folder.admits_of_shell hsame path).trans hadmits) hload
  rw [← hcontent,Folder.root_of_shell hsame]

lemma AgreesOff.withDocument (h : workspace.AgreesOff pending current) {path : Path}
    {folder : Folder} (howner : current.owner? path = some folder)
    (hpath : workspace.Straight disk path) (hadmits : folder.admits path = true) {document : Document}
    (hload : Document.load disk path = .ok (some document))
    (hleft : ∀ q ∈ pending, q ∈ left ∨ q.components = path.components) :
    workspace.AgreesOff left (current.withFolder (folder.withDocument document)) := by
  obtain rfl := Document.path_of_load hload
  refine h.loaded hscanned howner hpath hadmits rfl
    ((h.keyed.of_owner? howner).withDocument document) ?_ ?_ hleft
  · intro key hkey
    rw [Folder.documents_withDocument,if_neg hkey.symm]
  · rw [Folder.documents_withDocument,if_pos rfl,hload]

lemma AgreesOff.withoutDocument (h : workspace.AgreesOff pending current) {path : Path}
    {folder : Folder} (howner : current.owner? path = some folder)
    (hpath : workspace.Straight disk path) (hadmits : folder.admits path = true)
    (hload : Document.load disk path = .ok none)
    (hleft : ∀ q ∈ pending, q ∈ left ∨ q.components = path.components) :
    workspace.AgreesOff left (current.withFolder (folder.withoutDocument path)) := by
  refine h.loaded hscanned howner hpath hadmits rfl
    ((h.keyed.of_owner? howner).withoutDocument path) ?_ ?_ hleft
  · intro key hkey
    rw [Folder.documents_withoutDocument,if_neg hkey.symm]
  · rw [Folder.documents_withoutDocument,if_pos rfl,hload]

/-- Closing a path settles it, and does not fail. -/
lemma AgreesOff.exists_closeDocument (h : workspace.AgreesOff pending current) {path : Path}
    (hpath : workspace.Editable disk path)
    (hleft : ∀ q ∈ pending, q ∈ left ∨ q.components = path.components) :
    ∃ next, (Workspace.closeDocument disk current path).outcome = .ok next ∧
      workspace.AgreesOff left next := by
  obtain ⟨hstraight,⟨origin,horigin,hmarkdown,hkept⟩,found,hload⟩ := hpath
  obtain ⟨folder,howner,hsame⟩ := owner?_of_shell? (coherent_of_ofSpecs hscanned).rooted
    h.keyed.rooted h.shells horigin
  have hadmits : folder.admits path = true := by
    rw [Folder.admits_of_shell hsame,Folder.admits_iff]
    exact ⟨hmarkdown,hkept⟩
  cases found with
  | none =>
    exact ⟨_,(closeDocument_eq_ok_iff disk path).2
      (.inr ⟨hload,(remove_eq_ok_iff path).2 ⟨folder,howner,rfl⟩⟩),
      h.withoutDocument hscanned howner hstraight hadmits hload hleft⟩
  | some document =>
    have hdocument : current.owner? document.path = some folder := by
      rw [Document.path_of_load hload,howner]
    exact ⟨_,(closeDocument_eq_ok_iff disk path).2
      (.inl ⟨document,hload,(upsert_eq_ok_iff document).2 ⟨folder,hdocument,rfl⟩⟩),
      h.withDocument hscanned howner hstraight hadmits hload hleft⟩

lemma AgreesOff.createFiles (h : workspace.AgreesOff pending current) {paths : List Path}
    (hpaths : ∀ path ∈ paths, workspace.Straight disk path)
    (hok : (Workspace.createFiles disk current paths).outcome = .ok next) :
    workspace.AgreesOff pending next := by
  refine createFiles_preserves ?_ hok h.bumped
  intro middle path hpath after hafter hmiddle
  obtain ⟨folder,howner,hcases⟩ := (createFile_eq_ok_iff disk path).1 hafter
  split at hcases
  · rename_i hadmits
    obtain ⟨owner,howner',hcases⟩ := (reload_eq_ok_iff disk path).1 hcases
    cases howner.symm.trans howner'
    rcases hcases with ⟨document,hload,rfl⟩ | ⟨-,rfl⟩
    · exact hmiddle.withDocument hscanned howner (hpaths path hpath)
        ((Folder.admits_iff _ _).2 ⟨hadmits.1,hadmits.2.1⟩) hload fun q hq => .inl hq
    · exact hmiddle.withFolder_owner (coherent_of_ofSpecs hscanned).rooted howner
  · exact hcases ▸ hmiddle

/-- One step: no event reaches beyond the pending paths. -/
lemma AgreesOff.event (h : workspace.AgreesOff pending current) {event : Event}
    (hevent : workspace.Allows disk event)
    (hpending : ∀ path, event.edited? = some path → ∃ q ∈ pending, q.components = path.components)
    (hok : (event.step disk current).outcome = .ok next) : workspace.AgreesOff pending next := by
  have hrooted := (coherent_of_ofSpecs hscanned).rooted
  cases event with
  | opened path text version => exact h.upsert hrooted (hpending path rfl) hok
  | changed path version edits => exact h.changeDocument hrooted (hpending path rfl) hok
  | closed path =>
    obtain ⟨after,hafter,hagrees⟩ := h.exists_closeDocument hscanned hevent fun q hq => .inl hq
    cases hafter.symm.trans hok
    exact hagrees
  | created paths => exact h.createFiles hscanned hevent hok
  | deleted paths => exact hevent.elim

/-- A run of closes: in the end nothing is pending. -/
lemma AgreesOff.exists_foldlM_closeDocument (h : workspace.AgreesOff pending current)
    (hpending : ∀ path ∈ pending, workspace.Editable disk path) :
    ∃ next, (pending.foldlM (Workspace.closeDocument disk) current).outcome = .ok next ∧
      workspace.AgreesOff [] next := by
  rw [Step.outcome_foldlM]
  induction pending generalizing current with
  | nil => exact ⟨current,rfl,h⟩
  | cons path rest ih =>
    obtain ⟨after,hafter,hagrees⟩ := h.exists_closeDocument hscanned
      (hpending path List.mem_cons_self) fun q hq => by
        rcases List.mem_cons.1 hq with rfl | hq
        · exact .inr rfl
        · exact .inl hq
    rw [List.foldlM_cons,hafter]
    exact ih hagrees fun q hq => hpending q (List.mem_cons_of_mem path hq)

end Scanned

/-- Whatever an editor opens, changes and closes in a scanned workspace, and whatever files are
reported as created, all by plain ways: once all that was opened or changed has been closed, which
does not fail, the folders are as they were scanned, and so is each of their documents, up to how its
path is written. -/
theorem closing_restores_scan {client : Option Client} {specs : List FolderSpec}
    {settingsFor : Path → Logged Settings}
    (hscanned : (ofSpecs disk client specs settingsFor).outcome = .ok workspace)
    {events : List Event} (hevents : ∀ event ∈ events, workspace.Allows disk event)
    {closing : List Path} (hclosing : ∀ path ∈ closing, workspace.Editable disk path)
    (hcovers : ∀ event ∈ events, ∀ path, event.edited? = some path →
      ∃ q ∈ closing, q.components = path.components) :
    ∃ next, (closing.foldlM (closeDocument disk)
        (workspace.run Event.step (events.map fun event => (disk,event)))).outcome = .ok next ∧
      (∀ root, next.shell? root = workspace.shell? root) ∧
      ∀ root key, (next.stored? root key).map Document.content =
        (workspace.stored? root key).map Document.content := by
  have hrun : workspace.AgreesOff closing
      (workspace.run Event.step (events.map fun event => (disk,event))) := by
    refine run_preserves_of_mem ?_ ⟨(coherent_of_ofSpecs hscanned).keyed,rfl,fun _ _ _ => rfl⟩
    rintro move hmove current next hok hcurrent
    obtain ⟨event,hevent,rfl⟩ := List.mem_map.1 hmove
    exact hcurrent.event hscanned (hevents event hevent) (hcovers event hevent) hok
  obtain ⟨next,hok,hagrees⟩ := hrun.exists_foldlM_closeDocument hscanned hclosing
  refine ⟨next,hok,congrFun hagrees.shells,?_⟩
  intro root key
  exact hagrees.stored root key (by simp)

theorem closing_restores_scan_edited : ∃ (disk : Disk) (workspace edited next : Workspace),
    (ofSpecs disk none [⟨"n","/n"⟩] fun _ => pure Settings.default).outcome = .ok workspace ∧
    edited = workspace.run Event.step (([.opened "/n//a.md" "B" 1,.opened "/n/b.md" "C" 1,
      .created ["/n/a.md","/m"],.closed "/n/a.md",.changed "/n/./a.md" none [⟨none,"D"⟩]] :
        List Event).map fun event => (disk,event)) ∧
    workspace.folderList.map (·.documentList.map (·.text)) = [["A"]] ∧
    edited.folderList.map (·.documentList.map (·.text)) = [["D","C"]] ∧
    ([("/n/b.md" : Path),"/n/a.md"].foldlM (closeDocument disk) edited).outcome = .ok next ∧
    (∀ root, next.shell? root = workspace.shell? root) ∧
    ∀ root key, (next.stored? root key).map Document.content =
      (workspace.stored? root key).map Document.content := by
  let disk := Disk.empty.writeFile "/n/a.md" [65]
  let opening := ofSpecs disk none [⟨"n","/n"⟩] fun _ => pure Settings.default
  let workspace := opening.outcome.toOption.get (by decide +kernel)
  let events : List Event := [.opened "/n//a.md" "B" 1,.opened "/n/b.md" "C" 1,
    .created ["/n/a.md","/m"],.closed "/n/a.md",.changed "/n/./a.md" none [⟨none,"D"⟩]]
  have hchecked : ∀ path ∈ [("/n//a.md" : Path),"/n/b.md","/n/a.md","/n/./a.md"],
      .up ∉ path.components ∧ (workspace.owner? path).any (·.admits path) = true ∧
      (Document.load disk path).toOption.isSome = true := by decide +kernel
  have hstraight : ∀ path : Path, .up ∉ path.components → workspace.Straight disk path :=
    fun path hup => ⟨hup,fun folder _ =>
      (Disk.plainBelow_of_entries (by decide +kernel) folder.root).plainTo path⟩
  have heditable : ∀ path ∈ [("/n//a.md" : Path),"/n/b.md","/n/a.md","/n/./a.md"],
      workspace.Editable disk path := by
    intro path hpath
    obtain ⟨hup,hadmits,hload⟩ := hchecked path hpath
    obtain ⟨folder,howner,hadmits⟩ := (Option.any_eq_true _ _).1 hadmits
    exact ⟨hstraight path hup,⟨folder,howner,(Folder.admits_iff _ _).1 hadmits⟩,_,eq_ok_get hload⟩
  have hevents : ∀ event ∈ events, workspace.Allows disk event := by
    have hcreated : ∀ path ∈ [("/n/a.md" : Path),"/m"], .up ∉ path.components := by
      decide +kernel
    simpa [events,Allows,heditable] using
      ⟨hstraight _ (hcreated "/n/a.md" (by simp)),hstraight _ (hcreated "/m" (by simp))⟩
  have hclosing : ∀ path ∈ [("/n/b.md" : Path),"/n/a.md"], workspace.Editable disk path := by
    simp [heditable]
  obtain ⟨next,hnext,hsame⟩ :=
    closing_restores_scan (eq_ok_get _) hevents hclosing (by decide +kernel)
  exact ⟨disk,workspace,_,next,eq_ok_get _,rfl,by decide +kernel,by decide +kernel,hnext,hsame⟩

/-- A scan passes over a link to a file, but closing the path of the link reads the file. -/
theorem closing_keeps_linked : ∃ (disk : Disk) (workspace next : Workspace) (path : Path),
    (ofSpecs disk none [⟨"n","/n"⟩] fun _ => pure Settings.default).outcome = .ok workspace ∧
    .up ∉ path.components ∧
    (∃ folder, workspace.owner? path = some folder ∧ folder.isMarkdown path = true ∧
      folder.isIgnored path = false) ∧
    (∃ found, Document.load disk path = .ok found) ∧
    ([path].foldlM (closeDocument disk)
      (workspace.run Event.step [(disk,.opened path "B" 1)])).outcome = .ok next ∧
    (workspace.stored? (Path.components "/n") path.components).isSome = false ∧
    (next.stored? (Path.components "/n") path.components).isSome = true := by
  let disk := (Disk.empty.writeFile "/n/a.md" [65]).makeLink "/n/l.md" "a.md"
  let path : Path := "/n/l.md"
  let opening := ofSpecs disk none [⟨"n","/n"⟩] fun _ => pure Settings.default
  let workspace := opening.outcome.toOption.get (by decide +kernel)
  let closing := [path].foldlM (closeDocument disk)
    (workspace.run Event.step [(disk,.opened path "B" 1)])
  let next := closing.outcome.toOption.get (by decide +kernel)
  have hadmits : (workspace.owner? path).any (·.admits path) = true := by decide +kernel
  obtain ⟨folder,howner,hadmits⟩ := (Option.any_eq_true _ _).1 hadmits
  have hload : (Document.load disk path).toOption.isSome = true := by decide +kernel
  exact ⟨disk,workspace,next,path,eq_ok_get _,by decide +kernel,
    ⟨folder,howner,(Folder.admits_iff _ _).1 hadmits⟩,⟨_,eq_ok_get hload⟩,eq_ok_get _,
    by decide +kernel,by decide +kernel⟩

end Workspace

end NoteIndex
