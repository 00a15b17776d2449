import NoteIndex.Proofs.Workspace.Run
import NoteIndex.Proofs.Workspace.Scan

/-! Folders removed and added: each root has the last folder that was scanned for it, or else the
one that it had before, unless it was removed. What is held for a path stays as it is while its
owner stays, and comes from the disk when a scanned folder takes over. -/
namespace NoteIndex.Workspace

variable {workspace : Workspace}

/-- The folder that is scanned for a spec, if its root exists and can be read. -/
def scanned? (disk : Disk) (settingsFor : Path → Logged Settings) (spec : FolderSpec) :
    Option Folder :=
  match (Folder.scan? disk spec.name spec.root (settingsFor spec.root).value).outcome with
  | .ok found => found
  | .error _ => none

lemma scanned?_eq_some_iff (disk : Disk) (settingsFor : Path → Logged Settings)
    (spec : FolderSpec) (folder : Folder) :
    scanned? disk settingsFor spec = some folder ↔
      (Folder.scan? disk spec.name spec.root (settingsFor spec.root).value).outcome =
        .ok (some folder) := by
  unfold scanned?
  split <;> simp_all

lemma root_of_scanned? {disk : Disk} {settingsFor : Path → Logged Settings} {spec : FolderSpec}
    {folder : Folder} (h : scanned? disk settingsFor spec = some folder) :
    folder.root = spec.root := by
  rw [scanned?_eq_some_iff,Folder.scan?_eq_some_iff] at h
  exact (Folder.coherent_of_scan h.2).2

lemma keyed_of_scanned? {disk : Disk} {settingsFor : Path → Logged Settings} {spec : FolderSpec}
    {folder : Folder} (h : scanned? disk settingsFor spec = some folder) : folder.Keyed := by
  rw [scanned?_eq_some_iff,Folder.scan?_eq_some_iff] at h
  exact (Folder.coherent_of_scan h.2).1.keyed

/-- The folder that is scanned for a spec whose root has given components. -/
def scannedAt? (disk : Disk) (settingsFor : Path → Logged Settings) (key : List Component)
    (spec : FolderSpec) : Option Folder :=
  if spec.root.components = key then scanned? disk settingsFor spec else none

lemma scannedAt?_eq_none {disk : Disk} {settingsFor : Path → Logged Settings}
    {key : List Component} {spec : FolderSpec}
    (h : spec.root.components = key → scanned? disk settingsFor spec = none) :
    scannedAt? disk settingsFor key spec = none := by
  unfold scannedAt?
  split
  · exact h ‹_›
  · rfl

lemma folders_dropFolder (workspace : Workspace) (root : Path) (key : List Component) :
    (workspace.dropFolder root).value.folders[key]? =
      if root.components = key then none else workspace.folders[key]? := by
  simp [value_dropFolder,Std.ExtTreeMap.getElem?_erase]

/-- A spec that gives no folder changes nothing. -/
lemma value_addFolder_of_unscanned {disk : Disk} {settingsFor : Path → Logged Settings}
    {spec : FolderSpec} (h : scanned? disk settingsFor spec = none) (workspace : Workspace) :
    (addFolder disk settingsFor workspace spec).value = workspace := by
  unfold addFolder
  simp only [Logged.value_bind]
  split
  · rename_i folder hscan
    rw [(scanned?_eq_some_iff disk settingsFor spec folder).2 hscan] at h
    cases h
  · rfl
  · rfl

lemma folders_addFolder (disk : Disk) (settingsFor : Path → Logged Settings)
    (workspace : Workspace) (spec : FolderSpec) (key : List Component) :
    (addFolder disk settingsFor workspace spec).value.folders[key]? =
      (scannedAt? disk settingsFor key spec).or workspace.folders[key]? := by
  unfold scannedAt?
  cases hscanned : scanned? disk settingsFor spec with
  | none => rw [value_addFolder_of_unscanned hscanned,ite_self,Option.none_or]
  | some folder =>
    have hscan := (scanned?_eq_some_iff disk settingsFor spec folder).1 hscanned
    unfold Step.outcome at hscan
    unfold addFolder
    simp only [Logged.value_bind,hscan]
    by_cases hkey : spec.root.components = key <;> simp [Std.ExtTreeMap.getElem?_insert,hkey]

/-- Of several scanned folders for one root the last one counts. -/
lemma folders_foldl_addFolder (disk : Disk) (settingsFor : Path → Logged Settings)
    (workspace : Workspace) (added : List FolderSpec) (key : List Component) :
    (added.foldl (fun current spec => (addFolder disk settingsFor current spec).value)
        workspace).folders[key]? =
      (added.reverse.findSome? (scannedAt? disk settingsFor key)).or workspace.folders[key]? := by
  induction added generalizing workspace with
  | nil => simp
  | cons spec added ih =>
    rw [List.foldl_cons,ih,folders_addFolder,List.reverse_cons,List.findSome?_append,
      List.findSome?_singleton,Option.or_assoc]

lemma folders_foldl_dropFolder (workspace : Workspace) (removed : List Path)
    (key : List Component) :
    (removed.foldl (fun current root => (current.dropFolder root).value) workspace).folders[key]? =
      if ∃ root ∈ removed, root.components = key then none else workspace.folders[key]? := by
  induction removed generalizing workspace with
  | nil => simp
  | cons root removed ih =>
    rw [List.foldl_cons,ih,folders_dropFolder]
    by_cases hroot : root.components = key <;> simp [hroot]

/-- Each root has the last folder that was scanned for it, or else the one that it had before,
unless it was removed. -/
theorem folders_reconcile (disk : Disk) (workspace : Workspace) (added : List FolderSpec)
    (removed : List Path) (settingsFor : Path → Logged Settings) (key : List Component) :
    (reconcile disk workspace added removed settingsFor).value.folders[key]? =
      (added.reverse.findSome? (scannedAt? disk settingsFor key)).or
        (if ∃ root ∈ removed, root.components = key then none else workspace.folders[key]?) := by
  unfold reconcile
  simp only [Logged.value_bind,Logged.value_pure,Logged.value_foldlM]
  rw [← folders_foldl_dropFolder,← folders_foldl_addFolder]
  rfl

lemma folder?_reconcile_of_scanned {disk : Disk} {front back : List FolderSpec} {spec : FolderSpec}
    {removed : List Path} {settingsFor : Path → Logged Settings} {root : Path} {folder : Folder}
    (hroot : spec.root.components = root.components)
    (hscanned : scanned? disk settingsFor spec = some folder)
    (hlast : ∀ later ∈ back, later.root.components = root.components →
      scanned? disk settingsFor later = none) :
    (reconcile disk workspace (front ++ spec :: back) removed settingsFor).value.folder? root =
      some folder := by
  have hfound : (front ++ spec :: back).reverse.findSome?
      (scannedAt? disk settingsFor root.components) = some folder := by
    refine List.findSome?_eq_some_iff.2 ⟨back.reverse,spec,front.reverse,by simp,?_,?_⟩
    · rw [scannedAt?,if_pos hroot,hscanned]
    · intro later hlater
      exact scannedAt?_eq_none (hlast later (List.mem_reverse.1 hlater))
  rw [folder?,folders_reconcile,hfound,Option.some_or]

lemma folder?_reconcile_of_unscanned (disk : Disk) (workspace : Workspace) {added : List FolderSpec}
    (removed : List Path) {settingsFor : Path → Logged Settings} {root : Path}
    (hnone : ∀ spec ∈ added, spec.root.components = root.components →
      scanned? disk settingsFor spec = none) :
    (reconcile disk workspace added removed settingsFor).value.folder? root =
      if ∃ gone ∈ removed, gone.components = root.components then none
      else workspace.folder? root := by
  have hfound : added.reverse.findSome? (scannedAt? disk settingsFor root.components) = none := by
    rw [List.findSome?_eq_none_iff]
    intro spec hspec
    exact scannedAt?_eq_none (hnone spec (List.mem_reverse.1 hspec))
  rw [folder?,folders_reconcile,hfound,Option.none_or]
  rfl

/-- Removing and adding folders changes nothing but the folders, and counts the revision up once. -/
lemma reconcile_keeps_client (disk : Disk) (workspace : Workspace) (added : List FolderSpec)
    (removed : List Path) (settingsFor : Path → Logged Settings) :
    (reconcile disk workspace added removed settingsFor).value.revision = workspace.revision+1 ∧
    (reconcile disk workspace added removed settingsFor).value.client = workspace.client := by
  let Same (current : Workspace) : Prop :=
    current.revision = workspace.revision ∧ current.client = workspace.client
  have hsame : Same (added.foldl (fun current spec => (addFolder disk settingsFor current spec).value)
      (removed.foldl (fun current root => (current.dropFolder root).value) workspace)) := by
    apply List.foldlRecOn
    · apply List.foldlRecOn
      · exact ⟨rfl,rfl⟩
      · intro current hcurrent root _
        rw [value_dropFolder]
        exact hcurrent
    · intro current hcurrent spec _
      rcases value_addFolder_cases disk settingsFor current spec with heq | ⟨folder,-,heq⟩
      · rw [heq]
        exact hcurrent
      · rw [heq]
        exact hcurrent
  unfold reconcile
  simp only [Logged.value_bind,Logged.value_pure,Logged.value_foldlM]
  exact ⟨congrArg (·+1) hsame.1,hsame.2⟩

/-- Removing and adding folders always succeeds. It counts the revision up once and keeps the
client. Each root has the folder of the last spec for it that could be scanned. Where there is none,
it has the folder that it had before, unless it was removed. A spec whose root is missing or cannot
be scanned might as well not be there. -/
theorem reconcile_root_by_root (disk : Disk) (workspace : Workspace) (added : List FolderSpec)
    (removed : List Path) (settingsFor : Path → Logged Settings) :
    ∃ next,
      ((Operation.reconcile added removed settingsFor).step disk workspace).outcome = .ok next ∧
      next.revision = workspace.revision+1 ∧ next.client = workspace.client ∧
      (∀ (root : Path) (front back : List FolderSpec) (spec : FolderSpec) (folder : Folder),
        added = front ++ spec :: back → spec.root.components = root.components →
        scanned? disk settingsFor spec = some folder →
        (∀ later ∈ back, later.root.components = root.components →
          scanned? disk settingsFor later = none) →
        next.folder? root = some folder) ∧
      (∀ root : Path, (∀ spec ∈ added, spec.root.components = root.components →
          scanned? disk settingsFor spec = none) →
        next.folder? root = if ∃ gone ∈ removed, gone.components = root.components then none
          else workspace.folder? root) ∧
      ∀ (front back : List FolderSpec) (spec : FolderSpec), added = front ++ spec :: back →
        scanned? disk settingsFor spec = none →
        (reconcile disk workspace (front ++ back) removed settingsFor).value = next := by
  obtain ⟨hrevision,hclient⟩ := reconcile_keeps_client disk workspace added removed settingsFor
  refine ⟨(reconcile disk workspace added removed settingsFor).value,rfl,hrevision,hclient,?_,?_,?_⟩
  · rintro root front back spec folder rfl hroot hscanned hlast
    exact folder?_reconcile_of_scanned hroot hscanned hlast
  · intro root hnone
    exact folder?_reconcile_of_unscanned disk workspace removed hnone
  · rintro front back spec rfl hnone
    unfold reconcile
    simp only [Logged.value_bind,Logged.value_pure,Logged.value_foldlM,List.foldl_append,
      List.foldl_cons,value_addFolder_of_unscanned hnone]

/-- A folder is there after folders have been removed and added because it was scanned, or because
it was there before and not removed. -/
lemma reconcile_folder_cases {disk : Disk} {added : List FolderSpec} {removed : List Path}
    {settingsFor : Path → Logged Settings} {key : List Component} {folder : Folder}
    (h : (reconcile disk workspace added removed settingsFor).value.folders[key]? = some folder) :
    (∃ spec ∈ added, spec.root.components = key ∧ scanned? disk settingsFor spec = some folder) ∨
    ((∀ root ∈ removed, root.components ≠ key) ∧ workspace.folders[key]? = some folder) := by
  rw [folders_reconcile,Option.or_eq_some_iff] at h
  rcases h with h | ⟨-,h⟩
  · left
    obtain ⟨spec,hspec,hscanned⟩ := List.exists_of_findSome?_eq_some h
    unfold scannedAt? at hscanned
    split at hscanned
    · exact ⟨spec,List.mem_reverse.1 hspec,‹_›,hscanned⟩
    · cases hscanned
  · right
    split at h
    · cases h
    · rename_i hremoved
      exact ⟨fun root hroot hkey => hremoved ⟨root,hroot,hkey⟩,h⟩

lemma folders_reconcile_of_kept (disk : Disk) (workspace : Workspace) {added : List FolderSpec}
    {removed : List Path} (settingsFor : Path → Logged Settings) {key : List Component}
    (hremoved : ∀ root ∈ removed, root.components ≠ key)
    (hadded : ∀ spec ∈ added, spec.root.components ≠ key) :
    (reconcile disk workspace added removed settingsFor).value.folders[key]? =
      workspace.folders[key]? := by
  have hnone : added.reverse.findSome? (scannedAt? disk settingsFor key) = none := by
    rw [List.findSome?_eq_none_iff]
    intro spec hspec
    exact if_neg (hadded spec (List.mem_reverse.1 hspec))
  rw [folders_reconcile,hnone,Option.none_or,if_neg]
  rintro ⟨root,hroot,hkey⟩
  exact hremoved root hroot hkey

lemma Rooted.reconcile (h : workspace.Rooted) (disk : Disk) (added : List FolderSpec)
    (removed : List Path) (settingsFor : Path → Logged Settings) :
    (Workspace.reconcile disk workspace added removed settingsFor).value.Rooted := by
  intro key folder hfolder
  rcases reconcile_folder_cases hfolder with ⟨spec,-,hkey,hscanned⟩ | ⟨-,hstored⟩
  · rw [root_of_scanned? hscanned,hkey]
  · exact h key folder hstored

/-- A folder that is not removed remains the owner of its paths, unless a folder is added at or
above its root. -/
lemma owner?_reconcile (h : workspace.Rooted) (disk : Disk) {added : List FolderSpec}
    {removed : List Path} (settingsFor : Path → Logged Settings) {path : Path} {folder : Folder}
    (howner : workspace.owner? path = some folder)
    (hremoved : ∀ root ∈ removed, root.components ≠ folder.root.components)
    (hadded : ∀ spec ∈ added, ¬spec.root.components <+: folder.root.components) :
    (reconcile disk workspace added removed settingsFor).value.owner? path = some folder := by
  obtain ⟨hstored,howns,hfirst⟩ := owner?_spec h howner
  refine (owner?_eq_some_iff (h.reconcile disk added removed settingsFor) path folder).2
    ⟨?_,howns,?_⟩
  · rw [folders_reconcile_of_kept disk workspace settingsFor hremoved,hstored]
    intro spec hspec hroot
    exact hadded spec hspec (hroot ▸ List.prefix_rfl)
  · intro key other hother hpath
    rcases reconcile_folder_cases hother with ⟨spec,hspec,hkey,hscanned⟩ | ⟨-,hold⟩
    · -- Both roots start the path, and the new one is not above the old one.
      rw [Folder.owns_iff,root_of_scanned? hscanned,hkey] at hpath
      have hnot := hadded spec hspec
      rw [hkey] at hnot
      exact (List.prefix_or_prefix_of_prefix ((Folder.owns_iff _ _).1 howns) hpath).resolve_right
        hnot
    · exact hfirst key other hold hpath

/-- What a scanned folder has is on the disk. -/
lemma load_of_scanned? {disk : Disk} {settingsFor : Path → Logged Settings} {spec : FolderSpec}
    {folder : Folder} (h : scanned? disk settingsFor spec = some folder) {key : List Component}
    {document : Document} (hdocument : folder.documents[key]? = some document) :
    Document.load disk document.path = .ok (some document) := by
  obtain ⟨path,-,-,-,hload⟩ :=
    (Folder.documents_of_scan ((scanned?_eq_some_iff _ _ _ _).1 h) key document).1 hdocument
  rwa [Document.path_of_load hload]

/-- A document stays as it is while the folder that owns it is not removed and no folder is added
at or above the root of that folder. Where an added folder takes over a path, what is open is not
carried over: the path has what is on the disk, without a version. -/
theorem document_of_reconcile (h : workspace.Rooted) (disk : Disk) (added : List FolderSpec)
    (removed : List Path) (settingsFor : Path → Logged Settings) {path : Path}
    {document : Document} (hdocument : (workspace.document? path).outcome = .ok (some document)) :
    (∀ folder, workspace.owner? path = some folder →
      (∀ root ∈ removed, root.components ≠ folder.root.components) →
      (∀ spec ∈ added, ¬spec.root.components <+: folder.root.components) →
      ((reconcile disk workspace added removed settingsFor).value.document? path).outcome =
        .ok (some document)) ∧
    ∀ spec ∈ added, ∀ folder, scanned? disk settingsFor spec = some folder →
      (reconcile disk workspace added removed settingsFor).value.owner? path = some folder →
      ∀ found, ((reconcile disk workspace added removed settingsFor).value.document?
        path).outcome = .ok (some found) →
        Document.load disk found.path = .ok (some found) ∧ found.version = none := by
  constructor
  · intro folder howner hremoved hadded
    obtain ⟨holder,hholder,hheld⟩ := (document?_eq_ok_iff _ _ _).1 hdocument
    cases hholder.symm.trans howner
    exact (document?_eq_ok_iff _ _ _).2
      ⟨folder,owner?_reconcile h disk settingsFor howner hremoved hadded,hheld⟩
  · intro spec _ folder hscanned howner found hfound
    obtain ⟨holder,hholder,hheld⟩ := (document?_eq_ok_iff _ _ _).1 hfound
    cases hholder.symm.trans howner
    have hload := load_of_scanned? hscanned hheld
    exact ⟨hload,Document.version_of_load hload⟩

theorem document_of_reconcile_kept : ∃ workspace : Workspace,
    ofFolders none [Folder.empty "n" "/n",Folder.empty "m" "/n/m"] = .ok workspace ∧
    ((workspace.run Operation.step
      [(Disk.empty,.event (.opened "/n/m/a.md" "# A" 1))]).document? "/n/m/a.md").outcome =
        .ok (some (Document.opened "/n/m/a.md" "# A" 1)) ∧
    ((reconcile (Disk.empty.writeFile "/n/m/a.md" [66]) (workspace.run Operation.step
      [(Disk.empty,.event (.opened "/n/m/a.md" "# A" 1))]) [⟨"k","/n/m/k"⟩,⟨"l","/n/m"⟩]
      ["/n/m"] fun _ => pure Settings.default).value.document? "/n/m/a.md").outcome =
        .ok (some (Document.opened "/n/m/a.md" "# A" 1)) := by
  have hinitial : ∀ workspace, ofFolders none [Folder.empty "n" "/n",Folder.empty "m" "/n/m"] =
      .ok workspace → workspace.Initial := fun _ => .of_empty [⟨"n","/n"⟩,⟨"m","/n/m"⟩]
  refine ⟨_,rfl,?_,?_⟩
  · decide +kernel
  · refine (document_of_reconcile (run_preserves (fun disk current move next hok hcurrent =>
      hcurrent.operation hok) (hinitial _ rfl).coherent _).rooted _ _ _ _ ?_).1 _ rfl ?_ ?_
    all_goals decide +kernel

/-- A folder that is removed and added again in one go loses what is open in it: the next edits
would meet another text than the one that they were made for. -/
theorem reconcile_loses_open_document : ∃ (disk : Disk) (workspace : Workspace),
    (ofSpecs disk none [⟨"n","/n"⟩] fun _ => pure Settings.default).outcome = .ok workspace ∧
    ((workspace.run Operation.step
      [(disk,.event (.opened "/n/a.md" "# B" 1))]).document? "/n/a.md").outcome =
        .ok (some (Document.opened "/n/a.md" "# B" 1)) ∧
    ((workspace.run Operation.step [(disk,.event (.opened "/n/a.md" "# B" 1)),
      (disk,.reconcile [⟨"m","/n"⟩] ["/n"] fun _ => pure Settings.default)]).document?
        "/n/a.md").outcome = .ok (some (Document.ofText "/n/a.md" none "# A")) := by
  let disk := Disk.empty.writeFile "/n/a.md" [35,32,65]
  let opening := ofSpecs disk none [⟨"n","/n"⟩] fun _ => pure Settings.default
  refine ⟨disk,opening.outcome.toOption.get (by decide +kernel),eq_ok_get _,?_,?_⟩
  all_goals decide +kernel

end NoteIndex.Workspace
