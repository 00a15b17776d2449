import NoteIndex.Proofs.Workspace.Closing
import NoteIndex.Proofs.Workspace.Footprint

/-! Batches of created files: whether a batch succeeds, and what is held for each path after it, can be
told from the workspace before it, path by path. -/
namespace NoteIndex

namespace Document

/-- What is read does not depend on the spelling of a path, if it is read at all. -/
theorem content_of_load {disk : Disk} {p q : Path} (h : p.components = q.components)
    {found other : Option Document} (hp : load disk p = .ok found) (hq : load disk q = .ok other) :
    found.map content = other.map content := by
  cases found with
  | none =>
    cases other with
    | none => rfl
    | some document =>
      obtain ⟨bytes,hfind,-⟩ := find_of_load_eq_some hq
      exact absurd (find_of_load_eq_none hp) (Disk.find_ne_notFound_of_components h.symm hfind)
  | some document =>
    obtain ⟨bytes,hfind,rfl⟩ := find_of_load_eq_some hp
    cases other with
    | none =>
      exact absurd (find_of_load_eq_none hq) (Disk.find_ne_notFound_of_components h hfind)
    | some document =>
      obtain ⟨bytes',hfind',rfl⟩ := find_of_load_eq_some hq
      cases Disk.find_unique h hfind hfind'
      simp [content,ofText,h]

lemma exists_load_iff (disk : Disk) (path : Path) :
    (∃ found, load disk path = .ok found) ↔
      (∃ bytes, disk.read path = .ok bytes) ∨ disk.read path = .error .notFound := by
  unfold load
  split <;> simp_all

end Document

namespace Workspace

variable {workspace current next last : Workspace} {disk : Disk} {done paths : List Path}

/-- A created file is to be read: it is Markdown, not ignored and not open. -/
def Eligible (workspace : Workspace) (path : Path) : Prop :=
  ∃ folder, workspace.owner? path = some folder ∧ folder.isMarkdown path = true ∧
    folder.isIgnored path = false ∧ folder.hasOpen path = false

lemma eligible_of_owner?_iff {path : Path} {folder : Folder}
    (howner : workspace.owner? path = some folder) :
    workspace.Eligible path ↔ folder.isMarkdown path = true ∧ folder.isIgnored path = false ∧
      folder.hasOpen path = false := by
  constructor
  · rintro ⟨other,hother,heligible⟩
    cases howner.symm.trans hother
    exact heligible
  · intro heligible
    exact ⟨folder,howner,heligible⟩

lemma eligible_iff (workspace : Workspace) (path : Path) :
    workspace.Eligible path ↔
      (∃ folder, workspace.owner? path = some folder ∧ folder.admits path = true) ∧
      (workspace.held? path).any Document.isOpen = false := by
  constructor
  · rintro ⟨folder,howner,hmarkdown,hkept,hclosed⟩
    refine ⟨⟨folder,howner,(Folder.admits_iff _ _).2 ⟨hmarkdown,hkept⟩⟩,?_⟩
    rw [held?,howner]
    exact hclosed
  · rintro ⟨⟨folder,howner,hadmits⟩,hclosed⟩
    obtain ⟨hmarkdown,hkept⟩ := (Folder.admits_iff _ _).1 hadmits
    rw [held?,howner] at hclosed
    exact ⟨folder,howner,hmarkdown,hkept,hclosed⟩

/-- A created file can be dealt with: it has an owner, and if it is to be read it is a file or
nothing. -/
def Accepts (workspace : Workspace) (disk : Disk) (path : Path) : Prop :=
  (workspace.owner? path).isSome = true ∧
    (workspace.Eligible path → ∃ found, Document.load disk path = .ok found)

/-- A created file that is to be read takes the place of what was held, if it is there. Any other
one changes nothing. -/
lemma createFile_cases (h : workspace.Keyed) {path : Path}
    (hok : (createFile disk workspace path).outcome = .ok next) :
    (workspace.Eligible path ∧ ∃ found, Document.load disk path = .ok found ∧
      workspace.Sets path (found.or (workspace.held? path)) next) ∨
    ¬workspace.Eligible path ∧ next = workspace := by
  obtain ⟨folder,howner,hcases⟩ := (createFile_eq_ok_iff disk path).1 hok
  split at hcases
  · exact .inl ⟨⟨folder,howner,‹_›⟩,sets_of_reload h hcases⟩
  · rename_i hskip
    exact .inr ⟨fun heligible => hskip ((eligible_of_owner?_iff howner).1 heligible),hcases⟩

lemma exists_createFile_iff (workspace : Workspace) (disk : Disk) (path : Path) :
    (∃ next, (createFile disk workspace path).outcome = .ok next) ↔
      workspace.Accepts disk path := by
  constructor
  · rintro ⟨next,hok⟩
    obtain ⟨folder,howner,hcases⟩ := (createFile_eq_ok_iff disk path).1 hok
    refine ⟨by simp [howner],?_⟩
    intro heligible
    rw [if_pos ((eligible_of_owner?_iff howner).1 heligible)] at hcases
    obtain ⟨_,-,hload⟩ := (reload_eq_ok_iff disk path).1 hcases
    rcases hload with ⟨document,hload,-⟩ | ⟨hload,-⟩
    · exact ⟨_,hload⟩
    · exact ⟨_,hload⟩
  · rintro ⟨howned,hreadable⟩
    obtain ⟨folder,howner⟩ := Option.isSome_iff_exists.1 howned
    simp only [createFile_eq_ok_iff]
    by_cases heligible : workspace.Eligible path
    · obtain ⟨found,hload⟩ := hreadable heligible
      have hreload : ∃ next, (reload disk workspace path).outcome = .ok next := by
        cases found with
        | none => exact ⟨_,(reload_eq_ok_iff disk path).2 ⟨folder,howner,.inr ⟨hload,rfl⟩⟩⟩
        | some document =>
          exact ⟨_,(reload_eq_ok_iff disk path).2 ⟨folder,howner,.inl ⟨document,hload,rfl⟩⟩⟩
      obtain ⟨next,hnext⟩ := hreload
      refine ⟨next,folder,howner,?_⟩
      rwa [if_pos ((eligible_of_owner?_iff howner).1 heligible)]
    · refine ⟨workspace,folder,howner,?_⟩
      rw [if_neg fun hread => heligible ((eligible_of_owner?_iff howner).2 hread)]

/-- A created file is to be read, and this is what is read. -/
def Reads (workspace : Workspace) (disk : Disk) (path : Path) (document : Document) : Prop :=
  workspace.Eligible path ∧ Document.load disk path = .ok (some document)

/-- What is held for a path once some files have been created: what one of them reads that spells
this path, or else what was held before. -/
def Settles (workspace : Workspace) (disk : Disk) (done : List Path) (q : Path)
    (held : Option Document) : Prop :=
  (∃ path ∈ done, path.components = q.components ∧ ∃ document,
    workspace.Reads disk path document ∧ held = some document) ∨
  (∀ path ∈ done, path.components = q.components → ∀ document,
    ¬workspace.Reads disk path document) ∧ held = workspace.held? q

/-- A workspace in which some files have been created. -/
structure Created (workspace : Workspace) (disk : Disk) (done : List Path) (current : Workspace) :
    Prop extends workspace.Keeps current where
  shells : current.shell? = workspace.shell?
  held : ∀ q, workspace.Settles disk done q (current.held? q)

/-- Reading files opens and closes nothing. -/
lemma Created.isOpen (h : workspace.Created disk done current) (q : Path) :
    (current.held? q).any Document.isOpen = (workspace.held? q).any Document.isOpen := by
  rcases h.held q with ⟨path,-,hkey,document,⟨heligible,hload⟩,hheld⟩ | ⟨-,hheld⟩
  · rw [hheld,← workspace.held?_congr hkey,((workspace.eligible_iff path).1 heligible).2]
    simp [Document.isOpen,Document.version_of_load hload]
  · rw [hheld]

lemma exists_admits_of_shell? (h : workspace.Rooted) (hother : current.Rooted)
    (hshell : current.shell? = workspace.shell?) {path : Path}
    (hadmits : ∃ folder, workspace.owner? path = some folder ∧ folder.admits path = true) :
    ∃ folder, current.owner? path = some folder ∧ folder.admits path = true := by
  obtain ⟨folder,howner,hadmits⟩ := hadmits
  obtain ⟨found,hfound,hsame⟩ := owner?_of_shell? h hother hshell howner
  exact ⟨found,hfound,(Folder.admits_of_shell hsame path).trans hadmits⟩

/-- The files that are to be read stay the same on the way. -/
lemma Created.eligible_iff (hrooted : workspace.Rooted) (h : workspace.Created disk done current)
    (path : Path) : current.Eligible path ↔ workspace.Eligible path := by
  rw [Workspace.eligible_iff,Workspace.eligible_iff,h.isOpen]
  refine and_congr_left' ⟨?_,?_⟩
  · exact exists_admits_of_shell? h.keyed.rooted hrooted h.shells.symm
  · exact exists_admits_of_shell? hrooted h.keyed.rooted h.shells

lemma Created.accepts_iff (hrooted : workspace.Rooted) (h : workspace.Created disk done current)
    (path : Path) : current.Accepts disk path ↔ workspace.Accepts disk path := by
  rw [Accepts,h.owned,h.eligible_iff hrooted,Accepts]

lemma Settles.append_of_not_reads {q path : Path} {held : Option Document}
    (h : workspace.Settles disk done q held)
    (hpath : path.components = q.components → ∀ document, ¬workspace.Reads disk path document) :
    workspace.Settles disk (done ++ [path]) q held := by
  rcases h with ⟨found,hfound,hreads⟩ | ⟨hnone,hheld⟩
  · exact .inl ⟨found,List.mem_append_left _ hfound,hreads⟩
  · refine .inr ⟨?_,hheld⟩
    intro other hother
    rcases List.mem_append.1 hother with hother | hother
    · exact hnone other hother
    · rw [List.mem_singleton.1 hother]
      exact hpath

/-- One step: a created file is read if it was to be read at the start. -/
lemma Created.createFile (hrooted : workspace.Rooted) (h : workspace.Created disk done current)
    {path : Path} (hok : (Workspace.createFile disk current path).outcome = .ok next) :
    workspace.Created disk (done ++ [path]) next := by
  have htouches := touches_of_createFile h.keyed (List.mem_singleton_self path) hok
  refine ⟨h.toKeeps.trans (keeps_of_createFile h.keyed hok),htouches.shells.trans h.shells,?_⟩
  intro q
  rcases createFile_cases h.keyed hok with ⟨heligible,found,hload,hset⟩ | ⟨hskip,rfl⟩
  · rw [h.eligible_iff hrooted] at heligible
    rw [hset.held]
    split
    · rename_i hkey
      cases found with
      | some document =>
        exact .inl ⟨path,by simp,hkey.symm,document,⟨heligible,hload⟩,rfl⟩
      | none =>
        rw [Option.none_or,← current.held?_congr hkey]
        refine (h.held q).append_of_not_reads ?_
        rintro - document ⟨-,hread⟩
        cases hload.symm.trans hread
    · rename_i hkey
      exact (h.held q).append_of_not_reads fun heq => absurd heq.symm hkey
  · refine (h.held q).append_of_not_reads ?_
    rintro - document ⟨heligible,-⟩
    exact hskip ((h.eligible_iff hrooted path).2 heligible)

/-- A run: the files of a batch are created one after the other. -/
lemma Created.foldlM_createFile (hrooted : workspace.Rooted)
    (h : workspace.Created disk done current)
    (hok : (paths.foldlM (Workspace.createFile disk) current).outcome = .ok next) :
    workspace.Created disk (done ++ paths) next := by
  rw [Step.outcome_foldlM] at hok
  induction paths generalizing done current with
  | nil =>
    cases hok
    rwa [List.append_nil]
  | cons path rest ih =>
    rw [List.foldlM_cons] at hok
    obtain ⟨after,hafter,hrest⟩ := bind_eq_ok_iff.1 hok
    rw [List.append_cons]
    exact ih (h.createFile hrooted hafter) hrest

lemma Created.exists_foldlM_iff (hrooted : workspace.Rooted)
    (h : workspace.Created disk done current) (paths : List Path) :
    (∃ next, (paths.foldlM (Workspace.createFile disk) current).outcome = .ok next) ↔
      ∀ path ∈ paths, workspace.Accepts disk path := by
  rw [Step.outcome_foldlM]
  induction paths generalizing done current with
  | nil => exact ⟨by simp,fun _ => ⟨current,rfl⟩⟩
  | cons path rest ih =>
    rw [List.forall_mem_cons,← h.accepts_iff hrooted,← exists_createFile_iff]
    simp only [List.foldlM_cons,bind_eq_ok_iff]
    constructor
    · rintro ⟨next,after,hafter,hrest⟩
      exact ⟨⟨after,hafter⟩,(ih (h.createFile hrooted hafter)).1 ⟨next,hrest⟩⟩
    · rintro ⟨⟨after,hafter⟩,hrest⟩
      obtain ⟨next,hnext⟩ := (ih (h.createFile hrooted hafter)).2 hrest
      exact ⟨next,after,hafter,hnext⟩

lemma Keyed.created_bumped (h : workspace.Keyed) (disk : Disk) :
    workspace.Created disk [] workspace.bumped where
  toKeeps := Keeps.bumped h
  shells := rfl
  held q := .inr ⟨by simp,rfl⟩

/-- Whichever spelling of a path was read last, the document is the same. -/
lemma Settles.content {q path : Path} {held : Option Document} {document : Document}
    (h : workspace.Settles disk done q held) (hpath : path ∈ done)
    (hkey : path.components = q.components) (hreads : workspace.Reads disk path document) :
    held.map Document.content = some document.content := by
  rcases h with ⟨other,-,hother,found,⟨-,hfound⟩,rfl⟩ | ⟨hnone,-⟩
  · exact Document.content_of_load (hother.trans hkey.symm) hfound hreads.2
  · exact absurd hreads (hnone path hpath hkey document)

lemma Settles.content_congr {q : Path} {held other : Option Document}
    (h : workspace.Settles disk done q held) (hother : workspace.Settles disk paths q other)
    (hmem : ∀ path, path ∈ paths ↔ path ∈ done) :
    other.map Document.content = held.map Document.content := by
  rcases h with ⟨path,hpath,hkey,document,hreads,rfl⟩ | ⟨hnone,rfl⟩
  · exact hother.content ((hmem path).2 hpath) hkey hreads
  · rcases hother with ⟨path,hpath,hkey,document,hreads,-⟩ | ⟨-,rfl⟩
    · exact absurd hreads (hnone path ((hmem path).1 hpath) hkey document)
    · rfl

/-- A path that can be dealt with is read if any spelling of it can be. -/
lemma exists_reads {q path : Path} {document : Document} (haccepts : workspace.Accepts disk path)
    (heligible : workspace.Eligible path) (hkey : path.components = q.components)
    (hload : Document.load disk q = .ok (some document)) : ∃ found,
      workspace.Reads disk path found ∧ found.content = document.content := by
  obtain ⟨found,hfound⟩ := haccepts.2 heligible
  have hcontent := Document.content_of_load hkey hfound hload
  obtain ⟨read,rfl,hread⟩ := Option.map_eq_some_iff.1 hcontent
  exact ⟨read,⟨heligible,hfound⟩,hread⟩

lemma Eligible.owned {path : Path} (h : workspace.Eligible path) :
    (workspace.owner? path).isSome = true := by
  obtain ⟨folder,howner,-⟩ := h
  rw [howner]
  rfl

lemma Created.exists_document (h : workspace.Created disk done current) {q path : Path}
    {document : Document} (hpath : path ∈ done) (hkey : path.components = q.components)
    (hreads : workspace.Reads disk path document) : ∃ found,
      (current.document? q).outcome = .ok (some found) ∧ found.content = document.content := by
  obtain ⟨found,hfound,hcontent⟩ :=
    Option.map_eq_some_iff.1 ((h.held q).content hpath hkey hreads)
  refine ⟨found,?_,hcontent⟩
  rw [document?_outcome_eq,h.owned,← workspace.owner?_congr hkey,if_pos hreads.1.owned,hfound]

lemma Created.document?_of_not_reads (h : workspace.Created disk done current) {q : Path}
    (hnone : ∀ path ∈ done, path.components = q.components → ∀ document,
      ¬workspace.Reads disk path document) :
    (current.document? q).outcome = (workspace.document? q).outcome := by
  rw [document?_outcome_eq,document?_outcome_eq,h.owned]
  rcases h.held q with ⟨path,hpath,hkey,document,hreads,-⟩ | ⟨-,hheld⟩
  · exact absurd hreads (hnone path hpath hkey document)
  · rw [hheld]

lemma Created.document?_congr (h : workspace.Created disk done current)
    (hother : workspace.Created disk paths next) (hmem : ∀ path, path ∈ paths ↔ path ∈ done)
    (q : Path) : (next.document? q).outcome.map (Option.map Document.content) =
      (current.document? q).outcome.map (Option.map Document.content) := by
  rw [document?_outcome_eq,document?_outcome_eq,hother.owned,h.owned]
  split
  · exact congrArg Except.ok ((h.held q).content_congr (hother.held q) hmem)
  · rfl

/-- A batch of created files succeeds if and only if every path has an owner and every path that is to
be read is a file or nothing. Then what is held for a path is what the batch reads for it, in any
spelling, and what was held before if the batch reads nothing for it. So the order of the batch and
repetitions in it do not matter. -/
theorem createFiles_path_by_path {workspace : Workspace} (h : workspace.Keyed) (disk : Disk)
    (paths : List Path) :
    ((∃ next, (createFiles disk workspace paths).outcome = .ok next) ↔
      ∀ path ∈ paths, (workspace.owner? path).isSome = true ∧ (workspace.Eligible path →
        (∃ bytes, disk.read path = .ok bytes) ∨ disk.read path = .error .notFound)) ∧
    ∀ next, (createFiles disk workspace paths).outcome = .ok next →
      (∀ path ∈ paths, workspace.Eligible path → ∀ q, path.components = q.components →
        ∀ document, Document.load disk path = .ok (some document) ∨
          Document.load disk q = .ok (some document) →
        ∃ found, (next.document? q).outcome = .ok (some found) ∧
          found.content = document.content) ∧
      (∀ q, (∀ path ∈ paths, path.components = q.components → workspace.Eligible path →
          ∀ document, Document.load disk path ≠ .ok (some document)) →
        (next.document? q).outcome = (workspace.document? q).outcome) ∧
      ∀ others : List Path, (∀ path, path ∈ others ↔ path ∈ paths) → ∃ last,
        (createFiles disk workspace others).outcome = .ok last ∧
        ∀ q, (last.document? q).outcome.map (Option.map Document.content) =
          (next.document? q).outcome.map (Option.map Document.content) := by
  have hstart := h.created_bumped disk
  have hsucceeds := hstart.exists_foldlM_iff h.rooted
  have hcreated : ∀ {batch : List Path} {after : Workspace},
      (createFiles disk workspace batch).outcome = .ok after →
        workspace.Created disk batch after := fun hok => hstart.foldlM_createFile h.rooted hok
  refine ⟨?_,?_⟩
  · rw [createFiles,hsucceeds paths]
    simp only [Accepts,Document.exists_load_iff]
  · intro next hok
    have haccepts := (hsucceeds paths).1 ⟨next,hok⟩
    refine ⟨?_,?_,?_⟩
    · intro path hpath heligible q hkey document hload
      obtain ⟨read,hreads,hread⟩ : ∃ read, workspace.Reads disk path read ∧
          read.content = document.content := by
        rcases hload with hload | hload
        · exact ⟨document,⟨heligible,hload⟩,rfl⟩
        · exact exists_reads (haccepts path hpath) heligible hkey hload
      rw [← hread]
      exact (hcreated hok).exists_document hpath hkey hreads
    · intro q hnone
      refine (hcreated hok).document?_of_not_reads ?_
      rintro path hpath hkey document ⟨heligible,hload⟩
      exact hnone path hpath hkey heligible document hload
    · intro others hmem
      obtain ⟨last,hlast⟩ := (hsucceeds others).2 fun path hpath => haccepts path ((hmem path).1 hpath)
      exact ⟨last,hlast,(hcreated hok).document?_congr (hcreated hlast) hmem⟩

theorem createFiles_path_by_path_open : ∃ (disk : Disk) (workspace next last : Workspace),
    workspace.Keyed ∧
    (createFiles disk workspace ["/n//a.md","/n/b.md","/n/c.md","/n/a.md"]).outcome =
      .ok next ∧
    workspace.folderList.map (·.documentList.map (·.text)) = [["B"]] ∧
    next.folderList.map (·.documentList.map (·.text)) = [["A","B"]] ∧
    (∃ found, (next.document? "/n/./a.md").outcome = .ok (some found) ∧
      found.content = (Document.ofText "/n/a.md" none "A").content) ∧
    (next.document? "/n/b.md").outcome = (workspace.document? "/n/b.md").outcome ∧
    (createFiles disk workspace ["/n/a.md","/n/c.md","/n//a.md","/n/b.md",
      "/n/c.md"]).outcome = .ok last ∧
    ∀ q, (last.document? q).outcome.map (Option.map Document.content) =
      (next.document? q).outcome.map (Option.map Document.content) := by
  let start := (ofFolders none [Folder.empty "n" "/n"]).toOption.get rfl
  let disk := (Disk.empty.writeFile "/n/a.md" [65]).writeFile "/n/b.md" [67]
  let workspace := start.run Operation.step [(Disk.empty,.event (.opened "/n/b.md" "B" 1))]
  have hreachable : workspace.Reachable := ⟨start,_,.of_empty [⟨"n","/n"⟩] (eq_ok_get _),rfl⟩
  have hkeyed := hreachable.coherent.keyed
  have hok := eq_ok_get (x := (createFiles disk workspace
    ["/n//a.md","/n/b.md","/n/c.md","/n/a.md"]).outcome) (by decide +kernel)
  have heligible : workspace.Eligible "/n/a.md" := by
    have hadmits : (workspace.owner? "/n/a.md").any (·.admits "/n/a.md") = true := by
      decide +kernel
    exact (eligible_iff _ _).2 ⟨(Option.any_eq_true _ _).1 hadmits,by decide +kernel⟩
  have hload : Document.load disk "/n/a.md" =
      .ok (some (Document.ofText "/n/a.md" none "A")) := by
    have hfind : disk.find "/n/a.md" = .ok (.file [65]) := by decide +kernel
    have htext : String.ofList (Text.decodeLossy [65]) = "A" := by decide +kernel
    rw [Document.load_of_find hfind,htext]
  have hopen : ∀ path ∈ [("/n//a.md" : Path),"/n/b.md","/n/c.md","/n/a.md"],
      path.components = ("/n/b.md" : Path).components →
        (workspace.held? path).any Document.isOpen = true := by decide +kernel
  obtain ⟨hread,hkept,hany⟩ := (createFiles_path_by_path hkeyed disk _).2 _ hok
  obtain ⟨last,hlast,hsame⟩ := hany
    ["/n/a.md","/n/c.md","/n//a.md","/n/b.md","/n/c.md"] (by grind)
  refine ⟨disk,workspace,_,last,hkeyed,hok,by decide +kernel,by decide +kernel,
    hread _ (by simp) heligible _ (by decide +kernel) _ (.inl hload),hkept _ ?_,hlast,hsame⟩
  intro path hpath hkey heligible
  have hclosed := ((workspace.eligible_iff path).1 heligible).2
  rw [hopen path hpath hkey] at hclosed
  cases hclosed

end Workspace

end NoteIndex
