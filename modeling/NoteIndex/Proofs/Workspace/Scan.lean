import Mathlib.Data.List.Induction
import NoteIndex.Proofs.Workspace.Coherence

/-! Scans: a walk that does not enter ignored directories finds the same documents as a look at
every file below the root, one at a time and in any order. -/
namespace NoteIndex

namespace Ignore

lemma isIgnored_descend {ignore : Ignore} {names : List (List UInt8)}
    (h : ∀ name ∈ names, Entry.isName name = true) :
    ignore.isIgnored (ignore.root.descend names) = false ↔
      ∀ start ∈ starts names, ignore.excludes (renderPath (start.map .name)) = false := by
  have hbelow : Path.below? ignore.root (ignore.root.descend names) =
      some (names.map .name) := by
    rw [Path.below?,dropStart?_eq_some_iff,Path.components_descend _ h]
  simp only [isIgnored,hbelow,List.any_eq_false,Bool.not_eq_true,mem_starts_iff]
  constructor
  · rintro hall start ⟨hne,hstart⟩
    exact hall _ ⟨by simpa using hne,hstart.map Component.name⟩
  · rintro hall inner ⟨hne,hinner⟩
    obtain ⟨start,hstart,rfl⟩ := List.prefix_map_iff.1 hinner
    exact hall start ⟨by simpa using hne,hstart⟩

/-- A path is ignored as soon as something on the way to it is. -/
lemma isIgnored_iff_starts {ignore : Ignore} {names : List (List UInt8)}
    (h : ∀ name ∈ names, Entry.isName name = true) :
    ignore.isIgnored (ignore.root.descend names) = false ↔
      ∀ start ∈ starts names, ignore.isIgnored (ignore.root.descend start) = false := by
  have hname : ∀ start ∈ starts names, ∀ name ∈ start, Entry.isName name = true := by
    intro start hstart name hmem
    exact h name (((mem_starts_iff _ _).1 hstart).2.subset hmem)
  rw [isIgnored_descend h]
  constructor
  · intro hall start hstart
    rw [isIgnored_descend (hname start hstart)]
    intro inner hinner
    obtain ⟨-,hway⟩ := (mem_starts_iff _ _).1 hstart
    obtain ⟨hne,hinner⟩ := (mem_starts_iff _ _).1 hinner
    exact hall inner ((mem_starts_iff _ _).2 ⟨hne,hinner.trans hway⟩)
  · intro hall start hstart
    obtain ⟨hne,-⟩ := (mem_starts_iff _ _).1 hstart
    exact (isIgnored_descend (hname start hstart)).1 (hall start hstart) start
      ((mem_starts_iff _ _).2 ⟨hne,List.prefix_rfl⟩)

end Ignore

namespace Disk

/-- Every file can be read. -/
lemma HasFileBelow.load {disk : Disk} {root path : Path} (h : disk.HasFileBelow root path) :
    ∃ document, Document.load disk path = .ok (some document) := by
  obtain ⟨names,-,-,hfile⟩ := h
  obtain ⟨bytes,hfind⟩ := (isFile_iff disk path).1 hfile
  exact ⟨_,Document.load_of_find hfind⟩

end Disk

namespace Folder

lemma root_of_ignoreFor {disk : Disk} {root : Path} {settings : Settings} {ignore : Ignore}
    (h : ignoreFor disk root settings = .ok ignore) : ignore.root = root := by
  unfold ignoreFor at h
  split at h
  · unfold Ignore.ofFiles Ignore.ofLines at h
    obtain ⟨lines,-,h⟩ := bind_eq_ok_iff.1 h
    obtain ⟨patterns,-,h⟩ := bind_eq_ok_iff.1 h
    cases h
    rfl
  · cases h
    rfl

/-- Reading files into an empty folder, which then has one document for each of them. -/
lemma exists_foldlM_reload {disk : Disk} (folder : Folder) (hempty : folder.documents = ∅)
    {paths : List Path}
    (hload : ∀ path ∈ paths, ∃ document, Document.load disk path = .ok (some document))
    (hone : ∀ p ∈ paths, ∀ q ∈ paths, p.components = q.components → p = q) :
    ∃ documents, paths.foldlM (reload disk) folder = .ok { folder with documents } ∧
      ∀ (key : List Component) (document : Document), documents[key]? = some document ↔
        ∃ path ∈ paths, path.components = key ∧ Document.load disk path = .ok (some document) := by
  -- The last file counts, so the list is taken apart from its end.
  induction paths using List.reverseRecOn with
  | nil => exact ⟨∅,by rw [← hempty]; rfl,by simp⟩
  | append_singleton paths path ih =>
    obtain ⟨documents,hfold,hdocuments⟩ := ih (fun p hp => hload p (by simp [hp]))
      (fun p hp q hq => hone p (by simp [hp]) q (by simp [hq]))
    obtain ⟨last,hlast⟩ := hload path (by simp)
    have hreload : reload disk { folder with documents } path =
        .ok (({ folder with documents } : Folder).withDocument last) :=
      (reload_eq_ok_iff _ _ _ _).2 (.inl ⟨last,hlast,rfl⟩)
    refine ⟨documents.insert last.path.components last,?_,?_⟩
    · rw [List.foldlM_append,hfold]
      change [path].foldlM (reload disk) { folder with documents } = _
      rw [List.foldlM_cons,hreload]
      rfl
    · intro key document
      rw [Document.path_of_load hlast,Std.ExtTreeMap.getElem?_insert]
      by_cases hkey : path.components = key
      · subst hkey
        simp only [Std.ReflCmp.compare_self,if_true,Option.some.injEq]
        constructor
        · rintro rfl
          exact ⟨path,by simp,rfl,hlast⟩
        · rintro ⟨q,hq,hcomponents,hfound⟩
          obtain rfl := hone q hq path (by simp) hcomponents
          simpa [hlast] using hfound
      · rw [if_neg (by simpa using hkey),hdocuments]
        constructor
        · rintro ⟨q,hq,hfound⟩
          exact ⟨q,by simp [hq],hfound⟩
        · rintro ⟨q,hq,rfl,hfound⟩
          refine ⟨q,?_,rfl,hfound⟩
          rcases List.mem_append.1 hq with hq | hq
          · exact hq
          · exact absurd (congrArg Path.components (List.mem_singleton.1 hq)).symm hkey

/-- Whether a folder takes in a file with a given path. -/
def admits (folder : Folder) (path : Path) : Bool :=
  folder.isMarkdown path && !folder.isIgnored path

lemma admits_iff (folder : Folder) (path : Path) :
    folder.admits path = true ↔ folder.isMarkdown path = true ∧ folder.isIgnored path = false := by
  simp [admits]

/-- The files that a scan reads are those that the folder takes in: none of them is below an ignored
directory. -/
lemma mem_scanned_iff (disk : Disk) (folder : Folder) (hroot : folder.ignore.root = folder.root)
    (path : Path) :
    path ∈ (disk.filePaths (fun path => !folder.isIgnored path) folder.root).filter
        folder.isMarkdown ↔
      disk.IsListed folder.root path ∧ folder.admits path = true := by
  have hignored : ∀ names, disk.ListsFile folder.root names →
      ((∀ start ∈ starts names, (!folder.isIgnored (folder.root.descend start)) = true) ↔
        folder.isIgnored (folder.root.descend names) = false) := by
    intro names hlists
    simp only [Bool.not_eq_true',isIgnored,← hroot]
    exact (Ignore.isIgnored_iff_starts hlists.isName).symm
  rw [List.mem_filter,Disk.mem_filePaths_iff]
  constructor
  · rintro ⟨⟨names,hlists,rfl,hway⟩,hmarkdown⟩
    exact ⟨⟨names,hlists,rfl⟩,(admits_iff _ _).2 ⟨hmarkdown,(hignored names hlists).1 hway⟩⟩
  · rintro ⟨⟨names,hlists,rfl⟩,hadmits⟩
    obtain ⟨hmarkdown,hkept⟩ := (admits_iff _ _).1 hadmits
    exact ⟨⟨names,hlists,rfl,(hignored names hlists).2 hkept⟩,hmarkdown⟩

/-- The root of a scan leads somewhere. -/
lemma exists_locate_of_scan? {disk : Disk} {name : String} {root : Path} {settings : Settings}
    {folder : Folder} (h : (scan? disk name root settings).outcome = .ok (some folder)) :
    ∃ place, disk.locate root = .ok place := by
  have hexists := ((scan?_eq_some_iff _ _ _ _ _).1 h).1
  unfold Disk.doesExist at hexists
  split at hexists
  · rename_i entry hfind
    obtain ⟨place,hplace,-⟩ := (Disk.find_eq_ok_iff _ _ _).1 hfind
    exact ⟨place,hplace⟩
  · cases hexists

/-- A scan has a document for each file that it comes to and that the folder takes in, and no others. -/
lemma documents_of_scan {disk : Disk} {name : String} {root : Path} {settings : Settings}
    {folder : Folder} (h : (scan? disk name root settings).outcome = .ok (some folder))
    (key : List Component) (document : Document) :
    folder.documents[key]? = some document ↔ ∃ path, disk.IsListed root path ∧
      folder.admits path = true ∧ path.components = key ∧
      Document.load disk path = .ok (some document) := by
  obtain ⟨-,hscan⟩ := (scan?_eq_some_iff _ _ _ _ _).1 h
  unfold scan at hscan
  obtain ⟨ignore,hignore,hscan⟩ := bind_eq_ok_iff.1 hscan
  let start : Folder := ⟨name,root,ignore,settings.markdownExtensions,∅⟩
  have hscanned := mem_scanned_iff disk start (root_of_ignoreFor hignore)
  have hbelow : ∀ path ∈ (disk.filePaths (fun path => !start.isIgnored path) start.root).filter
      start.isMarkdown, disk.HasFileBelow root path :=
    fun path hpath => ((hscanned path).1 hpath).1.hasFileBelow
  obtain ⟨documents,hfold,hdocuments⟩ := exists_foldlM_reload start rfl
    (fun path hpath => (hbelow path hpath).load)
    (fun p hp q hq => (hbelow p hp).eq_of_components (hbelow q hq))
  cases hfold.symm.trans hscan
  rw [hdocuments]
  simp only [hscanned,and_assoc]
  rfl

end Folder

namespace Workspace

variable {workspace : Workspace} {disk : Disk} {root : Path} {folder : Folder}

end Workspace

end NoteIndex
