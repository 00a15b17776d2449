import NoteIndex.Proofs.Path.Join
import NoteIndex.Workspace.Basic

/-! Which folder owns a path, and what a workspace holds for a path. A folder that takes the place
of one with its root takes over the paths of that folder and no others. -/
namespace NoteIndex

/-- A list that starts another one does not come after it. -/
lemma compare_ne_lt_of_start {α : Type} [Ord α] [Std.ReflOrd α] {xs ys : List α} (h : ys <+: xs) :
    compare xs ys ≠ .lt := by
  induction ys generalizing xs with
  | nil =>
    cases xs with
    | nil => simp
    | cons x xs => simp
  | cons y ys ih =>
    cases xs with
    | nil => simp at h
    | cons x xs =>
      obtain ⟨rfl,hp⟩ := List.cons_prefix_cons.1 h
      rw [List.compare_cons_cons,Std.ReflOrd.compare_self]
      exact ih hp

/-- What is found first in a map is found at the least key. -/
lemma first_of_find?_toList {β : Type} {map : Std.ExtTreeMap (List Component) β}
    {test : List Component × β → Bool} {entry : List Component × β}
    (h : map.toList.find? test = some entry) :
    map[entry.1]? = some entry.2 ∧ test entry = true ∧
      ∀ (key : List Component) (value : β), map[key]? = some value → test (key,value) = true →
        (compare entry.1 key).isLE = true := by
  obtain ⟨htest,front,back,hsplit,hfront⟩ := List.find?_eq_some_iff_append.1 h
  have hmem : entry ∈ map.toList := List.mem_of_find?_eq_some h
  refine ⟨Std.ExtTreeMap.mem_toList_iff_getElem?_eq_some.1 hmem,htest,?_⟩
  intro key value hvalue hpass
  have hsorted := Std.ExtTreeMap.ordered_keys_toList (t := map)
  have hother := Std.ExtTreeMap.mem_toList_iff_getElem?_eq_some.2 hvalue
  rw [hsplit] at hother hsorted
  rcases List.mem_append.1 hother with hin | hin
  · simpa [hpass] using hfront _ hin
  · rcases List.mem_cons.1 hin with heq | hin
    · rw [← heq,Std.ReflOrd.compare_self]
      rfl
    · have hlt : compare entry.1 key = .lt :=
        (List.pairwise_cons.1 (List.pairwise_append.1 hsorted).2.1).1 _ hin
      rw [hlt]
      rfl

namespace Folder

/-- Every document is stored under its own path. -/
def Keyed (folder : Folder) : Prop :=
  ∀ (key : List Component) (document : Document),
    folder.documents[key]? = some document → document.path.components = key

lemma documents_withDocument (folder : Folder) (document : Document) (key : List Component) :
    (folder.withDocument document).documents[key]? =
      if document.path.components = key then some document else folder.documents[key]? := by
  simp [withDocument,Std.ExtTreeMap.getElem?_insert]

lemma documents_withoutDocument (folder : Folder) (path : Path) (key : List Component) :
    (folder.withoutDocument path).documents[key]? =
      if path.components = key then none else folder.documents[key]? := by
  simp [withoutDocument,Std.ExtTreeMap.getElem?_erase]

lemma Keyed.withDocument {folder : Folder} (h : folder.Keyed) (document : Document) :
    (folder.withDocument document).Keyed := by
  intro key found hfound
  rw [documents_withDocument] at hfound
  split at hfound
  · cases hfound
    assumption
  · exact h key found hfound

lemma Keyed.withoutDocument {folder : Folder} (h : folder.Keyed) (path : Path) :
    (folder.withoutDocument path).Keyed := by
  intro key found hfound
  rw [documents_withoutDocument] at hfound
  split at hfound
  · cases hfound
  · exact h key found hfound

lemma mem_documentList_iff {folder : Folder} (h : folder.Keyed) (document : Document) :
    document ∈ folder.documentList ↔
      folder.documents[document.path.components]? = some document := by
  simp only [documentList,List.mem_map,Prod.exists,exists_eq_right,
    Std.ExtTreeMap.mem_toList_iff_getElem?_eq_some]
  constructor
  · rintro ⟨key,hkey⟩
    rwa [h key document hkey]
  · intro hdocument
    exact ⟨_,hdocument⟩

/-- The documents are listed in path order, each path once. -/
lemma pairwise_documentList {folder : Folder} (h : folder.Keyed) :
    folder.documentList.Pairwise fun a b => compare a.path.components b.path.components = .lt := by
  rw [documentList,List.pairwise_map]
  refine (Std.ExtTreeMap.ordered_keys_toList (t := folder.documents)).imp_of_mem ?_
  intro a b ha hb hlt
  rw [h a.1 a.2 (Std.ExtTreeMap.mem_toList_iff_getElem?_eq_some.1 ha),
    h b.1 b.2 (Std.ExtTreeMap.mem_toList_iff_getElem?_eq_some.1 hb)]
  exact hlt

lemma owns_iff (folder : Folder) (path : Path) :
    folder.owns path = true ↔ folder.root.components <+: path.components :=
  Path.startsWith_iff path folder.root

end Folder

namespace Workspace

/-- Every folder is stored under its own root. -/
def Rooted (workspace : Workspace) : Prop :=
  ∀ (key : List Component) (folder : Folder),
    workspace.folders[key]? = some folder → folder.root.components = key

/-- Every folder is stored under its own root, and every document of it under its own path. -/
structure Keyed (workspace : Workspace) : Prop where
  rooted : workspace.Rooted
  keyed : ∀ (key : List Component) (folder : Folder),
    workspace.folders[key]? = some folder → folder.Keyed

lemma folders_withFolder (workspace : Workspace) (folder : Folder) (key : List Component) :
    (workspace.withFolder folder).folders[key]? =
      if folder.root.components = key then some folder else workspace.folders[key]? := by
  simp [withFolder,Std.ExtTreeMap.getElem?_insert]

lemma Rooted.withFolder {workspace : Workspace} (h : workspace.Rooted) (folder : Folder) :
    (workspace.withFolder folder).Rooted := by
  intro key found hfound
  rw [folders_withFolder] at hfound
  split at hfound
  · cases hfound
    assumption
  · exact h key found hfound

lemma Keyed.withFolder {workspace : Workspace} (h : workspace.Keyed) {folder : Folder}
    (hf : folder.Keyed) : (workspace.withFolder folder).Keyed := by
  refine ⟨h.rooted.withFolder folder,?_⟩
  intro key found hfound
  rw [folders_withFolder] at hfound
  split at hfound
  · cases hfound
    exact hf
  · exact h.keyed key found hfound

lemma owner?_isSome_iff (workspace : Workspace) (path : Path) :
    (workspace.owner? path).isSome = true ↔
      ∃ (key : List Component) (folder : Folder),
        workspace.folders[key]? = some folder ∧ folder.owns path = true := by
  simp [owner?,folderList,List.find?_isSome,Std.ExtTreeMap.mem_toList_iff_getElem?_eq_some]

/-- The owner of a path comes first among the folders whose roots start the path, so its root starts
the roots of the others. -/
lemma owner?_spec {workspace : Workspace} (h : workspace.Rooted) {path : Path} {folder : Folder}
    (howner : workspace.owner? path = some folder) :
    workspace.folders[folder.root.components]? = some folder ∧ folder.owns path = true ∧
      ∀ (key : List Component) (other : Folder), workspace.folders[key]? = some other →
        other.owns path = true → folder.root.components <+: key := by
  unfold owner? folderList at howner
  rw [List.find?_map,Option.map_eq_some_iff] at howner
  obtain ⟨⟨key,found⟩,hfind,rfl⟩ := howner
  obtain ⟨hkey,howns,hfirst⟩ := first_of_find?_toList hfind
  obtain rfl := h key found hkey
  refine ⟨hkey,howns,?_⟩
  intro key other hother howns'
  have hle := hfirst key other hother howns'
  obtain rfl := h key other hother
  -- Both roots start the path, so one of them starts the other.
  rcases List.prefix_or_prefix_of_prefix ((Folder.owns_iff _ _).1 howns)
    ((Folder.owns_iff _ _).1 howns') with hp | hp
  · exact hp
  · have hne := compare_ne_lt_of_start hp
    have heq : compare found.root.components other.root.components = .eq := by
      cases hcompare : compare found.root.components other.root.components <;> simp_all
    exact Std.LawfulEqOrd.eq_of_compare heq ▸ List.prefix_rfl

/-- The owner of a path is the folder whose root starts the path, and the roots of all others that
do so as well. -/
theorem owner?_eq_some_iff {workspace : Workspace} (h : workspace.Rooted) (path : Path)
    (folder : Folder) :
    workspace.owner? path = some folder ↔
      workspace.folders[folder.root.components]? = some folder ∧ folder.owns path = true ∧
      ∀ (key : List Component) (other : Folder), workspace.folders[key]? = some other →
        other.owns path = true → folder.root.components <+: key := by
  constructor
  · exact owner?_spec h
  · rintro ⟨hstored,howns,hfirst⟩
    have hsome := (owner?_isSome_iff workspace path).2 ⟨_,_,hstored,howns⟩
    obtain ⟨found,hfound⟩ := Option.isSome_iff_exists.1 hsome
    obtain ⟨hstored',howns',hfirst'⟩ := owner?_spec h hfound
    have hroot : found.root.components = folder.root.components :=
      (hfirst' _ folder hstored howns).eq_of_length_le (hfirst _ found hstored' howns').length_le
    rw [hroot,hstored] at hstored'
    rw [hfound,hstored']

lemma owner?_congr (workspace : Workspace) {p q : Path} (h : p.components = q.components) :
    workspace.owner? p = workspace.owner? q := by
  have howns : ∀ folder : Folder, folder.owns p = folder.owns q := by
    intro folder
    simp [Folder.owns,Path.startsWith,Path.below?,h]
  simp [owner?,howns]

/-- What is below an owned path has the same owner. -/
theorem owner?_of_below {workspace : Workspace} (h : workspace.Rooted) {p q : Path}
    {folder : Folder} (howner : workspace.owner? p = some folder)
    (hpq : p.components <+: q.components) : workspace.owner? q = some folder := by
  obtain ⟨hstored,howns,hfirst⟩ := owner?_spec h howner
  have hroot := (Folder.owns_iff folder p).1 howns
  refine (owner?_eq_some_iff h q folder).2
    ⟨hstored,(Folder.owns_iff folder q).2 (hroot.trans hpq),?_⟩
  intro key other hother hq
  rcases List.prefix_or_prefix_of_prefix ((Folder.owns_iff other q).1 hq) hpq with hp | hp
  · exact hfirst key other hother ((Folder.owns_iff other p).2 hp)
  · rw [← h key other hother]
    exact hroot.trans hp

/-- The folders whose roots start a path are those stored under the starts of the path. -/
lemma Rooted.forall_owns_iff {workspace : Workspace} (h : workspace.Rooted) (path : Path)
    (P : List Component → Prop) :
    (∀ (key : List Component) (folder : Folder), workspace.folders[key]? = some folder →
      folder.owns path = true → P key) ↔
    ∀ root ∈ workspace.folders, root <+: path.components → P root := by
  constructor
  · intro hall root hroot hstart
    obtain ⟨folder,hfolder⟩ := Option.isSome_iff_exists.1
      (Std.ExtTreeMap.mem_iff_isSome_getElem?.1 hroot)
    refine hall root folder hfolder ?_
    rwa [Folder.owns_iff,h root folder hfolder]
  · intro hall key folder hfolder howns
    rw [Folder.owns_iff,h key folder hfolder] at howns
    exact hall key (Std.ExtTreeMap.mem_iff_isSome_getElem?.2 (by simp [hfolder])) howns

/-- A path has no owner if and only if no root starts it. Otherwise its owner is the outermost of the
folders whose roots start it: its root starts the roots of all the others. So what is below an owned
path has the same owner. -/
theorem owner?_outermost {workspace : Workspace} (h : workspace.Rooted) (path : Path) :
    (workspace.owner? path = none ↔ ∀ root ∈ workspace.folders, ¬root <+: path.components) ∧
    (∀ folder, workspace.owner? path = some folder ↔
      workspace.folders[folder.root.components]? = some folder ∧
      folder.root.components <+: path.components ∧
      ∀ root ∈ workspace.folders, root <+: path.components → folder.root.components <+: root) ∧
    ∀ folder, workspace.owner? path = some folder →
      ∀ below : Path, path.components <+: below.components →
        workspace.owner? below = some folder := by
  refine ⟨?_,?_,?_⟩
  · rw [← Option.not_isSome_iff_eq_none,owner?_isSome_iff]
    simp only [not_exists,not_and]
    exact h.forall_owns_iff path fun _ => False
  · intro folder
    rw [owner?_eq_some_iff h,Folder.owns_iff,h.forall_owns_iff path]
  · intro folder howner below hbelow
    exact owner?_of_below h howner hbelow

theorem owner?_outermost_nested : ∃ (workspace : Workspace) (folder : Folder),
    workspace.Rooted ∧
    workspace.folders.keys = [[.root,.ofText "n"],[.root,.ofText "n",.ofText "a"],[.root,.ofText "n-b"]] ∧
    workspace.owner? "/n/a" = some folder ∧ folder.name = "outer" ∧
    (∀ root ∈ workspace.folders, root <+: ("/n/a" : Path).components →
      folder.root.components <+: root) ∧
    workspace.owner? "/n/a//b.md" = some folder ∧ workspace.owner? "/m" = none := by
  let workspace := (((⟨none,∅,0⟩ : Workspace).withFolder (Folder.empty "inner" "/n/a")).withFolder
    (Folder.empty "beside" "/n-b")).withFolder (Folder.empty "outer" "/n")
  have hrooted : workspace.Rooted := by
    refine Rooted.withFolder (Rooted.withFolder (Rooted.withFolder ?_ _) _) _
    intro key folder hfolder
    simp at hfolder
  have hkeys : workspace.folders.keys =
      [[.root,.ofText "n"],[.root,.ofText "n",.ofText "a"],[.root,.ofText "n-b"]] := by decide +kernel
  have hname : (workspace.owner? "/n/a").map Folder.name = some "outer" := by decide +kernel
  obtain ⟨folder,howner,hfolder⟩ := Option.map_eq_some_iff.1 hname
  obtain ⟨-,howns,hbelow⟩ := owner?_outermost hrooted "/n/a"
  refine ⟨workspace,folder,hrooted,hkeys,howner,hfolder,((howns _).1 howner).2.2,
    hbelow _ howner _ (by decide +kernel),(owner?_outermost hrooted _).1.2 ?_⟩
  simp only [← Std.ExtTreeMap.mem_keys,hkeys]
  decide +kernel

/-- A folder in the place of another one with its root becomes the owner of the paths of that
folder, and of no others. -/
lemma owner?_withFolder {workspace : Workspace} (h : workspace.Rooted) {old new : Folder}
    (hold : workspace.folders[old.root.components]? = some old) (hroot : new.root = old.root)
    (path : Path) :
    (workspace.withFolder new).owner? path = (workspace.owner? path).map fun folder =>
      if folder.root.components = old.root.components then new else folder := by
  have howns : new.owns path = old.owns path := by simp [Folder.owns,hroot]
  cases howner : workspace.owner? path with
  | none =>
    rw [Option.map_none,← Option.not_isSome_iff_eq_none,owner?_isSome_iff]
    rintro ⟨key,folder,hfolder,hpath⟩
    have hsome : (workspace.owner? path).isSome = true := by
      rw [owner?_isSome_iff]
      rw [folders_withFolder] at hfolder
      split at hfolder
      · cases hfolder
        exact ⟨_,old,hold,howns ▸ hpath⟩
      · exact ⟨key,folder,hfolder,hpath⟩
    simp [howner] at hsome
  | some folder =>
    obtain ⟨hstored,hpath,hfirst⟩ := owner?_spec h howner
    rw [Option.map_some,owner?_eq_some_iff (h.withFolder new)]
    have hfirst' : ∀ (key : List Component) (other : Folder),
        (workspace.withFolder new).folders[key]? = some other → other.owns path = true →
          folder.root.components <+: key := by
      intro key other hother hpath'
      rw [folders_withFolder] at hother
      split at hother
      · rename_i hkey
        cases hother
        rw [← hkey,hroot]
        exact hfirst _ old hold (howns ▸ hpath')
      · exact hfirst key other hother hpath'
    by_cases hsame : folder.root.components = old.root.components
    · rw [if_pos hsame]
      rw [hsame,hold] at hstored
      cases hstored
      refine ⟨by simp [folders_withFolder],howns ▸ hpath,?_⟩
      rw [hroot]
      exact hfirst'
    · rw [if_neg hsame]
      refine ⟨?_,hpath,hfirst'⟩
      rw [folders_withFolder,if_neg (by rw [hroot]; exact Ne.symm hsame)]
      exact hstored

lemma owner?_isSome_withFolder {workspace : Workspace} (h : workspace.Rooted) {old new : Folder}
    (hold : workspace.folders[old.root.components]? = some old) (hroot : new.root = old.root)
    (path : Path) :
    ((workspace.withFolder new).owner? path).isSome = (workspace.owner? path).isSome := by
  rw [owner?_withFolder h hold hroot,Option.isSome_map]

/-- What the workspace holds for a path. -/
def held? (workspace : Workspace) (path : Path) : Option Document :=
  (workspace.owner? path).bind (·.document? path)

lemma held?_congr (workspace : Workspace) {p q : Path} (h : p.components = q.components) :
    workspace.held? p = workspace.held? q := by
  simp only [held?,workspace.owner?_congr h,Folder.document?,h]

lemma owner_outcome_eq_ok_iff (workspace : Workspace) (path : Path) (folder : Folder) :
    (workspace.owner path).outcome = .ok folder ↔ workspace.owner? path = some folder := by
  unfold owner
  cases workspace.owner? path with
  | none => simp [bind_eq_ok_iff]
  | some found => simp

/-- What is held for a path is found, unless nothing owns the path. -/
lemma document?_outcome_eq (workspace : Workspace) (path : Path) :
    (workspace.document? path).outcome =
      if (workspace.owner? path).isSome = true then .ok (workspace.held? path)
      else .error (.unowned path) := by
  unfold document? held? owner
  cases workspace.owner? path with
  | none => rfl
  | some folder => rfl

lemma document?_outcome {workspace : Workspace} {path : Path}
    (h : (workspace.owner? path).isSome = true) :
    (workspace.document? path).outcome = .ok (workspace.held? path) := by
  rw [document?_outcome_eq,if_pos h]

lemma document?_eq_ok_iff (workspace : Workspace) (path : Path) (found : Option Document) :
    (workspace.document? path).outcome = .ok found ↔
      ∃ folder, workspace.owner? path = some folder ∧ folder.document? path = found := by
  unfold document?
  simp only [Step.outcome_bind,Step.outcome_pure,bind_eq_ok_iff,owner_outcome_eq_ok_iff,
    Except.ok.injEq]

/-- A folder that differs from the owner of a path in the document of that path only changes what
the workspace holds for that path only. -/
theorem held?_withFolder {workspace : Workspace} (h : workspace.Rooted) {path : Path}
    {old new : Folder} (howner : workspace.owner? path = some old) (hroot : new.root = old.root)
    (hdocuments : ∀ key, key ≠ path.components → new.documents[key]? = old.documents[key]?)
    (q : Path) :
    (workspace.withFolder new).held? q =
      if q.components = path.components then new.documents[path.components]?
      else workspace.held? q := by
  have hold := (owner?_spec h howner).1
  unfold held?
  rw [owner?_withFolder h hold hroot]
  by_cases hq : q.components = path.components
  · rw [if_pos hq,workspace.owner?_congr hq,howner]
    simp [Folder.document?,hq]
  · rw [if_neg hq]
    cases hfolder : workspace.owner? q with
    | none => rfl
    | some folder =>
      have hstored := (owner?_spec h hfolder).1
      by_cases hsame : folder.root.components = old.root.components
      · rw [hsame,hold] at hstored
        cases hstored
        simp [Folder.document?,hdocuments _ hq]
      · simp [hsame]

end Workspace

end NoteIndex
