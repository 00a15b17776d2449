import NoteIndex.Proofs.Workspace.Scan

/-! Frames: a workspace seen through its folders without their documents, and through the document
that each folder has for each path. A write to one folder changes the documents of that folder
only. -/
namespace NoteIndex

namespace Folder

/-- A folder without its documents. -/
def shell (folder : Folder) : Folder := { folder with documents := ∅ }

lemma root_of_shell {folder other : Folder} (h : folder.shell = other.shell) :
    folder.root = other.root := by
  change folder.shell.root = other.shell.root
  rw [h]

lemma owns_of_shell {folder other : Folder} (h : folder.shell = other.shell) (path : Path) :
    folder.owns path = other.owns path := by
  change folder.shell.owns path = other.shell.owns path
  rw [h]

lemma admits_of_shell {folder other : Folder} (h : folder.shell = other.shell) (path : Path) :
    folder.admits path = other.admits path := by
  change folder.shell.admits path = other.shell.admits path
  rw [h]

end Folder

namespace Workspace

variable {workspace other : Workspace}

/-- The folder with a given root, without its documents. -/
def shell? (workspace : Workspace) (root : List Component) : Option Folder :=
  workspace.folders[root]?.map Folder.shell

/-- The document that the folder with a given root has for given components. -/
def stored? (workspace : Workspace) (root key : List Component) : Option Document :=
  workspace.folders[root]?.bind fun folder => folder.documents[key]?

lemma stored?_of_folder {root : List Component} {folder : Folder}
    (h : workspace.folders[root]? = some folder) (key : List Component) :
    workspace.stored? root key = folder.documents[key]? := by
  simp [stored?,h]

lemma stored?_withFolder (workspace : Workspace) (folder : Folder) (root key : List Component) :
    (workspace.withFolder folder).stored? root key =
      if folder.root.components = root then folder.documents[key]?
      else workspace.stored? root key := by
  unfold stored?
  rw [folders_withFolder]
  split <;> rfl

lemma shell?_withFolder {old new : Folder}
    (h : workspace.folders[old.root.components]? = some old) (hshell : new.shell = old.shell) :
    (workspace.withFolder new).shell? = workspace.shell? := by
  funext root
  unfold shell?
  rw [folders_withFolder]
  split
  · rename_i hroot
    rw [← hroot,Folder.root_of_shell hshell,h,Option.map_some,Option.map_some,hshell]
  · rfl

lemma exists_folder_of_shell? (hshell : other.shell? = workspace.shell?) {root : List Component}
    {folder : Folder} (hfolder : workspace.folders[root]? = some folder) :
    ∃ found, other.folders[root]? = some found ∧ found.shell = folder.shell := by
  have hroot : other.folders[root]?.map Folder.shell = some folder.shell := by
    change other.shell? root = _
    rw [hshell,shell?,hfolder,Option.map_some]
  exact Option.map_eq_some_iff.1 hroot

/-- Workspaces with the same folders, their documents apart, have the same owners. -/
theorem owner?_of_shell? (h : workspace.Rooted) (hother : other.Rooted)
    (hshell : other.shell? = workspace.shell?) {path : Path} {folder : Folder}
    (howner : workspace.owner? path = some folder) :
    ∃ found, other.owner? path = some found ∧ found.shell = folder.shell := by
  obtain ⟨hfolder,howns,hfirst⟩ := owner?_spec h howner
  obtain ⟨found,hfound,hsame⟩ := exists_folder_of_shell? hshell hfolder
  have hroot := Folder.root_of_shell hsame
  refine ⟨found,(owner?_eq_some_iff hother path found).2 ⟨?_,?_,?_⟩,hsame⟩
  · rw [hroot,hfound]
  · rw [Folder.owns_of_shell hsame,howns]
  · intro key next hnext hpath
    obtain ⟨old,hold,hnextSame⟩ := exists_folder_of_shell? hshell.symm hnext
    rw [hroot]
    refine hfirst key old hold ?_
    rw [Folder.owns_of_shell hnextSame,hpath]

end Workspace

end NoteIndex
