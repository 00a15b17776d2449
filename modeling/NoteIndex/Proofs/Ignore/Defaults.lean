import NoteIndex.Proofs.Ignore.TrailingSlash
import NoteIndex.Workspace.Folder

/-! The default patterns: they exclude what is named like a repository, and all that is in it. The lines of
ignore files come first, so such a path is ignored unless they take it in again. -/
namespace NoteIndex.Ignore

open Text Glob

/-- A name that stands for itself in an ignore line. -/
structure PlainName (name : List Char) : Prop extends Unmarked name where
  literal : ∀ c ∈ name, c ∉ State.metaChars
  slash : '/' ∉ name
  undotted : name ≠ ['.'] ∧ name ≠ ['.','.']

/-- The tokens for a name in any directory. -/
def nameTokens (name : List Char) : List Token := .leading :: name.map .literal

/-- The patterns for directories of a name. -/
def directoryPatterns (name : List Char) : List Pattern :=
  [exclusion (anchored name) (nameTokens name),
    exclusion (anchored name ++ "/**".toList) (nameTokens name ++ [.trailing])]

lemma includes_directoryPatterns {name : List Char} {found : Pattern}
    (h : found ∈ directoryPatterns name) : found.includes = false := by
  simp only [directoryPatterns,List.mem_cons,List.not_mem_nil,or_false] at h
  rcases h with rfl | rfl
  · rfl
  · rfl

namespace PlainName

variable {name : List Char} {start : List Component}

lemma anchored_eq (h : PlainName name) : anchored name = "**/".toList ++ name := by
  unfold anchored
  rw [if_neg fun hhead => h.slash (List.mem_of_head? hhead)]

lemma parse_anchored (h : PlainName name) : Glob.parse (anchored name) = .ok (nameTokens name) := by
  rw [h.anchored_eq]
  exact parse_anywhere h.literal

lemma parse_subtree (h : PlainName name) :
    Glob.parse (anchored name ++ "/**".toList) = .ok (nameTokens name ++ [.trailing]) := by
  rcases parse_append_subtree h.parse_anchored with hparse | ⟨-,front,hfront⟩
  · exact hparse
  · -- The last token is a character of the name.
    exfalso
    have hlast : name.getLast? = some (name.getLast h.ne_nil) := List.getLast?_eq_getLast_of_ne_nil _
    have htoken : (nameTokens name).getLast? = some (.literal (name.getLast h.ne_nil)) := by
      rw [nameTokens,List.getLast?_cons,List.getLast?_map,hlast]
      rfl
    rcases hfront with hfront | hfront
    · simp [hfront] at htoken
    · simp [hfront] at htoken

lemma parseLine (h : PlainName name) :
    parseLine (String.ofList (name ++ ['/'])) = .ok (directoryPatterns name) :=
  h.parseLine_slash_eq_ok_iff.2 ⟨_,_,h.parse_anchored,h.parse_subtree,rfl⟩

lemma matches_iff (h : PlainName name) (path : List UInt8) :
    (exclusion (anchored name) (nameTokens name)).matches path = true ↔
      EndsIn path (encodeUtf8 name) := by
  rw [matches_exclusion_iff,nameTokens,matches_anywhere_iff h.ne_nil]
  rfl

lemma matches_renderPath_iff (h : PlainName name) (hinner : Inner start) :
    (exclusion (anchored name) (nameTokens name)).matches (renderPath start) = true ↔
      start.getLast? = some (.name (encodeUtf8 name)) := by
  have hne : ∀ other, name ≠ other → encodeUtf8 name ≠ encodeUtf8 other :=
    fun other => encodeUtf8_injective.ne
  rw [h.matches_iff,endsIn_renderPath_iff hinner (hne [] h.ne_nil)
    (fun hslash => h.slash ((Path.slash_mem_utf8_iff name).1 hslash))
    ⟨hne ['.'] h.undotted.1,hne ['.','.'] h.undotted.2⟩]

/-- The patterns for directories of a name match what has the name among its components. -/
theorem exists_matches_iff (h : PlainName name) (hinner : Inner start) (hne : start ≠ []) :
    (∃ found ∈ directoryPatterns name, found.matches (renderPath start) = true) ↔
      .name (encodeUtf8 name) ∈ start := by
  simp only [directoryPatterns,List.mem_cons,List.not_mem_nil,or_false,exists_eq_or_imp,
    exists_eq_left]
  constructor
  · rintro (hmatch | hmatch)
    · exact List.mem_of_getLast? ((h.matches_renderPath_iff hinner).1 hmatch)
    · rcases exists_start_of_below h.parse_anchored h.parse_subtree hinner hmatch hne with
        ⟨front,-,hfront,hmatch⟩ | ⟨-,hmatch⟩
      · have hlast := (h.matches_renderPath_iff (hinner.of_start hfront)).1 hmatch
        exact hfront.subset (List.mem_of_getLast? hlast)
      · have hempty : EndsIn [] (encodeUtf8 name) := (h.matches_iff []).1 hmatch
        have hne : encodeUtf8 name ≠ [] := encodeUtf8_injective.ne h.ne_nil
        simp [EndsIn,hne.symm] at hempty
  · intro hmem
    obtain ⟨front,back,rfl⟩ := List.append_of_mem hmem
    cases back with
    | nil => exact .inl ((h.matches_renderPath_iff hinner).2 List.getLast?_concat)
    | cons next back =>
      right
      let upTo := front ++ [.name (encodeUtf8 name)]
      have hsplit : front ++ .name (encodeUtf8 name) :: next :: back = upTo ++ next :: back := by
        simp [upTo]
      rw [hsplit] at hinner ⊢
      have hupTo := (h.matches_renderPath_iff (hinner.of_start (List.prefix_append _ _))).2
        List.getLast?_concat
      have hroot : upTo ≠ [.root] := by simp [upTo,List.append_eq_singleton_iff]
      obtain ⟨rest,hrest⟩ := exists_renderPath_append (by simp [upTo]) hroot
        (List.cons_ne_nil next back)
      rw [matches_exclusion_iff,nameTokens,shapeOf_of_ne (by simpa using h.ne_nil)] at hupTo
      rw [matches_exclusion_iff,matches_trailing_iff,hrest]
      exact ⟨_,_,rfl,hupTo⟩

end PlainName

lemma plainName_git : PlainName ".git".toList where
  ne_nil := by decide
  head := by decide
  last := by rintro c ⟨⟩; decide
  literal := by simp [State.metaChars]
  slash := by decide
  undotted := by decide

lemma plainName_hg : PlainName ".hg".toList where
  ne_nil := by decide
  head := by decide
  last := by rintro c ⟨⟩; decide
  literal := by simp [State.metaChars]
  slash := by decide
  undotted := by decide

/-- A repository is among the components. -/
def InRepository (components : List Component) : Prop :=
  .ofText ".git" ∈ components ∨ .ofText ".hg" ∈ components

instance (components : List Component) : Decidable (InRepository components) :=
  inferInstanceAs (Decidable (_ ∨ _))

lemma InRepository.of_start {start components : List Component} (h : InRepository start)
    (hstart : start <+: components) : InRepository components :=
  h.imp (hstart.subset ·) (hstart.subset ·)

lemma InRepository.ne_nil {components : List Component} (h : InRepository components) :
    components ≠ [] := by
  rintro rfl
  simp [InRepository] at h

lemma patterns_defaults (root : Path) : (defaults root).patterns =
    directoryPatterns ".git".toList ++ directoryPatterns ".hg".toList := by
  have hgit : parseLine ".git/" = .ok (directoryPatterns ".git".toList) := plainName_git.parseLine
  have hhg : parseLine ".hg/" = .ok (directoryPatterns ".hg".toList) := plainName_hg.parseLine
  simp [defaults,defaultLines,hgit,hhg,Except.toOption]

lemma parseLines_defaultLines (root : Path) :
    parseLines defaultLines = .ok (defaults root).patterns := by
  have hnil : parseLines [] = .ok [] := rfl
  rw [patterns_defaults]
  refine parseLines_cons_eq_ok_iff.2 ⟨_,_,plainName_git.parseLine,?_,rfl⟩
  exact parseLines_cons_eq_ok_iff.2 ⟨_,_,plainName_hg.parseLine,hnil,by simp⟩

/-- The default patterns exclude what has a repository among its components. -/
lemma excludes_defaults_iff (root : Path) {start : List Component} (hinner : Inner start)
    (hne : start ≠ []) :
    (defaults root).excludes (renderPath start) = true ↔ InRepository start := by
  have hincludes : ∀ found ∈ (defaults root).patterns, found.includes = false := by
    intro found hfound
    rw [patterns_defaults] at hfound
    exact (List.mem_append.1 hfound).elim includes_directoryPatterns includes_directoryPatterns
  rw [excludes_iff_of_forall hincludes,patterns_defaults]
  simp only [List.mem_append,or_and_right,exists_or,plainName_git.exists_matches_iff hinner hne,
    plainName_hg.exists_matches_iff hinner hne]
  rfl

/-- By default, a path is ignored if and only if it is below the root and what is below the root has a
repository among its components. -/
theorem isIgnored_defaults_iff (root path : Path) : (defaults root).isIgnored path = true ↔
    ∃ inner, path.components = root.components ++ inner ∧
      (.ofText ".git" ∈ inner ∨ .ofText ".hg" ∈ inner) := by
  rw [isIgnored_iff]
  refine exists_congr fun inner => and_congr_right fun hpath => ?_
  have hinner := inner_of_append hpath
  constructor
  · rintro ⟨start,hne,hstart,hexcludes⟩
    exact ((excludes_defaults_iff root (hinner.of_start hstart) hne).1 hexcludes).of_start hstart
  · intro hmem
    have hrepository : InRepository inner := hmem
    exact ⟨inner,hrepository.ne_nil,List.prefix_rfl,
      (excludes_defaults_iff root hinner hrepository.ne_nil).2 hrepository⟩

/-- What the first pattern that matches a text says: whether it takes the text in or excludes it. -/
def verdict? (patterns : List Pattern) (text : List UInt8) : Option Bool :=
  (patterns.find? (·.matches text)).map (·.includes)

/-- Patterns that come later decide about what the earlier ones leave open. -/
lemma excludes_append_iff (root : Path) (own more : List Pattern) (text : List UInt8) :
    (⟨root,own ++ more⟩ : Ignore).excludes text = true ↔
      verdict? own text = some false ∨
        verdict? own text = none ∧ (⟨root,more⟩ : Ignore).excludes text = true := by
  unfold excludes verdict?
  dsimp only
  rw [List.find?_append]
  cases own.find? (·.matches text) with
  | none => simp
  | some found => simp

/-- Patterns of ignore files: those of all their lines, and after them the default ones. -/
lemma ofFiles_eq_ok_iff {disk : Disk} {root : Path} {names : List String} {ignore : Ignore} :
    ofFiles disk root names = .ok ignore ↔ ∃ lines own,
      names.mapM (fileLines disk root) = .ok lines ∧ parseLines lines.flatten = .ok own ∧
      ignore = ⟨root,own ++ (defaults root).patterns⟩ := by
  unfold ofFiles
  simp only [bind_eq_ok_iff,ofLines_eq_ok_iff,parseLines_append_eq_ok_iff,
    parseLines_defaultLines root,Except.ok.injEq]
  constructor
  · rintro ⟨lines,hlines,_,⟨own,_,hown,rfl,rfl⟩,rfl⟩
    exact ⟨lines,own,hlines,hown,rfl⟩
  · rintro ⟨lines,own,hlines,hown,rfl⟩
    exact ⟨lines,hlines,_,⟨own,_,hown,rfl,rfl⟩,rfl⟩

/-- Lines without exclamation marks take nothing in. -/
lemma verdict?_ne_some_true {lines : List String} {own : List Pattern}
    (hown : parseLines lines = .ok own) (h : ∀ line ∈ lines, line.toList.head? ≠ some '!')
    (text : List UInt8) : verdict? own text ≠ some true := by
  intro hverdict
  obtain ⟨found,hfind,hincludes⟩ := Option.map_eq_some_iff.1 hverdict
  obtain ⟨parts,hparts,hflatten⟩ := bind_eq_ok_iff.1 hown
  cases hflatten
  obtain ⟨part,hpart,hfound⟩ := List.mem_flatten.1 (List.mem_of_find?_eq_some hfind)
  obtain ⟨line,hline,hparse⟩ := exists_of_mem_mapM hparts part hpart
  exact h line hline ((includes_iff hparse hfound).1 hincludes)

/-- Patterns of ignore files ignore a path in a repository if and only if a start of the path is excluded
by the first line of the files that matches it, or is in the repository and not taken in by that line. So
such a path is ignored unless the files take in all that is on the way from the repository to it, and they
need lines with exclamation marks for that. -/
theorem isIgnored_ofFiles_iff {disk : Disk} {root : Path} {names : List String} {ignore : Ignore}
    (h : ofFiles disk root names = .ok ignore) : ∃ lines own,
    names.mapM (fileLines disk root) = .ok lines ∧ parseLines lines.flatten = .ok own ∧
    ∀ path inner, path.components = root.components ++ inner →
      (.ofText ".git" ∈ inner ∨ .ofText ".hg" ∈ inner) →
      (ignore.isIgnored path = true ↔ ∃ start, start ≠ [] ∧ start <+: inner ∧
        (verdict? own (renderPath start) = some false ∨
          InRepository start ∧ verdict? own (renderPath start) ≠ some true)) ∧
      ((∀ line ∈ lines.flatten, line.toList.head? ≠ some '!') → ignore.isIgnored path = true) := by
  obtain ⟨lines,own,hlines,hown,rfl⟩ := ofFiles_eq_ok_iff.1 h
  refine ⟨lines,own,hlines,hown,?_⟩
  intro path inner hpath hmem
  have hrepository : InRepository inner := hmem
  have hinner := inner_of_append hpath
  have hignored : (⟨root,own ++ (defaults root).patterns⟩ : Ignore).isIgnored path = true ↔
      ∃ start, start ≠ [] ∧ start <+: inner ∧ (verdict? own (renderPath start) = some false ∨
        InRepository start ∧ verdict? own (renderPath start) ≠ some true) := by
    simp only [isIgnored_iff,hpath,List.append_cancel_left_eq,exists_eq_left']
    refine exists_congr fun start => and_congr_right fun hne => and_congr_right fun hstart => ?_
    have hdefaults : (⟨root,(defaults root).patterns⟩ : Ignore).excludes (renderPath start) = true ↔
        InRepository start := excludes_defaults_iff root (hinner.of_start hstart) hne
    rw [excludes_append_iff,hdefaults]
    cases verdict? own (renderPath start) with
    | none => simp
    | some includes => cases includes <;> simp
  refine ⟨hignored,?_⟩
  intro hlines
  exact hignored.2 ⟨inner,hrepository.ne_nil,List.prefix_rfl,
    .inr ⟨hrepository,verdict?_ne_some_true hown hlines _⟩⟩

theorem isIgnored_ofFiles_iff_taken : ∃ (disk : Disk) (ignore : Ignore),
    ofFiles disk "/n" [".ignore",".gitignore"] = .ok ignore ∧
    fileLines disk "/n" ".gitignore" = .ok ["!.git","b/"] ∧
    ignore.isIgnored "/n/.git" = false ∧ ignore.isIgnored "/n/.git/a.md" = true := by
  let disk := Disk.empty.writeFile "/n/.gitignore" (encodeUtf8 "!.git\nb/".toList)
  have hok := eq_ok_get (x := ofFiles disk "/n" [".ignore",".gitignore"]) (by decide +kernel)
  have hread : [".ignore",".gitignore"].mapM (fileLines disk "/n") =
      .ok [[],["!.git","b/"]] := by decide +kernel
  have hparse := eq_ok_get (x := parseLines ["!.git","b/"]) (by decide +kernel)
  obtain ⟨lines,own,hlines,hown,hall⟩ := isIgnored_ofFiles_iff hok
  obtain rfl : [[],["!.git","b/"]] = lines := Except.ok.inj (hread.symm.trans hlines)
  obtain rfl := Except.ok.inj (hparse.symm.trans hown)
  refine ⟨disk,_,hok,by decide +kernel,by decide +kernel,?_⟩
  -- The line takes in the repository, but not what is in it.
  exact (hall "/n/.git/a.md" [.ofText ".git",.ofText "a.md"] (by decide +kernel) (by decide)).1.2
    ⟨[.ofText ".git",.ofText "a.md"],by decide,List.prefix_rfl,.inr ⟨by decide,by decide +kernel⟩⟩

/-- A line with an exclamation mark can take a repository in. -/
theorem ofFiles_takes_in_repository : ∃ (disk : Disk) (ignore : Ignore),
    ofFiles disk "/n" [".gitignore"] = .ok ignore ∧
    ("/n/.git/a.md" : Path).components =
      ("/n" : Path).components ++ [.ofText ".git",.ofText "a.md"] ∧
    ignore.isIgnored "/n/.git/a.md" = false :=
  ⟨Disk.empty.writeFile "/n/.gitignore" (encodeUtf8 "!.git/".toList),_,
    eq_ok_get (by decide +kernel),by decide +kernel,by decide +kernel⟩

end NoteIndex.Ignore
