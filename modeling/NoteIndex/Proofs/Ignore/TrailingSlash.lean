import NoteIndex.Proofs.Glob.Matching
import NoteIndex.Proofs.Glob.Parser
import NoteIndex.Proofs.Ignore.Line
import NoteIndex.Proofs.Ignore.Starts

/-! Ignore lines with a slash at the end. The pattern for everything in a directory says nothing new: what
it matches has a start that the pattern for the directory matches. Only the leading slash of a path has no
start before it, so below an empty root the line with the slash can exclude more. -/
namespace NoteIndex.Ignore

open Text Glob

variable {glob : List Char} {tokens below : List Token} {start : List Component}

/-- What is in a directory has a start that is the directory, or comes after the leading slash. -/
lemma exists_start_of_below (htokens : Glob.parse glob = .ok tokens)
    (hbelow : Glob.parse (glob ++ "/**".toList) = .ok below) (hinner : Inner start)
    (h : (exclusion (glob ++ "/**".toList) below).matches (renderPath start) = true) (hne : start ≠ []) :
    (∃ front, front ≠ [] ∧ front <+: start ∧
      (exclusion glob tokens).matches (renderPath front) = true) ∨
    (start.head? = some .root ∧ (exclusion glob tokens).matches [] = true) := by
  rw [matches_exclusion_iff] at h
  simp only [matches_exclusion_iff]
  rcases parse_append_subtree htokens with hparse | ⟨hparse,-⟩
  · rw [hparse] at hbelow
    cases hbelow
    obtain ⟨u,v,hcut,hspells⟩ := (matches_trailing_iff tokens _).1 h
    rcases exists_start_of_cut hinner hcut with ⟨rfl,hroot⟩ | ⟨front,hfront,hstart,rfl⟩
    · exact .inr ⟨hroot,matches_of_spells hspells⟩
    · exact .inl ⟨front,hfront,hstart,matches_of_spells hspells⟩
  · rw [hparse] at hbelow
    cases hbelow
    exact .inl ⟨start,hne,List.prefix_rfl,h⟩

/-- A glob that matches the empty text matches a slash, alone or together with the glob for what is below. -/
lemma matches_slash (htokens : Glob.parse glob = .ok tokens)
    (hbelow : Glob.parse (glob ++ "/**".toList) = .ok below)
    (h : (exclusion glob tokens).matches [] = true) :
    (exclusion glob tokens).matches [Path.slash] = true ∨
      (exclusion (glob ++ "/**".toList) below).matches [Path.slash] = true := by
  simp only [matches_exclusion_iff] at h ⊢
  rw [← spells_nil_iff] at h
  rcases parse_append_subtree htokens with hparse | ⟨-,front,rfl | rfl⟩
  · rw [hparse] at hbelow
    cases hbelow
    exact .inr ((matches_trailing_iff tokens _).2 ⟨[],[],rfl,h⟩)
  · obtain ⟨u,v,huv,hu,-⟩ := (spells_append _ _ _).1 h
    obtain ⟨rfl,rfl⟩ := List.append_eq_nil_iff.1 huv.symm
    refine .inl (matches_of_spells ((spells_append _ _ _).2 ⟨[],[Path.slash],rfl,hu,?_⟩))
    exact (spells_leading _).2 (.inr ⟨[],rfl⟩)
  · obtain ⟨u,v,huv,-,hv⟩ := (spells_append _ _ _).1 h
    obtain ⟨rest,rfl⟩ := (spells_trailing _).1 hv
    simp at huv

lemma excludes_nil (root : Path) (text : List UInt8) : (⟨root,[]⟩ : Ignore).excludes text = false := rfl

/-- A pattern that excludes comes before others without getting in their way. -/
lemma excludes_cons_exclusion_iff (root : Path) (glob : List Char) (tokens : List Token)
    (rest : List Pattern) (text : List UInt8) :
    (⟨root,exclusion glob tokens :: rest⟩ : Ignore).excludes text = true ↔
      (exclusion glob tokens).matches text = true ∨ (⟨root,rest⟩ : Ignore).excludes text = true := by
  unfold excludes
  rw [List.find?_cons]
  cases (exclusion glob tokens).matches text with
  | true => simp [exclusion]
  | false => simp

lemma components_of_empty {path : Path} (h : path.bytes = []) : path.components = [] := by
  simp [Path.components,h,Path.parse,fields,Component.ofFirstField?]

/-- What the two patterns of a directory ignore, said by the first of them. -/
lemma isIgnored_exclusions_iff (root : Path) (htokens : Glob.parse glob = .ok tokens)
    (hbelow : Glob.parse (glob ++ "/**".toList) = .ok below) (path : Path) :
    (⟨root,[exclusion glob tokens,exclusion (glob ++ "/**".toList) below]⟩ : Ignore).isIgnored path =
        true ↔
      (⟨root,[exclusion glob tokens]⟩ : Ignore).isIgnored path = true ∨
        root.bytes = [] ∧ path.components.head? = some .root ∧
          (exclusion glob tokens).matches [] = true := by
  simp only [isIgnored_iff,excludes_cons_exclusion_iff,excludes_nil,Bool.false_eq_true,or_false]
  constructor
  · rintro ⟨inner,hpath,start,hne,hstart,hmatch | hmatch⟩
    · exact .inl ⟨inner,hpath,start,hne,hstart,hmatch⟩
    · have hinner := inner_of_append hpath
      rcases exists_start_of_below htokens hbelow (hinner.of_start hstart) hmatch hne with
        ⟨front,hfront,hway,hmatch⟩ | ⟨hroot,hmatch⟩
      · exact .inl ⟨inner,hpath,front,hfront,hway.trans hstart,hmatch⟩
      · right
        have hmem : .root ∈ inner := hstart.subset (List.mem_of_head? hroot)
        have htext : root.bytes = [] := by
          by_contra htext
          exact Path.root_not_mem_below hpath (.inl htext) hmem
        refine ⟨htext,?_,hmatch⟩
        rw [hpath,components_of_empty htext,List.nil_append]
        obtain ⟨rest,rfl⟩ := hstart
        rwa [List.head?_append_of_ne_nil _ hne]
  · rintro (⟨inner,hpath,start,hne,hstart,hmatch⟩ | ⟨hroot,hhead,hmatch⟩)
    · exact ⟨inner,hpath,start,hne,hstart,.inl hmatch⟩
    · obtain ⟨rest,hrest⟩ := List.head?_eq_some_iff.1 hhead
      refine ⟨path.components,by rw [components_of_empty hroot]; rfl,[.root],by simp,by simp [hrest],?_⟩
      exact matches_slash htokens hbelow hmatch

/-- A slash at the end of a line that excludes makes no difference to whether the line can be read. Nor
does it change what is ignored, except for absolute paths below an empty root: those are ignored with the
slash if the line without it matches the empty text. -/
theorem isIgnored_trailing_slash (root : Path) {line : String} (hne : line ≠ "")
    (hhead : line.toList.head? ≠ some '#' ∧ line.toList.head? ≠ some '!')
    (hlast : ∀ c, line.toList.getLast? = some c → c ≠ '/' ∧ isBlank c = false) :
    ((∃ failure, ofLines root [line] = .error failure) ↔
      ∃ failure, ofLines root [line ++ "/"] = .error failure) ∧
    ∀ plain slashed, ofLines root [line] = .ok plain → ofLines root [line ++ "/"] = .ok slashed →
      ∀ path, slashed.isIgnored path = true ↔ plain.isIgnored path = true ∨
        root.bytes = [] ∧ path.components.head? = some .root ∧ plain.excludes [] = true := by
  have hunmarked : Unmarked line.toList := ⟨by simpa using hne,hhead,hlast⟩
  have hslash : line ++ "/" = String.ofList (line.toList ++ ['/']) := by
    apply String.toList_inj.1
    simp
  have hplain : ∀ patterns, parseLine line = .ok patterns ↔ ∃ tokens,
      Glob.parse (anchored line.toList) = .ok tokens ∧
        patterns = [exclusion (anchored line.toList) tokens] := by
    intro patterns
    rw [← hunmarked.parseLine_eq_ok_iff,String.ofList_toList]
  simp only [exists_error_iff,ofLines_singleton_eq_ok_iff,hslash,hplain,
    hunmarked.parseLine_slash_eq_ok_iff]
  constructor
  · refine not_congr ⟨?_,?_⟩
    · rintro ⟨_,_,⟨tokens,htokens,rfl⟩,rfl⟩
      obtain ⟨below,hbelow⟩ : ∃ below,
          Glob.parse (anchored line.toList ++ "/**".toList) = .ok below := by
        rcases parse_append_subtree htokens with hparse | ⟨hparse,-⟩
        · exact ⟨_,hparse⟩
        · exact ⟨_,hparse⟩
      exact ⟨_,_,⟨tokens,below,htokens,hbelow,rfl⟩,rfl⟩
    · rintro ⟨_,_,⟨tokens,below,htokens,-,rfl⟩,rfl⟩
      exact ⟨_,_,⟨tokens,htokens,rfl⟩,rfl⟩
  · rintro _ _ ⟨_,⟨tokens,htokens,rfl⟩,rfl⟩ ⟨_,⟨same,below,hsame,hbelow,rfl⟩,rfl⟩ path
    obtain rfl : tokens = same := Except.ok.inj (htokens.symm.trans hsame)
    simp only [excludes_cons_exclusion_iff,excludes_nil,Bool.false_eq_true,or_false]
    exact isIgnored_exclusions_iff root htokens hbelow path

theorem isIgnored_trailing_slash_nested : ∃ plain slashed,
    ofLines "/n" ["/a/[b-c]*"] = .ok plain ∧ ofLines "/n" ["/a/[b-c]*/"] = .ok slashed ∧
    slashed.isIgnored "/n/a/cd/e.md" = true ∧ plain.isIgnored "/n/a/cd/e.md" = true ∧
    slashed.isIgnored "/n/a/d/e.md" = false ∧ plain.isIgnored "/n/a/d/e.md" = false := by
  have hplain := eq_ok_get (x := ofLines "/n" ["/a/[b-c]*"]) (by decide +kernel)
  have hslashed := eq_ok_get (x := ofLines "/n" ["/a/[b-c]*/"]) (by decide +kernel)
  have hlast : ∀ c, "/a/[b-c]*".toList.getLast? = some c → c ≠ '/' ∧ isBlank c = false := by
    rintro c ⟨⟩
    decide
  have hsame := (isIgnored_trailing_slash "/n" (by decide) (by decide) hlast).2 _ _ hplain hslashed
  have hroot : ("/n" : Path).bytes ≠ [] := by decide
  refine ⟨_,_,hplain,hslashed,(hsame _).2 (.inl ?_),?_,?_,?_⟩
  · decide +kernel
  · decide +kernel
  · rw [← Bool.not_eq_true,hsame]
    rintro (hignored | ⟨hempty,-⟩)
    · revert hignored
      decide +kernel
    · exact hroot hempty
  · decide +kernel

/-- Below an empty root a slash at the end of a line makes a difference. -/
theorem trailing_slash_excludes_root : ∃ plain slashed,
    ofLines "" ["/*"] = .ok plain ∧ ofLines "" ["/*/"] = .ok slashed ∧
    plain.isIgnored "/x" = false ∧ slashed.isIgnored "/x" = true :=
  ⟨_,_,eq_ok_get (by decide +kernel),eq_ok_get (by decide +kernel),by decide +kernel,
    by decide +kernel⟩

end NoteIndex.Ignore
