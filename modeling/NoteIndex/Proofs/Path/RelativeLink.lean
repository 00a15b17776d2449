import Mathlib.Data.List.Induction
import NoteIndex.Proofs.Path.Resolve

/-! Relative links: up from the directory of a document to one that holds another document as well, and
from there down by names. Such a link leads to the other document, if the directories on the way up have
texts for names. -/
namespace NoteIndex.Path

open Text

/-- A link that goes up a number of directories and then down by names. -/
def relativeLink (climb : Nat) (descent : List String) : String :=
  "./" ++ String.join (List.replicate climb "../") ++ "/".intercalate descent

/-- Going up as often as names were added leads back to the start. -/
lemma follow_climb (start climb : List String) (rest : List Component) :
    follow (start ++ climb) (List.replicate climb.length .up ++ rest) = follow start rest := by
  induction climb using List.reverseRecOn with
  | nil => rw [List.append_nil,List.length_nil,List.replicate_zero,List.nil_append]
  | append_singleton climb last ih =>
    rw [List.length_append,List.length_singleton,List.replicate_succ,List.cons_append,follow,
      if_neg (by simp),← List.append_assoc,List.dropLast_concat,ih]

lemma filterMap_fields_ups (climb : Nat) (rest : List UInt8) :
    (fields (· == slash) (utf8 (String.join (List.replicate climb "../")) ++ rest)).filterMap
        Component.ofField? =
      List.replicate climb .up ++ (fields (· == slash) rest).filterMap Component.ofField? := by
  induction climb with
  | zero =>
    rw [List.replicate_zero,List.replicate_zero,List.nil_append]
    rfl
  | succ climb ih =>
    have hlink : utf8 (String.join (List.replicate (climb+1) "../")) ++ rest =
        [dot,dot] ++ slash :: (utf8 (String.join (List.replicate climb "../")) ++ rest) := by
      rw [List.replicate_succ,String.join_cons,utf8_append]
      rfl
    rw [hlink,fields_append_separator (by rfl),List.filterMap_append,ih,List.replicate_succ]
    rfl

section Names

variable {names : List String} (hnames : ∀ name ∈ names, IsSegment name.toList)

include hnames

/-- Names joined by slashes are read as these names, also if there are none. -/
lemma filterMap_fields_names :
    (fields (· == slash) (utf8 ("/".intercalate names))).filterMap Component.ofField? =
      names.map .ofText := by
  by_cases hnil : names = []
  · subst hnil
    rfl
  · have hfield : ∀ name ∈ names, (Component.ofField? ∘ encodeUtf8 ∘ String.toList) name =
        some (.ofText name) := by
      intro name hname
      obtain ⟨hne,hdot,hdots,-⟩ := hnames name hname
      rw [Function.comp_apply,Function.comp_apply,ofField?_encodeUtf8 hne hdot hdots,
        String.ofList_toList]
    rw [utf8,fields_utf8,fields_intercalate hnil fun name hname => (hnames name hname).no_slash,
      List.map_map,List.filterMap_map,List.filterMap_congr hfield,List.filterMap_eq_map']

lemma parse_relativeLink (climb : Nat) :
    parse (utf8 (relativeLink climb names)) =
      .here :: (List.replicate climb .up ++ names.map .ofText) := by
  have hlink : utf8 (relativeLink climb names) =
      [dot] ++ slash :: (utf8 (String.join (List.replicate climb "../")) ++
        utf8 ("/".intercalate names)) := by
    rw [relativeLink,utf8_append,utf8_append,List.append_assoc]
    rfl
  rw [hlink,parse_append_slash,filterMap_fields_ups,filterMap_fields_names hnames]
  rfl

end Names

lemma segments?_eq_mapM {components : List Component} (h : .root ∉ components) :
    segments? components = components.mapM Component.text? := by
  rw [segments?,List.filter_eq_self.2]
  intro component hmem
  have hne : component ≠ .root := fun heq => h (heq ▸ hmem)
  simpa using hne

/-- What is left of the directory after the way up comes before the names of the way down. -/
lemma resolve?_of_climb {root document : Path} {inner climb : List Component} {names : List String}
    (hdirectory : parent? document.components = some (root.components ++ (inner ++ climb)))
    (hfree : .root ∉ inner ++ climb) (hnames : ∀ name ∈ names, IsSegment name.toList)
    (hplace : inner = [] → names ≠ []) :
    resolve? root document (relativeLink climb.length names) =
      (inner.mapM Component.text?).bind fun start =>
        (climb.mapM Component.text?).map fun _ => "/".intercalate (start ++ names) := by
  obtain ⟨rest,hlink⟩ : ∃ rest, (relativeLink climb.length names).toList = '.' :: rest := by
    simp [relativeLink]
  have hscheme : hasScheme (relativeLink climb.length names).toList = false := by
    rw [hlink]
    simp [hasScheme,List.isPrefixOf]
  have hstart : linkStart? root document (relativeLink climb.length names).toList =
      ((inner ++ climb).mapM Component.text?).map
        fun segments => (segments,(relativeLink climb.length names).toList) := by
    have hinner : dropStart? root.components (root.components ++ (inner ++ climb)) =
        some (inner ++ climb) :=
      (dropStart?_eq_some_iff _ _ _).2 rfl
    rw [hlink]
    simp only [linkStart?,hdirectory,hinner,segments?_eq_mapM hfree,Option.bind_eq_bind,
      Option.bind_some]
    cases (inner ++ climb).mapM Component.text? <;> rfl
  rw [resolve?,if_neg (by simp [hscheme]),hstart,List.mapM_append]
  cases hbefore : inner.mapM Component.text? with
  | none => rfl
  | some start =>
    cases hup : climb.mapM Component.text? with
    | none => rfl
    | some up =>
      have hlength : climb.length = up.length := by
        simpa using congrArg List.length (Component.mapM_text?_eq_some_iff.1 hup)
      have hfollow : follow (start ++ up) (parse (utf8 (relativeLink climb.length names))) =
          some (start ++ names) := by
        rw [parse_relativeLink hnames,follow,hlength,follow_climb,follow_names]
      have hne : start ++ names ≠ [] := by
        intro hnil
        obtain ⟨rfl,rfl⟩ := List.append_eq_nil_iff.1 hnil
        refine hplace ?_ rfl
        simpa using congrArg List.length (Component.mapM_text?_eq_some_iff.1 hbefore)
      change ((follow (start ++ up) (parse (utf8 (relativeLink climb.length names)))).bind fun place =>
        if place.isEmpty then none else some ("/".intercalate place)) = _
      rw [hfollow,Option.bind_some,if_neg (by simpa using hne)]
      rfl

/-- The key of a path that goes on by names. -/
lemma key?_of_names {root path : Path} {inner : List Component} {names : List String}
    (h : path.components = root.components ++ (inner ++ names.map .ofText)) :
    key? root path = (inner.mapM Component.text?).map fun start => "/".intercalate (start ++ names) := by
  have hbelow : below? root path = some (inner ++ names.map .ofText) :=
    (dropStart?_eq_some_iff _ _ _).2 h
  have hrender : Component.render ∘ Component.ofText = utf8 := rfl
  have hnames : (names.map Component.ofText).mapM Component.text? = some names :=
    Component.mapM_text?_eq_some_iff.2 (by rw [List.map_map,hrender])
  rw [key?,hbelow,Option.bind_some,joinKey?,List.mapM_append,hnames]
  cases inner.mapM Component.text? <;> rfl

lemma exists_mapM_text? {components : List Component}
    (h : ∀ component ∈ components, component.text?.isSome = true) :
    ∃ texts, components.mapM Component.text? = some texts := by
  induction components with
  | nil => exact ⟨[],rfl⟩
  | cons component rest ih =>
    obtain ⟨hcomponent,hrest⟩ := List.forall_mem_cons.1 h
    obtain ⟨text,htext⟩ := Option.isSome_iff_exists.1 hcomponent
    obtain ⟨texts,htexts⟩ := ih hrest
    exact ⟨text :: texts,by rw [List.mapM_cons,htext,htexts]; rfl⟩

lemma mapM_text?_eq_none {components : List Component} {component : Component}
    (hmem : component ∈ components) (h : component.text? = none) :
    components.mapM Component.text? = none := by
  rw [Option.eq_none_iff_forall_ne_some]
  intro texts htexts
  have hwritten : component.render ∈ texts.map utf8 :=
    Component.mapM_text?_eq_some_iff.1 htexts ▸ List.mem_map_of_mem hmem
  obtain ⟨text,-,htext⟩ := List.mem_map.1 hwritten
  rw [(Component.text?_eq_some_iff component text).2 htext.symm] at h
  cases h

/-- From every document every path strictly below the root can be reached by a relative link, through
each directory at or below the root that holds both: up from the directory of the document to that
one, and down by the names of the path. The link names the key of the path if the directories on the way
up have texts for names, and nothing if one of them has not. The path has a key if the directories that
the two have in common below the root have texts for names as well. The root is to be written out: below
an empty root, the leading slash of a path is a component as well. -/
theorem resolve?_relativeLink {root common document path : Path} {directory climb : List Component}
    {descent : List String} (hroot : root.bytes ≠ []) (hcommon : common.startsWith root = true)
    (hdirectory : parent? document.components = some directory)
    (hclimb : dropStart? common.components directory = some climb)
    (hdescent : below? common path = some (descent.map .ofText))
    (hstrict : path.components ≠ root.components) :
    ((∀ component ∈ climb, component.text?.isSome = true) →
      resolve? root document (relativeLink climb.length descent) = key? root path) ∧
    ((∃ component ∈ climb, component.text? = none) →
      resolve? root document (relativeLink climb.length descent) = none) ∧
    ((∀ inner ∈ below? root common, ∀ component ∈ inner, component.text?.isSome = true) →
      (key? root path).isSome = true) := by
  obtain ⟨inner,hinner⟩ := (startsWith_iff common root).1 hcommon
  have hpath : path.components = root.components ++ (inner ++ descent.map .ofText) := by
    rw [(dropStart?_eq_some_iff _ _ _).1 hdescent,← hinner,List.append_assoc]
  obtain rfl : directory = root.components ++ (inner ++ climb) := by
    rw [(dropStart?_eq_some_iff _ _ _).1 hclimb,← hinner,List.append_assoc]
  -- There is no leading slash on the way up.
  have hfree : .root ∉ inner ++ climb := by
    obtain ⟨last,hlast⟩ := below?_of_parent? hdirectory ((dropStart?_eq_some_iff _ _ _).2 rfl)
    have hfree := root_not_mem_below ((dropStart?_eq_some_iff _ _ _).1 hlast) (.inl hroot)
    exact fun hmem => hfree (List.mem_append_left _ hmem)
  have hnames : ∀ name ∈ descent, IsSegment name.toList := by
    intro name hname
    have hmem : .ofText name ∈ path.components := by
      rw [hpath]
      exact List.mem_append_right _ (List.mem_append_right _ (List.mem_map_of_mem hname))
    exact isSegment_of_mem_parse hmem
  have hplace : inner = [] → descent ≠ [] := by
    rintro rfl rfl
    exact hstrict (by simpa using hpath)
  rw [resolve?_of_climb hdirectory hfree hnames hplace,key?_of_names hpath]
  refine ⟨?_,?_,?_⟩
  · intro htexts
    obtain ⟨up,hup⟩ := exists_mapM_text? htexts
    rw [hup]
    cases inner.mapM Component.text? <;> rfl
  · rintro ⟨component,hmem,hnone⟩
    rw [mapM_text?_eq_none hmem hnone]
    cases inner.mapM Component.text? <;> rfl
  · intro htexts
    obtain ⟨start,hstart⟩ := exists_mapM_text?
      (htexts inner ((dropStart?_eq_some_iff _ _ _).2 hinner.symm))
    rw [hstart]
    rfl

theorem resolve?_relativeLink_cousin :
    ("/n" : Path).bytes ≠ [] ∧ startsWith "/n/x" "/n" = true ∧
    parent? (components "/n/x/y/z/d.md") =
      some [.root,.ofText "n",.ofText "x",.ofText "y",.ofText "z"] ∧
    below? "/n/x" "/n/x/v w/p.md" = some (["v w","p.md"].map .ofText) ∧
    relativeLink 2 ["v w","p.md"] = "./../../v w/p.md" ∧
    key? "/n" "/n/x/v w/p.md" = some "x/v w/p.md" ∧
    resolve? "/n" "/n/x/y/z/d.md" "./../../v w/p.md" =
      key? "/n" "/n/x/v w/p.md" := by
  have hlink : relativeLink 2 ["v w","p.md"] = "./../../v w/p.md" := by decide
  have hdirectory : parent? (components "/n/x/y/z/d.md") =
      some [.root,.ofText "n",.ofText "x",.ofText "y",.ofText "z"] := by
    decide
  have hclimb : dropStart? (components "/n/x")
      [.root,.ofText "n",.ofText "x",.ofText "y",.ofText "z"] = some [.ofText "y",.ofText "z"] := by
    decide
  have hdescent : below? "/n/x" "/n/x/v w/p.md" =
      some (["v w","p.md"].map .ofText) := by
    decide
  have hroot : ("/n" : Path).bytes ≠ [] := by decide
  have hreached := (resolve?_relativeLink hroot (by decide) hdirectory hclimb hdescent (by decide)).1
    (by decide)
  refine ⟨hroot,by decide,hdirectory,hdescent,hlink,by decide,?_⟩
  rwa [List.length_cons,List.length_singleton,hlink] at hreached

/-- From a directory whose name is no text, a relative link leads nowhere, though the path has a key. -/
theorem relativeLink_misses_document :
    startsWith ⟨utf8 "/n/A" ++ [0xFF] ++ utf8 "/d.md"⟩ "/n" = true ∧
    parent? (components ⟨utf8 "/n/A" ++ [0xFF] ++ utf8 "/d.md"⟩) =
      some [.root,.ofText "n",.name [0x41,0xFF]] ∧
    below? "/n" "/n/p.md" = some (["p.md"].map .ofText) ∧
    relativeLink 1 ["p.md"] = "./../p.md" ∧
    key? "/n" "/n/p.md" = some "p.md" ∧
    resolve? "/n" ⟨utf8 "/n/A" ++ [0xFF] ++ utf8 "/d.md"⟩ "./../p.md" = none := by
  decide

end NoteIndex.Path
