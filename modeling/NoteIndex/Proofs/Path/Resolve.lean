import NoteIndex.Proofs.Path.Key

/-! Resolved links: what a link names is a key in normal form, and the path of that name below the root
has this key. -/
namespace NoteIndex.Path

open Text

/-- What can be a segment of a key. -/
structure IsSegment (segment : List Char) : Prop where
  nonempty : segment ≠ []
  not_here : segment ≠ ['.']
  not_up : segment ≠ ['.','.']
  no_slash : '/' ∉ segment

/-- The text of a name of a path can be a segment. -/
lemma isSegment_of_mem_parse {bytes : List UInt8} {text : String}
    (h : .name (utf8 text) ∈ parse bytes) : IsSegment text.toList := by
  obtain ⟨hmem,hnil,hdot,hdots⟩ := field_of_mem_parse h
  refine ⟨?_,?_,?_,fun hslash => slash_not_mem_field hmem ((slash_mem_utf8_iff _).2 hslash)⟩
  · exact fun heq => hnil (congrArg encodeUtf8 heq)
  · exact fun heq => hdot (congrArg encodeUtf8 heq)
  · exact fun heq => hdots (congrArg encodeUtf8 heq)

/-- Following names and dots from segments leads to segments. -/
lemma isSegment_of_follow {start place : List String} {components : List Component}
    (hstart : ∀ segment ∈ start, IsSegment segment.toList)
    (hnames : ∀ text, .name (utf8 text) ∈ components → IsSegment text.toList)
    (h : follow start components = some place) : ∀ segment ∈ place, IsSegment segment.toList := by
  fun_induction follow start components with
  | case1 segments =>
    cases h
    exact hstart
  | case2 segments rest hempty => cases h
  | case3 segments rest hempty ih =>
    exact ih (fun segment hsegment => hstart segment (List.dropLast_subset _ hsegment))
      (fun name hname => hnames name (List.mem_cons_of_mem _ hname)) h
  | case4 segments bytes rest ih =>
    obtain ⟨text,htext,hrest⟩ := Option.bind_eq_some_iff.1 h
    obtain rfl := (ofUtf8?_eq_some_iff _ _).1 htext
    refine ih text ?_ (fun name hname => hnames name (List.mem_cons_of_mem _ hname)) hrest
    intro segment hsegment
    rcases List.mem_append.1 hsegment with hsegment | hsegment
    · exact hstart segment hsegment
    · rw [List.mem_singleton.1 hsegment]
      exact hnames text List.mem_cons_self
  | case5 segments rest ih =>
    exact ih hstart (fun name hname => hnames name (List.mem_cons_of_mem _ hname)) h
  | case6 segments rest ih =>
    exact ih hstart (fun name hname => hnames name (List.mem_cons_of_mem _ hname)) h

/-- A path that has no dots below a root. -/
def Undotted (root path : Path) : Prop :=
  ∀ rest ∈ below? root path, .here ∉ rest ∧ .up ∉ rest

instance (root path : Path) : Decidable (Undotted root path) :=
  inferInstanceAs (Decidable (∀ rest ∈ below? root path, .here ∉ rest ∧ .up ∉ rest))

/-- Below a root, the directory of a path is what the path is without its last component. -/
lemma below?_of_parent? {root path : Path} {directory inner : List Component}
    (hdirectory : parent? path.components = some directory)
    (hinner : dropStart? root.components directory = some inner) :
    ∃ last, below? root path = some (inner ++ [last]) := by
  unfold parent? at hdirectory
  split at hdirectory
  · cases hdirectory
  · cases hdirectory
  · rename_i last _ hlast
    cases hdirectory
    obtain ⟨front,hfront⟩ := List.getLast?_eq_some_iff.1 hlast
    refine ⟨last,(dropStart?_eq_some_iff _ _ _).2 ?_⟩
    rw [dropStart?_eq_some_iff,hfront,List.dropLast_concat] at hinner
    rw [hfront,hinner,List.append_assoc]

section Resolve

variable {root document : Path} (hdots : Undotted root document)

include hdots

/-- The directory that a link starts from is given by segments. -/
lemma isSegment_of_linkStart? {link rest : List Char} {start : List String}
    (h : linkStart? root document link = some (start,rest)) :
    ∀ segment ∈ start, IsSegment segment.toList := by
  unfold linkStart? at h
  split at h
  · cases h
    simp
  · obtain ⟨directory,hdirectory,h⟩ := Option.bind_eq_some_iff.1 h
    obtain ⟨inner,hinner,h⟩ := Option.bind_eq_some_iff.1 h
    obtain ⟨segments,hsegments,h⟩ := Option.bind_eq_some_iff.1 h
    cases h
    obtain ⟨last,hbelow⟩ := below?_of_parent? hdirectory hinner
    obtain ⟨hhere,hup⟩ := hdots _ hbelow
    intro segment hsegment
    have hwritten : utf8 segment ∈ (inner.filter (· != .root)).map Component.render := by
      rw [Component.mapM_text?_eq_some_iff.1 hsegments]
      exact List.mem_map_of_mem hsegment
    obtain ⟨component,hcomponent,hrender⟩ := List.mem_map.1 hwritten
    obtain ⟨hcomponent,hroot⟩ := List.mem_filter.1 hcomponent
    have hmem : component ∈ inner ++ [last] := List.mem_append_left _ hcomponent
    cases component with
    | root => simp at hroot
    | here => exact absurd hmem hhere
    | up => exact absurd hmem hup
    | name bytes =>
      obtain rfl : bytes = utf8 segment := hrender
      have hcomponents := (dropStart?_eq_some_iff _ _ _).1 hbelow
      exact isSegment_of_mem_parse (hcomponents ▸ List.mem_append_right _ hmem)

/-- Whatever a link is written like, the key that it names has names for segments only. -/
theorem straight_of_resolve? {link key : String} (h : resolve? root document link = some key) :
    Straight key.toList := by
  unfold resolve? at h
  split at h
  · cases h
  · obtain ⟨⟨start,rest⟩,hstart,h⟩ := Option.bind_eq_some_iff.1 h
    obtain ⟨place,hplace,h⟩ := Option.bind_eq_some_iff.1 h
    split at h
    · cases h
    · rename_i hempty
      cases h
      have hsegments := isSegment_of_follow (isSegment_of_linkStart? hdots hstart)
        (fun name hname => isSegment_of_mem_parse hname) hplace
      unfold Straight
      rw [fields_intercalate (by simpa using hempty) fun segment hsegment =>
        (hsegments segment hsegment).no_slash]
      intro segment hsegment
      obtain ⟨text,htext,rfl⟩ := List.mem_map.1 hsegment
      have hsegment := hsegments text htext
      exact ⟨hsegment.nonempty,hsegment.not_here,hsegment.not_up⟩

end Resolve

lemma straight_append_markdown {key : String} (h : Straight key.toList) :
    Straight (key ++ ".md").toList := by
  have hending : ∀ c ∈ ".md".toList, (c == '/') = false := by simp
  obtain ⟨front,last,hkey,happend⟩ := fields_append key.toList hending
  unfold Straight at h ⊢
  rw [String.toList_append,happend]
  rw [hkey] at h
  intro segment hsegment
  rcases List.mem_append.1 hsegment with hmem | hmem
  · exact h segment (List.mem_append_left _ hmem)
  · -- The last segment is too long for one or two dots.
    rw [List.mem_singleton.1 hmem]
    refine ⟨?_,?_,?_⟩ <;> intro heq <;> simpa using congrArg List.length heq

/-- A key stays straight whether or not `.md` is added to it. -/
lemma straight_ite_markdown {key : String} (h : Straight key.toList) (p : Prop) [Decidable p] :
    Straight (if p then key else key ++ ".md").toList := by
  split
  · exact h
  · exact straight_append_markdown h

lemma head?_of_straight {key : List Char} (h : Straight key) :
    (encodeUtf8 key).head? ≠ some slash := by
  intro hhead
  obtain ⟨rest,hrest⟩ := List.head?_eq_some_iff.1 hhead
  have hfields := fields_utf8 key
  rw [hrest,fields,if_pos (by rfl)] at hfields
  obtain ⟨first,more,hkey,hnil,-⟩ := List.map_eq_cons_iff.1 hfields.symm
  exact (h first (by simp [hkey])).1 (encodeUtf8_injective hnil)

/-- The path that a straight key names below a root. -/
lemma components_join_of_straight (root : Path) {key : String} (h : Straight key.toList) :
    (root.join key).components =
      root.components ++ ((fields (· == '/') key.toList).map String.ofList).map .ofText := by
  have hparse : parse (utf8 key) = ((fields (· == '/') key.toList).map String.ofList).map .ofText :=
    parse_of_straight h
  rw [components_join_append root (.ofText key) (head?_of_straight h)
    (hparse.trans (ofField?_of_straight h).symm)]
  exact congrArg (root.components ++ ·) hparse

/-- Names joined by slashes have the key that is written like them. -/
lemma joinKey?_names (names : List String) :
    joinKey? (names.map .ofText) = some ("/".intercalate names) := by
  have hrender : Component.render ∘ Component.ofText = utf8 := rfl
  rw [joinKey?,Component.mapM_text?_eq_some_iff.2 (by rw [List.map_map,hrender]),Option.map_some]

/-- The path of a straight key has this key. -/
theorem key?_join (root : Path) {key : String} (h : Straight key.toList) :
    key? root (root.join key) = some key := by
  rw [key?_eq_some_iff]
  refine ⟨_,components_join_of_straight root h,?_⟩
  rw [joinKey?_names,intercalate_segments]

lemma isSegment_of_straight {key : List Char} (h : Straight key) :
    ∀ segment ∈ fields (· == '/') key, IsSegment segment := by
  intro segment hsegment
  obtain ⟨hnil,hdot,hdots⟩ := h segment hsegment
  refine ⟨hnil,hdot,hdots,fun hslash => ?_⟩
  simpa using isSeparator_eq_false_of_mem_fields hsegment '/' hslash

/-- Whatever a link is written like, what it names lies strictly below the root: its key is made of one
or more segments, which are the names that the path of the key adds to the root. That path has this key,
and so has the link from the root that is written like the key, in whatever document it stands. -/
theorem resolve?_inside_root {root document : Path} (hdots : Undotted root document)
    {link key : String} (h : resolve? root document link = some key) : ∃ segments : List String,
    segments ≠ [] ∧ (∀ segment ∈ segments, IsSegment segment.toList) ∧
    key = "/".intercalate segments ∧
    (root.join key).components = root.components ++ segments.map .ofText ∧
    key? root (root.join key) = some key ∧
    ∀ other : Path, resolve? root other ("/" ++ key) = some key := by
  have hstraight := straight_of_resolve? hdots h
  refine ⟨(fields (· == '/') key.toList).map String.ofList,?_,?_,(intercalate_segments key).symm,
    components_join_of_straight root hstraight,key?_join root hstraight,
    fun other => resolve?_slash root other hstraight⟩
  · simpa using fields_ne_nil _ _
  · intro segment hsegment
    obtain ⟨field,hfield,rfl⟩ := List.mem_map.1 hsegment
    rw [String.toList_ofList]
    exact isSegment_of_straight hstraight field hfield

theorem resolve?_inside_root_climbing :
    Undotted "/n" "/n/d/a.md" ∧
    resolve? "/n" "/n/d/a.md" "..//./x/../b c//...md/" = some "b c/...md" ∧
    ∃ segments : List String, segments ≠ [] ∧ (∀ segment ∈ segments, IsSegment segment.toList) ∧
      "b c/...md" = "/".intercalate segments ∧
      (join "/n" "b c/...md").components =
        components "/n" ++ segments.map .ofText ∧
      key? "/n" (join "/n" "b c/...md") = some "b c/...md" ∧
      ∀ other : Path, resolve? "/n" other ("/" ++ "b c/...md") = some "b c/...md" := by
  have hdots : Undotted "/n" "/n/d/a.md" := by decide
  have hresolve : resolve? "/n" "/n/d/a.md" "..//./x/../b c//...md/" = some "b c/...md" := by
    decide
  exact ⟨hdots,hresolve,resolve?_inside_root hdots hresolve⟩

end NoteIndex.Path
