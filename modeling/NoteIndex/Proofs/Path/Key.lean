import Mathlib.Data.List.Basic
import Mathlib.Data.List.TakeWhile
import NoteIndex.Path.Resolve
import NoteIndex.Proofs.Disk.Spelling
import NoteIndex.Proofs.Text.Utf8

/-! Keys: a key whose segments are all names resolves to itself from the root, and its last segment is
the name of the file. A key spells the components below the root, so no two paths have the same one. -/
namespace NoteIndex

open Text

namespace Component

open NoteIndex.Path

lemma field_of_ofField? {field name : List UInt8} (h : ofField? field = some (.name name)) :
    name = field ∧ field ≠ [] ∧ field ≠ [dot] ∧ field ≠ [dot,dot] := by
  unfold ofField? at h
  split_ifs at h with hnone hdots
  · cases h
  · cases h
    exact ⟨rfl,fun hnil => hnone (.inl hnil),fun hdot => hnone (.inr hdot),hdots⟩

lemma field_of_ofFirstField? {field name : List UInt8} {isOnly : Bool}
    (h : ofFirstField? field isOnly = some (.name name)) :
    name = field ∧ field ≠ [] ∧ field ≠ [dot] ∧ field ≠ [dot,dot] := by
  unfold ofFirstField? at h
  split_ifs at h
  · cases h
  · cases h
  · exact field_of_ofField? h

lemma text?_eq_some_iff (component : Component) (text : String) :
    component.text? = some text ↔ component.render = utf8 text :=
  ofUtf8?_eq_some_iff _ _

/-- Components are texts just if they are written in the forms of these. -/
lemma mapM_text?_eq_some_iff {components : List Component} {texts : List String} :
    components.mapM text? = some texts ↔ components.map render = texts.map utf8 := by
  induction components generalizing texts with
  | nil => cases texts <;> simp
  | cons component rest ih =>
    rw [List.mapM_cons,List.map_cons]
    constructor
    · intro h
      obtain ⟨text,htext,h⟩ := Option.bind_eq_some_iff.1 h
      obtain ⟨others,hothers,h⟩ := Option.bind_eq_some_iff.1 h
      cases h
      rw [List.map_cons,(text?_eq_some_iff _ _).1 htext,ih.1 hothers]
    · intro h
      obtain ⟨text,others,rfl,htext,hothers⟩ := List.map_eq_cons_iff.1 h.symm
      rw [(text?_eq_some_iff _ _).2 htext.symm,ih.2 hothers.symm]
      rfl

end Component

namespace Path

/-- All segments of a key are names: none is empty, a dot or two dots. -/
def Straight (key : List Char) : Prop :=
  ∀ segment ∈ fields (· == '/') key, segment ≠ [] ∧ segment ≠ ['.'] ∧ segment ≠ ['.','.']

instance (key : List Char) : Decidable (Straight key) :=
  inferInstanceAs (Decidable (∀ segment ∈ fields (· == '/') key,
    segment ≠ [] ∧ segment ≠ ['.'] ∧ segment ≠ ['.','.']))

lemma fields_eq_splitOn {α : Type} [BEq α] (c : α) (cs : List α) :
    fields (· == c) cs = cs.splitOn c := by
  induction cs with
  | nil => rfl
  | cons x cs ih =>
    rw [fields,List.splitOn_eq_splitOnP,List.splitOnP_cons_eq_if_modifyHead,
      ← List.splitOn_eq_splitOnP,← ih]
    split
    · rfl
    · cases h : fields (· == c) cs with
      | nil => exact absurd h (fields_ne_nil _ _)
      | cons first rest => rfl

/-- Text without separators goes to the last field. -/
lemma fields_append {isSeparator : Char → Bool} (xs : List Char) {ys : List Char}
    (h : ∀ c ∈ ys, isSeparator c = false) : ∃ front last,
    fields isSeparator xs = front ++ [last] ∧
      fields isSeparator (xs ++ ys) = front ++ [last ++ ys] := by
  induction xs with
  | nil => exact ⟨[],[],rfl,fields_eq_singleton h⟩
  | cons x xs ih =>
    obtain ⟨front,last,hxs,happend⟩ := ih
    rw [List.cons_append,fields,fields,hxs,happend]
    by_cases hx : isSeparator x = true
    · exact ⟨[] :: front,last,by simp [hx],by simp [hx]⟩
    · cases front with
      | nil => exact ⟨[],x :: last,by simp [hx],by simp [hx]⟩
      | cons first front => exact ⟨(x :: first) :: front,last,by simp [hx],by simp [hx]⟩

lemma slash_mem_utf8_iff (text : List Char) : slash ∈ encodeUtf8 text ↔ '/' ∈ text :=
  mem_encodeUtf8_iff (d := '/') (by decide) text

lemma dot_mem_utf8_iff (text : List Char) : dot ∈ encodeUtf8 text ↔ '.' ∈ text :=
  mem_encodeUtf8_iff (d := '.') (by decide) text

lemma fields_utf8 (text : List Char) :
    fields (· == slash) (encodeUtf8 text) = (fields (· == '/') text).map encodeUtf8 :=
  fields_encodeUtf8 (d := '/') (by decide) text

lemma name_encodeUtf8 (segment : List Char) :
    Component.name (encodeUtf8 segment) = .ofText (String.ofList segment) := by
  rw [Component.ofText,utf8,String.toList_ofList]

lemma ofField?_encodeUtf8 {segment : List Char} (hnil : segment ≠ []) (hdot : segment ≠ ['.'])
    (hdots : segment ≠ ['.','.']) :
    Component.ofField? (encodeUtf8 segment) = some (.ofText (String.ofList segment)) := by
  have hne : ∀ other, segment ≠ other → encodeUtf8 segment ≠ encodeUtf8 other :=
    fun other => encodeUtf8_injective.ne
  rw [Component.ofField?_eq_name (hne [] hnil) (hne ['.'] hdot) (hne ['.','.'] hdots),name_encodeUtf8]

lemma ofField?_of_straight {key : List Char} (h : Straight key) :
    (fields (· == slash) (encodeUtf8 key)).filterMap Component.ofField? =
      ((fields (· == '/') key).map String.ofList).map .ofText := by
  have hfield : ∀ segment ∈ fields (· == '/') key, (Component.ofField? ∘ encodeUtf8) segment =
      some (.ofText (String.ofList segment)) := by
    intro segment hsegment
    obtain ⟨hnil,hdot,hdots⟩ := h segment hsegment
    exact ofField?_encodeUtf8 hnil hdot hdots
  rw [fields_utf8,List.filterMap_map,List.filterMap_congr hfield,List.map_map,List.filterMap_eq_map']
  rfl

lemma parse_of_straight {key : List Char} (h : Straight key) : parse (encodeUtf8 key) =
    ((fields (· == '/') key).map String.ofList).map .ofText := by
  rw [← ofField?_of_straight h,parse,fields_utf8]
  cases hfields : fields (· == '/') key with
  | nil => exact absurd hfields (fields_ne_nil _ _)
  | cons first rest =>
    obtain ⟨hnil,hdot,hdots⟩ := h first (by simp [hfields])
    have hfirst := ofField?_encodeUtf8 hnil hdot hdots
    have hne : ∀ other, first ≠ other → encodeUtf8 first ≠ encodeUtf8 other :=
      fun other => encodeUtf8_injective.ne
    rw [List.map_cons]
    dsimp only
    rw [Component.ofFirstField?_eq_ofField? (hne [] hnil) (hne ['.'] hdot),hfirst,
      List.filterMap_cons_some hfirst]
    rfl

lemma follow_names (start names : List String) :
    follow start (names.map .ofText) = some (start ++ names) := by
  induction names generalizing start with
  | nil => simp [follow]
  | cons name names ih =>
    rw [List.map_cons,Component.ofText,follow,ofUtf8?_utf8,Option.bind_some,ih,List.append_assoc,
      List.singleton_append]

lemma intercalate_fields (cs : List Char) : ['/'].intercalate (fields (· == '/') cs) = cs := by
  rw [fields_eq_splitOn,List.intercalate_splitOn]

lemma intercalate_segments (key : String) :
    "/".intercalate ((fields (· == '/') key.toList).map String.ofList) = key := by
  have hsegments : String.toList ∘ String.ofList = id := by
    funext segment
    exact String.toList_ofList
  apply String.toList_inj.1
  rw [String.toList_intercalate,List.map_map,hsegments,List.map_id]
  exact intercalate_fields key.toList

lemma exists_intercalate_append (first : List Char) (rest : List (List Char)) (last : List Char) :
    ∃ before, ['/'].intercalate (first :: rest ++ [last]) = before ++ '/' :: last := by
  induction rest generalizing first with
  | nil => exact ⟨first,by simp⟩
  | cons second rest ih =>
    obtain ⟨before,hbefore⟩ := ih second
    refine ⟨first ++ '/' :: before,?_⟩
    rw [List.cons_append,List.cons_append,List.intercalate_cons_cons,← List.cons_append,hbefore]
    simp

/-- The last field stands at the end, after a slash if there are others. -/
lemma eq_of_fields {cs : List Char} {front : List (List Char)} {last : List Char}
    (h : fields (· == '/') cs = front ++ [last]) :
    cs = last ∨ ∃ before, cs = before ++ '/' :: last := by
  rw [← intercalate_fields cs,h]
  cases front with
  | nil => exact .inl (by simp)
  | cons first rest => exact .inr (exists_intercalate_append first rest last)

/-- A link from the root that is written like a key names that key. -/
theorem resolve?_slash (root document : Path) {key : String} (h : Straight key.toList) :
    resolve? root document ("/" ++ key) = some key := by
  have hlink : ("/" ++ key).toList = '/' :: key.toList := by simp
  have hscheme : hasScheme ('/' :: key.toList) = false := by simp [hasScheme,List.isPrefixOf]
  have hfollow : follow [] (parse (encodeUtf8 key.toList)) =
      some ((fields (· == '/') key.toList).map String.ofList) := by
    rw [parse_of_straight h,follow_names,List.nil_append]
  have hsegments : fields (· == '/') key.toList ≠ [] := fields_ne_nil _ _
  simp [resolve?,hlink,hscheme,linkStart?,hfollow,hsegments,intercalate_segments]

/-- A name of a path is one of its fields. -/
lemma field_of_mem_parse {bytes name : List UInt8} (h : .name name ∈ parse bytes) :
    name ∈ fields (· == slash) bytes ∧ name ≠ [] ∧ name ≠ [dot] ∧ name ≠ [dot,dot] := by
  unfold parse at h
  split at h
  · simp at h
  · rename_i first rest hfields
    rw [hfields]
    rcases List.mem_append.1 h with hfirst | hrest
    · obtain ⟨rfl,hfield⟩ := Component.field_of_ofFirstField? (Option.mem_toList.1 hfirst)
      exact ⟨List.mem_cons_self,hfield⟩
    · obtain ⟨field,hmem,hsome⟩ := List.mem_filterMap.1 hrest
      obtain ⟨rfl,hfield⟩ := Component.field_of_ofField? hsome
      exact ⟨List.mem_cons_of_mem first hmem,hfield⟩

lemma slash_not_mem_field {bytes field : List UInt8} (h : field ∈ fields (· == slash) bytes) :
    slash ∉ field := by
  intro hslash
  simpa using isSeparator_eq_false_of_mem_fields h slash hslash

lemma name_of_mem_components {path : Path} {name : List UInt8} (h : .name name ∈ path.components) :
    name ≠ [] ∧ slash ∉ name := by
  obtain ⟨hmem,hnil,-⟩ := field_of_mem_parse h
  exact ⟨hnil,slash_not_mem_field hmem⟩

/-- Only the leading slash of a path is written with a slash. -/
lemma slash_not_mem_render {path : Path} {component : Component} (h : component ∈ path.components)
    (hne : component ≠ .root) : slash ∉ component.render := by
  cases component with
  | root => exact absurd rfl hne
  | here => decide
  | up => decide
  | name bytes => exact (name_of_mem_components h).2

lemma render_ne_nil {path : Path} {component : Component} (h : component ∈ path.components) :
    component.render ≠ [] := by
  cases component with
  | name bytes => exact (name_of_mem_components h).1
  | _ => simp [Component.render]

lemma fields_intercalate {segments : List String} (hne : segments ≠ [])
    (hslash : ∀ segment ∈ segments, '/' ∉ segment.toList) :
    fields (· == '/') ("/".intercalate segments).toList = segments.map String.toList := by
  rw [fields_eq_splitOn,String.toList_intercalate]
  exact List.splitOn_intercalate '/' (List.forall_mem_map.2 hslash) (by simpa using hne)

lemma fields_joinBytes {components : List Component} (hne : components ≠ [])
    (hslash : ∀ component ∈ components, slash ∉ component.render) :
    fields (· == slash) (joinBytes components) = components.map Component.render := by
  rw [fields_eq_splitOn,joinBytes]
  exact List.splitOn_intercalate slash (List.forall_mem_map.2 hslash) (by simpa using hne)

lemma utf8_intercalate (texts : List String) :
    utf8 ("/".intercalate texts) = [slash].intercalate (texts.map utf8) := by
  rw [utf8,String.toList_intercalate]
  induction texts with
  | nil => rfl
  | cons text rest ih =>
    cases rest with
    | nil => simp [utf8]
    | cons next rest =>
      simp only [List.map_cons,List.intercalate_cons_cons,encodeUtf8_append] at ih ⊢
      rw [ih]
      rfl

/-- A key is written like the components that it is made of. -/
lemma utf8_of_joinKey? {components : List Component} {key : String}
    (h : joinKey? components = some key) : utf8 key = joinBytes components := by
  obtain ⟨texts,htexts,rfl⟩ := Option.map_eq_some_iff.1 h
  rw [utf8_intercalate,joinBytes,Component.mapM_text?_eq_some_iff.1 htexts]

/-- A path has a key just if it is below the root by components that are texts. -/
lemma key?_eq_some_iff {root path : Path} {key : String} : key? root path = some key ↔
    ∃ rest, path.components = root.components ++ rest ∧ joinKey? rest = some key := by
  rw [key?,Option.bind_eq_some_iff]
  simp only [below?,dropStart?_eq_some_iff]

/-- The leading slash of a path is above every root that is written out. -/
lemma root_not_mem_below {root path : Path} {rest : List Component}
    (h : path.components = root.components ++ rest)
    (hroot : root.bytes ≠ [] ∨ .root ∉ path.components) : .root ∉ rest := by
  intro hmem
  rcases hroot with hbytes | hrelative
  · have htail : .root ∈ path.components.tail := by
      rw [h,List.tail_append_of_ne_nil (components_ne_nil hbytes)]
      exact List.mem_append_right _ hmem
    rcases up_or_name_of_mem_tail htail with hup | ⟨name,hname⟩
    · cases hup
    · cases hname
  · exact hrelative (h ▸ List.mem_append_right _ hmem)

/-- The segments of a key are the components below the root. -/
lemma fields_key {root path : Path} {key : String} (h : key? root path = some key) (hne : key ≠ "")
    (hroot : root.bytes ≠ [] ∨ .root ∉ path.components) : ∃ rest, rest ≠ [] ∧
    path.components = root.components ++ rest ∧ .root ∉ rest ∧
    (fields (· == '/') key.toList).map encodeUtf8 = rest.map Component.render := by
  obtain ⟨rest,hcomponents,hkey⟩ := key?_eq_some_iff.1 h
  have hrest : rest ≠ [] := by
    rintro rfl
    exact hne (Option.some.inj hkey).symm
  have hfree := root_not_mem_below hcomponents hroot
  refine ⟨rest,hrest,hcomponents,hfree,?_⟩
  rw [← fields_utf8,← fields_joinBytes hrest,← utf8_of_joinKey? hkey]
  · rfl
  · intro component hmem
    exact slash_not_mem_render (hcomponents ▸ List.mem_append_right _ hmem)
      fun heq => hfree (heq ▸ hmem)

/-- A key is straight unless it has dots as segments or a leading slash. -/
lemma straight_key {root path : Path} {key : String} (h : key? root path = some key) (hne : key ≠ "")
    (hroot : root.bytes ≠ [] ∨ .root ∉ path.components)
    (hdots : ∀ segment ∈ fields (· == '/') key.toList, segment ≠ ['.'] ∧ segment ≠ ['.','.']) :
    Straight key.toList := by
  obtain ⟨rest,-,hcomponents,-,hfields⟩ := fields_key h hne hroot
  intro segment hsegment
  refine ⟨?_,hdots segment hsegment⟩
  rintro rfl
  have hmem : [] ∈ rest.map Component.render := hfields ▸ List.mem_map_of_mem hsegment
  obtain ⟨component,hcomponent,hnil⟩ := List.mem_map.1 hmem
  exact render_ne_nil (hcomponents ▸ List.mem_append_right _ hcomponent) hnil

/-- The last segment of a key is the name of the file. -/
lemma getLast?_fields_key {root path : Path} {key : String} (h : key? root path = some key)
    (hne : key ≠ "") (hroot : root.bytes ≠ [] ∨ .root ∉ path.components) {name : List UInt8}
    (hname : fileName? path.components = some name) :
    (fields (· == '/') key.toList).getLast?.map encodeUtf8 = some name := by
  obtain ⟨rest,hrest,hcomponents,-,hfields⟩ := fields_key h hne hroot
  have hlast : path.components.getLast? = rest.getLast? := by
    rw [hcomponents,List.getLast?_append_of_ne_nil _ hrest]
  unfold fileName? at hname
  rw [hlast] at hname
  rw [← List.getLast?_map,hfields,List.getLast?_map]
  split at hname
  · rename_i bytes hbytes
    cases hname
    rw [hbytes]
    rfl
  · cases hname

lemma splitExtension_markdown {stem : List UInt8} (h : stem ≠ []) :
    splitExtension (stem ++ utf8 ".md") = (stem,some (utf8 "md")) := by
  have hback : (stem ++ utf8 ".md").reverse = 0x64 :: 0x6D :: dot :: stem.reverse := by
    rw [List.reverse_append]
    rfl
  unfold splitExtension
  rw [hback]
  cases hstem : stem.reverse with
  | nil => exact absurd (List.reverse_eq_nil_iff.1 hstem) h
  | cons last front =>
    rw [← List.reverse_reverse stem,hstem]
    rfl

lemma splitExtension_of_no_dot {name : List UInt8} (h : dot ∉ name) :
    splitExtension name = (name,none) := by
  have hdrop : name.reverse.dropWhile (· != dot) = [] := by
    rw [List.dropWhile_eq_nil_iff]
    intro b hb
    have hne : b ≠ dot := fun heq => h (heq ▸ List.mem_reverse.1 hb)
    simpa using hne
  simp only [splitExtension,hdrop]

/-- A stem has no other bytes than the name. -/
lemma subset_of_splitExtension (name : List UInt8) : (splitExtension name).1 ⊆ name := by
  intro b hb
  simp only [splitExtension] at hb
  split at hb
  · exact hb
  · exact hb
  · rename_i stem _ hdrop
    have hback : b ∈ name.reverse.dropWhile (· != dot) := by
      rw [hdrop]
      exact List.mem_cons_of_mem _ (List.mem_reverse.1 hb)
    exact List.mem_reverse.1 ((List.dropWhile_suffix _).subset hback)

lemma fileStem?_eq_some_iff {path : Path} {stem : String} : path.fileStem? = some stem ↔
    ∃ name, fileName? path.components = some name ∧ (splitExtension name).1 = utf8 stem := by
  rw [fileStem?,Option.bind_eq_some_iff]
  simp only [ofUtf8?_eq_some_iff]

lemma mem_of_fileName? {components : List Component} {name : List UInt8}
    (h : fileName? components = some name) : .name name ∈ components := by
  unfold fileName? at h
  split at h
  · cases h
    exact List.mem_of_getLast? ‹_›
  · cases h

lemma slash_not_mem_of_fileStem? {path : Path} {stem : String} (h : path.fileStem? = some stem) :
    '/' ∉ stem.toList := by
  obtain ⟨name,hname,hstem⟩ := fileStem?_eq_some_iff.1 h
  have hslash := (name_of_mem_components (mem_of_fileName? hname)).2
  intro hmem
  refine hslash (subset_of_splitExtension name ?_)
  rw [hstem]
  exact (slash_mem_utf8_iff _).2 hmem

/-- Only the last segment of a key can give it an extension. -/
lemma extension?_of_straight {key : String} (h : Straight key.toList) {last : List Char}
    (hlast : (fields (· == '/') key.toList).getLast? = some last) :
    extension? key = (splitExtension (encodeUtf8 last)).2 := by
  have hname : fileName? (parse (encodeUtf8 key.toList)) = some (encodeUtf8 last) := by
    rw [fileName?,parse_of_straight h,List.getLast?_map,List.getLast?_map,hlast]
    exact congrArg (some ∘ encodeUtf8) String.toList_ofList
  rw [extension?,components,ofText,utf8,hname,Option.bind_some]

/-- After the first component, a path has what its fields are read as. -/
lemma ofField?_render {path : Path} {component : Component}
    (h : component ∈ path.components.tail) :
    Component.ofField? component.render = some component := by
  rcases up_or_name_of_mem_tail h with rfl | ⟨name,rfl⟩
  · rfl
  · obtain ⟨-,hnil,hdot,hdots⟩ := field_of_mem_parse (List.mem_of_mem_tail h)
    exact Component.ofField?_eq_name hnil hdot hdots

lemma ofFirstField?_render {path : Path} {component : Component} (h : component ∈ path.components)
    (hne : component ≠ .root) (isOnly : Bool) :
    Component.ofFirstField? component.render isOnly = some component := by
  cases component with
  | root => exact absurd rfl hne
  | here => rfl
  | up => rfl
  | name bytes =>
    obtain ⟨-,hnil,hdot,hdots⟩ := field_of_mem_parse h
    rw [Component.render,Component.ofFirstField?_eq_ofField? hnil hdot,
      Component.ofField?_eq_name hnil hdot hdots]

/-- Components with slashes between them are a way to write these components. -/
lemma parse_joinBytes {path : Path} {rest : List Component} (h : rest <:+ path.components) :
    parse (joinBytes rest) = rest := by
  cases rest with
  | nil => rfl
  | cons first rest =>
    have htail : rest <:+ path.components.tail := by
      obtain ⟨front,hfront⟩ := h
      rw [← hfront]
      cases front with
      | nil => exact List.suffix_rfl
      | cons c front => exact (List.suffix_cons first rest).trans (List.suffix_append front _)
    have hfields : (rest.map Component.render).filterMap Component.ofField? = rest := by
      rw [List.filterMap_map]
      exact (List.filterMap_congr fun c hc => ofField?_render (htail.subset hc)).trans
        List.filterMap_some
    have hslash : ∀ c ∈ rest, slash ∉ c.render := by
      intro c hc
      apply slash_not_mem_render (List.mem_of_mem_tail (htail.subset hc))
      rintro rfl
      rcases up_or_name_of_mem_tail (htail.subset hc) with hup | ⟨name,hname⟩
      · cases hup
      · cases hname
    by_cases hfirst : first = .root
    · -- The leading slash makes for two, and the empty field between them leaves no trace.
      subst hfirst
      cases rest with
      | nil => rfl
      | cons second rest =>
        have hbytes : joinBytes (.root :: second :: rest) =
            [slash] ++ slash :: joinBytes (second :: rest) := by
          simp [joinBytes,Component.render]
        rw [hbytes,parse_append_slash,fields_joinBytes (by simp) hslash,hfields]
        rfl
    · have hmem : first ∈ path.components := h.subset List.mem_cons_self
      have hall : ∀ c ∈ first :: rest, slash ∉ c.render :=
        List.forall_mem_cons.2 ⟨slash_not_mem_render hmem hfirst,hslash⟩
      rw [parse,fields_joinBytes (by simp) hall,List.map_cons]
      dsimp only
      rw [ofFirstField?_render hmem hfirst,hfields]
      rfl

/-- No two paths below a root have the same key. -/
theorem components_eq_of_key? {root p q : Path} {key : String} (hp : key? root p = some key)
    (hq : key? root q = some key) : p.components = q.components := by
  obtain ⟨rest,hrest,hkey⟩ := key?_eq_some_iff.1 hp
  obtain ⟨other,hother,hsame⟩ := key?_eq_some_iff.1 hq
  have hread : parse (joinBytes rest) = rest := parse_joinBytes (hrest ▸ List.suffix_append _ _)
  have hread' : parse (joinBytes other) = other := parse_joinBytes (hother ▸ List.suffix_append _ _)
  rw [hrest,hother,← hread,← hread',← utf8_of_joinKey? hkey,← utf8_of_joinKey? hsame]

end Path

end NoteIndex
