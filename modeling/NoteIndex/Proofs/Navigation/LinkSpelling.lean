import NoteIndex.Navigation.Target
import NoteIndex.Proofs.Path.Key
import NoteIndex.Proofs.Text.Lowercase

/-! Spellings of a link: from the root with or without `.md`, as a wiki link or an inline link, or as
the name of a file that no other document has. All of them have the same target. -/
namespace NoteIndex.Navigation

open Markup Text

lemma hasMarkdownSuffix_iff (text : String) :
    hasMarkdownSuffix text = true ↔ ".md".toList <:+ text.toList.map Char.toLower := by
  have hlower : (lowercaseString text).toList = lowercase text.toList := String.toList_ofList
  rw [hasMarkdownSuffix,List.isPrefixOf_iff_prefix,List.reverse_prefix,hlower,suffix_lowercase_iff]

lemma hasMarkdownSuffix_append (front : String) : hasMarkdownSuffix (front ++ ".md") = true := by
  rw [hasMarkdownSuffix_iff,String.toList_append,List.map_append]
  exact List.suffix_append _ _

/-- Only the last segment of a key can end with `.md`. -/
lemma hasMarkdownSuffix_of_last {key : String} {front : List (List Char)} {last : List Char}
    (hfields : fields (· == '/') key.toList = front ++ [last]) (h : hasMarkdownSuffix key = true) :
    ".md".toList <:+ last.map Char.toLower := by
  rw [hasMarkdownSuffix_iff] at h
  rcases Path.eq_of_fields hfields with hkey | ⟨before,hkey⟩
  · rwa [hkey] at h
  · rw [hkey,List.map_append,List.map_cons] at h
    have hslash : '/'.toLower ∉ ".md".toList := by decide
    rcases List.suffix_or_suffix_of_suffix h (List.suffix_append _ _) with hshort | hlong
    · rcases List.suffix_cons_iff.1 hshort with heq | hlast
      · exact absurd (heq ▸ List.mem_cons_self) hslash
      · exact hlast
    · exact absurd (hlong.subset List.mem_cons_self) hslash

/-- The names that come from files. -/
def stems (folder : Folder) : List (String × String) :=
  (keyedDocuments folder).filterMap fun (key,document) =>
    document.path.fileStem?.map fun stem => (slug stem,key)

lemma names_eq (folder : Folder) : names folder = stems folder ++
    (keyedDocuments folder).filterMap fun (key,document) =>
      document.title?.map fun title => (title.slug,key) := rfl

/-- Names that documents get from some part of them, with the keys of the documents. -/
lemma mem_keyed_iff {α : Type} {folder : Folder} {name key : String} (part : Document → Option α)
    (nameOf : α → String) :
    (name,key) ∈ ((keyedDocuments folder).filterMap fun entry =>
      (part entry.2).map fun x => (nameOf x,entry.1)) ↔
    ∃ document ∈ folder.documentList, folder.key? document.path = some key ∧
      ∃ x, part document = some x ∧ name = nameOf x := by
  unfold keyedDocuments
  constructor
  · intro h
    obtain ⟨⟨key,document⟩,hkeyed,hname⟩ := List.mem_filterMap.1 h
    obtain ⟨found,hfound,hkey⟩ := List.mem_filterMap.1 hkeyed
    obtain ⟨key,hkey,hsame⟩ := Option.map_eq_some_iff.1 hkey
    obtain ⟨x,hx,hpair⟩ := Option.map_eq_some_iff.1 hname
    cases hsame
    cases hpair
    exact ⟨document,hfound,hkey,x,hx,rfl⟩
  · rintro ⟨document,hdocument,hkey,x,hx,rfl⟩
    refine List.mem_filterMap.2 ⟨(key,document),List.mem_filterMap.2 ⟨document,hdocument,?_⟩,?_⟩
    · rw [hkey,Option.map_some]
    · simp only [hx,Option.map_some]

lemma mem_stems_iff {folder : Folder} {name key : String} : (name,key) ∈ stems folder ↔
    ∃ document ∈ folder.documentList, folder.key? document.path = some key ∧
      ∃ stem, document.path.fileStem? = some stem ∧ name = slug stem :=
  mem_keyed_iff (fun document => document.path.fileStem?) slug

/-- A document of a folder whose key and whose file stem links can spell. -/
structure Spelled (folder : Folder) (document : Document) (front stem : String) : Prop where
  mem : document ∈ folder.documentList
  key : folder.key? document.path = some (front ++ ".md")
  fileStem : document.path.fileStem? = some stem
  dots : ∀ segment ∈ fields (· == '/') (front ++ ".md").toList,
    segment ≠ ['.'] ∧ segment ≠ ['.','.']
  stemDots : stem ≠ "." ∧ stem ≠ ".."
  suffix : ¬ ".md".toList <:+ stem.toList.map Char.toLower

namespace Spelled

variable {folder : Folder} {document : Document} {front stem : String}

section Root

variable (h : Spelled folder document front stem)
  (hroot : folder.root.bytes ≠ [] ∨ .root ∉ document.path.components)

include h hroot

lemma straight_key : Path.Straight (front ++ ".md").toList :=
  Path.straight_key h.key (by simp) hroot h.dots

/-- The last segment is the file stem, with `.md` in the key. -/
lemma exists_fields : stem.toList ≠ [] ∧ ∃ segments,
    fields (· == '/') front.toList = segments ++ [stem.toList] ∧
    fields (· == '/') (front ++ ".md").toList = segments ++ [stem.toList ++ ".md".toList] := by
  have hending : ∀ c ∈ ".md".toList, (c == '/') = false := by simp
  obtain ⟨segments,last,hfront,hkey⟩ := Path.fields_append front.toList hending
  rw [← String.toList_append] at hkey
  obtain ⟨name,hname,hstem⟩ := Path.fileStem?_eq_some_iff.1 h.fileStem
  have hlast := Path.getLast?_fields_key h.key (by simp) hroot hname
  rw [hkey,List.getLast?_concat,Option.map_some,Option.some_inj,encodeUtf8_append] at hlast
  subst hlast
  by_cases hnil : last = []
  · -- A file named `.md` is all stem.
    subst hnil
    have hall : (Path.splitExtension (utf8 ".md")).1 = utf8 ".md" := by decide
    obtain rfl : ".md" = stem := utf8_inj.1 (hall.symm.trans hstem)
    exact absurd (by decide) h.suffix
  · rw [← utf8,Path.splitExtension_markdown (encodeUtf8_injective.ne hnil)] at hstem
    obtain rfl : last = stem.toList := encodeUtf8_injective hstem
    exact ⟨hnil,segments,hfront,hkey⟩

lemma straight_front : Path.Straight front.toList := by
  obtain ⟨hnil,segments,hfront,hkey⟩ := h.exists_fields hroot
  have hstraight := h.straight_key hroot
  unfold Path.Straight at hstraight ⊢
  rw [hkey] at hstraight
  rw [hfront]
  intro segment hsegment
  rcases List.mem_append.1 hsegment with hmem | hmem
  · exact hstraight segment (List.mem_append_left _ hmem)
  · rw [List.mem_singleton.1 hmem]
    refine ⟨hnil,?_,?_⟩
    · exact fun heq => h.stemDots.1 (String.toList_inj.1 heq)
    · exact fun heq => h.stemDots.2 (String.toList_inj.1 heq)

lemma withMarkdownSuffix_front : withMarkdownSuffix front = front ++ ".md" := by
  obtain ⟨-,segments,hfront,-⟩ := h.exists_fields hroot
  rw [withMarkdownSuffix,if_neg fun hsuffix => h.suffix (hasMarkdownSuffix_of_last hfront hsuffix)]

lemma withExtension_key : withExtension (front ++ ".md") = front ++ ".md" := by
  obtain ⟨hnil,segments,-,hkey⟩ := h.exists_fields hroot
  have hlast : (fields (· == '/') (front ++ ".md").toList).getLast? =
      some (stem.toList ++ ".md".toList) := by
    rw [hkey,List.getLast?_concat]
  have hbytes : utf8 stem ≠ [] := encodeUtf8_injective.ne hnil
  rw [withExtension,Path.extension?_of_straight (h.straight_key hroot) hlast,encodeUtf8_append,← utf8,
    ← utf8,Path.splitExtension_markdown hbytes]
  rfl

lemma withExtension_front (hdot : '.' ∉ stem.toList) : withExtension front = front ++ ".md" := by
  obtain ⟨-,segments,hfront,-⟩ := h.exists_fields hroot
  have hlast : (fields (· == '/') front.toList).getLast? = some stem.toList := by
    rw [hfront,List.getLast?_concat]
  rw [withExtension,Path.extension?_of_straight (h.straight_front hroot) hlast,
    Path.splitExtension_of_no_dot fun hmem => hdot ((Path.dot_mem_utf8_iff _).1 hmem)]
  rfl

end Root

/-- The name of a file leads to its document, if no other document has a file of that name. -/
lemma keyOfName?_stem (h : Spelled folder document front stem)
    (hunique : ∀ other ∈ folder.documentList, other ≠ document →
      ∀ name, other.path.fileStem? = some name → slug name ≠ slug stem) :
    keyOfName? folder stem = some (front ++ ".md") := by
  have hmem : (slug stem,front ++ ".md") ∈ stems folder :=
    mem_stems_iff.2 ⟨document,h.mem,h.key,stem,h.fileStem,rfl⟩
  have hsome : ((stems folder).find? (·.1 == slug stem)).isSome = true :=
    List.find?_isSome.2 ⟨_,hmem,by simp⟩
  obtain ⟨⟨name,key⟩,hfind⟩ := Option.isSome_iff_exists.1 hsome
  have hname : name = slug stem := by simpa using List.find?_some hfind
  -- The document that is found has the same name, so it is no other one.
  have hkey : key = front ++ ".md" := by
    obtain ⟨found,hfound,hkey,other,hother,hslug⟩ := mem_stems_iff.1 (List.mem_of_find?_eq_some hfind)
    by_cases heq : found = document
    · rw [heq,h.key] at hkey
      exact (Option.some.inj hkey).symm
    · exact absurd (hslug.symm.trans hname) (hunique found hfound heq other hother)
  rw [keyOfName?,names_eq,List.find?_append,hfind,Option.some_or,Option.map_some,hkey]

/-- A wiki link to a file stem is looked up as a name. -/
lemma wikiKey?_stem (h : Spelled folder document front stem) (source : Document) {key : String}
    (hkey : keyOfName? folder stem = some key) :
    wikiKey? folder source (some stem) = some key := by
  have hslash := Path.slash_not_mem_of_fileStem? h.fileStem
  have hsuffix : hasMarkdownSuffix stem = false := by
    rw [Bool.eq_false_iff,ne_eq,hasMarkdownSuffix_iff]
    exact h.suffix
  simp [wikiKey?,hslash,hsuffix,hkey]

end Spelled

/-- A wiki link from the root is resolved as a path. -/
lemma wikiKey?_slash (folder : Folder) (source : Document) {key : String}
    (h : Path.Straight key.toList) :
    wikiKey? folder source (some ("/" ++ key)) = some (withMarkdownSuffix key) := by
  simp [wikiKey?,Path.resolve?_slash folder.root source.path h]

lemma inlineKey?_slash (folder : Folder) (source : Document) {key : String}
    (h : Path.Straight key.toList) :
    inlineKey? folder source (some ("/" ++ key)) = some (withExtension key) := by
  simp [inlineKey?,Path.resolve?_slash folder.root source.path h]

lemma target?_wikiLink {folder : Folder} {source : Document} {target : Option String} {key : String}
    (h : wikiKey? folder source target = some key) (range : Range) :
    target? folder source (.wikiLink ⟨target,none,range⟩) = some (.document key none) := by
  simp [target?,linkTarget?,h]

lemma target?_inlineLink {folder : Folder} {source : Document} {url : Option String} {key : String}
    (h : inlineKey? folder source url = some key) (text : String) (range : Range) :
    target? folder source (.inlineLink ⟨text,url,none,range⟩) = some (.document key none) := by
  simp [target?,linkTarget?,h]

/-- Whatever document holds the link, all spellings of it lead to the same document: its key or the
key without `.md` after a slash in a wiki link, the same in an inline link, unless a dot in the file
stem makes for another extension, and the file stem by itself, unless another one has its slug. For
the links from the root, that of the folder is written out or the path of the document is relative. -/
theorem target?_of_spelling {folder : Folder} {document : Document} {front stem : String}
    (h : Spelled folder document front stem) (source : Document) (text : String) (range : Range) :
    ((folder.root.bytes ≠ [] ∨ .root ∉ document.path.components) →
      target? folder source (.wikiLink ⟨some ("/" ++ (front ++ ".md")),none,range⟩) =
        some (.document (front ++ ".md") none) ∧
      target? folder source (.wikiLink ⟨some ("/" ++ front),none,range⟩) =
        some (.document (front ++ ".md") none) ∧
      target? folder source (.inlineLink ⟨text,some ("/" ++ (front ++ ".md")),none,range⟩) =
        some (.document (front ++ ".md") none) ∧
      ('.' ∉ stem.toList →
        target? folder source (.inlineLink ⟨text,some ("/" ++ front),none,range⟩) =
          some (.document (front ++ ".md") none))) ∧
    ((∀ other ∈ folder.documentList, other ≠ document →
      ∀ name, other.path.fileStem? = some name → slug name ≠ slug stem) →
      target? folder source (.wikiLink ⟨some stem,none,range⟩) =
        some (.document (front ++ ".md") none)) := by
  constructor
  · intro hroot
    have hkey := h.straight_key hroot
    have hfront := h.straight_front hroot
    have hsuffix : withMarkdownSuffix (front ++ ".md") = front ++ ".md" :=
      if_pos (hasMarkdownSuffix_append front)
    refine ⟨target?_wikiLink ?_ range,target?_wikiLink ?_ range,target?_inlineLink ?_ text range,
      fun hdot => target?_inlineLink ?_ text range⟩
    · rw [wikiKey?_slash folder source hkey,hsuffix]
    · rw [wikiKey?_slash folder source hfront,h.withMarkdownSuffix_front hroot]
    · rw [inlineKey?_slash folder source hkey,h.withExtension_key hroot]
    · rw [inlineKey?_slash folder source hfront,h.withExtension_front hroot hdot]
  · intro hunique
    exact target?_wikiLink (h.wikiKey?_stem source (h.keyOfName?_stem hunique)) range

theorem target?_of_spelling_nested : ∃ (folder : Folder) (document source : Document),
    Spelled folder document "d/A b" "A b" ∧ source ∈ folder.documentList ∧ source ≠ document ∧
    ∀ (text : String) (range : Range),
      target? folder source (.wikiLink ⟨some "/d/A b.md",none,range⟩) =
        some (.document "d/A b.md" none) ∧
      target? folder source (.wikiLink ⟨some "/d/A b",none,range⟩) =
        some (.document "d/A b.md" none) ∧
      target? folder source (.inlineLink ⟨text,some "/d/A b.md",none,range⟩) =
        some (.document "d/A b.md" none) ∧
      target? folder source (.inlineLink ⟨text,some "/d/A b",none,range⟩) =
        some (.document "d/A b.md" none) ∧
      target? folder source (.wikiLink ⟨some "A b",none,range⟩) =
        some (.document "d/A b.md" none) := by
  let document := Document.ofText "/n/d/A b.md" none "# C"
  let source := Document.ofText "/n/c.md" none "# A b"
  let folder := ((Folder.empty "n" "/n").withDocument document).withDocument source
  have hspelled : Spelled folder document "d/A b" "A b" :=
    ⟨by decide +kernel,by decide +kernel,by decide +kernel,by decide,by decide,by decide⟩
  have hunique : ∀ other ∈ folder.documentList, other ≠ document →
      ∀ name, other.path.fileStem? = some name → slug name ≠ slug "A b" := by
    decide +kernel
  refine ⟨folder,document,source,hspelled,by decide +kernel,by decide +kernel,?_⟩
  intro text range
  obtain ⟨hslash,hname⟩ := target?_of_spelling hspelled source text range
  obtain ⟨hkey,hfront,hinline,hplain⟩ := hslash (.inl (by decide))
  exact ⟨hkey,hfront,hinline,hplain (by decide),hname hunique⟩

/-- Below an empty root, the key of an absolute path starts with a slash, which links leave out. -/
theorem target?_of_absolute_key : ∃ (folder : Folder) (document : Document),
    Spelled folder document "//a" "a" ∧ ∀ range : Range,
      target? folder document (.wikiLink ⟨some ("/" ++ ("//a" ++ ".md")),none,range⟩) =
        some (.document "a.md" none) := by
  let document := Document.ofText "/a.md" none ""
  let folder := (Folder.empty "n" "").withDocument document
  have hspelled : Spelled folder document "//a" "a" :=
    ⟨by decide +kernel,by decide +kernel,by decide +kernel,by decide,by decide,by decide⟩
  exact ⟨folder,document,hspelled,fun range => rfl⟩

end NoteIndex.Navigation
