import NoteIndex.Proofs.Navigation.Duality
import NoteIndex.Proofs.Navigation.LinkSpelling
import NoteIndex.Proofs.Path.Resolve

/-! Missing documents: a link that leads to no document of its folder leads to the one that is created
under its key, whatever names and titles the new document has. -/
namespace NoteIndex

open Markup

namespace Folder

variable {folder : Folder} {created : Document}

@[simp] lemma key?_withDocument (path : Path) :
    (folder.withDocument created).key? path = folder.key? path := rfl

lemma mem_withDocument {document : Document}
    (h : document ∈ (folder.withDocument created).documentList) :
    document = created ∨ document ∈ folder.documentList := by
  simp only [documentList,List.mem_map,Prod.exists,exists_eq_right,
    Std.ExtTreeMap.mem_toList_iff_getElem?_eq_some] at h ⊢
  obtain ⟨place,hplace⟩ := h
  rw [documents_withDocument] at hplace
  split at hplace
  · cases hplace
    exact .inl rfl
  · exact .inr ⟨place,hplace⟩

/-- A document with a key of its own is the only one of that key. -/
lemma filter_key_withDocument {key : String} (hkey : folder.key? created.path = some key)
    (hmissing : ∀ document ∈ folder.documentList, folder.key? document.path ≠ some key) :
    (folder.withDocument created).documentList.filter (fun d => folder.key? d.path == some key) =
      [created] := by
  let entries := (folder.withDocument created).documents.toList
  have hnodup : entries.Nodup := by
    refine Std.ExtTreeMap.distinct_keys_toList.imp ?_
    rintro a _ hne rfl
    exact hne Std.ReflOrd.compare_self
  have hentries : entries.filter (fun entry => folder.key? entry.2.path == some key) =
      [(created.path.components,created)] := by
    apply List.perm_singleton.1
    refine (List.perm_ext_iff_of_nodup (hnodup.filter _) (List.nodup_singleton _)).2 ?_
    rintro ⟨place,document⟩
    simp only [entries,List.mem_filter,List.mem_singleton,beq_iff_eq,
      Std.ExtTreeMap.mem_toList_iff_getElem?_eq_some,documents_withDocument,Prod.mk.injEq]
    constructor
    · rintro ⟨hplace,hfound⟩
      split at hplace
      · rename_i heq
        cases hplace
        exact ⟨heq.symm,rfl⟩
      · refine absurd hfound (hmissing document ?_)
        exact List.mem_map.2
          ⟨(place,document),Std.ExtTreeMap.mem_toList_iff_getElem?_eq_some.2 hplace,rfl⟩
    · rintro ⟨rfl,rfl⟩
      exact ⟨if_pos rfl,hkey⟩
  rw [documentList,List.filter_map]
  exact congrArg (List.map Prod.snd) hentries

end Folder

namespace Navigation

lemma mem_names_iff {folder : Folder} {name key : String} : (name,key) ∈ names folder ↔
    ∃ document ∈ folder.documentList, folder.key? document.path = some key ∧
      ((∃ stem, document.path.fileStem? = some stem ∧ name = slug stem) ∨
        ∃ title, document.title? = some title ∧ name = title.slug) := by
  rw [names_eq,List.mem_append,mem_stems_iff]
  refine (or_congr_right (mem_keyed_iff Document.title? Heading.slug)).trans ?_
  simp only [← exists_or,← and_or_left]

lemma mem_names_of_keyOfName? {folder : Folder} {name key : String}
    (h : keyOfName? folder name = some key) : (slug name,key) ∈ names folder := by
  obtain ⟨⟨found,_⟩,hfind,rfl⟩ := Option.map_eq_some_iff.1 h
  have hname : found = slug name := by simpa using List.find?_some hfind
  exact hname ▸ List.mem_of_find?_eq_some hfind

/-- The names of a document lead to it if they have led nowhere before. -/
lemma keyOfName?_withDocument {folder : Folder} {created : Document} {name key found : String}
    (hkey : folder.key? created.path = some key) (hnone : keyOfName? folder name = none)
    (h : keyOfName? (folder.withDocument created) name = some found) : found = key := by
  obtain ⟨document,hdocument,hfound,hname⟩ := mem_names_iff.1 (mem_names_of_keyOfName? h)
  rw [Folder.key?_withDocument] at hfound
  rcases Folder.mem_withDocument hdocument with rfl | hold
  · exact Option.some.inj (hfound.symm.trans hkey)
  · -- Another document with that name would have been found in the folder before.
    have hmem : (slug name,found) ∈ names folder := mem_names_iff.2 ⟨document,hold,hfound,hname⟩
    rw [keyOfName?,Option.map_eq_none_iff] at hnone
    simpa using List.find?_eq_none.1 hnone _ hmem

section Missing

variable {folder : Folder} {source : Document} {key : String}
  (hsource : source ∈ folder.documentList)
  (hmissing : ∀ document ∈ folder.documentList, folder.key? document.path ≠ some key)

include hsource hmissing

/-- A wiki link to a missing document is written as a path, or as a name that no document has. -/
lemma wikiKey?_missing {target : Option String} (h : wikiKey? folder source target = some key) :
    ∃ text, target = some text ∧
      (((text.toList.contains '/' || hasMarkdownSuffix text) = true ∧
        (Path.resolve? folder.root source.path text).map withMarkdownSuffix = some key) ∨
      ((text.toList.contains '/' || hasMarkdownSuffix text) = false ∧ keyOfName? folder text = none ∧
        Path.resolve? folder.root source.path (text ++ ".md") = some key)) := by
  cases target with
  | none => exact absurd h (hmissing source hsource)
  | some text =>
    refine ⟨text,rfl,?_⟩
    simp only [wikiKey?] at h
    split at h
    · exact .inl ⟨‹_›,h⟩
    · rename_i hname
      split at h
      · rename_i found hfound
        cases h
        obtain ⟨document,hdocument,hkey,-⟩ := mem_names_iff.1 (mem_names_of_keyOfName? hfound)
        exact absurd hkey (hmissing document hdocument)
      · exact .inr ⟨Bool.eq_false_iff.2 hname,‹_›,h⟩

/-- The new document takes over the name, if the link is one. -/
lemma wikiKey?_withDocument {created : Document} (hkey : folder.key? created.path = some key)
    {target : Option String} (h : wikiKey? folder source target = some key) :
    wikiKey? (folder.withDocument created) source target = some key := by
  obtain ⟨text,rfl,⟨hpath,hresolve⟩ | ⟨hname,hnone,hresolve⟩⟩ := wikiKey?_missing hsource hmissing h
  · simp only [wikiKey?,hpath,if_true]
    exact hresolve
  · simp only [wikiKey?,hname,Bool.false_eq_true,if_false]
    cases hfound : keyOfName? (folder.withDocument created) text with
    | none => exact hresolve
    | some found => exact congrArg some (keyOfName?_withDocument hkey hnone hfound)

lemma target?_withDocument {created : Document} (hkey : folder.key? created.path = some key)
    {element : Element} {anchor : Option String}
    (h : target? folder source element = some (.document key anchor)) :
    target? (folder.withDocument created) source element = some (.document key anchor) := by
  cases element with
  | wikiLink link =>
    obtain ⟨found,hfound,heq⟩ := Option.map_eq_some_iff.1 h
    cases heq
    exact Option.map_eq_some_iff.2 ⟨_,wikiKey?_withDocument hsource hmissing hkey hfound,rfl⟩
  | _ => exact h

variable (hdots : Path.Undotted folder.root source.path)

include hdots

/-- The key of a missing document is straight, so that it can be the key of a path. -/
lemma straight_of_missing {element : Element} {anchor : Option String}
    (h : target? folder source element = some (.document key anchor)) :
    Path.Straight key.toList := by
  cases element with
  | heading heading =>
    obtain ⟨found,hfound,heq⟩ := Option.map_eq_some_iff.1 h
    cases heq
    exact absurd hfound (hmissing source hsource)
  | definition definition => cases h
  | labelUse use => cases h
  | wikiLink link =>
    obtain ⟨found,hfound,heq⟩ := Option.map_eq_some_iff.1 h
    cases heq
    obtain ⟨text,-,⟨-,hresolve⟩ | ⟨-,-,hresolve⟩⟩ := wikiKey?_missing hsource hmissing hfound
    · obtain ⟨place,hplace,rfl⟩ := Option.map_eq_some_iff.1 hresolve
      exact Path.straight_ite_markdown (Path.straight_of_resolve? hdots hplace) _
    · exact Path.straight_of_resolve? hdots hresolve
  | inlineLink link =>
    obtain ⟨found,hfound,heq⟩ := Option.map_eq_some_iff.1 h
    cases heq
    cases hurl : link.url with
    | none =>
      rw [hurl] at hfound
      exact absurd hfound (hmissing source hsource)
    | some url =>
      rw [hurl] at hfound
      obtain ⟨place,hplace,rfl⟩ := Option.map_eq_some_iff.1 hfound
      exact Path.straight_ite_markdown (Path.straight_of_resolve? hdots hplace) _

end Missing

section Declarations

lemma distinct_eq_singleton {site : Site} {all : List Site} (hmem : site ∈ all)
    (h : ∀ other ∈ all, other = site) : distinct all = [site] := by
  cases all with
  | nil => simp at hmem
  | cons first rest =>
    obtain rfl := h first List.mem_cons_self
    have hnone : (distinct rest).filter (fun other => !first.samePlace other) = [] := by
      rw [List.filter_eq_nil_iff]
      intro other hother
      rw [h other (List.mem_cons_of_mem _ (mem_of_mem_distinct hother))]
      simp [Site.samePlace]
    rw [distinct,hnone]

lemma declares_document_iff {folder : Folder} {document : Document} {e : Element} {key : String} :
    declares folder document e (.document key none) = true ↔
      e.isTitle = true ∧ folder.key? document.path = some key := by
  cases e <;> simp [declares,Element.isTitle]

lemma asTitle?_eq_some_iff {e : Element} {title : Heading} :
    e.asTitle? = some title ↔ e = .heading title ∧ e.isTitle = true := by
  cases e <;> simp [Element.asTitle?,Element.isTitle,and_comm]

variable {folder : Folder} {document created : Document} {key : String}
  (honly : folder.documentList.filter (fun d => folder.key? d.path == some key) = [created])

include honly

lemma mem_sites_of_only (site : Site) :
    site ∈ sites folder.documentList (fun d e => declares folder d e (.document key none)) ↔
      site.document = created ∧ site.element ∈ created.elements ∧ site.element.isTitle = true := by
  have hdocument : site.document = created ↔
      site.document ∈ folder.documentList ∧ folder.key? site.document.path = some key := by
    have hfilter : site.document ∈ folder.documentList.filter
        (fun d => folder.key? d.path == some key) ↔ site.document = created := by
      rw [honly,List.mem_singleton]
    rw [← hfilter,List.mem_filter,beq_iff_eq]
  rw [mem_sites_iff,declares_document_iff]
  constructor
  · rintro ⟨hmem,helement,htitle,hkey⟩
    have heq := hdocument.2 ⟨hmem,hkey⟩
    exact ⟨heq,heq ▸ helement,htitle⟩
  · rintro ⟨heq,helement,htitle⟩
    obtain ⟨hmem,hkey⟩ := hdocument.1 heq
    exact ⟨hmem,heq ▸ helement,htitle,hkey⟩

/-- What declares a document as a whole is its title, if no other document has its key. -/
lemma declarations_of_only : declarations folder document (.document key none) =
    created.title?.toList.map fun title => ⟨created,.heading title⟩ := by
  rw [declarations,scope]
  cases htitle : created.title? with
  | none =>
    have hnone : sites folder.documentList
        (fun d e => declares folder d e (.document key none)) = [] := by
      apply List.eq_nil_iff_forall_not_mem.2
      intro site hsite
      obtain ⟨-,helement,hsite⟩ := (mem_sites_of_only honly site).1 hsite
      obtain ⟨heading,hheading,-⟩ := (isTitle_iff _).1 hsite
      have hsome := asTitle?_eq_some_iff.2 ⟨hheading,hsite⟩
      rw [List.findSome?_eq_none_iff.1 htitle _ helement] at hsome
      cases hsome
    rw [hnone]
    rfl
  | some title =>
    obtain ⟨e,he,hsome⟩ := List.exists_of_findSome?_eq_some htitle
    obtain ⟨rfl,hisTitle⟩ := asTitle?_eq_some_iff.1 hsome
    apply distinct_eq_singleton ((mem_sites_of_only honly _).2 ⟨rfl,he,hisTitle⟩)
    rintro ⟨d,e⟩ hsite
    obtain ⟨rfl,helement,hsite⟩ := (mem_sites_of_only honly ⟨d,e⟩).1 hsite
    obtain ⟨heading,rfl,hheading⟩ := (isTitle_iff _).1 hsite
    rw [d.elements_eq] at he helement
    rw [title_unique helement he hheading hisTitle]

/-- The definition of a document is its title, or the document if it has none. -/
lemma findDefinitions_of_only {element : Element}
    (htarget : target? folder document element = some (.document key none)) :
    findDefinitions folder document element =
      [created.title?.elim (.document created) fun title => .element ⟨created,.heading title⟩] := by
  unfold findDefinitions
  rw [htarget]
  dsimp only
  rw [declarations_of_only honly]
  cases created.title? with
  | none => exact congrArg (List.map Origin.document) honly
  | some title => rfl

end Declarations

/-- A link that leads to no document of its folder leads to the document that is created under the
same key: the target stays as it is, though the new document adds names to the folder, and without an
anchor its only definition is the title of the new document, or that document if it has no title. -/
theorem created_document_defines_links {folder : Folder} {source created : Document}
    {element : Element} {key : String} {anchor : Option String}
    (hsource : source ∈ folder.documentList) (hdots : Path.Undotted folder.root source.path)
    (htarget : target? folder source element = some (.document key anchor))
    (hmissing : ∀ document ∈ folder.documentList, folder.key? document.path ≠ some key)
    (hpath : created.path = folder.root.join key) :
    target? (folder.withDocument created) source element = some (.document key anchor) ∧
    (anchor = none → findDefinitions (folder.withDocument created) source element =
      [created.title?.elim (.document created) fun title => .element ⟨created,.heading title⟩]) := by
  have hkey : folder.key? created.path = some key := by
    rw [hpath]
    exact Path.key?_join folder.root (straight_of_missing hsource hmissing hdots htarget)
  have hkept := target?_withDocument hsource hmissing hkey htarget
  refine ⟨hkept,?_⟩
  rintro rfl
  exact findDefinitions_of_only (Folder.filter_key_withDocument hkey hmissing) hkept

theorem created_document_defines_links_named :
    ∃ (folder : Folder) (source created : Document) (element : Element) (title : Heading),
    source ∈ folder.documentList ∧ element ∈ source.elements ∧
    Path.Undotted folder.root source.path ∧
    target? folder source element = some (.document "d/B c.md" none) ∧
    (∀ document ∈ folder.documentList, folder.key? document.path ≠ some "d/B c.md") ∧
    created.path = folder.root.join "d/B c.md" ∧ created.title? = some title ∧
    findDefinitions folder source element = [] ∧
    target? (folder.withDocument created) source element = some (.document "d/B c.md" none) ∧
    findDefinitions (folder.withDocument created) source element =
      [.element ⟨created,.heading title⟩] := by
  let source := Document.ofText "/n/d/a.md" none "[[B c]]"
  let folder := ((Folder.empty "n" "/n").withDocument source).withDocument
    (.ofText "/n/b.md" none "# B")
  let created := Document.ofText "/n/d/B c.md" none "# B"
  let element : Element := .wikiLink ⟨some "B c",none,⟨0,0⟩,⟨0,7⟩⟩
  have hsource : source ∈ folder.documentList := by decide +kernel
  have hdots : Path.Undotted folder.root source.path := by decide +kernel
  have htarget : target? folder source element = some (.document "d/B c.md" none) := by decide +kernel
  have hmissing : ∀ document ∈ folder.documentList,
      folder.key? document.path ≠ some "d/B c.md" := by
    decide +kernel
  have hpath : created.path = folder.root.join "d/B c.md" := by decide +kernel
  have htitle : created.title? = some ⟨1,"B","b",true,⟨0,0⟩,⟨0,3⟩⟩ := by decide +kernel
  obtain ⟨hkept,hdefines⟩ :=
    created_document_defines_links hsource hdots htarget hmissing hpath
  refine ⟨folder,source,created,element,_,hsource,by decide +kernel,hdots,htarget,hmissing,hpath,htitle,
    by decide +kernel,hkept,?_⟩
  rw [hdefines rfl,htitle]
  rfl

end Navigation

end NoteIndex
