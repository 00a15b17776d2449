import NoteIndex.Proofs.Markup.LoneLink
import NoteIndex.Proofs.Navigation.LinkSpelling
import NoteIndex.Proofs.Text.Percent

/-! Escaped links: the key of a document, written with escapes after a slash, is read back as the
address of an inline link and leads to the document. -/
namespace NoteIndex.Navigation

open Markup Text

/-- Bytes that need no escape in an address: letters, digits, some punctuation and the slashes
between segments. -/
def isKeyByte (b : UInt8) : Bool :=
  (Char.ofNat b.toNat).isAlphanum || (encodeUtf8 "-_.~/".toList).contains b

section Written

variable {key written : String}
  (h : Escaped isKeyByte (encodeUtf8 key.toList) (encodeUtf8 written.toList))

include h

/-- A key is written in characters of ASCII that are marks of nothing. -/
lemma plain_of_escaped {c : Char} (hc : c ∈ written.toList) :
    isPlainChar c = true ∧ c ≠ '#' ∧ c ≠ '[' ∧ c ≠ ':' ∧ c ≠ '\x60' := by
  have hascii : ∀ n < 256, isKeyByte (UInt8.ofNat n) = true ∨ UInt8.ofNat n = 0x25 ∨
      (hexValue? (UInt8.ofNat n)).isSome = true → n < 0x80 := by
    decide +kernel
  have hplain : ∀ n < 0x80, isKeyByte (UInt8.ofNat n) = true ∨ UInt8.ofNat n = 0x25 ∨
      (hexValue? (UInt8.ofNat n)).isSome = true → isPlainChar (Char.ofNat n) = true ∧
      Char.ofNat n ≠ '#' ∧ Char.ofNat n ≠ '[' ∧ Char.ofNat n ≠ ':' ∧ Char.ofNat n ≠ '\x60' := by
    decide +kernel
  have hbytes : ∀ b ∈ encodeUtf8 written.toList, b.toNat < 0x80 := by
    intro b hb
    have hwritten := mem_of_escaped h hb
    rw [← UInt8.ofNat_toNat (x := b)] at hwritten
    exact hascii b.toNat b.toNat_lt hwritten
  obtain ⟨hsmall,hmem⟩ := mem_encodeUtf8_of_ascii hbytes hc
  have hfacts := hplain c.toNat hsmall (mem_of_escaped h hmem)
  rwa [Char.ofNat_toNat] at hfacts

lemma plain_slash : Plain ['x'] ('/' :: written.toList) where
  bracket := by simp [isBracketChar]
  plain := by
    intro c hc
    rcases List.mem_cons.1 hc with rfl | hc
    · decide
    · exact (plain_of_escaped h hc).1
  nonempty := List.cons_ne_nil _ _
  unmarked := by
    intro c hc
    simp only [List.cons_append,List.nil_append,List.mem_cons] at hc
    rcases hc with rfl | rfl | hc
    · decide
    · decide
    · exact (plain_of_escaped h hc).2

lemma decodeUrl_slash : decodeUrl ('/' :: written.toList) = ("/" ++ key).toList := by
  have hcons : ∀ text : List Char, encodeUtf8 ('/' :: text) = 0x2f :: encodeUtf8 text :=
    fun text => rfl
  have hlink : ("/" ++ key).toList = '/' :: key.toList := by simp
  rw [decodeUrl,hcons,percentDecode_cons_of_ne (by decide),percentDecode_of_escaped (by decide) h,
    ← hcons,decodeUtf8?_encodeUtf8,Option.getD_some,hlink]

end Written

/-- A document of a folder that counts as Markdown has a key with an extension. -/
lemma withExtension_of_isMarkdown {folder : Folder} {path : Path} {key : String}
    (hkey : folder.key? path = some key) (hne : key ≠ "")
    (hroot : folder.root.bytes ≠ [] ∨ .root ∉ path.components)
    (hstraight : Path.Straight key.toList) (hmarkdown : folder.isMarkdown path = true) :
    withExtension key = key := by
  have hsome : path.extension?.isSome = true := by
    cases hextension : path.extension? with
    | none => simp [Folder.isMarkdown,hextension] at hmarkdown
    | some extension => rfl
  obtain ⟨extension,hextension⟩ := Option.isSome_iff_exists.1 hsome
  obtain ⟨name,hname,hsplit⟩ := Option.bind_eq_some_iff.1 hextension
  obtain ⟨last,hlast,rfl⟩ := Option.map_eq_some_iff.1 (Path.getLast?_fields_key hkey hne hroot hname)
  rw [withExtension,Path.extension?_of_straight hstraight hlast,hsplit]
  rfl

/-- Whatever names a key has, an inline link to it from the root, with all bytes escaped but letters,
digits, some punctuation and slashes, is all that is parsed, and it leads to the document of that key
in every document of the folder. The document is not the root itself, and the root is written out or
the path of the document is relative. -/
theorem escaped_link_reaches_document {folder : Folder} {document : Document} {key written : String}
    (hkey : folder.key? document.path = some key)
    (hmarkdown : folder.isMarkdown document.path = true)
    (hdots : ∀ segment ∈ fields (· == '/') key.toList, segment ≠ ['.'] ∧ segment ≠ ['.','.'])
    (hwritten : Escaped isKeyByte (encodeUtf8 key.toList) (encodeUtf8 written.toList)) :
    ∃ range, parse ("[x](/" ++ written ++ ")") = [.inlineLink ⟨"x",some ("/" ++ key),none,range⟩] ∧
    (key ≠ "" → (folder.root.bytes ≠ [] ∨ .root ∉ document.path.components) → ∀ source : Document,
      target? folder source (.inlineLink ⟨"x",some ("/" ++ key),none,range⟩) =
        some (.document key none)) := by
  have htext : "[x](/" ++ written ++ ")" = String.ofList (loneLink ['x'] ('/' :: written.toList)) := by
    apply String.toList_inj.1
    simp [loneLink]
  have hparse := (plain_slash hwritten).parse_loneLink
  rw [← htext,decodeUrl_slash hwritten,String.ofList_toList] at hparse
  refine ⟨_,hparse,?_⟩
  intro hne hroot source
  have hstraight := Path.straight_key hkey hne hroot hdots
  apply target?_inlineLink
  rw [inlineKey?_slash folder source hstraight,
    withExtension_of_isMarkdown hkey hne hroot hstraight hmarkdown]

theorem escaped_link_reaches_document_nested : ∃ (folder : Folder) (document source : Document),
    folder.key? document.path = some "é b/a#[1]%.md" ∧ document ∈ folder.documentList ∧
    folder.isMarkdown document.path = true ∧ source ∈ folder.documentList ∧
    ∃ range, parse "[x](/%C3%A9%20b/a%23%5B1%5D%25.md)" =
      [.inlineLink ⟨"x",some "/é b/a#[1]%.md",none,range⟩] ∧
    target? folder source (.inlineLink ⟨"x",some "/é b/a#[1]%.md",none,range⟩) =
      some (.document "é b/a#[1]%.md" none) := by
  let document := Document.ofText "/n/é b/a#[1]%.md" none ""
  let source := Document.ofText "/n/c/d.md" none "[x](/%C3%A9%20b/a%23%5B1%5D%25.md)"
  let folder := ((Folder.empty "n" "/n").withDocument document).withDocument source
  have hkey : folder.key? document.path = some "é b/a#[1]%.md" := by decide +kernel
  have hmarkdown : folder.isMarkdown document.path = true := by decide +kernel
  have hbytes : percentEncode isKeyByte (encodeUtf8 "é b/a#[1]%.md".toList) =
      encodeUtf8 "%C3%A9%20b/a%23%5B1%5D%25.md".toList := by
    decide +kernel
  obtain ⟨range,hparse,htarget⟩ := escaped_link_reaches_document hkey hmarkdown (by decide)
    (hbytes ▸ escaped_percentEncode isKeyByte _)
  exact ⟨folder,document,source,hkey,by decide +kernel,hmarkdown,by decide +kernel,range,hparse,
    htarget (by decide) (.inl (by decide)) source⟩

/-- Below an empty root the key of an absolute path starts with slashes, which links leave out, and a
document at the root itself has an empty key, which no link from the root names. -/
theorem escaped_link_misses_document :
    (∃ (folder : Folder) (document : Document), document ∈ folder.documentList ∧
      folder.key? document.path = some "//a.md" ∧ folder.isMarkdown document.path = true ∧
      ∀ range : Range, target? folder document (.inlineLink ⟨"x",some ("/" ++ "//a.md"),none,range⟩) =
        some (.document "a.md" none)) ∧
    ∃ (folder : Folder) (document : Document), document ∈ folder.documentList ∧
      folder.key? document.path = some "" ∧ folder.isMarkdown document.path = true ∧
      ∀ range : Range, target? folder document (.inlineLink ⟨"x",some ("/" ++ ""),none,range⟩) =
        none := by
  constructor
  · let document := Document.ofText "/a.md" none "[x](///a.md)"
    exact ⟨(Folder.empty "n" "").withDocument document,document,by decide +kernel,
      by decide +kernel,by decide +kernel,fun range => rfl⟩
  · let document := Document.ofText "/n/a.md" none "[x](/)"
    exact ⟨(Folder.empty "n" "/n/a.md").withDocument document,document,by decide +kernel,
      by decide +kernel,by decide +kernel,fun range => rfl⟩

end NoteIndex.Navigation
