import NoteIndex.Proofs.Markup.Heading
import NoteIndex.Proofs.Markup.SlugWords
import NoteIndex.Proofs.Navigation.Duality

/-! Anchors and names that are written as slugs. They stand for what has the slug, unless the slug was made
from a text with `İ`: its lowercase form ends with a dot that is no letter, and no slug of a slug has it. -/
namespace NoteIndex

open Markup

namespace Navigation

variable {folder : Folder} {document source : Document} {heading : Heading} {link : Element}

lemma slug_of_mem_elements (h : .heading heading ∈ document.elements) :
    heading.slug = slug heading.text := by
  rw [document.elements_eq,parse_eq] at h
  obtain ⟨f,hf,hvalue⟩ := List.mem_map.1 h
  obtain ⟨span,value⟩ := f
  obtain rfl : value = .heading heading := hvalue
  obtain ⟨line,hline⟩ := exists_readFrom hf
  exact hline.slug

/-- A heading is what a link leads to if the slug of the anchor is that of the heading. -/
lemma declares_anchor_iff {key anchor : String} {slugged : Option String}
    (hanchor : link.anchor? = some anchor)
    (htarget : target? folder source link = some (.document key slugged))
    (hkey : folder.key? document.path = some key) :
    declares folder document (.heading heading) (.document key slugged) = true ↔
      heading.slug = slug anchor := by
  have href : link.isReference = true := by
    cases link with
    | wikiLink _ => rfl
    | inlineLink _ => rfl
    | _ => simp [Element.anchor?] at hanchor
  rw [anchor_of_target? href htarget,hanchor]
  simp [declares,hkey]

/-- The slug of a slug is the slug without the dots of `İ`, so it is the slug itself if and only if there
is no `İ` in the text. With that, a link whose anchor is written as the slug of a heading leads to the
heading, and a name that is written as its slug is the name of the same document. -/
theorem slug_of_slug (text : String) :
    (slug (slug text) = slug text ↔ 'İ' ∉ text.toList) ∧
    slug (slug text) = String.ofList ((slug text).toList.filter (· != '\u0307')) ∧
    slug (slug (slug text)) = slug (slug text) ∧
    ('İ' ∉ text.toList → ∀ folder, keyOfName? folder (slug text) = keyOfName? folder text) ∧
    ∀ (folder : Folder) (source document : Document) (link : Element) (heading : Heading)
      (key : String) (anchor : Option String), .heading heading ∈ document.elements →
      heading.text = text → link.anchor? = some heading.slug →
      target? folder source link = some (.document key anchor) →
      folder.key? document.path = some key →
      (declares folder document (.heading heading) (.document key anchor) = true ↔
        'İ' ∉ text.toList) := by
  refine ⟨slug_slug_eq_iff text,slug_slug text,?_,?_,?_⟩
  · -- A slug has no capital letter, so its own slug has no dots to lose.
    rw [slug_slug_eq_iff]
    intro hmem
    have hlower : ¬ Text.IsLower 'İ' := by decide
    exact hlower (isLower_of_mem_slug hmem)
  · intro hdotless folder
    rw [keyOfName?,(slug_slug_eq_iff text).2 hdotless,← keyOfName?]
  · rintro folder source document link heading key anchor hheading rfl hanchor htarget hkey
    rw [declares_anchor_iff hanchor htarget hkey,slug_of_mem_elements hheading,eq_comm,
      slug_slug_eq_iff]

theorem slug_of_slug_linked : ∃ (folder : Folder) (source document : Document) (link : Element)
    (heading : Heading), 'İ' ∉ heading.text.toList ∧ heading.text = "Größe, Ä" ∧
    .heading heading ∈ document.elements ∧ link ∈ source.elements ∧
    link.anchor? = some heading.slug ∧
    target? folder source link = some (.document "a.md" (some "größe-ä")) ∧
    slug (slug heading.text) = slug heading.text ∧
    keyOfName? folder (slug "A ") = some "a.md" ∧
    declares folder document (.heading heading) (.document "a.md" (some "größe-ä")) = true := by
  let document := Document.ofText "/n/a.md" none "## Größe, Ä"
  let source := Document.ofText "/n/b.md" none "[[a#größe-ä]]"
  let folder := ((Folder.empty "n" "/n").withDocument document).withDocument source
  let heading : Heading := ⟨2,"Größe, Ä","größe-ä",false,⟨0,0⟩,⟨0,11⟩⟩
  let link : Element := .wikiLink ⟨some "a",some "größe-ä",⟨0,0⟩,⟨0,13⟩⟩
  have hheading : .heading heading ∈ document.elements := by decide +kernel
  have htarget : target? folder source link = some (.document "a.md" (some "größe-ä")) := by
    decide +kernel
  have hdotless : 'İ' ∉ "Größe, Ä".toList := by decide
  obtain ⟨hsame,-,-,-,hdeclares⟩ := slug_of_slug "Größe, Ä"
  obtain ⟨-,-,-,hname,-⟩ := slug_of_slug "A "
  exact ⟨folder,source,document,link,heading,hdotless,rfl,hheading,by decide +kernel,rfl,htarget,
    hsame.2 hdotless,(hname (by decide) folder).trans (by decide +kernel),
    (hdeclares folder source document link heading "a.md" _ hheading rfl rfl htarget
      (by decide +kernel)).2 hdotless⟩

/-- An anchor that is written as the slug of a heading with `İ` does not lead to the heading. -/
theorem slug_of_dotted : slug (slug "İ") ≠ slug "İ" ∧
    ∃ (folder : Folder) (document : Document) (link : Element) (heading : Heading),
      .heading heading ∈ document.elements ∧ link ∈ document.elements ∧
      heading.text = "İ" ∧ link.anchor? = some heading.slug ∧
      ∃ target, target? folder document link = some target ∧
        declares folder document (.heading heading) target = false := by
  let document : Document := ⟨"/n/a.md",none,"## İ\n[[#i\u0307]]",_,
    (parse_of_pairwise (by decide +kernel)).symm⟩
  let folder := (Folder.empty "n" "/n").withDocument document
  exact ⟨by decide +kernel,folder,document,.wikiLink ⟨none,some "i\u0307",⟨1,0⟩,⟨1,7⟩⟩,
    ⟨2,"İ","i\u0307",false,⟨0,0⟩,⟨0,4⟩⟩,by decide +kernel,by decide +kernel,rfl,rfl,
    .document "a.md" (some "i"),by decide +kernel,by decide +kernel⟩

end Navigation

end NoteIndex
