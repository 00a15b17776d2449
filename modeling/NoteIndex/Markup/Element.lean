import NoteIndex.Text.Position
import NoteIndex.Markup.Slug
import NoteIndex.Markup.Code
import NoteIndex.Markup.Heading
import NoteIndex.Markup.WikiLink
import NoteIndex.Markup.InlineLink
import NoteIndex.Markup.Label

/-! The elements of a document: headings, links, link definitions and uses of labels. -/
namespace NoteIndex.Markup

open Text

/-- A heading. The first one of level one is the title of its document. -/
structure Heading where
  level : Nat
  text : String
  slug : String
  isTitle : Bool
  range : Range
  deriving DecidableEq, Repr

structure WikiLink where
  target : Option String
  anchor : Option String
  range : Range
  deriving DecidableEq, Repr

/-- An inline link. Its address is decoded, and absent when the link is an anchor only. -/
structure InlineLink where
  text : String
  url : Option String
  anchor : Option String
  range : Range
  deriving DecidableEq, Repr

structure Definition where
  label : String
  url : String
  range : Range
  deriving DecidableEq, Repr

structure LabelUse where
  label : String
  range : Range
  deriving DecidableEq, Repr

inductive Element where
  | heading (heading : Heading)
  | wikiLink (link : WikiLink)
  | inlineLink (link : InlineLink)
  | definition (definition : Definition)
  | labelUse (use : LabelUse)
  deriving DecidableEq, Repr

namespace Element

def range : Element → Range
  | heading h => h.range
  | wikiLink l => l.range
  | inlineLink l => l.range
  | definition d => d.range
  | labelUse u => u.range

def asTitle? : Element → Option Heading
  | heading h => if h.isTitle then some h else none
  | _ => none

end Element

/-- The range of a span of the text. -/
def Span.range (text : List Char) (span : Span) : Range := rangeOfChars text span.start span.stop

/-- What lies outside all code. -/
def outside {α : Type} (code : List Span) (found : List (Found α)) : List (Found α) :=
  found.filter fun f => !code.any (·.covers f.span)

/-- Marks the first heading of level one as the title. -/
def withTitle (seen : Bool) : List (Found RawHeading) → List (Found (RawHeading × Bool))
  | [] => []
  | f :: rest =>
    let isTitle := f.value.level == 1 && !seen
    ⟨f.span, (f.value, isTitle)⟩ :: withTitle (seen || isTitle) rest

def headingElement (text : List Char) (f : Found (RawHeading × Bool)) : Found Element :=
  let content := String.ofList f.value.1.text
  ⟨f.span, .heading ⟨f.value.1.level, content, slug content, f.value.2, f.span.range text⟩⟩

def wikiLinkElement (text : List Char) (f : Found RawWikiLink) : Found Element :=
  ⟨f.span, .wikiLink ⟨f.value.target.map String.ofList, f.value.anchor.map String.ofList,
    f.span.range text⟩⟩

def inlineLinkElement (text : List Char) (f : Found RawInlineLink) : Found Element :=
  ⟨f.span, .inlineLink ⟨String.ofList f.value.text, f.value.url.map String.ofList,
    f.value.anchor.map String.ofList, f.span.range text⟩⟩

def definitionElement (text : List Char) (f : Found RawDefinition) : Found Element :=
  ⟨f.span, .definition ⟨String.ofList f.value.label, String.ofList f.value.url,
    f.span.range text⟩⟩

def labelUseElement (text : List Char) (f : Found (List Char)) : Found Element :=
  ⟨f.span, .labelUse ⟨String.ofList f.value, f.span.range text⟩⟩

/-- The labels that definitions define, in normal form. -/
def definedLabels (definitions : List (Found RawDefinition)) : List String :=
  definitions.map fun d => normalizeLabel (String.ofList d.value.label)

/-- The elements of a text with their spans, kind by kind. Elements in code are left out, and so
are uses of labels that nothing outside code defines. -/
def foundElements (text : List Char) : List (Found Element) :=
  let code := code text
  let definitions := outside code (definitions text)
  let labels := definedLabels definitions
  let uses := (outside code (labelUses text)).filter fun f =>
    labels.contains (normalizeLabel (String.ofList f.value))
  (withTitle false (outside code (headings text))).map (headingElement text)
    ++ (outside code (wikiLinks text)).map (wikiLinkElement text)
    ++ (outside code (inlineLinks text)).map (inlineLinkElement text)
    ++ definitions.map (definitionElement text)
    ++ uses.map (labelUseElement text)

/-- The elements of a text in the order of their starts. -/
def parse (text : String) : List Element :=
  ((foundElements text.toList).mergeSort fun a b => a.span.start ≤ b.span.start).map Found.value

/-- The innermost element at a position: the last one that includes it. -/
def elementAt? (p : Position) (elements : List Element) : Option Element :=
  (elements.filter fun e => e.range.includes p).getLast?

end NoteIndex.Markup
