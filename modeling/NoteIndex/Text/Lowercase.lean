import NoteIndex.Text.Blank
import NoteIndex.Text.CaseTable

/-! Lowercase forms of characters and of texts. In a text a capital sigma at the end of a word has
a form of its own. -/
namespace NoteIndex.Text

def isCased (c : Char) : Bool := inIntervals casedIntervals c.toNat

def isCaseIgnorable (c : Char) : Bool := inIntervals caseIgnorableIntervals c.toNat

/-- The lowercase code point of `n`, which is `n` itself outside every run. -/
def lowercasePoint : List CaseRun → Nat → Nat
  | [], n => n
  | run :: rest, n =>
    if n < run.first then n
    else if n ≤ run.last && (n - run.first) % run.step == 0 then run.image + (n - run.first)
    else lowercasePoint rest n

/-- The lowercase form of a character by itself. Only `İ` has one of two characters. -/
def lowercaseChar (c : Char) : List Char :=
  if c = 'İ' then ['i', '\u0307'] else [Char.ofNat (lowercasePoint lowercaseRuns c.toNat)]

/-- Whether the first character that case rules do not skip is a cased one. -/
def startsCased (cs : List Char) : Bool :=
  match cs.dropWhile isCaseIgnorable with
  | [] => false
  | c :: _ => isCased c

/-- Whether a capital sigma ends a word, with `before` the text before it from right to left. -/
def sigmaIsFinal (before after : List Char) : Bool :=
  startsCased before && !startsCased after

/-- The lowercase form of the text that follows `before`, which is listed from right to left. -/
def lowercaseAfter (before : List Char) : List Char → List Char
  | [] => []
  | c :: rest =>
    (if c = 'Σ' then [if sigmaIsFinal before rest then 'ς' else 'σ'] else lowercaseChar c)
      ++ lowercaseAfter (c :: before) rest

/-- The lowercase form of a text. -/
def lowercase (cs : List Char) : List Char := lowercaseAfter [] cs

def lowercaseString (s : String) : String := String.ofList (lowercase s.toList)

/-- Texts that are equal up to the case of ASCII letters. -/
def eqIgnoringAsciiCase (a b : String) : Bool :=
  a.toList.map Char.toLower == b.toList.map Char.toLower

example : lowercase "ΑΣ Σ".toList = "ας σ".toList := by decide

end NoteIndex.Text
