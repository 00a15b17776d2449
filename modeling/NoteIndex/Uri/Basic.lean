import NoteIndex.Path.Basic
import NoteIndex.Text.Percent

/-! URIs: their parts in normal form, and file paths as URIs. -/
namespace NoteIndex

open Text

namespace Uri

/-- ASCII bytes as characters. -/
def asciiText (bytes : List UInt8) : List Char := bytes.map fun b => Char.ofNat b.toNat

/-- Escapes controls, everything outside ASCII and the given characters. -/
def escapeBytes (reserved : List Char) (bytes : List UInt8) : List Char :=
  asciiText (percentEncode (fun b => 0x20 ≤ b && b < 0x7F && !(encodeUtf8 reserved).contains b) bytes)

def escape (reserved : List Char) (text : List Char) : List Char :=
  escapeBytes reserved (encodeUtf8 text)

/-- Characters that are escaped in fragments, and in all parts below but opaque paths. -/
def fragmentReserved : List Char := " \"<>\x60".toList

def pathReserved : List Char := fragmentReserved ++ "#?\x7b\x7d".toList

/-- Characters that are escaped in one segment of a file path. -/
def segmentReserved : List Char := pathReserved ++ "/%\\".toList

def userReserved : List Char := pathReserved ++ "/:;=@[\\]^|".toList

def queryReserved (special : Bool) : List Char :=
  if special then " \"#<>'".toList else " \"#<>".toList

end Uri

/-- Why a text is no URI. -/
inductive Uri.Fault where
  | noScheme
  | emptyHost
  | invalidPort
  | invalidHost
  deriving DecidableEq, Repr

def Uri.Fault.message : Fault → String
  | noScheme => "relative URL without a base"
  | emptyHost => "empty host"
  | invalidPort => "invalid port number"
  | invalidHost => "invalid international domain name"

/-- What follows the authority: a text that is taken as it is, or segments. -/
inductive Uri.Tail where
  | plain (text : List Char)
  | segments (segments : List (List Char))
  deriving DecidableEq, Repr

structure Uri where
  scheme : List Char
  /-- The host with what stands around it, for printing. -/
  authority : Option (List Char)
  /-- The host, unless it is empty. -/
  host : Option (List Char)
  tail : Uri.Tail
  query : Option (List Char)
  fragment : Option (List Char)
  deriving DecidableEq, Repr

def Uri.render (uri : Uri) : String :=
  String.ofList (uri.scheme ++ [':']
    ++ (match uri.authority with
      | none => []
      | some authority => '/' :: '/' :: authority)
    ++ (match uri.tail with
      | .plain text => text
      | .segments segments => segments.flatMap fun segment => '/' :: segment)
    ++ (match uri.query with
      | none => []
      | some query => '?' :: query)
    ++ (match uri.fragment with
      | none => []
      | some fragment => '#' :: fragment))

namespace Uri

def isDriveLetter (segment : List Char) : Bool :=
  match segment with
  | [letter, mark] => letter.isAlpha && (mark == ':' || mark == '|')
  | _ => false

/-- The URI of an absolute path. -/
def ofPath? (path : Path) : Option String :=
  match path.components with
  | .root :: rest =>
    let segments := rest.map fun component => escapeBytes segmentReserved component.render
    some ("file:///" ++ String.ofList (['/'].intercalate segments))
  | _ => none

/-- The file path that a URI names, if it has segments and no foreign host. A drive letter at the
end is followed by a slash. -/
def filePath? (uri : Uri) : Option Path :=
  match uri.tail with
  | .plain _ => none
  | .segments segments =>
    if uri.host.all (· == "localhost".toList) then
      let bytes := segments.flatMap fun segment => Path.slash :: percentDecode (encodeUtf8 segment)
      let endsWithDrive := isDriveLetter (asciiText (bytes.drop (bytes.length - 2))) && 2 < bytes.length
      some ⟨if endsWithDrive then bytes ++ [Path.slash] else bytes⟩
    else none

end Uri

end NoteIndex
