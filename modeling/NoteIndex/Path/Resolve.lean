import NoteIndex.Path.Basic

/-! Resolution of link text to the key of the document that it names. -/
namespace NoteIndex.Path

def isSchemeChar (c : Char) : Bool := c.isAlphanum || c == '+' || c == '.' || c == '-'

/-- Whether a link names a resource by an explicit scheme: a scheme before `://`, a mail address,
or inline data. -/
def hasScheme (link : List Char) : Bool :=
  (match link with
    | [] => false
    | c :: rest => c.isAlpha && "://".toList.isPrefixOf (rest.dropWhile isSchemeChar))
  || "mailto:".toList.isPrefixOf link || "data:".toList.isPrefixOf link

/-- Follows components from a directory given by its segments. Fails on the way above the root and
at a name that is no text. -/
def follow (segments : List String) : List Component → Option (List String)
  | [] => some segments
  | .up :: rest => if segments.isEmpty then none else follow segments.dropLast rest
  | .name bytes :: rest =>
    (Text.ofUtf8? bytes).bind fun segment => follow (segments ++ [segment]) rest
  | .root :: rest => follow segments rest
  | .here :: rest => follow segments rest

/-- The segments of a directory below the root, if all of them are texts. -/
def segments? (components : List Component) : Option (List String) :=
  (components.filter (· != .root)).mapM Component.text?

/-- The directory that a link starts from, and the link without a leading slash: a link with one
starts at the root, every other link beside the document that holds it. -/
def linkStart? (root document : Path) (link : List Char) : Option (List String × List Char) :=
  match link with
  | '/' :: rest => some ([], rest)
  | _ => do
    let directory ← parent? document.components
    let inner ← dropStart? root.components directory
    return (← segments? inner, link)

/-- The key that a link in `document` names. A link with a scheme, one that climbs above the root
and one that names the root itself have none, and neither has one that starts in a directory whose name
is no text. -/
def resolve? (root document : Path) (link : String) : Option String := do
  if hasScheme link.toList then none
  else
    let (start, rest) ← linkStart? root document link.toList
    let place ← follow start (parse (Text.encodeUtf8 rest))
    if place.isEmpty then none else some ("/".intercalate place)

example : resolve? "/n" "/n/sub/a.md" "../b.md" = some "b.md" := by decide
example : resolve? "/n" "/n/a.md" "../b.md" = none := by decide

end NoteIndex.Path
