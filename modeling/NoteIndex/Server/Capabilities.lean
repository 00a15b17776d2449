import NoteIndex.Data.Layer

/-! What the server tells an editor about itself. -/
namespace NoteIndex.Server

open Data

/-- The glob of all files with one of the extensions, in lower case. -/
def fileGlob (extensions : List String) : String :=
  match (extensions.map Text.lowercaseString).eraseDups with
  | [extension] => "**/*." ++ extension
  | extensions => "**/*.\x7b" ++ ",".intercalate extensions ++ "\x7d"

/-- The files whose creation and deletion the server wants to know. -/
def fileFilters (extensions : List String) : Value :=
  .table [("filters", .array [.table [
    ("scheme", .string "file"),
    ("pattern", .table [
      ("glob", .string (fileGlob extensions)),
      ("matches", .string "file"),
      ("options", .table [("ignoreCase", .bool true)])])]])]

def capabilities (extensions : List String) : Value :=
  .table [
    ("textDocumentSync", .table [("openClose", .bool true), ("change", .int 2)]),
    ("definitionProvider", .bool true),
    ("referencesProvider", .bool true),
    ("workspace", .table [
      ("workspaceFolders", .table [("supported", .bool true), ("changeNotifications", .bool true)]),
      ("fileOperations", .table [
        ("didCreate", fileFilters extensions),
        ("didDelete", fileFilters extensions)])])]

/-- The answer to a successful start. -/
def welcome (extensions : List String) : Value :=
  .table [
    ("capabilities", capabilities extensions),
    ("serverInfo", .table [("name", .string "marklink"), ("version", .string "0.1.0")])]

end NoteIndex.Server
