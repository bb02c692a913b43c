import LuauWorkspace.Path.Basic
import LuauWorkspace.Uri.Percent

/-! # Document identifiers

A uri in its serialized parts. A file is named by the uri `file://` and its encoded path; documents
are filed under a key that does not depend on separators at the end. -/

namespace LuauWorkspace

/-- A uri. The authority is what follows `//`, the path starts with `/` unless it is opaque. -/
structure Uri where
  scheme : String
  authority : Option String
  path : String
  query : Option String
  fragment : Option String
deriving DecidableEq, Inhabited

namespace Uri

/-- What stands before the path. A path that would read as an authority is set apart by `/.`. -/
def beforePath (uri : Uri) : String :=
  uri.scheme ++ ":" ++
    match uri.authority with
    | some authority => "//" ++ authority
    | none => if (Text.dropStart? ['/', '/'] uri.path.toList).isSome then "/." else ""

/-- What stands after the path. -/
def afterPath (uri : Uri) : String :=
  (match uri.query with
    | some query => "?" ++ query
    | none => "") ++
  match uri.fragment with
  | some fragment => "#" ++ fragment
  | none => ""

/-- The text of a uri. -/
def toString (uri : Uri) : String := uri.beforePath ++ uri.path ++ uri.afterPath

instance : ToString Uri := ⟨toString⟩

/-- A text without separators at its end, but never shorter than `least`. Texts are reversed. -/
def trimSlashes (least : Nat) : List Char → List Char
  | '/' :: rest => if least ≤ rest.length then trimSlashes least rest else '/' :: rest
  | text => text

/-- The key under which the document of a uri is filed: its text without separators at the end. So
many characters are kept as the text has beside the path, and one more. The host is taken to be a
Linux or another Unix host; on Windows and macOS keys are in lower case besides. -/
def key (uri : Uri) : String :=
  let text := uri.toString.toList
  String.ofList (trimSlashes (text.length - uri.path.length + 1) text.reverse).reverse

/-- The text of the path that a `file` uri names, when the decoded path is a text. The host is taken
to be a Unix host; on Windows the separator before the letter of a drive would be taken off. -/
def filePath? (uri : Uri) : Option String :=
  if uri.scheme = "file" then Percent.decodeText? uri.path.toList else none

/-- The uri of an absolute path. Every segment is encoded; a relative path has no uri. -/
def ofPath? (path : Path) : Option Uri :=
  if path.absolute then
    let segments := path.segments.map fun segment =>
      '/' :: Percent.encode Percent.inFileName segment.toString.toList
    some {
      scheme := "file"
      authority := some ""
      path := if segments = [] then "/" else String.ofList segments.flatten
      query := none
      fragment := none }
  else none

end Uri

end LuauWorkspace
