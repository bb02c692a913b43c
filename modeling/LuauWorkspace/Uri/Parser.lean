import LuauWorkspace.Uri.Address
import LuauWorkspace.Uri.Basic
import LuauWorkspace.Uri.Domain

/-! # Reading uris

A text is cut into scheme, authority, path, query and fragment, and each part is brought into its
serialized form. White space around the text is ignored, and so are tabs and line ends inside it.
Schemes with a known meaning always have a path; `\` separates their segments like `/` does. -/

namespace LuauWorkspace

/-- Why a text is no uri. -/
inductive UriError where
  | noScheme
  | emptyHost
  | badPort
  | badDomain
  | badHostCharacter
  | badShortAddress
  | badLongAddress
deriving DecidableEq

/-- The wording of a cause. -/
def UriError.message : UriError → String
  | noScheme => "relative URL without a base"
  | emptyHost => "empty host"
  | badPort => "invalid port number"
  | badDomain => "invalid international domain name"
  | badHostCharacter => "invalid domain character"
  | badShortAddress => "invalid IPv4 address"
  | badLongAddress => "invalid IPv6 address"

namespace Uri

/-! ## Schemes -/

/-- Whether a character may stand in a scheme after the first one. -/
def isSchemeChar (c : Char) : Bool := c.isAlphanum || c == '+' || c == '-' || c == '.'

/-- The scheme in lower case and what follows its colon. -/
def splitScheme? (text : List Char) : Option (String × List Char) :=
  match text.span isSchemeChar with
  | (first :: rest, ':' :: after) =>
    if first.isAlpha then some (String.ofList ((first :: rest).map Char.toLower), after) else none
  | _ => none

/-- The port that a scheme with a known meaning uses when none is given. -/
def defaultPort? : String → Option Nat
  | "http" => some 80
  | "https" => some 443
  | "ws" => some 80
  | "wss" => some 443
  | "ftp" => some 21
  | _ => none

/-- Whether a scheme has a known meaning. -/
def isSpecial (scheme : String) : Bool := scheme == "file" || (defaultPort? scheme).isSome

/-- Whether a character separates segments under a scheme. -/
def isSlash (special : Bool) (c : Char) : Bool := c == '/' || (special && c == '\\')

/-! ## Authorities -/

/-- The serialized host of a scheme with a known meaning. -/
def parseHost (host : List Char) : Except UriError (List Char) :=
  match host with
  | '[' :: rest =>
    match rest.reverse with
    | ']' :: inner =>
      match Address.eightGroups? inner.reverse with
      | some groups => .ok ('[' :: Address.showGroups groups ++ [']'])
      | none => .error .badLongAddress
    | _ => .error .badLongAddress
  | _ =>
    match Percent.decodeText? host with
    | none => .error .badDomain
    | some name =>
      let domain := Domain.encode name.toList
      if domain.any Domain.isForbidden then .error .badDomain
      else if domain.isEmpty then .error .emptyHost
      else if Address.endsInNumber domain then
        match Address.ofParts? domain with
        | some address => .ok address
        | none => .error .badShortAddress
      else .ok domain

/-- Whether a character may not stand in a host whose meaning is unknown. -/
def isForbiddenHostChar (c : Char) : Bool := "\x00\t\n\r #/:<>?@[\\]^|".toList.contains c

/-- The serialized host of a scheme without a known meaning. -/
def parseOpaqueHost (host : List Char) : Except UriError (List Char) :=
  match host with
  | '[' :: _ => parseHost host
  | _ =>
    if host.any isForbiddenHostChar then .error .badHostCharacter
    else .ok (Percent.encode Percent.isControl host)

/-- A host and what follows it: a colon outside brackets ends it. -/
def splitHost : Bool → List Char → List Char × List Char
  | _, [] => ([], [])
  | bracketed, c :: rest =>
    if c = ':' ∧ bracketed = false then ([], c :: rest)
    else
      let bracketed := if c = '[' then true else if c = ']' then false else bracketed
      let (host, after) := splitHost bracketed rest
      (c :: host, after)

/-- The serialized port with its colon; the usual port of the scheme is left out. -/
def parsePort (scheme : String) (digits : List Char) : Except UriError (List Char) :=
  if digits.all Char.isDigit then
    match Address.number? 10 digits with
    | some port =>
      if 65535 < port then .error .badPort
      else if digits.isEmpty ∨ defaultPort? scheme = some port then .ok []
      else .ok (':' :: Nat.toDigits 10 port)
    | none => .error .badPort
  else .error .badPort

/-- The serialized user name and password with the `@` after them. -/
def parseUserInfo (userInfo : List Char) : List Char :=
  let (name, rest) := userInfo.span (· ≠ ':')
  let password := rest.drop 1
  let encoded :=
    Percent.encode Percent.inUserInfo name ++
      if password.isEmpty then [] else ':' :: Percent.encode Percent.inUserInfo password
  if encoded.isEmpty then [] else encoded ++ ['@']

/-- The serialized authority of a scheme other than `file`. The host may be left out when nothing
else is in the authority; `isWhole` tells that no path, query or fragment follows. -/
def parseAuthority (scheme : String) (isWhole : Bool) (authority : List Char) :
    Except UriError (List Char) := do
  let (userInfo, place) :=
    match Text.splitLast '@' authority with
    | some (before, after) => (parseUserInfo before, after)
    | none => ([], authority)
  let (host, afterHost) := splitHost false place
  let needsHost := isSpecial scheme || !userInfo.isEmpty || !afterHost.isEmpty ||
    (authority == ['@'] && !isWhole)
  if host.isEmpty ∧ needsHost then throw .emptyHost
  let host ← if isSpecial scheme then parseHost host else parseOpaqueHost host
  let port ←
    match afterHost with
    | ':' :: digits => parsePort scheme digits
    | _ => pure []
  return userInfo ++ host ++ port

/-! ## Paths -/

/-- Whether a segment is a letter and a colon or bar, which some systems read as a drive. -/
def isDrive : List Char → Bool
  | [letter, mark] => letter.isAlpha && (mark == ':' || mark == '|')
  | _ => false

/-- Whether a segment spells `.`; a point may be written `%2e`. -/
def isDot (segment : List Char) : Bool :=
  let lower := segment.map Char.toLower
  lower == ['.'] || lower == "%2e".toList

/-- Whether a segment spells `..`. -/
def isDotDot (segment : List Char) : Bool :=
  let lower := segment.map Char.toLower
  [['.', '.'], "%2e.".toList, ".%2e".toList, "%2e%2e".toList].contains lower

/-- The segments without the last one; a drive stays. -/
def popSegment (segments : List (List Char)) : List (List Char) :=
  if segments.getLast?.any isDrive then segments else segments.dropLast

/-- The segments that a piece between separators stands for. At the front of the path of a file, the
bar of a drive becomes a colon, and what follows a drive is a segment of its own. -/
def splitDrive (atFront : Bool) (piece : List Char) : List (List Char) :=
  match piece with
  | letter :: mark :: rest =>
    if atFront ∧ letter.isAlpha ∧ mark = ':' ∧ rest ≠ [] then [[letter, mark], rest]
    else if atFront ∧ letter.isAlpha ∧ mark = '|' ∧ rest = [] then [[letter, ':']]
    else [piece]
  | _ => [piece]

/-- Put segments after those that are done, folding `.` and `..`. One of these at the very end
leaves an empty segment. -/
def foldSegments (isFile : Bool) (done : List (List Char)) : List (List Char) → List (List Char)
  | [] => done
  | segment :: rest =>
    let last := if rest.isEmpty then [[]] else []
    if isDotDot segment then foldSegments isFile (popSegment done ++ last) rest
    else if isDot segment then foldSegments isFile (done ++ last) rest
    else foldSegments isFile (done ++ splitDrive (isFile && done.isEmpty) segment) rest

/-- The segments of a serialized path below the first separator. -/
def segmentsOf (scheme : String) (path : List Char) : List (List Char) :=
  let pieces := Text.splitOn (isSlash (isSpecial scheme)) path
  foldSegments (scheme == "file") [] (pieces.map (Percent.encode Percent.inPath))

/-- The serialized path below the first separator. The path of a file has no empty segments in
front. -/
def parseSegments (scheme : String) (path : List Char) : List Char :=
  let segments := segmentsOf scheme path
  let segments :=
    if scheme = "file" then
      match segments.dropWhile List.isEmpty with
      | [] => [[]]
      | kept => kept
    else segments
  segments.flatMap ('/' :: ·)

/-- A path without the separator in front. -/
def belowRoot (scheme : String) (path : List Char) : List Char :=
  match path with
  | c :: rest => if isSlash (isSpecial scheme) c then rest else path
  | [] => []

/-- The serialized path after an authority. -/
def parsePath (scheme : String) (path : List Char) : List Char :=
  if path.isEmpty ∧ !isSpecial scheme then [] else parseSegments scheme (belowRoot scheme path)

/-! ## Whole texts -/

/-- A text cut at its first `#` and, before that, its first `?`. -/
def splitTail (text : List Char) : List Char × Option (List Char) × Option (List Char) :=
  let (front, fragment) := text.span (· ≠ '#')
  let (path, query) := front.span (· ≠ '?')
  (path, if query.isEmpty then none else some (query.drop 1),
    if fragment.isEmpty then none else some (fragment.drop 1))

/-- The authority and path of a `file` uri. A drive in the place of the host opens the path. The
host `localhost` is dropped, and so is any host before a drive. -/
def parseFile (text : List Char) : Except UriError (List Char × List Char) :=
  match text with
  | a :: b :: rest =>
    if isSlash true a ∧ isSlash true b then
      let (host, path) := rest.span fun c => !isSlash true c
      if isDrive host then .ok ([], parseSegments "file" rest)
      else if host.isEmpty then .ok ([], parsePath "file" path)
      else do
        let host ← parseHost host
        let isLocal :=
          host = "localhost".toList || (segmentsOf "file" (belowRoot "file" path)).head?.any isDrive
        return (if isLocal then [] else host, parsePath "file" path)
    else .ok ([], parsePath "file" text)
  | _ => .ok ([], parsePath "file" text)

/-- The authority and path that follow a scheme; `isWhole` tells that no query or fragment comes
after them. -/
def parseAfterScheme (scheme : String) (isWhole : Bool) (text : List Char) :
    Except UriError (Option (List Char) × List Char) := do
  if scheme = "file" then
    let (authority, path) ← parseFile text
    return (some authority, path)
  else if isSpecial scheme then
    let (authority, path) := (text.dropWhile (isSlash true)).span fun c => !isSlash true c
    let isWhole := isWhole && path.isEmpty
    return (some (← parseAuthority scheme isWhole authority), parsePath scheme path)
  else
    match text with
    | '/' :: '/' :: rest =>
      let (authority, path) := rest.span (· ≠ '/')
      let isWhole := isWhole && path.isEmpty
      return (some (← parseAuthority scheme isWhole authority), parsePath scheme path)
    | '/' :: rest => return (none, parseSegments scheme rest)
    | _ => return (none, Percent.encode Percent.isControl text)

/-- A text without control characters and spaces at its ends and without tabs and line ends. -/
def clean (text : List Char) : List Char :=
  let isOuter (c : Char) : Bool := c.toNat ≤ 0x20
  let front := text.dropWhile isOuter
  let inner := (front.reverse.dropWhile isOuter).reverse
  inner.filter fun c => c ≠ '\t' ∧ c ≠ '\n' ∧ c ≠ '\r'

/-- Read a uri from its text. -/
def read (text : String) : Except UriError Uri := do
  let some (scheme, rest) := splitScheme? (clean text.toList) | throw .noScheme
  let (front, query, fragment) := splitTail rest
  let isWhole := query.isNone && fragment.isNone
  let (authority, path) ← parseAfterScheme scheme isWhole front
  let inQuery := if isSpecial scheme then Percent.inSpecialQuery else Percent.inQuery
  return {
    scheme
    authority := authority.map String.ofList
    path := String.ofList path
    query := query.map fun text => String.ofList (Percent.encode inQuery text)
    fragment := fragment.map fun text => String.ofList (Percent.encode Percent.inFragment text) }

end Uri

end LuauWorkspace
