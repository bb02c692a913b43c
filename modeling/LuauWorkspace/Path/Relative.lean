import LuauWorkspace.Path.Basic

/-! # The rest of a path below a base

`below?` cuts a base off the front of a path and returns the rest in the spelling of the path:
separators are left alone inside the rest and taken off its ends. -/

namespace LuauWorkspace.Path

/-- Whether a piece between separators stands for no segment. -/
def isVoid (piece : List Char) : Bool := piece.isEmpty || piece == ['.']

/-- The pieces that are left when `n` of the pieces that stand for a segment are taken off the
front. -/
def dropPieces : Nat → List (List Char) → List (List Char)
  | 0, pieces => pieces
  | _ + 1, [] => []
  | n + 1, piece :: pieces => dropPieces (if isVoid piece then n + 1 else n) pieces

/-- The pieces without the void ones at the end. -/
def trimPieces (pieces : List (List Char)) : List (List Char) :=
  (pieces.reverse.dropWhile isVoid).reverse

/-- Pieces with separators between them. -/
def joinPieces (pieces : List (List Char)) : String :=
  String.ofList (Text.joinWith ['/'] pieces)

/-- The spelling of a path without separators and `.` at its end. -/
def trimmed (text : String) : String :=
  match Text.splitOn (· == '/') text.toList with
  | [] :: pieces@(_ :: _) => "/" ++ joinPieces (trimPieces pieces)
  | first :: pieces => joinPieces (first :: trimPieces pieces)
  | [] => ""

/-- The rest of the text `path` below `base`; none when the path does not begin with the base or
nothing is left. -/
def below? (path base : String) : Option String :=
  let above := ofString base
  if (ofString path).startsWith above then
    let rest :=
      if above = empty then trimmed path
      else
        let pieces := Text.splitOn (· == '/') path.toList
        let below :=
          match above.segments with
          | .current :: segments => dropPieces segments.length (pieces.drop 1)
          | segments => dropPieces segments.length pieces
        joinPieces (trimPieces (below.dropWhile isVoid))
    if rest = "" then none else some rest
  else none

end LuauWorkspace.Path
