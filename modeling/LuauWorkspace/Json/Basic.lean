import LuauWorkspace.Dictionary
import LuauWorkspace.Number.Shortest

/-! # JSON values

A number is an integer when it is written as one and fits 64 bits with or without a sign, and a
binary floating point number otherwise. The members of an object are kept in the order of their
names. -/

namespace LuauWorkspace

/-- A JSON number. -/
inductive JsonNumber where
  | integer (value : Int)
  | float (value : Binary64)
deriving DecidableEq, Inhabited

/-- A JSON value. -/
inductive Json where
  | null
  | bool (value : Bool)
  | number (value : JsonNumber)
  | string (text : String)
  | array (items : List Json)
  | object (members : List (String × Json))
deriving Inhabited

/-- The text of a float: in positions from `0.00001` up to sixteen digits before the point, with an
exponent beyond. A number without a fraction keeps the digit zero after its point. -/
def Binary64.toText (x : Binary64) : String :=
  let d := x.shortest
  if x.isZero then if x.negative then "-0.0" else "0.0"
  else if -5 ≤ d.leading ∧ d.leading < 16 then
    if 0 ≤ d.exponent then d.positional ++ ".0" else d.positional
  else d.scientific

/-- The text of a number. -/
def JsonNumber.toText : JsonNumber → String
  | integer value => toString value
  | float value => value.toText

end LuauWorkspace
