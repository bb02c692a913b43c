import LuauWorkspace.Dictionary
import LuauWorkspace.Number.Shortest

/-! # TOML values

The values that a TOML document holds. A date or time is kept in its canonical text. -/

namespace LuauWorkspace

/-- A TOML float. -/
inductive TomlFloat where
  | finite (value : Binary64)
  | infinite (negative : Bool)
  | notANumber
deriving DecidableEq, Inhabited

/-- A TOML value. -/
inductive Toml where
  | string (text : String)
  | integer (value : Int)
  | float (value : TomlFloat)
  | boolean (value : Bool)
  | moment (text : String)
  | array (items : List Toml)
  | table (entries : List (String × Toml))
deriving Inhabited

/-- The text of a float: all digits in their places, and no point without a fraction. -/
def TomlFloat.toText : TomlFloat → String
  | finite value => value.shortest.positional
  | infinite negative => if negative then "-inf" else "inf"
  | notANumber => "NaN"

/-- Whether a float is a zero. -/
def TomlFloat.isZero : TomlFloat → Bool
  | finite value => value.isZero
  | _ => false

end LuauWorkspace
