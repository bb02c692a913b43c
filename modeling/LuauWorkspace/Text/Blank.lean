/-! # White space

The characters with the Unicode property `White_Space`, and texts with them taken off the ends. -/

namespace LuauWorkspace.Text

/-- Whether a character has the Unicode property `White_Space`. -/
def isBlank (c : Char) : Bool :=
  let n := c.toNat
  (0x09 ≤ n && n ≤ 0x0D) || n == 0x20 || n == 0x85 || n == 0xA0 || n == 0x1680 ||
    (0x2000 ≤ n && n ≤ 0x200A) || n == 0x2028 || n == 0x2029 || n == 0x202F || n == 0x205F ||
    n == 0x3000

/-- A text without the white space at its beginning. -/
def trimStart (text : List Char) : List Char := text.dropWhile isBlank

/-- A text without the white space at its end. -/
def trimEnd (text : List Char) : List Char := (trimStart text.reverse).reverse

/-- A text without the white space at either end. -/
def trim (text : List Char) : List Char := trimEnd (trimStart text)

theorem length_trimStart_le (text : List Char) : (trimStart text).length ≤ text.length := by
  induction text with
  | nil => simp [trimStart]
  | cons c rest ih =>
    simp only [trimStart, List.dropWhile_cons] at *
    split
    · simp; omega
    · simp

end LuauWorkspace.Text
