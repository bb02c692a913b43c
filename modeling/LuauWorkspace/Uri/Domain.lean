import LuauWorkspace.Text.Split

/-! # Domain names

A label of a domain name with characters outside ASCII is written as `xn--` followed by its ASCII
characters and the positions and values of the others, each as a difference from the one before in
digits of variable weight. -/

namespace LuauWorkspace.Domain

/-- The digit for a number below thirty-six. -/
def digit (n : Nat) : Char := if n < 26 then Char.ofNat (97 + n) else Char.ofNat (22 + n)

/-- Bring a difference into range and count the rounds. -/
def adaptRounds : Nat → Nat → Nat → Nat
  | 0, _, k => k
  | bound + 1, delta, k =>
    if 455 < delta then adaptRounds bound (delta / 35) (k + 36) else k + 36 * delta / (delta + 38)

/-- The bias of the digit weights after a difference. -/
def adapt (delta points : Nat) (first : Bool) : Nat :=
  let delta := if first then delta / 700 else delta / 2
  adaptRounds delta.log2.succ (delta + delta / points) 0

/-- The digits of a difference. -/
def differenceDigits : Nat → Nat → Nat → Nat → List Char
  | 0, _, _, _ => []
  | bound + 1, q, k, bias =>
    let t := if k ≤ bias then 1 else if bias + 26 ≤ k then 26 else k - bias
    if q < t then [digit q]
    else digit (t + (q - t) % (36 - t)) :: differenceDigits bound ((q - t) / (36 - t)) (k + 36) bias

/-- Where the encoder of a label stands. -/
structure Encoder where
  delta : Nat
  bias : Nat
  handled : Nat
  first : Bool
  output : List Char

/-- Go through a label for the code point `n`. -/
def encodePoint (n : Nat) (label : List Char) (start : Encoder) : Encoder :=
  label.foldl (fun s c =>
    if c.toNat < n then { s with delta := s.delta + 1 }
    else if c.toNat = n then
      { delta := 0
        bias := adapt s.delta (s.handled + 1) s.first
        handled := s.handled + 1
        first := false
        output := s.output ++ differenceDigits s.delta.succ s.delta 36 s.bias }
    else s) start

/-- The code points of a label outside ASCII, ascending and without repetition. -/
def points (label : List Char) : List Nat :=
  ((label.map Char.toNat).filter (128 ≤ ·)).mergeSort.eraseReps

/-- A label in ASCII characters. -/
def encodeLabel (label : List Char) : List Char :=
  let basic := label.filter (·.toNat < 128)
  if basic.length = label.length then label
  else
    let start : Encoder := ⟨0, 72, basic.length, true, []⟩
    let (done, _) := (points label).foldl (fun (s, least) n =>
      let s := { s with delta := s.delta + (n - least) * (s.handled + 1) }
      let s := encodePoint n label s
      ({ s with delta := s.delta + 1 }, n + 1)) (start, 128)
    "xn--".toList ++ basic ++ (if basic.isEmpty then [] else ['-']) ++ done.output

/-- A domain name with lower-case letters and every label in ASCII characters. -/
def encode (name : List Char) : List Char :=
  Text.joinWith ['.'] ((Text.splitOn (· == '.') (name.map Char.toLower)).map encodeLabel)

/-- Whether a character may not stand in a domain name. -/
def isForbidden (c : Char) : Bool :=
  c.toNat ≤ 0x20 || c.toNat == 0x7F || "%#/:<>?@[\\]^|".toList.contains c

end LuauWorkspace.Domain
