import LuauWorkspace.Text.Split
import LuauWorkspace.Uri.Percent

/-! # Numeric hosts

Hosts that are addresses. Four numbers of eight bits are written in decimal with points; eight
groups of sixteen bits are written in hexadecimal with colons, where `::` stands for groups of
zeros. -/

namespace LuauWorkspace.Address

/-- The number that digits in a base spell. -/
def number? (base : Nat) (digits : List Char) : Option Nat :=
  digits.foldl (fun n? c => do
    let d ← Percent.hexValue? c
    if d < base then return base * (← n?) + d else none) (some 0)

/-! ## Addresses of 32 bits -/

/-- One part of an address: hexadecimal after `0x`, octal after `0`, decimal otherwise. -/
def part? : List Char → Option Nat
  | [] => none
  | '0' :: 'x' :: digits => number? 16 digits
  | '0' :: 'X' :: digits => number? 16 digits
  | '0' :: digits@(_ :: _) => number? 8 digits
  | digits => number? 10 digits

/-- The parts of a host between points; one point at the end is ignored. -/
def parts (host : List Char) : List (List Char) :=
  match (Text.splitOn (· == '.') host).reverse with
  | [] :: rest@(_ :: _) => rest.reverse
  | all => all.reverse

/-- Whether a host is read as an address: its last part is a number. -/
def endsInNumber (host : List Char) : Bool :=
  match (parts host).getLast? with
  | some last => !last.isEmpty && (last.all Char.isDigit || (part? last).isSome)
  | none => false

/-- A number as so many bytes, and what does not fit into them. -/
def bytes : Nat → Nat → List Nat × Nat
  | 0, n => ([], n)
  | count + 1, n =>
    let (front, rest) := bytes count (n / 256)
    (front ++ [n % 256], rest)

/-- Bytes with points between them. -/
def showBytes (bytes : List Nat) : List Char :=
  Text.joinWith ['.'] (bytes.map (Nat.toDigits 10))

/-- The canonical form of a host that ends in a number. The last part fills the bytes that the
others leave. -/
def ofParts? (host : List Char) : Option (List Char) := do
  let numbers ← (parts host).mapM part?
  let last ← numbers.getLast?
  let leading := numbers.dropLast
  let (tail, rest) := bytes (4 - leading.length) last
  if 3 < leading.length ∨ 0 < rest ∨ leading.any (255 < ·) then none
  else return showBytes (leading ++ tail)

/-! ## Addresses of 128 bits -/

/-- A group of sixteen bits: one to four hexadecimal digits. -/
def group? (digits : List Char) : Option Nat :=
  if digits.isEmpty ∨ 4 < digits.length then none else number? 16 digits

/-- A byte in decimal without zeros in front. -/
def byte? (digits : List Char) : Option Nat := do
  let n ← number? 10 digits
  if digits = Nat.toDigits 10 n ∧ n < 256 then return n else none

/-- The groups between colons; four bytes with points may end the last list of groups. -/
def groups? (bytesAllowed : Bool) (text : List Char) : Option (List Nat) :=
  if text.isEmpty then some []
  else
    let pieces := Text.splitOn (· == ':') text
    match pieces.getLast? with
    | none => none
    | some last => do
      let front ← pieces.dropLast.mapM group?
      if bytesAllowed ∧ last.contains '.' then
        match ← (Text.splitOn (· == '.') last).mapM byte? with
        | [a, b, c, d] => return front ++ [256 * a + b, 256 * c + d]
        | _ => none
      else return front ++ [← group? last]

/-- What stands before and after the first `::`. -/
def splitGap : List Char → Option (List Char × List Char)
  | ':' :: ':' :: rest => some ([], rest)
  | c :: rest => (splitGap rest).map fun (before, after) => (c :: before, after)
  | [] => none

/-- The eight groups that a text between brackets spells. -/
def eightGroups? (text : List Char) : Option (List Nat) := do
  match splitGap text with
  | none =>
    let groups ← groups? true text
    if groups.length = 8 then return groups else none
  | some (before, after) =>
    let front ← groups? false before
    let back ← groups? true after
    if front.length + back.length ≤ 7 then
      return front ++ List.replicate (8 - front.length - back.length) 0 ++ back
    else none

/-- The length of the run of zeros at the beginning of a list. -/
def zeroRun (groups : List Nat) : Nat := (groups.takeWhile (· == 0)).length

/-- Where the first of the longest runs of at least two zeros starts, and its length. -/
def longestRun (groups : List Nat) : Option (Nat × Nat) :=
  (List.range groups.length).foldl (fun best start =>
    let run := zeroRun (groups.drop start)
    if run < 2 then best
    else match best with
      | some (_, length) => if length < run then some (start, run) else best
      | none => some (start, run)) none

/-- Eight groups with colons between them; the longest run of zeros is left out. -/
def showGroups (groups : List Nat) : List Char :=
  let join (groups : List Nat) := Text.joinWith [':'] (groups.map (Nat.toDigits 16))
  match longestRun groups with
  | none => join groups
  | some (start, run) => join (groups.take start) ++ [':', ':'] ++ join (groups.drop (start + run))

end LuauWorkspace.Address
