/-!
Decimal digits of every script, and numbers written in them. Neither written nor read are integers
of more than `maxDigits` digits.
-/

namespace SqlCompose

def maxDigits : Nat := 4300

/-- The number of decimal digits of `n`, one for zero. -/
def digitCount (n : Nat) : Nat := (Nat.toDigits 10 n).length

/-- The decimal text of `n`, if it is not too long. -/
def decimal? (n : Int) : Option String :=
  if digitCount n.natAbs ≤ maxDigits then some (toString n) else none

/-- The zeros of Unicode 14 (category Nd). The digits one to nine of a script follow its zero. -/
def digitZeros : List Nat := [
  0x30, 0x660, 0x6F0, 0x7C0, 0x966, 0x9E6, 0xA66, 0xAE6, 0xB66, 0xBE6,
  0xC66, 0xCE6, 0xD66, 0xDE6, 0xE50, 0xED0, 0xF20, 0x1040, 0x1090, 0x17E0,
  0x1810, 0x1946, 0x19D0, 0x1A80, 0x1A90, 0x1B50, 0x1BB0, 0x1C40, 0x1C50, 0xA620,
  0xA8D0, 0xA900, 0xA9D0, 0xA9F0, 0xAA50, 0xABF0, 0xFF10, 0x104A0, 0x10D30, 0x11066,
  0x110F0, 0x11136, 0x111D0, 0x112F0, 0x11450, 0x114D0, 0x11650, 0x116C0, 0x11730, 0x118E0,
  0x11950, 0x11C50, 0x11D50, 0x11DA0, 0x16A60, 0x16AC0, 0x16B50, 0x1D7CE, 0x1D7D8, 0x1D7E2,
  0x1D7EC, 0x1D7F6, 0x1E140, 0x1E2F0, 0x1E950, 0x1FBF0]

def anyDigit? (c : Char) : Option Nat :=
  (digitZeros.find? fun z => z ≤ c.toNat && c.toNat ≤ z + 9).map (c.toNat - ·)

def asciiDigit? (c : Char) : Option Nat :=
  if '0' ≤ c ∧ c ≤ '9' then some (c.toNat - '0'.toNat) else none

def ofDigits (ds : List Nat) : Nat := ds.foldl (fun n d => 10 * n + d) 0

/-- The number that ASCII digits write. -/
def digitsValue (s : List Char) : Nat := ofDigits (s.filterMap asciiDigit?)

/-- One or more items, between two of which one underscore may stand. -/
def grouped? (item? : Char → Option α) : List Char → Option (List α)
  | [] => none
  | [c] => (item? c).map ([·])
  | c :: '_' :: s => do return (← item? c) :: (← grouped? item? s)
  | c :: s => do return (← item? c) :: (← grouped? item? s)

/-- A sign that a text may start with, `true` for a minus, and what follows. -/
def takeSign : List Char → Bool × List Char
  | '-' :: s => (true, s)
  | '+' :: s => (false, s)
  | s => (false, s)

def signed (negative : Bool) (n : Nat) : Int := if negative then -n else n

end SqlCompose
