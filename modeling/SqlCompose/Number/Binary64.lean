import SqlCompose.Text.Digit

/-!
Floating-point numbers of 64 bits, by exact arithmetic on their bits, and the number nearest to a
decimal.
-/

namespace SqlCompose

/-- `n * base ^ e`, and just `n` if `e` is negative. A factor `base ^ e` of a fraction is applied to
its numerator by `timesPower base · e` and to its denominator by `timesPower base · (-e)`. -/
def timesPower (base n : Nat) (e : Int) : Nat := n * Nat.pow base e.toNat

structure Binary64 where
  bits : UInt64
  deriving DecidableEq

namespace Binary64

/-- The weight of the lowest bit of the exponent, above the 52 bits of the fraction. -/
def exponentUnit : Nat := 0x10000000000000

/-- The weight of the sign bit, above the 11 bits of the exponent. -/
def signBit : Nat := 0x8000000000000000

/-- The exponent field of infinities and of what is not a number. -/
def topExponent : Nat := 2047

def negative (x : Binary64) : Bool := signBit ≤ x.bits.toNat

def exponentField (x : Binary64) : Nat := x.bits.toNat / exponentUnit % (topExponent + 1)

def fractionField (x : Binary64) : Nat := x.bits.toNat % exponentUnit

def isFinite (x : Binary64) : Bool := x.exponentField < topExponent

def isNaN (x : Binary64) : Bool := !x.isFinite && x.fractionField != 0

/-- A finite number is `significand * 2 ^ scale`, but for its sign. -/
def significand (x : Binary64) : Nat :=
  if x.exponentField = 0 then x.fractionField else exponentUnit + x.fractionField

def scale (x : Binary64) : Int := max x.exponentField 1 - 1075

/-- A finite number is `numerator / denominator`, but for its sign. -/
def numerator (x : Binary64) : Nat := timesPower 2 x.significand x.scale

def denominator (x : Binary64) : Nat := timesPower 2 1 (-x.scale)

def ofMagnitude (negative : Bool) (bits : Nat) : Binary64 :=
  ⟨UInt64.ofNat (if negative then signBit + bits else bits)⟩

def infinity (negative : Bool) : Binary64 := ofMagnitude negative (topExponent * exponentUnit)

def nan : Binary64 := ofMagnitude false (topExponent * exponentUnit + exponentUnit / 2)

/-- The integer next to a finite number toward zero. -/
def truncate (x : Binary64) : Int :=
  let n := x.numerator / x.denominator
  if x.negative then -n else n

/-- A finite number without a fractional part. -/
def isIntegral (x : Binary64) : Bool := x.numerator % x.denominator == 0

/-- Rounds `num / den` to the nearest integer; of two to the even one. -/
def nearestEven (num den : Nat) : Nat :=
  let low := num / den
  let rest := num % den
  if den < 2 * rest ∨ (den = 2 * rest ∧ low % 2 = 1) then low + 1 else low

/-- The `e` for which `num / den` is at least `2 ^ e` and less than `2 ^ (e + 1)`. -/
def binaryOrder (num den : Nat) : Int :=
  let e : Int := (num.log2 : Int) - den.log2
  if timesPower 2 den e ≤ timesPower 2 num (-e) then e else e - 1

/-- The bits of the number nearest to `num / den`; of two the one with an even significand. -/
def nearestBits (num den : Nat) : Nat :=
  if num = 0 then 0
  else
    let scale := max (binaryOrder num den - 52) (-1074)
    let n := nearestEven (timesPower 2 num (-scale)) (timesPower 2 den scale)
    if n < exponentUnit then n
    else min ((scale + 1075).toNat * exponentUnit + (n - exponentUnit)) (topExponent * exponentUnit)

/-- The number nearest to `digits * 10 ^ exponent`. Powers that are certain to leave the range are
not computed. -/
def ofDecimal (negative : Bool) (digits : Nat) (exponent : Int) : Binary64 :=
  let order := digitCount digits + exponent
  if digits = 0 ∨ order < -330 then ofMagnitude negative 0
  else if 310 < order then infinity negative
  else
    ofMagnitude negative
      (nearestBits (timesPower 10 digits exponent) (timesPower 10 1 (-exponent)))

end Binary64
end SqlCompose
