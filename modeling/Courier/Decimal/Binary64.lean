import Courier.Decimal

/-!
# Binary floating point in exact arithmetic

A finite number of the 64-bit binary format is a sign, a significand below `2 ^ 53` and a power
of two. Every operation computes its exact rational result and rounds it once, to the nearest
number and from halfway to the even significand.
-/

namespace Courier

open Decimal (tenTo)

/-- The number `± significand * 2 ^ exponent`. The significand is at least `2 ^ 52` unless the
exponent is the least one. -/
structure Binary64 where
  negative : Bool
  significand : Nat
  exponent : Int
  deriving DecidableEq, Repr

namespace Binary64

def leastExponent : Int := -1074

def greatestExponent : Int := 971

def twoTo (n : Nat) : Nat :=
  Nat.pow 2 n

def zero : Binary64 := ⟨false, 0, leastExponent⟩

def neg (x : Binary64) : Binary64 :=
  { x with negative := !x.negative }

/-- The significand and the power of two as a fraction of naturals. -/
def ratio (x : Binary64) : Nat × Nat :=
  if 0 ≤ x.exponent then (x.significand * twoTo x.exponent.toNat, 1)
  else (x.significand, twoTo (-x.exponent).toNat)

/-- The nearest natural number to `num / den`; a half goes to the even neighbour. -/
def roundHalfEven (num den : Nat) : Nat :=
  let q := num / den
  let r := num % den
  if 2 * r < den then q
  else if den < 2 * r then q + 1
  else if q % 2 = 0 then q else q + 1

/-- `num / den` divided by `2 ^ e`, rounded. -/
def scaled (num den : Nat) (e : Int) : Nat :=
  if 0 ≤ e then roundHalfEven num (den * twoTo e.toNat)
  else roundHalfEven (num * twoTo (-e).toNat) den

/-- The power of two whose multiples hold 53 bits of `num / den`, or the least one. -/
def unitExponent (num den : Nat) : Int :=
  let e : Int := (num.log2 : Int) - den.log2 - 53
  let narrow : Bool :=
    if 0 ≤ e then num / (den * twoTo e.toNat) < twoTo 53
    else num * twoTo (-e).toNat / den < twoTo 53
  max leastExponent (if narrow then e else e + 1)

/-- The number nearest to `num / den`, unless that lies beyond the greatest one. -/
def ofRatio? (num den : Nat) : Option Binary64 :=
  if num = 0 then some zero
  else
    let e := unitExponent num den
    let m := scaled num den e
    let (m, e) := if m = twoTo 53 then (twoTo 52, e + 1) else (m, e)
    if e ≤ greatestExponent then some ⟨false, m, e⟩ else none

def mul? (x y : Binary64) : Option Binary64 :=
  (ofRatio? (x.ratio.1 * y.ratio.1) (x.ratio.2 * y.ratio.2)).map fun z =>
    { z with negative := x.negative != y.negative }

def div? (x y : Binary64) : Option Binary64 :=
  (ofRatio? (x.ratio.1 * y.ratio.2) (x.ratio.2 * y.ratio.1)).map fun z =>
    { z with negative := x.negative != y.negative }

def powerOfTen? (n : Nat) : Option Binary64 :=
  ofRatio? (tenTo n) 1

def greatestPower : Nat := 308

/-- `x` divided by the greatest power `k` times and then by `10 ^ n`; each division rounds. -/
def divPowers? : Nat → Nat → Binary64 → Option Binary64
  | 0, n, x => (powerOfTen? n).bind x.div?
  | k + 1, n, x =>
    if x.significand = 0 then some x
    else ((powerOfTen? greatestPower).bind x.div?).bind (divPowers? k n)

/-- `s * 10 ^ e` for a natural number `s`: rounds `s`, then scales it; nothing when the result
lies beyond the greatest number. -/
def ofDecimal? (s : Nat) (e : Int) : Option Binary64 :=
  (ofRatio? s 1).bind fun x =>
    if e < 0 then
      let n := (-e).toNat - 1
      divPowers? (n / greatestPower) (n % greatestPower + 1) x
    else if x.significand = 0 then some x
    else if e.toNat ≤ greatestPower then (powerOfTen? e.toNat).bind x.mul?
    else none

end Binary64

end Courier
