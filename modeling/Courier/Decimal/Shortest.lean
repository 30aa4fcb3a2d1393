import Courier.Decimal.Binary64

/-!
# Shortest decimal digits

The decimal text of a binary number has the fewest significant digits that still read back as
that number, and among those the digits nearest to it.
-/

namespace Courier.Binary64

open Decimal (tenTo)

/-- The reals that round to a number, as an interval over a common denominator. -/
structure Basin where
  low : Nat
  value : Nat
  high : Nat
  denominator : Nat
  /-- Whether the ends of the interval round to the number as well. -/
  closed : Bool

/-- The halfway points to the two neighbours. The lower neighbour of a power of two is only half as
far away. -/
def basin (x : Binary64) : Basin :=
  let m := x.significand
  let below := if m = twoTo 52 ∧ leastExponent < x.exponent then 1 else 2
  let scale := twoTo (x.exponent - 2).toNat
  { low := (4 * m - below) * scale
    value := 4 * m * scale
    high := (4 * m + 2) * scale
    denominator := twoTo (2 - x.exponent).toNat
    closed := m % 2 == 0 }

/-- Whether `n * 10 ^ e` lies in the interval. -/
def Basin.holds (b : Basin) (n : Nat) (e : Int) : Bool :=
  let p := n * tenTo e.toNat * b.denominator
  let s := tenTo (-e).toNat
  if b.closed then b.low * s ≤ p && p ≤ b.high * s else b.low * s < p && p < b.high * s

/-- The decimal point of the number: the least `k` for which it is below `10 ^ k`. -/
def Basin.point (b : Basin) : Int :=
  if b.denominator ≤ b.value then (Decimal.digits (b.value / b.denominator)).length
  else
    -- the reciprocal has one digit more than the zeros after the point, unless it is a power of ten
    let r := (b.denominator - 1) / b.value
    1 - (Decimal.digits r).length

/-- The digits of the number on the grid `10 ^ e`, if one of the two grid points around it rounds
to it: the nearer one, and from halfway the even one. -/
def Basin.onGrid? (b : Basin) (e : Int) : Option Nat :=
  let num := b.value * tenTo (-e).toNat
  let den := b.denominator * tenTo e.toNat
  let n := num / den
  let near := roundHalfEven num den
  let far := if near = n then n + 1 else n
  if b.holds near e then some near
  else if b.holds far e then some far
  else none

/-- Searches the grids of `k`, `k + 1`, … digits. -/
def Basin.search (b : Basin) (point : Int) : Nat → Nat → Nat × Int
  | 0, k =>
    (b.value * tenTo (k - point).toNat / (b.denominator * tenTo (point - k).toNat), point - k)
  | tries + 1, k =>
    match b.onGrid? (point - k) with
    | some n => (n, point - k)
    | none => b.search point tries (k + 1)

/-- A non-zero number as the integer `d` and the exponent `e` of its shortest form `d * 10 ^ e`. -/
def shortest (x : Binary64) : Nat × Int :=
  let b := x.basin
  b.search b.point 17 1

/-- How a binary number is written: positionally while its decimal point lies from `leastPoint` to
`greatestPoint`, and otherwise with a signed exponent. -/
structure Style where
  leastPoint : Int
  greatestPoint : Int

def trimZeros (ds : List Nat) : List Nat :=
  (ds.reverse.dropWhile (· == 0)).reverse

/-- Digits with the decimal point after the first `point` of them. -/
def positional (ds : List Nat) (point : Int) : Bytes :=
  let ascii := ds.map Decimal.digitByte
  let zero : UInt8 := 0x30
  let dot : UInt8 := 0x2E
  if point ≤ 0 then [zero, dot] ++ List.replicate (-point).toNat zero ++ ascii
  else
    let whole := ascii.take point.toNat
    let whole := whole ++ List.replicate (point.toNat - whole.length) zero
    match ascii.drop point.toNat with
    | [] => whole ++ [dot, zero]
    | fraction => whole ++ [dot] ++ fraction

/-- One digit, the rest after a point, and the exponent with its sign. -/
def scientific (ds : List Nat) (point : Int) : Bytes :=
  let ascii := ds.map Decimal.digitByte
  let e := point - 1
  let exponent := (if e < 0 then 0x2D else 0x2B) :: Decimal.bytes e.natAbs
  match ascii with
  | [] => []
  | [d] => d :: 0x65 :: exponent
  | d :: rest => d :: 0x2E :: rest ++ 0x65 :: exponent

def bytes (style : Style) (x : Binary64) : Bytes :=
  let sign : Bytes := if x.negative then [0x2D] else []
  if x.significand = 0 then sign ++ positional [0] 1
  else
    let (n, e) := x.shortest
    let all := Decimal.digits n
    let point := e + all.length
    let ds := trimZeros all
    if style.leastPoint ≤ point ∧ point ≤ style.greatestPoint then sign ++ positional ds point
    else sign ++ scientific ds point

end Courier.Binary64
