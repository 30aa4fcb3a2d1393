import Courier.Decimal.Shortest
import Courier.Json.Token
import Courier.Json.Value

/-!
# What a written number denotes

A whole number in the 64-bit range is kept exactly. Any other number is read into the binary
format in two roundings: its digits are gathered into a 64-bit integer as far as they fit, and
that integer is then scaled by a power of ten.
-/

namespace Courier.Json

def greatestGathered : Nat := UInt64.size - 1

/-- Appends digits to a number while the result fits 64 bits; also the digits that are left over. -/
def gather (n : Nat) : List Nat → Nat × List Nat
  | [] => (n, [])
  | d :: ds => if 10 * n + d ≤ greatestGathered then gather (10 * n + d) ds else (n, d :: ds)

namespace Numeral

/-- A whole number without sign, for a member of a fixed unsigned type. -/
def natural? (n : Numeral) : Option Nat :=
  if n.negative || !n.fraction.isEmpty || n.exponent.isSome then none
  else some (Decimal.value n.whole)

def writtenExponent (n : Numeral) : Int :=
  match n.exponent with
  | none => 0
  | some (below, ds) => if below then -(Decimal.value ds : Int) else Decimal.value ds

/-- The nearest number to the gathered digits, scaled. Leftover whole digits count as zeros and
leftover decimals not at all. -/
def float? (n : Numeral) : Option Binary64 :=
  let (w, left) := gather 0 n.whole
  let (s, dropped) := gather w n.fraction
  let kept := n.fraction.length - dropped.length
  let x := Binary64.ofDecimal? s (n.writtenExponent + left.length - kept)
  if n.negative then x.map Binary64.neg else x

/-- The value of a number kept freely. Zero with a sign is not a whole number. -/
def value? (n : Numeral) : Option Json :=
  let magnitude := Decimal.value n.whole
  let whole : Bool := n.fraction.isEmpty && n.exponent.isNone
  if whole && !n.negative && magnitude ≤ greatestGathered then some (.int magnitude)
  else if whole && n.negative && 0 < magnitude && leastInt ≤ -magnitude then
    some (.int (-magnitude))
  else n.float?.map .float

theorem canonical_of_value? {n : Numeral} {v : Json} (h : n.value? = some v) : v.Canonical := by
  unfold value? at h
  simp only [Bool.and_eq_true, decide_eq_true_eq] at h
  split at h
  · rename_i hw
    cases h
    simp only [Canonical, leastInt, greatestInt, greatestGathered, UInt64.size] at hw ⊢
    omega
  · split at h
    · rename_i hw
      cases h
      simp only [Canonical, leastInt, greatestInt] at hw ⊢
      omega
    · obtain ⟨x, _, rfl⟩ := Option.map_eq_some_iff.mp h
      simp [Canonical]

end Numeral

end Courier.Json
