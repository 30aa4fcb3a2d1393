import Courier.Bytes

/-!
# Decimal digits

A natural number as its decimal digits, most significant first, without leading zeros, and the
number that a list of digits denotes.
-/

namespace Courier.Decimal

def digits (n : Nat) : List Nat :=
  if n < 10 then [n] else digits (n / 10) ++ [n % 10]

def tenTo (n : Nat) : Nat :=
  Nat.pow 10 n

/-- The number denoted by digits, most significant first. -/
def value (ds : List Nat) : Nat :=
  ds.foldl (fun n d => 10 * n + d) 0

theorem value_append (ds : List Nat) (d : Nat) : value (ds ++ [d]) = 10 * value ds + d := by
  simp [value]

theorem value_digits (n : Nat) : value (digits n) = n := by
  induction n using Nat.strongRecOn with
  | ind n ih =>
    rw [digits]
    split
    · simp [value]
    · rw [value_append, ih (n / 10) (by omega)]
      omega

theorem digits_lt (n : Nat) : ∀ d ∈ digits n, d < 10 := by
  induction n using Nat.strongRecOn with
  | ind n ih =>
    rw [digits]
    split
    · simpa
    · intro d hd
      rw [List.mem_append, List.mem_singleton] at hd
      cases hd with
      | inl h => exact ih (n / 10) (by omega) d h
      | inr h => omega

theorem digits_ne_nil (n : Nat) : digits n ≠ [] := by
  rw [digits]
  split <;> simp

def digitByte (d : Nat) : UInt8 :=
  0x30 + d.toUInt8

def digit? (b : UInt8) : Option Nat :=
  if 0x30 ≤ b ∧ b ≤ 0x39 then some (b - 0x30).toNat else none

theorem digit?_digitByte {d : Nat} (h : d < 10) : digit? (digitByte d) = some d := by
  have : ∀ e : Fin 10, digit? (digitByte e.val) = some e.val := by decide
  exact this ⟨d, h⟩

def bytes (n : Nat) : Bytes :=
  (digits n).map digitByte

def text (n : Nat) : String :=
  String.ofList ((digits n).map Nat.digitChar)

end Courier.Decimal
