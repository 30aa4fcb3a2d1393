/-!
# Milliseconds

Times and durations are 64-bit counts of milliseconds. Adding a delay stops at the greatest
time and a difference stops at zero, so neither wraps around.
-/

namespace Courier

abbrev Millis := UInt64

namespace Millis

/-- The greatest time. -/
def latest : Millis := 0xFFFFFFFFFFFFFFFF

/-- `delay` after `t`, but never later than `latest`. -/
def later (t delay : Millis) : Millis :=
  if latest - t < delay then latest else t + delay

/-- How long ago `t` was at `now`; zero for a time still to come. -/
def since (now t : Millis) : Millis :=
  if now < t then 0 else now - t

theorem toNat_latest : latest.toNat = 0xFFFFFFFFFFFFFFFF := rfl

theorem le_latest (t : Millis) : t ≤ latest := by
  rw [UInt64.le_iff_toNat_le, toNat_latest]
  have := t.toNat_lt
  omega

theorem toNat_later (t delay : Millis) :
    (later t delay).toNat = min (t.toNat + delay.toNat) latest.toNat := by
  have ht := t.toNat_lt
  have hd := delay.toNat_lt
  have hs : (latest - t).toNat = latest.toNat - t.toNat :=
    UInt64.toNat_sub_of_le _ _ (le_latest t)
  rw [toNat_latest] at hs ⊢
  unfold later
  split
  · rename_i h
    rw [UInt64.lt_iff_toNat_lt, hs] at h
    rw [toNat_latest]
    omega
  · rename_i h
    rw [UInt64.lt_iff_toNat_lt, hs] at h
    rw [UInt64.toNat_add]
    omega

theorem toNat_since (now t : Millis) : (since now t).toNat = now.toNat - t.toNat := by
  unfold since
  split
  · rename_i h
    rw [UInt64.lt_iff_toNat_lt] at h
    simp only [UInt64.toNat_zero]
    omega
  · rename_i h
    rw [UInt64.toNat_sub_of_le _ _ (UInt64.not_lt.mp h)]

theorem le_max_left (t u : Millis) : t ≤ max t u := by
  change t ≤ if t ≤ u then u else t
  split
  · assumption
  · exact UInt64.le_refl t

theorem le_max_right (t u : Millis) : u ≤ max t u := by
  change u ≤ if t ≤ u then u else t
  split
  · exact UInt64.le_refl u
  · rename_i h
    exact UInt64.le_of_lt (UInt64.not_le.mp h)

end Millis

end Courier
