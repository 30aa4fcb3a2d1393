import Courier.Proofs.Delivery.Eviction
import Mathlib.Algebra.Group.Nat.Defs

/-!
# Half-eviction in any order

A pass drops the entries at odd places, and which entries those are depends on the order in which a
table hands out its entries. Nothing is known of this order, and it may be another one in every
pass. Whatever it is, half of the entries stay, and what stays is what was written last.
-/

namespace Courier

/-! ### Passes -/

section Passes

variable {α : Type}

/-- The entries at even places, the first of which is the one after `start`. -/
def evens (start : Nat) (as : List α) : List α :=
  ((as.zipIdx (start + 1)).filter fun p => p.2 % 2 = 0).map Prod.fst

theorem evens_cons (start : Nat) (a : α) (as : List α) : evens start (a :: as) =
    if (start + 1) % 2 = 0 then a :: evens (start + 1) as else evens (start + 1) as := by
  simp only [evens, List.zipIdx_cons, List.filter_cons, decide_eq_true_eq]
  split <;> rfl

theorem length_evens (start : Nat) (as : List α) :
    (evens start as).length = (as.length + start % 2) / 2 := by
  induction as generalizing start with
  | nil =>
    simp only [evens, List.zipIdx_nil, List.filter_nil, List.map_nil, List.length_nil]
    omega
  | cons a as ih =>
    rw [evens_cons, List.length_cons]
    split
    · rw [List.length_cons, ih]
      omega
    · rw [ih]
      omega

/-- What a pass keeps depends on the parity of its first place only. -/
theorem snap_snd {finger : UInt64} {start : Nat} (h : finger.toNat % 2 = start % 2) (as : List α) :
    (snap finger as).2 = evens start as := by
  induction as generalizing finger start with
  | nil => rfl
  | cons a as ih =>
    have hnext : (finger + 1).toNat % 2 = (start + 1) % 2 := by
      rw [UInt64.toNat_add]
      simp only [UInt64.toNat_one]
      omega
    have heven : (finger + 1) % 2 = 0 ↔ (start + 1) % 2 = 0 := by
      rw [← UInt64.toNat_inj, UInt64.toNat_mod]
      exact iff_of_eq (congrArg (· = 0) hnext)
    rw [snap, evens_cons]
    simp only [heven, ih hnext]

theorem snap_append (finger : UInt64) (as bs : List α) : snap finger (as ++ bs) =
    ((snap (snap finger as).1 bs).1, (snap finger as).2 ++ (snap (snap finger as).1 bs).2) := by
  induction as generalizing finger with
  | nil => rfl
  | cons a as ih =>
    rw [List.cons_append, snap, ih, snap]
    dsimp only
    split <;> rfl

/-- Passes over several lists in turn, each of which goes on counting where the last one ended. -/
def snapEach (finger : UInt64) : List (List α) → UInt64 × List (List α)
  | [] => (finger, [])
  | as :: rest =>
    let (next, kept) := snap finger as
    let (last, others) := snapEach next rest
    (last, kept :: others)

theorem snap_fst (finger : UInt64) (as : List α) :
    (snap finger as).1 = finger + UInt64.ofNat as.length := by
  induction as generalizing finger with
  | nil => exact (UInt64.add_zero finger).symm
  | cons a as ih =>
    rw [snap]
    dsimp only
    rw [ih, List.length_cons, UInt64.ofNat_add, UInt64.add_assoc, UInt64.add_comm 1]
    rfl

theorem snapEach_eq_flatten (finger : UInt64) (maps : List (List α)) :
    (snapEach finger maps).1 = (snap finger maps.flatten).1 ∧
      (snapEach finger maps).2.flatten = (snap finger maps.flatten).2 := by
  induction maps generalizing finger with
  | nil => exact ⟨rfl, rfl⟩
  | cons as maps ih =>
    obtain ⟨hlast, hkept⟩ := ih (snap finger as).1
    rw [List.flatten_cons, snap_append]
    exact ⟨hlast, congrArg ((snap finger as).2 ++ ·) hkept⟩

/-- An entry has the same place in its own list as in the whole. -/
theorem snapEach_getElem? {finger : UInt64} {start : Nat} (h : finger.toNat % 2 = start % 2)
    (maps : List (List α)) (i : Nat) : (snapEach finger maps).2[i]? =
      maps[i]?.map (evens (start + (maps.take i).flatten.length)) := by
  induction maps generalizing finger start i with
  | nil => rfl
  | cons as maps ih =>
    cases i with
    | zero => exact congrArg some (snap_snd h as)
    | succ i =>
      have hnext : (snap finger as).1.toNat % 2 = (start + as.length) % 2 := by
        rw [snap_fst, UInt64.toNat_add, UInt64.toNat_ofNat']
        omega
      rw [List.take_succ_cons, List.flatten_cons, List.length_append, ← Nat.add_assoc]
      exact ih hnext i

end Passes

/-! ### Tables -/

namespace Table

variable {κ α : Type} [DecidableEq κ] {t : Table κ α}

theorem get?_eq_none {key : κ} : t.get? key = none ↔ key ∉ t.entries.map Prod.fst := by
  rw [get?, Option.map_eq_none_iff, List.find?_eq_none, List.mem_map, not_exists]
  refine forall_congr' fun p => ?_
  rw [not_and]
  exact imp_congr_right fun _ => not_congr decide_eq_true_iff

theorem Distinct.size_insert (h : t.Distinct) (key : κ) (a : α) :
    (t.insert key a).size = if t.get? key = none then t.size + 1 else t.size := by
  have hcount : t.entries.countP (·.1 = key) = if key ∈ t.entries.map Prod.fst then 1 else 0 := by
    rw [← List.Nodup.count h, List.count, List.countP_map]
    rfl
  have hothers : (t.insert key a).size = t.entries.countP (fun p => ¬p.1 = key) + 1 := by
    rw [List.countP_eq_length_filter]
    rfl
  have hsize : t.size = t.entries.countP (·.1 = key) + t.entries.countP (fun p => ¬p.1 = key) := by
    rw [size]
    simpa using List.length_eq_countP_add_countP fun p : κ × α => decide (p.1 = key)
  simp only [get?_eq_none, ite_not]
  split at hcount
  · rename_i hmem
    rw [if_pos hmem]
    omega
  · rename_i hmem
    rw [if_neg hmem]
    omega

end Table

/-! ### Caches -/

/-- An order in which a table hands out its entries. -/
structure IterationOrder (α : Type) where
  arrange : List α → List α
  perm : ∀ as, (arrange as).Perm as

def IterationOrder.asListed {α : Type} : IterationOrder α :=
  ⟨id, fun _ => .refl _⟩

inductive CacheCall (κ α : Type) where
  | insert (key : κ) (a : α)
  | insertUnless (key : κ) (a : α) (keep : α → Bool)
  | remove (key : κ)
  | reduce

namespace SnapCache

variable {κ α : Type}

def arranged (c : SnapCache κ α) (order : IterationOrder (κ × α)) : SnapCache κ α :=
  { c with table := ⟨order.arrange c.table.entries⟩ }

theorem size_arranged (c : SnapCache κ α) (order : IterationOrder (κ × α)) :
    (c.arranged order).size = c.size :=
  (order.perm c.table.entries).length_eq

theorem distinct_arranged {c : SnapCache κ α} (h : c.table.Distinct)
    (order : IterationOrder (κ × α)) : (c.arranged order).table.Distinct :=
  ((order.perm c.table.entries).map Prod.fst).nodup_iff.mpr h

theorem size_snapped (c : SnapCache κ α) : c.snapped.size = c.size / 2 := by
  have hsnapped : c.snapped.size = (evens 0 c.table.entries).length :=
    congrArg List.length (snap_snd rfl c.table.entries)
  rw [hsnapped, length_evens]
  rfl

variable [DecidableEq κ]

/-- A pass writes nothing, whatever the order. -/
theorem get?_of_get?_snapped {c : SnapCache κ α} (h : c.table.Distinct)
    {order : IterationOrder (κ × α)} {key : κ} {a : α}
    (hget : (c.arranged order).snapped.get? key = some a) : c.get? key = some a := by
  have hkept := Table.mem_of_get? hget
  have harranged : (key, a) ∈ order.arrange c.table.entries := (snap_sublist 0 _).subset hkept
  exact h.get?_of_mem ((order.perm _).mem_iff.mp harranged)

/-! ### Calls -/

def call (c : SnapCache κ α) : CacheCall κ α → SnapCache κ α
  | .insert key a => c.insert key a
  | .insertUnless key a keep => (c.insertUnless key a keep).2
  | .remove key => (c.remove key).2
  | .reduce => c.reduce.2

/-- An insertion, and a pass in the given order if the cache outgrows its capacity. -/
def insertIn (c : SnapCache κ α) (order : IterationOrder (κ × α)) (key : κ) (a : α) :
    SnapCache κ α :=
  let c := { c with table := c.table.insert key a }
  if c.capacity < c.size then (c.arranged order).snapped else c

/-- A call during which the table hands out its entries in the given order. -/
def callIn (c : SnapCache κ α) (order : IterationOrder (κ × α)) : CacheCall κ α → SnapCache κ α
  | .insert key a => c.insertIn order key a
  | .insertUnless key a keep => if (c.get? key).any keep then c else c.insertIn order key a
  | .remove key => (c.remove key).2
  | .reduce => (c.arranged order).reduce.2

theorem callIn_asListed (c : SnapCache κ α) (call : CacheCall κ α) :
    c.callIn .asListed call = c.call call := by
  cases call with
  | insertUnless key a keep =>
    rw [callIn, SnapCache.call, SnapCache.insertUnless]
    split <;> rfl
  | _ => rfl

/-- What a call itself writes or removes. -/
def change? (c : SnapCache κ α) : CacheCall κ α → Option (κ × Option α)
  | .insert key a => some (key, some a)
  | .insertUnless key a keep => if (c.get? key).any keep then none else some (key, some a)
  | .remove key => some (key, none)
  | .reduce => none

/-- What holds of a cache in every run. -/
structure Sound (limit : Nat) (c : SnapCache κ α) : Prop where
  distinct : c.table.Distinct
  capacity : c.capacity = limit
  size_le : c.size ≤ limit

section Calls

variable {c : SnapCache κ α} {limit : Nat} {key : κ} {a : α}

theorem insertIn_cases (c : SnapCache κ α) (order : IterationOrder (κ × α)) (key : κ) (a : α) :
    c.capacity < (c.table.insert key a).size ∧ c.insertIn order key a =
        (({ c with table := c.table.insert key a } : SnapCache κ α).arranged order).snapped ∨
      ¬c.capacity < (c.table.insert key a).size ∧
        c.insertIn order key a = { c with table := c.table.insert key a } := by
  unfold insertIn
  dsimp only
  split
  · exact .inl ⟨‹_›, rfl⟩
  · exact .inr ⟨‹_›, rfl⟩

theorem Sound.size_insertIn (h : c.Sound limit) (order : IterationOrder (κ × α)) (key : κ) (a : α) :
    (c.insertIn order key a).size = if c.get? key = none then
      if c.size = limit then (limit + 1) / 2 else c.size + 1
    else c.size := by
  have hinserted : (c.table.insert key a).size = if c.get? key = none then c.size + 1 else c.size :=
    h.distinct.size_insert key a
  have hle := h.size_le
  have hcapacity := h.capacity
  rcases c.insertIn_cases order key a with ⟨hover, hkept⟩ | ⟨hfits, hkept⟩
  · have hhalf : (c.insertIn order key a).size = (c.table.insert key a).size / 2 := by
      rw [hkept, size_snapped, size_arranged]
      rfl
    by_cases hnew : c.get? key = none
    · rw [if_pos hnew] at hinserted ⊢
      have hfull : c.size = limit := by omega
      rw [if_pos hfull, hhalf, hinserted, hfull]
    · rw [if_neg hnew] at hinserted
      omega
  · have hwhole : (c.insertIn order key a).size = (c.table.insert key a).size := by
      rw [hkept]
      rfl
    rw [hwhole, hinserted]
    by_cases hnew : c.get? key = none
    · rw [if_pos hnew] at hinserted ⊢
      have hroom : c.size ≠ limit := by omega
      rw [if_pos hnew, if_neg hroom]
    · rw [if_neg hnew, if_neg hnew]

omit [DecidableEq κ] in
theorem Sound.snapped (h : c.Sound limit) (order : IterationOrder (κ × α)) :
    (c.arranged order).snapped.Sound limit where
  distinct := (distinct_arranged h.distinct order).sublist (snap_sublist 0 _)
  capacity := h.capacity
  size_le := by
    rw [size_snapped, size_arranged]
    exact Nat.le_trans (Nat.div_le_self _ _) h.size_le

theorem Sound.insertIn (h : c.Sound limit) (hlimit : 1 ≤ limit) (order : IterationOrder (κ × α))
    (key : κ) (a : α) : (c.insertIn order key a).Sound limit := by
  refine ⟨?_, ?_, ?_⟩
  · have hinserted := h.distinct.insert key a
    rcases c.insertIn_cases order key a with ⟨-, hkept⟩ | ⟨-, hkept⟩
    · rw [hkept]
      exact (distinct_arranged hinserted order).sublist (snap_sublist 0 _)
    · rw [hkept]
      exact hinserted
  · rcases c.insertIn_cases order key a with ⟨-, hkept⟩ | ⟨-, hkept⟩
    · rw [hkept]
      exact h.capacity
    · rw [hkept]
      exact h.capacity
  · have hle := h.size_le
    rw [h.size_insertIn order key a]
    split
    · split <;> omega
    · exact hle

theorem Sound.callIn (h : c.Sound limit) (hlimit : 1 ≤ limit) (order : IterationOrder (κ × α))
    (call : CacheCall κ α) : (c.callIn order call).Sound limit := by
  cases call with
  | insert key a => exact h.insertIn hlimit order key a
  | insertUnless key a keep =>
    rw [SnapCache.callIn]
    split
    · exact h
    · exact h.insertIn hlimit order key a
  | remove key =>
    refine ⟨h.distinct.sublist List.filter_sublist, h.capacity, ?_⟩
    exact Nat.le_trans (List.length_filter_le _ _) h.size_le
  | reduce => exact h.snapped order

/-- What is found after an insertion was inserted, or was there before. -/
theorem get?_of_get?_insertIn (h : c.table.Distinct) {order : IterationOrder (κ × α)} {k : κ}
    {b : α} (hget : (c.insertIn order key a).get? k = some b) :
    k = key ∧ b = a ∨ k ≠ key ∧ c.get? k = some b := by
  rcases c.insertIn_cases order key a with ⟨-, hkept⟩ | ⟨-, hkept⟩
  · rw [hkept] at hget
    exact Table.of_get?_insert (get?_of_get?_snapped (h.insert key a) hget)
  · rw [hkept] at hget
    exact Table.of_get?_insert hget

theorem get?_of_get?_callIn (h : c.table.Distinct) {order : IterationOrder (κ × α)}
    {call : CacheCall κ α} (hget : (c.callIn order call).get? key = some a) :
    c.change? call = some (key, some a) ∨
      c.get? key = some a ∧ ∀ x ∈ c.change? call, x.1 ≠ key := by
  have hinsert (k : κ) (b : α) (hget : (c.insertIn order k b).get? key = some a) :
      some (k, some b) = some (key, some a) ∨
        c.get? key = some a ∧ ∀ x ∈ some (k, some b), x.1 ≠ key := by
    rcases get?_of_get?_insertIn h hget with ⟨rfl, rfl⟩ | ⟨hother, hget⟩
    · exact .inl rfl
    · exact .inr ⟨hget, fun x hx => Option.some.inj hx ▸ Ne.symm hother⟩
  cases call with
  | insert k b => exact hinsert k b hget
  | insertUnless k b keep =>
    rw [callIn] at hget
    rw [change?]
    split at hget
    · rename_i hkeep
      rw [if_pos hkeep]
      exact .inr ⟨hget, fun x hx => absurd hx (Option.not_mem_none x)⟩
    · rename_i hkeep
      rw [if_neg hkeep]
      exact hinsert k b hget
  | remove k =>
    have herased : (c.table.erase k).get? key = some a := hget
    rw [Table.get?_erase] at herased
    split at herased
    · cases herased
    · rename_i hother
      exact .inr ⟨herased, fun x hx => Option.some.inj hx ▸ Ne.symm hother⟩
  | reduce =>
    exact .inr ⟨get?_of_get?_snapped h hget, fun x hx => absurd hx (Option.not_mem_none x)⟩

end Calls

/-! ### Runs -/

def runIn (c : SnapCache κ α) (steps : List (IterationOrder (κ × α) × CacheCall κ α)) :
    SnapCache κ α :=
  steps.foldl (fun c s => c.callIn s.1 s.2) c

/-- Passes in the given orders, and nothing in between. -/
def passes (c : SnapCache κ α) (orders : List (IterationOrder (κ × α))) : SnapCache κ α :=
  c.runIn (orders.map (·, .reduce))

def changes (c : SnapCache κ α) :
    List (IterationOrder (κ × α) × CacheCall κ α) → List (κ × Option α)
  | [] => []
  | s :: steps => (c.change? s.2).toList ++ (c.callIn s.1 s.2).changes steps

/-- The value was written under the key, where nothing was written or removed since. -/
def LastWritten (changes : List (κ × Option α)) (key : κ) (a : α) : Prop :=
  ∃ before after, changes = before ++ (key, some a) :: after ∧ ∀ x ∈ after, x.1 ≠ key

section Runs

variable {c : SnapCache κ α} {limit : Nat}

theorem Sound.runIn (h : c.Sound limit) (hlimit : 1 ≤ limit)
    (steps : List (IterationOrder (κ × α) × CacheCall κ α)) : (c.runIn steps).Sound limit := by
  induction steps generalizing c with
  | nil => exact h
  | cons s steps ih => exact ih (h.callIn hlimit s.1 s.2)

theorem size_passes (c : SnapCache κ α) (orders : List (IterationOrder (κ × α))) :
    (c.passes orders).size = c.size / 2 ^ orders.length := by
  induction orders generalizing c with
  | nil => exact (Nat.div_one _).symm
  | cons order orders ih =>
    have hpass : (c.callIn order .reduce).size = c.size / 2 := by
      rw [callIn]
      exact (size_snapped _).trans (congrArg (· / 2) (c.size_arranged order))
    rw [List.length_cons, Nat.pow_succ', ← Nat.div_div_eq_div_mul, ← hpass]
    exact ih (c.callIn order .reduce)

/-- By induction on the steps: what is found was there from the start and nothing was done to it, or
was written on the way and nothing was done to it since. -/
theorem Sound.lastWritten (h : c.Sound limit) (hlimit : 1 ≤ limit)
    {steps : List (IterationOrder (κ × α) × CacheCall κ α)} {key : κ} {a : α}
    (hget : (c.runIn steps).get? key = some a) :
    LastWritten (c.changes steps) key a ∨
      c.get? key = some a ∧ ∀ x ∈ c.changes steps, x.1 ≠ key := by
  induction steps generalizing c with
  | nil => exact .inr ⟨hget, nofun⟩
  | cons s steps ih =>
    rw [changes]
    rcases ih (h.callIn hlimit s.1 s.2) hget with ⟨before, after, hafter, hrest⟩ | ⟨hget, hrest⟩
    · exact .inl ⟨(c.change? s.2).toList ++ before, after, by rw [hafter, List.append_assoc], hrest⟩
    · rcases get?_of_get?_callIn h.distinct hget with hwritten | ⟨hget, hother⟩
      · exact .inl ⟨[], _, by rw [hwritten]; rfl, hrest⟩
      · refine .inr ⟨hget, fun x hx => ?_⟩
        rcases List.mem_append.mp hx with hx | hx
        · exact hother x (Option.mem_toList.mp hx)
        · exact hrest x hx

end Runs

/-- Whatever is called, and in whatever orders the table hands out its entries on the way, a cache
does not outgrow its capacity, and what is found in it was written last. An insertion that would
overfill the cache leaves half of the entries, any other one drops nothing. A pass drops half of the
entries, rounded up, so that repeated passes empty the cache. In the order in which the entries are
listed the calls are those of the program. Passes over several lists that go on counting keep the
same places as one over all of them. -/
theorem bounded_and_truthful (capacity : Nat)
    (steps : List (IterationOrder (κ × α) × CacheCall κ α)) :
    let c := (new capacity).runIn steps
    c.size ≤ max capacity 1 ∧
    (∀ key a, c.get? key = some a → LastWritten ((new capacity).changes steps) key a) ∧
    (∀ order key a, (c.insertIn order key a).size =
      if c.get? key = none then
        if c.size = max capacity 1 then (max capacity 1 + 1) / 2 else c.size + 1
      else c.size) ∧
    (∀ order, (c.arranged order).reduce.1 = (c.size + 1) / 2 ∧
      (c.arranged order).reduce.2.size = c.size / 2) ∧
    (∀ orders, (c.passes orders).size = c.size / 2 ^ orders.length ∧
      (orders.length = c.size.log2 + 1 → (c.passes orders).size = 0)) ∧
    (∀ call, c.callIn .asListed call = c.call call) ∧
    ∀ (finger : UInt64) {β : Type} (maps : List (List β)),
      (snapEach finger maps).1 = (snap finger maps.flatten).1 ∧
      (snap finger maps.flatten).2 = evens finger.toNat maps.flatten ∧
      ∀ i, (snapEach finger maps).2[i]? =
        maps[i]?.map (evens (finger.toNat + (maps.take i).flatten.length)) := by
  intro c
  have hnew : (new capacity : SnapCache κ α).Sound (max capacity 1) := ⟨.nil, rfl, Nat.zero_le _⟩
  have hlimit : 1 ≤ max capacity 1 := Nat.le_max_right capacity 1
  have h : c.Sound (max capacity 1) := hnew.runIn hlimit steps
  refine ⟨h.size_le, ?_, h.size_insertIn, ?_, ?_, c.callIn_asListed, ?_⟩
  · intro key a hget
    rcases hnew.lastWritten hlimit hget with hwritten | ⟨hstart, -⟩
    · exact hwritten
    · cases hstart
  · intro order
    have hleft : (c.arranged order).snapped.size = c.size / 2 := by
      rw [size_snapped, size_arranged]
    refine ⟨?_, hleft⟩
    rw [reduce, hleft, size_arranged]
    omega
  · intro orders
    refine ⟨c.size_passes orders, fun hlength => ?_⟩
    rw [c.size_passes orders, hlength]
    exact Nat.div_eq_of_lt Nat.lt_log2_self
  · intro finger β maps
    exact ⟨(snapEach_eq_flatten finger maps).1, snap_snd rfl maps.flatten,
      snapEach_getElem? rfl maps⟩

def fromTheEnd {α : Type} : IterationOrder α :=
  ⟨List.reverse, List.reverse_perm⟩

/-- The fifth entry is one too many. Handed out from the oldest on, every second one stays; of these
one is kept as it is, one is overwritten and then one of the two is removed. -/
def overfilled : List (IterationOrder (Nat × Nat) × CacheCall Nat Nat) :=
  [(.asListed, .insert 0 0), (fromTheEnd, .insert 1 10), (.asListed, .insert 2 20),
    (.asListed, .insert 3 30), (fromTheEnd, .insert 4 40), (.asListed, .insertUnless 3 31 (30 ≤ ·)),
    (fromTheEnd, .insertUnless 1 11 (30 ≤ ·)), (.asListed, .remove 3), (.asListed, .insert 5 50)]

theorem bounded_and_truthful_overfilled :
    let c : SnapCache Nat Nat := (new 4).runIn overfilled
    ((new 4).runIn (overfilled.take 4) : SnapCache Nat Nat).size = 4 ∧
    ((new 4).runIn (overfilled.take 5) : SnapCache Nat Nat).size = (4 + 1) / 2 ∧
    c.size = 2 ∧ c.get? 1 = some 11 ∧ LastWritten ((new 4).changes overfilled) 1 11 ∧
    (c.passes [fromTheEnd, .asListed]).size = 0 := by
  intro c
  have hfull : ((new 4).runIn (overfilled.take 4) : SnapCache Nat Nat).size = 4 := by decide
  have hfourth : ((new 4).runIn (overfilled.take 4) : SnapCache Nat Nat).get? 4 = none := by decide
  have hsize : c.size = 2 := by decide
  have hfound : c.get? 1 = some 11 := by decide
  obtain ⟨-, -, hinsert, -⟩ := bounded_and_truthful 4 (overfilled.take 4)
  obtain ⟨-, hwritten, -, -, hpasses, -⟩ := bounded_and_truthful 4 overfilled
  have hlimit : max 4 1 = 4 := rfl
  have hhalved := hinsert fromTheEnd 4 40
  rw [if_pos hfourth, hlimit, if_pos hfull] at hhalved
  exact ⟨hfull, hhalved, hsize, hfound, hwritten 1 11 hfound,
    (hpasses [fromTheEnd, .asListed]).2 (congrArg (Nat.log2 · + 1) hsize).symm⟩

end SnapCache

end Courier
