import Courier.Table

/-!
# Half-eviction caches

A cache that outgrows its capacity drops every other entry in whatever order the entries stand. One
pass over `n` entries leaves `n / 2` of them.
-/

namespace Courier

/-- Walks over entries with a running position and keeps those at which the position is even. The
position goes on to the next walk. -/
def snap {α : Type} (finger : UInt64) : List α → UInt64 × List α
  | [] => (finger, [])
  | a :: rest =>
    let (last, kept) := snap (finger + 1) rest
    (last, if (finger + 1) % 2 = 0 then a :: kept else kept)

structure SnapCache (κ α : Type) where
  table : Table κ α
  capacity : Nat

namespace SnapCache

variable {κ α : Type} [DecidableEq κ]

/-- The capacity is at least one. -/
def new (capacity : Nat) : SnapCache κ α :=
  ⟨.empty, max capacity 1⟩

def size (c : SnapCache κ α) : Nat :=
  c.table.size

def get? (c : SnapCache κ α) (key : κ) : Option α :=
  c.table.get? key

def snapped (c : SnapCache κ α) : SnapCache κ α :=
  { c with table := ⟨(snap 0 c.table.entries).2⟩ }

def insert (c : SnapCache κ α) (key : κ) (a : α) : SnapCache κ α :=
  let c := { c with table := c.table.insert key a }
  if c.capacity < c.size then c.snapped else c

/-- Inserts unless the present entry is one to keep; also whether it did. -/
def insertUnless (c : SnapCache κ α) (key : κ) (a : α) (keep : α → Bool) : Bool × SnapCache κ α :=
  if (c.get? key).any keep then (false, c) else (true, c.insert key a)

def remove (c : SnapCache κ α) (key : κ) : Option α × SnapCache κ α :=
  (c.get? key, { c with table := c.table.erase key })

/-- One eviction pass, and how many entries it dropped. -/
def reduce (c : SnapCache κ α) : Nat × SnapCache κ α :=
  (c.size - c.snapped.size, c.snapped)

end SnapCache

end Courier
