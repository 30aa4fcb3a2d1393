/-!
# Broadcast channels

A channel keeps the last items that were sent into it. Every receiver reads on from its own
place; one that fell too far behind loses the oldest items and learns how many.
-/

namespace Courier

structure Channel (α : Type) where
  /-- How many items were ever sent. -/
  sent : Nat
  /-- The last of them, oldest first. -/
  recent : List α

/-- The place in a channel up to which a receiver has read. -/
structure Cursor where
  read : Nat
  deriving DecidableEq, Repr

namespace Channel

variable {α : Type}

def capacity : Nat := 128

def empty : Channel α :=
  ⟨0, []⟩

instance : Inhabited (Channel α) :=
  ⟨empty⟩

def send (c : Channel α) (a : α) : Channel α :=
  let recent := c.recent ++ [a]
  ⟨c.sent + 1, recent.drop (recent.length - capacity)⟩

def subscribe (c : Channel α) : Cursor :=
  ⟨c.sent⟩

def lost (c : Channel α) (cursor : Cursor) : Nat :=
  c.sent - cursor.read - c.recent.length

def waiting (c : Channel α) (cursor : Cursor) : List α :=
  c.recent.drop (c.recent.length - (c.sent - cursor.read))

def drain (c : Channel α) (cursor : Cursor) : List α × Cursor :=
  (c.waiting cursor, c.subscribe)

end Channel

end Courier
