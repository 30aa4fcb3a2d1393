import Courier.Message
import Courier.SnapCache

/-!
# Delivery tracker

The last known status of each message, as far as the cache still holds it.
-/

namespace Courier

inductive DeliveryStatus where
  | queued
  | sent
  | failed (reason : String)
  deriving DecidableEq, Repr

structure DeliveryTracker where
  statuses : SnapCache String DeliveryStatus

namespace DeliveryTracker

def new (capacity : Nat) : DeliveryTracker :=
  ⟨.new capacity⟩

/-- Records a status. A finished delivery does not go back to queued. -/
def mark (t : DeliveryTracker) (m : MessageRef) (status : DeliveryStatus) :
    Bool × DeliveryTracker :=
  let (written, statuses) := t.statuses.insertUnless m.id status fun current =>
    status == .queued && current != .queued
  (written, ⟨statuses⟩)

def status? (t : DeliveryTracker) (m : MessageRef) : Option DeliveryStatus :=
  t.statuses.get? m.id

def reduce (t : DeliveryTracker) : Nat × DeliveryTracker :=
  let (dropped, statuses) := t.statuses.reduce
  (dropped, ⟨statuses⟩)

end DeliveryTracker

end Courier
