import Courier.Bytes

/-!
# Shipments
-/

namespace Courier

/-- Shipments of higher priority leave first. -/
abbrev Priority := Int

namespace Priority

def handshake : Priority := -1

def normal : Priority := 0

/-- Documents, logins and reports sent to everyone. -/
def broadcast : Priority := 1

end Priority

/-- A payload ready to be pushed, and the id of the message it was packed from. -/
structure Shipment where
  payload : Bytes
  priority : Priority
  origin : Option String
  deriving DecidableEq, Repr

end Courier
