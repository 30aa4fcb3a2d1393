import Courier.Delivery.Shipment
import Courier.Error
import Courier.Time
import Courier.Transport.Channel

/-!
# Transports

A transport carries shipments to a station and reports packets and changes of connectivity through
two channels. Pushing has three outcomes: taken, not taken for now, or a failure of the channel
itself.
-/

namespace Courier

inductive ConnectionStatus where
  | idle
  | connecting
  | ready
  | error
  deriving DecidableEq, Repr

def ConnectionStatus.name : ConnectionStatus → String
  | .idle => "Idle"
  | .connecting => "Connecting"
  | .ready => "Ready"
  | .error => "Error"

/-- A packet from the station. -/
structure Packet where
  payload : Bytes
  /-- The address that it came from. -/
  remote : String
  timestamp : Option Int
  deriving DecidableEq, Repr

/-- A change of connectivity and when it was observed. -/
structure StatusEvent where
  status : ConnectionStatus
  timestamp : Millis
  deriving DecidableEq, Repr

/-- What one pump of the sockets moved. -/
structure PollOutcome where
  incoming : Bool
  outgoing : Bool
  deriving DecidableEq, Repr

def PollOutcome.isBusy (o : PollOutcome) : Bool :=
  o.incoming || o.outgoing

class Transport (τ : Type) where
  /-- Starts to connect; the status channel tells how it ends. -/
  connect : τ → String → Except TransportError Unit × τ
  /-- Whether the shipment was taken. -/
  push : τ → Shipment → String → Except TransportError Bool × τ
  poll : τ → Except TransportError PollOutcome × τ
  close : τ → τ
  status : τ → ConnectionStatus
  packets : τ → Channel Packet
  statusEvents : τ → Channel StatusEvent

end Courier
