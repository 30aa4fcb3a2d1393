import Courier.Delivery.Queue

/-!
# Settings
-/

namespace Courier

structure Settings where
  /-- How long a handshake may stay unanswered before it is sent again. -/
  handshakeTimeout : Millis
  /-- The least time between two equal queries. -/
  queryCooldown : Millis
  /-- The pause after an iteration that moved something. -/
  busyInterval : Millis
  /-- The pause after an idle iteration. -/
  idleInterval : Millis
  maxRetries : UInt32
  retryDelay : Millis
  /-- The age at which a waiting shipment is dropped. -/
  shipmentExpiry : Millis
  keepOnlineInterval : Millis
  /-- The time that a report of presence gets around a pause. -/
  backgroundReportDelay : Millis
  /-- How many delivery statuses are held before half of them are dropped. -/
  deliveryCacheCapacity : Nat
  userAgent : String
  deriving DecidableEq, Repr

namespace Settings

def agent (system architecture : String) : String :=
  "DIMP/1.0 (" ++ system ++ "; U; " ++ architecture ++ ") StationClient/0.1.0"

def standard (userAgent : String) : Settings where
  handshakeTimeout := 30000
  queryCooldown := 600000
  busyInterval := 16
  idleInterval := 256
  maxRetries := 3
  retryDelay := 2000
  shipmentExpiry := 600000
  keepOnlineInterval := 300000
  backgroundReportDelay := 512
  deliveryCacheCapacity := 1024
  userAgent := userAgent

def retryPolicy (s : Settings) : RetryPolicy :=
  ⟨s.maxRetries, s.retryDelay, s.shipmentExpiry⟩

end Settings

end Courier
