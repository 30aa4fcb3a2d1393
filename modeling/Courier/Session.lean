import Courier.Delivery.Queue
import Courier.Lifecycle
import Courier.Settings

/-!
# Sessions

A session is one connection to one station: its transport, its delivery queue and its lifecycle.
Events from the transport may come late. A status that is not newer than the last one applied is
ignored, and a failure once seen is remembered until the session is reset.
-/

namespace Courier

/-- The connectivity that a session believes in. -/
structure Activity where
  active : Bool
  /-- When `active` last changed. -/
  changedAt : Millis
  connection : ConnectionStatus
  /-- The time of the last status applied. -/
  statusAt : Millis
  deriving DecidableEq, Repr

namespace Activity

def initial : Activity := ⟨false, 0, .idle, 0⟩

/-- Changes the flag, unless it is so already or the change is not newer than the last one. -/
def setActive (a : Activity) (flag : Bool) (time : Millis) : Bool × Activity :=
  if a.active = flag || time ≤ a.changedAt then (false, a)
  else (true, { a with active := flag, changedAt := time })

/-- Applies a status, unless it is not newer than the last one. -/
def accept? (a : Activity) (e : StatusEvent) : Option Activity :=
  if e.timestamp ≤ a.statusAt then none
  else
    let a := { a with connection := e.status, statusAt := e.timestamp }
    some (a.setActive (e.status == .ready) e.timestamp).2

/-- Forgets the connection but not the times. -/
def reset (a : Activity) : Activity :=
  { a with connection := .idle, active := false }

end Activity

structure Session (τ : Type) where
  station : Entity
  host : String
  port : UInt16
  transport : τ
  queue : DeliveryQueue
  identity : Option Entity
  key : Option String
  machine : Machine
  activity : Activity
  /-- Whether a transport error was seen since the last reset. -/
  transportFailed : Bool
  packetCursor : Cursor
  statusCursor : Cursor

namespace Session

variable {τ : Type}

/-- `host:port` of the station. -/
def remote (s : Session τ) : String :=
  s.host ++ ":" ++ Decimal.text s.port.toNat

def stage (s : Session τ) : Stage := s.machine.stage

def phase (s : Session τ) : Phase := s.machine.stage.phase

def isPaused (s : Session τ) : Bool := s.machine.paused

def isActive (s : Session τ) : Bool := s.activity.active

def connection (s : Session τ) : ConnectionStatus := s.activity.connection

def pause (s : Session τ) : Session τ := { s with machine := s.machine.pause }

def resume (s : Session τ) : Session τ := { s with machine := s.machine.resume }

/-- Binds an identity; also whether it is another one. A new identity makes the key void. -/
def setIdentity (s : Session τ) (identity : Option Entity) : Bool × Session τ :=
  if s.identity = identity then (false, s)
  else (true, { s with identity := identity, key := none })

def setKey (s : Session τ) (key : Option String) : Bool × Session τ :=
  if s.key = key then (false, s) else (true, { s with key := key })

def setActive (s : Session τ) (flag : Bool) (time : Millis) : Bool × Session τ :=
  let (changed, activity) := s.activity.setActive flag time
  (changed, { s with activity := activity })

/-- Remembers a failure of the transport; also whether it is the first one. -/
def markFailed (s : Session τ) : Bool × Session τ :=
  (!s.transportFailed, { s with transportFailed := true })

def applyStatus (s : Session τ) (e : StatusEvent) : Session τ :=
  match s.activity.accept? e with
  | none => s
  | some activity =>
    { s with
      activity := activity
      transportFailed := s.transportFailed || e.status == .error }

def snapshot (s : Session τ) : Snapshot :=
  ⟨s.identity.isSome, s.key.isSome, s.connection, s.transportFailed⟩

def evaluate? (s : Session τ) (now : Millis) : Option Transition :=
  s.machine.evaluate? s.snapshot now

def commit (s : Session τ) (t : Transition) : Except SessionError (Session τ) :=
  (s.machine.commit t).map fun m => { s with machine := m }

/-- Leaves the error phase and starts over without a failure, a connection or a key. -/
def reset (s : Session τ) (now : Millis) : Except SessionError (Transition × Session τ) :=
  (s.machine.reset now).map fun (t, m) =>
    (t, { s with
      machine := m
      transportFailed := false
      activity := s.activity.reset
      key := none })

/-- Queues a packed message; also whether it was not queued already. -/
def enqueue (s : Session τ) (message : MessageRef) (shipment : Shipment) (now : Millis) :
    Bool × Session τ :=
  let (queued, queue) := s.queue.append message shipment now
  (queued, { s with queue := queue })

variable [Transport τ]

/-- A session that hears everything its transport reports from now on. -/
def new (station : Entity) (host : String) (port : UInt16) (transport : τ) (settings : Settings)
    (now : Millis) : Session τ where
  station := station
  host := host
  port := port
  transport := transport
  queue := .new settings.retryPolicy
  identity := none
  key := none
  machine := .new now settings.handshakeTimeout
  activity := .initial
  transportFailed := false
  packetCursor := (Transport.packets transport).subscribe
  statusCursor := (Transport.statusEvents transport).subscribe

/-- Asks the transport to connect; a refusal counts as a failure. -/
def connect (s : Session τ) : Except TransportError Unit × Session τ :=
  let (result, transport) := Transport.connect s.transport s.remote
  let s := { s with transport := transport }
  match result with
  | .ok () => (.ok (), s)
  | .error e => (.error e, s.markFailed.2)

def close (s : Session τ) : Session τ :=
  { s with transport := Transport.close s.transport }

/-- Pumps the transport; also whether that moved anything. -/
def poll (s : Session τ) : Bool × Session τ :=
  let (result, transport) := Transport.poll s.transport
  let s := { s with transport := transport }
  match result with
  | .ok outcome => (outcome.isBusy, s)
  | .error _ => (false, s.markFailed.2)

def push (s : Session τ) (e : QueueEntry) : Except TransportError Bool × Session τ :=
  let (result, transport) := Transport.push s.transport e.shipment s.remote
  let s := { s with transport := transport }
  match result with
  | .ok taken => (.ok taken, s)
  | .error e => (.error e, s.markFailed.2)

def takePackets (s : Session τ) : List Packet × Session τ :=
  let (packets, cursor) := (Transport.packets s.transport).drain s.packetCursor
  (packets, { s with packetCursor := cursor })

def foldStatuses (s : Session τ) : Session τ :=
  let (events, cursor) := (Transport.statusEvents s.transport).drain s.statusCursor
  events.foldl applyStatus { s with statusCursor := cursor }

end Session

end Courier
