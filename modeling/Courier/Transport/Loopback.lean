import Courier.Transport.Basic

/-!
# Loopback transport

A transport without a network. It keeps every shipment that it took, and packets, changes of
connectivity and failures of pushes are put into it by hand.
-/

namespace Courier

inductive PushFault where
  /-- Refuses one push, and as many more as it says. -/
  | refuse (more : Nat)
  | break
  deriving DecidableEq, Repr

structure Loopback where
  status : ConnectionStatus
  remote : Option String
  /-- The shipments taken, each with its destination. -/
  pushed : List (Shipment × String)
  /-- What happens to the next pushes. -/
  faults : List PushFault
  /-- Whether connecting succeeds at once. -/
  autoReady : Bool
  closed : Bool
  pending : PollOutcome
  /-- The logical clock that stamps changes of connectivity. -/
  ticks : Millis
  packets : Channel Packet
  statusEvents : Channel StatusEvent

namespace Loopback

def new (autoReady : Bool) : Loopback where
  status := .idle
  remote := none
  pushed := []
  faults := []
  autoReady := autoReady
  closed := false
  pending := ⟨false, false⟩
  ticks := 0
  packets := .empty
  statusEvents := .empty

/-- Becomes ready as soon as it is told to connect. -/
def auto : Loopback := new true

/-- Stays connecting until its status is set. -/
def manual : Loopback := new false

def emit (t : Loopback) (status : ConnectionStatus) (time : Millis) : Loopback :=
  { t with status := status, statusEvents := t.statusEvents.send ⟨status, time⟩ }

/-- Changes connectivity at a given time, which the clock does not stay behind. -/
def setStatus (t : Loopback) (status : ConnectionStatus) (time : Millis) : Loopback :=
  { t with ticks := max t.ticks time }.emit status time

def changeStatus (t : Loopback) (status : ConnectionStatus) : Loopback :=
  { t with ticks := t.ticks + 1 }.emit status (t.ticks + 1)

def deliver (t : Loopback) (payload : Bytes) : Loopback :=
  { t with
    pending := { t.pending with incoming := true }
    packets := t.packets.send ⟨payload, t.remote.getD "", none⟩ }

def deliverTimes (t : Loopback) : Nat → Bytes → Loopback
  | 0, _ => t
  | n + 1, payload => (t.deliver payload).deliverTimes n payload

def refuseNextPushes (t : Loopback) (count : Nat) : Loopback :=
  match count with
  | 0 => t
  | more + 1 => { t with faults := t.faults ++ [.refuse more] }

def breakNextPush (t : Loopback) : Loopback :=
  { t with faults := t.faults ++ [.break] }

def takePushed (t : Loopback) : List (Shipment × String) × Loopback :=
  (t.pushed, { t with pushed := [] })

def connect (t : Loopback) (remote : String) : Except TransportError Unit × Loopback :=
  if remote.isEmpty then (.error (.connectFailed remote), t)
  else
    let t := { t with remote := some remote, closed := false }.changeStatus .connecting
    (.ok (), if t.autoReady then t.changeStatus .ready else t)

def push (t : Loopback) (s : Shipment) (destination : String) :
    Except TransportError Bool × Loopback :=
  if t.closed then (.error .closed, t)
  else if t.status ≠ .ready then (.ok false, t)
  else
    match t.faults with
    | .refuse 0 :: faults => (.ok false, { t with faults := faults })
    | .refuse (more + 1) :: faults => (.ok false, { t with faults := .refuse more :: faults })
    | .break :: faults => (.error .connectionLost, { t with faults := faults }.changeStatus .error)
    | [] => (.ok true, { t with
        pushed := t.pushed ++ [(s, destination)]
        pending := { t.pending with outgoing := true } })

def poll (t : Loopback) : Except TransportError PollOutcome × Loopback :=
  if t.closed then (.error .closed, t)
  else if t.status = .error then (.error .connectionLost, t)
  else (.ok t.pending, { t with pending := ⟨false, false⟩ })

def close (t : Loopback) : Loopback :=
  { t with closed := true }.changeStatus .idle

instance : Transport Loopback where
  connect := connect
  push := push
  poll := poll
  close := close
  status := status
  packets := packets
  statusEvents := statusEvents

end Loopback

end Courier
