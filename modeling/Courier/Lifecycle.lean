import Courier.Error
import Courier.Time
import Courier.Transport.Basic

/-!
# The lifecycle of a session

A session connects, proves its identity and then serves traffic. The machine looks at a snapshot
of the session, derives an event from it and looks the event up in a table; the transition found
is committed later, and only if the machine has not moved since. A failed session stays in its
error phase until it is reset.
-/

namespace Courier

/-- A phase and the time at which it was entered. -/
structure Stage where
  phase : Phase
  enteredAt : Millis
  deriving DecidableEq, Repr

inductive LifecycleEvent where
  | identityAssigned
  | connectionEstablished
  | connectFailed
  | noError
  | connectionLost
  | handshakeExpired
  | keyAccepted
  | sessionCleared
  | reset
  deriving DecidableEq, Repr

def LifecycleEvent.name : LifecycleEvent → String
  | .identityAssigned => "IdentityAssigned"
  | .connectionEstablished => "ConnectionEstablished"
  | .connectFailed => "ConnectFailed"
  | .noError => "NoError"
  | .connectionLost => "ConnectionLost"
  | .handshakeExpired => "HandshakeExpired"
  | .keyAccepted => "KeyAccepted"
  | .sessionCleared => "SessionCleared"
  | .reset => "Reset"

/-- What has to be done once a transition is committed. -/
inductive Effect where
  | none
  | connect
  | sendHandshake
  | broadcastDocuments
  /-- Forget the cooldowns that were armed in the failed session. -/
  | resetFreshness
  deriving DecidableEq, Repr

def Effect.name : Effect → String
  | .none => "None"
  | .connect => "Connect"
  | .sendHandshake => "SendHandshake"
  | .broadcastDocuments => "BroadcastDocuments"
  | .resetFreshness => "ResetFreshness"

/-- The transition table. -/
def Phase.follow? : Phase → LifecycleEvent → Option (Phase × Effect)
  | .default, .identityAssigned => some (.connecting, .connect)
  | .connecting, .connectionEstablished => some (.connected, .none)
  | .connecting, .connectFailed => some (.error, .resetFreshness)
  | .connected, .noError => some (.handshaking, .sendHandshake)
  | .handshaking, .handshakeExpired => some (.connected, .none)
  | .handshaking, .keyAccepted => some (.running, .broadcastDocuments)
  | .running, .sessionCleared => some (.default, .none)
  | .error, .reset => some (.default, .none)
  | .error, _ => none
  | _, .connectionLost => some (.error, .resetFreshness)
  | _, _ => none

/-- Everything about a session that its lifecycle depends on. -/
structure Snapshot where
  hasIdentity : Bool
  hasKey : Bool
  connection : ConnectionStatus
  /-- Whether a transport error was seen since the last reset. -/
  transportFailed : Bool
  deriving DecidableEq, Repr

namespace Snapshot

def isBroken (s : Snapshot) : Bool :=
  s.transportFailed || s.connection == .error

def isReady (s : Snapshot) : Bool :=
  s.connection == .ready

end Snapshot

/-- The event that a snapshot implies. -/
def Stage.detect? (stage : Stage) (s : Snapshot) (now handshakeTimeout : Millis) :
    Option LifecycleEvent :=
  if stage.phase = .error then none
  else if s.isBroken then
    some (if stage.phase = .connecting then .connectFailed else .connectionLost)
  else
    match stage.phase with
    | .default => if s.hasIdentity then some .identityAssigned else none
    | .connecting => if s.isReady then some .connectionEstablished else none
    | .connected => some (if s.isReady then .noError else .connectionLost)
    | .handshaking =>
      if !s.isReady then some .connectionLost
      else if s.hasKey then some .keyAccepted
      else if handshakeTimeout < Millis.since now stage.enteredAt then some .handshakeExpired
      else none
    | .running =>
      if !s.isReady then some .connectionLost
      else if !s.hasIdentity || !s.hasKey then some .sessionCleared
      else none
    | .error => none

structure Transition where
  source : Stage
  target : Stage
  event : LifecycleEvent
  effect : Effect
  deriving DecidableEq, Repr

structure Machine where
  stage : Stage
  paused : Bool
  handshakeTimeout : Millis
  deriving DecidableEq, Repr

namespace Machine

def new (now handshakeTimeout : Millis) : Machine :=
  ⟨⟨.default, now⟩, false, handshakeTimeout⟩

def pause (m : Machine) : Machine := { m with paused := true }

def resume (m : Machine) : Machine := { m with paused := false }

def transition? (m : Machine) (event : LifecycleEvent) (now : Millis) : Option Transition :=
  (m.stage.phase.follow? event).map fun (phase, effect) =>
    ⟨m.stage, ⟨phase, now⟩, event, effect⟩

/-- The next transition, without making it. A paused machine has none. -/
def evaluate? (m : Machine) (s : Snapshot) (now : Millis) : Option Transition :=
  if m.paused then none
  else (m.stage.detect? s now m.handshakeTimeout).bind fun event => m.transition? event now

/-- Makes a transition, unless the machine has moved since it was found. -/
def commit (m : Machine) (t : Transition) : Except SessionError Machine :=
  if m.stage = t.source then .ok { m with stage := t.target }
  else .error (.invalidTransition m.stage.phase t.target.phase)

def reset (m : Machine) (now : Millis) : Except SessionError (Transition × Machine) :=
  match m.transition? .reset now with
  | none => .error (.invalidTransition m.stage.phase .default)
  | some t => (m.commit t).map (t, ·)

end Machine

end Courier
