import Courier.Session

/-!
# Iterations of a session

One iteration applies the waiting statuses, makes at most one transition, pumps the transport and
hands out what came in, and then sends one shipment or drops the expired ones. A paused session
only applies statuses, and the transport of a failed one is left alone. An observer is told of
everything on the way and may act on the session.
-/

namespace Courier

/-- What an observer with state `σ` does when it is told something. -/
structure Observer (τ σ : Type) where
  /-- A transition was made; its effect is due. -/
  moved : Transition → Session τ × σ → Session τ × σ
  received : Packet → Session τ × σ → Session τ × σ
  sent : MessageRef → σ → σ
  failed : MessageRef → String → σ → σ

/-- What an observer was told, in order. -/
inductive Report where
  | before (t : Transition)
  | after (t : Transition)
  | received (payload : Bytes)
  | sent (m : MessageRef)
  | failed (m : MessageRef) (reason : String)
  deriving DecidableEq, Repr

/-- A session with its observer and the reports made so far. -/
structure Watched (τ σ : Type) where
  session : Session τ
  observer : σ
  reports : List Report

namespace Watched

variable {τ σ : Type}

def report (w : Watched τ σ) (r : Report) : Watched τ σ :=
  { w with reports := w.reports ++ [r] }

def act (w : Watched τ σ) (f : Session τ × σ → Session τ × σ) : Watched τ σ :=
  let (session, observer) := f (w.session, w.observer)
  { w with session := session, observer := observer }

/-- Makes the transition that the session calls for, if there is one. -/
def move (o : Observer τ σ) (now : Millis) (w : Watched τ σ) : Watched τ σ :=
  match w.session.evaluate? now with
  | none => w
  | some t =>
    let w := w.report (.before t)
    match w.session.commit t with
    | .error _ => w
    | .ok session => ({ w with session := session }.report (.after t)).act (o.moved t)

def receive (o : Observer τ σ) (w : Watched τ σ) (p : Packet) : Watched τ σ :=
  (w.report (.received p.payload)).act (o.received p)

def fail (o : Observer τ σ) (reason : String) (w : Watched τ σ) (e : QueueEntry) : Watched τ σ :=
  let w := w.report (.failed e.message reason)
  { w with observer := o.failed e.message reason w.observer }

def purge (o : Observer τ σ) (now : Millis) (w : Watched τ σ) : Watched τ σ :=
  let (expired, queue) := w.session.queue.purge now
  expired.foldl (fail o "expired") { w with session := { w.session with queue := queue } }

def retry (o : Observer τ σ) (now : Millis) (e : QueueEntry) (reason : String)
    (w : Watched τ σ) : Watched τ σ :=
  let (outcome, queue) := w.session.queue.retry e now
  let w := { w with session := { w.session with queue := queue } }
  match outcome with
  | .requeued => w
  | .exhausted e => w.fail o reason e

variable [Transport τ]

/-- Pumps the transport and hands out what came in; also whether anything moved. -/
def pump (o : Observer τ σ) (w : Watched τ σ) : Bool × Watched τ σ :=
  let (busy, session) := w.session.poll
  let (packets, session) := session.takePackets
  (busy || !packets.isEmpty, packets.foldl (receive o) { w with session := session })

/-- Pushes an entry that was handed out, and settles it. -/
def dispatch (o : Observer τ σ) (now : Millis) (e : QueueEntry) (w : Watched τ σ) :
    Watched τ σ :=
  let (result, session) := w.session.push e
  let w := { w with session := session }
  match result with
  | .ok true =>
    let w := { w with session := { w.session with queue := w.session.queue.complete e } }
    let w := w.report (.sent e.message)
    { w with observer := o.sent e.message w.observer }
  | .ok false => w.retry o now e "transport refused shipment"
  | .error cause => w.retry o now e cause.message

/-- Sends one due shipment if the session is active, and otherwise drops the expired ones; also
whether there was one to send. -/
def send (o : Observer τ σ) (now : Millis) (w : Watched τ σ) : Bool × Watched τ σ :=
  if w.session.isActive then
    match w.session.queue.next now with
    | some (e, queue) =>
      (true, { w with session := { w.session with queue := queue } }.dispatch o now e)
    | none => (false, w.purge o now)
  else (false, w.purge o now)

/-- One iteration; also whether it moved anything. -/
def iterate (o : Observer τ σ) (now : Millis) (w : Watched τ σ) : Bool × Watched τ σ :=
  let w := { w with session := w.session.foldStatuses }
  if w.session.isPaused then (false, w)
  else
    let w := w.move o now
    if w.session.phase = .error then w.send o now
    else
      let (busy, w) := w.pump o
      if busy then (true, w) else w.send o now

end Watched

/-- The observer that connects the session when it is due and ignores everything else. -/
def Observer.connecting {τ σ : Type} [Transport τ] : Observer τ σ where
  moved t := fun (s, x) => if t.effect = .connect then (s.connect.2, x) else (s, x)
  received _ := id
  sent _ := id
  failed _ _ := id

end Courier
