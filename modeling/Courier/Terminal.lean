import Courier.Client.Observing
import Courier.Group
import Courier.Transport.Loopback

/-!
# Terminals

A terminal holds at most one connection at a time and carries its account and the bound identity
from one connection to the next. While it waits, time goes on by single milliseconds: the session
iterates again after a short pause when something moved and after a longer one otherwise, and
from time to time the client refreshes its presence.
-/

namespace Courier

/-- A client and the times at which its two activities are due again. -/
structure Connection where
  client : Client Loopback
  iterateAt : Nat
  presenceAt : Nat

inductive Link where
  | offline (account : Account)
  | online (connection : Connection)

structure Terminal where
  link : Link
  /-- The sessions of earlier connections, closed, oldest first. -/
  past : List (Session Loopback)
  /-- How long the terminal has waited so far. -/
  elapsed : Nat
  /-- Makes the transport to a station. -/
  factory : String → UInt16 → Except TransportError Loopback

namespace Connection

def iterate (c : Connection) (time : Nat) : Connection :=
  let (busy, _, client) := c.client.iterate
  let s := client.account.settings
  let pause := if busy then s.busyInterval else s.idleInterval
  { c with client := client, iterateAt := time + pause.toNat }

def keepOnline (c : Connection) (time : Nat) : Connection :=
  let s := c.client.session
  let client :=
    if s.isPaused || s.phase ≠ .running then c.client else Client.doing Client.keepOnline c.client
  { c with
    client := client
    presenceAt := time + client.account.settings.keepOnlineInterval.toNat }

/-- Does what is due, the presence before the session, so that a report of the presence can leave
with the iteration that is due with it. -/
def wake (c : Connection) (time : Nat) : Connection :=
  let c := if c.presenceAt ≤ time then c.keepOnline time else c
  if c.iterateAt ≤ time then c.iterate time else c

/-- A new connection over a transport, which starts with an iteration. -/
def start (account : Account) (host : String) (port : UInt16) (transport : Loopback)
    (identity : Option Entity) (time : Nat) : Connection :=
  let s := Session.new .anyStation host port transport account.settings account.clock
  let client : Client Loopback := ⟨(s.setIdentity identity).2, .new account⟩
  let presence := time + account.settings.keepOnlineInterval.toNat
  Connection.iterate ⟨client, time, presence⟩ time

end Connection

namespace Terminal

def new (account : Account) (factory : String → UInt16 → Except TransportError Loopback) :
    Terminal :=
  ⟨.offline account, [], 0, factory⟩

def account (t : Terminal) : Account :=
  match t.link with
  | .offline account => account
  | .online c => c.client.account

def modifyAccount (f : Account → Account) (t : Terminal) : Terminal :=
  match t.link with
  | .offline account => { t with link := .offline (f account) }
  | .online c => { t with link := .online { c with client := c.client.modifyAccount f } }

def connection? (t : Terminal) : Option Connection :=
  match t.link with
  | .offline _ => none
  | .online c => some c

def session? (t : Terminal) : Option (Session Loopback) :=
  t.connection?.map (·.client.session)

def lastSession? (t : Terminal) : Option (Session Loopback) :=
  t.session? <|> t.past.getLast?

def created (t : Terminal) : Nat :=
  t.past.length + (if t.connection?.isSome then 1 else 0)

def modifyTransport (f : Loopback → Loopback) (t : Terminal) : Terminal :=
  let change (s : Session Loopback) : Session Loopback := { s with transport := f s.transport }
  match t.link with
  | .online c =>
    let client := { c.client with session := change c.client.session }
    { t with link := .online { c with client := client } }
  | .offline _ =>
    match t.past.getLast? with
    | none => t
    | some s => { t with past := t.past.dropLast ++ [change s] }

def updateClient (f : Client Loopback → Client Loopback) (t : Terminal) : Terminal :=
  match t.link with
  | .offline _ => t
  | .online c => { t with link := .online { c with client := f c.client } }

def act {ε α : Type} (wrap : ε → TerminalError) (action : Action Loopback ε α) (t : Terminal) :
    Except TerminalError α × Terminal :=
  match t.link with
  | .offline _ => (.error .notConnected, t)
  | .online c =>
    let (result, client) := action.run.run c.client
    (result.mapError wrap, { t with link := .online { c with client := client } })

/-- Does what is due now; no time goes by. -/
def rouse (t : Terminal) : Terminal :=
  match t.link with
  | .offline _ => t
  | .online c => { t with link := .online (c.wake t.elapsed) }

/-- Time goes by, and nothing is done. -/
def skip (k : Nat) (t : Terminal) : Terminal :=
  { t with elapsed := t.elapsed + k }

/-- How many of the next `n` milliseconds go by before something is due. -/
def quiet (n : Nat) (t : Terminal) : Nat :=
  match t.link with
  | .offline _ => n
  | .online c => min n (min c.iterateAt c.presenceAt - t.elapsed)

/-- One millisecond goes by, after what is due at its beginning. -/
def tick (t : Terminal) : Terminal :=
  t.rouse.skip 1

/-- Some milliseconds go by; quiet ones are passed over together. What is due at their end is still
to be done. -/
def wait (n : Nat) (t : Terminal) : Terminal :=
  match n with
  | 0 => t
  | n + 1 =>
    let t := t.tick
    wait (n - t.quiet n) (t.skip (t.quiet n))
termination_by n

theorem skip_skip (t : Terminal) (j k : Nat) : (t.skip j).skip k = t.skip (j + k) := by
  simp [skip, Nat.add_assoc]

theorem quiet_le (t : Terminal) (n : Nat) : t.quiet n ≤ n := by
  unfold quiet
  split
  · exact Nat.le_refl n
  · exact Nat.min_le_left _ _

theorem rouse_of_quiet {t : Terminal} {n : Nat} (h : 0 < t.quiet n) : t.rouse = t := by
  obtain ⟨link, past, elapsed, factory⟩ := t
  cases link with
  | offline account => rfl
  | online c =>
    simp only [quiet] at h
    have hp : ¬c.presenceAt ≤ elapsed := by omega
    have hi : ¬c.iterateAt ≤ elapsed := by omega
    simp [rouse, Connection.wake, hp, hi]

theorem quiet_skip (t : Terminal) (n k : Nat) :
    (t.skip k).quiet (n - k) = t.quiet n - k := by
  obtain ⟨link, past, elapsed, factory⟩ := t
  cases link with
  | offline account => rfl
  | online c =>
    simp only [quiet, skip]
    omega

@[simp] theorem wait_zero (t : Terminal) : t.wait 0 = t := by
  rw [wait]

/-- Quiet milliseconds may be passed over. -/
theorem wait_skip (t : Terminal) (n k : Nat) (h : k ≤ t.quiet n) :
    t.wait n = (t.skip k).wait (n - k) := by
  induction n using Nat.strongRecOn generalizing t k with
  | _ n ih =>
    have hn := t.quiet_le n
    match n, k with
    | 0, k => simp [show k = 0 by omega, skip]
    | n + 1, 0 => simp [skip]
    | n + 1, k + 1 =>
      have step : t.tick = t.skip 1 := by rw [tick, rouse_of_quiet (n := n + 1) (by omega)]
      have rest : (t.skip 1).quiet n = t.quiet (n + 1) - 1 := t.quiet_skip (n + 1) 1
      have later := t.quiet_skip (n + 1) (k + 1)
      rw [wait, step, rest, skip_skip]
      rw [ih (n + 1 - (k + 1)) (by omega) (t.skip (k + 1)) (t.quiet (n + 1) - (k + 1)) (by omega),
        skip_skip]
      congr 1
      · omega
      · congr 1
        omega

/-- To wait is to let single milliseconds go by. -/
theorem wait_succ (t : Terminal) (n : Nat) : t.wait (n + 1) = t.tick.wait n := by
  rw [wait]
  exact (wait_skip t.tick n _ (Nat.le_refl _)).symm

/-- Some milliseconds go by, and what is due at their end is done too. -/
def settle (n : Nat) (t : Terminal) : Terminal :=
  (t.wait n).rouse

/-- Closes the connection; what its session has not sent is lost. -/
def stop (t : Terminal) : Terminal :=
  match t.link with
  | .offline _ => t
  | .online c =>
    let s := c.client.session
    let s := { s with queue := s.queue.clear.2 }
    { t with link := .offline c.client.account, past := t.past ++ [s.close] }

/-- Connects to a station, unless it is the one whose session is active; also whether that one was
kept. Otherwise the old connection is closed first, and its identity is bound to the new one. -/
def connect (t : Terminal) (host : String) (port : UInt16) :
    Except TerminalError Bool × Terminal :=
  let current := t.session?
  if current.any fun s => s.host = host && s.port = port && s.isActive then (.ok true, t)
  else
    let identity := current.bind Session.identity
    let t := t.stop
    match t.factory host port with
    | .error e => (.error (.transport e), t)
    | .ok transport =>
      let c := Connection.start t.account host port transport identity t.elapsed
      (.ok false, { t with link := .online c })

/-- Binds an identity, the signed-in user if none is given; also whether it is another one. -/
def login (t : Terminal) (identity : Option Entity) : Except TerminalError Bool × Terminal :=
  t.act .messenger do
    let identity ← Client.senderOr identity
    let c ← get
    let (changed, session) := c.session.setIdentity (some identity)
    set { c with session := session }
    return changed

def isRunning (t : Terminal) : Bool :=
  t.session?.any (·.phase == .running)

/-- The time that a report of presence gets. -/
def reportDelay (t : Terminal) : Nat :=
  t.account.settings.backgroundReportDelay.toNat

/-- Reports that the user goes offline, lets the report leave, and pauses the session. What is due
at that moment finds the session paused. -/
def enterBackground (t : Terminal) : Except TerminalError Unit × Terminal :=
  let pause (t : Terminal) := t.updateClient fun c => { c with session := c.session.pause }
  match t.link with
  | .offline _ => (.error .notConnected, t)
  | .online _ =>
    if t.isRunning then
      match t.act .messenger (Client.report .offline) with
      | (.error e, t) => (.error e, t)
      | (.ok (), t) => (.ok (), (pause (t.wait t.reportDelay)).rouse)
    else (.ok (), pause t)

/-- Resumes the session and, once it had time to settle, reports that the user is online. What is
due at that moment comes after the report. -/
def enterForeground (t : Terminal) : Except TerminalError Unit × Terminal :=
  match t.link with
  | .offline _ => (.error .notConnected, t)
  | .online _ =>
    let t := t.updateClient fun c => { c with session := c.session.resume }
    let t := t.wait t.reportDelay
    let (result, t) :=
      if t.isRunning then t.act .messenger (Client.report .online) else (.ok (), t)
    (result, t.rouse)

def send (t : Terminal) (sender : Option Entity) (receiver : Entity) (content : Content)
    (priority : Priority) : Except TerminalError (Option MessageRef) × Terminal :=
  t.act .messenger (Client.sendContent sender receiver content priority)

def invite (t : Terminal) (group : Entity) (named : List Entity) :
    Except TerminalError Bool × Terminal :=
  t.act .group (Group.invite group named)

def expel (t : Terminal) (group : Entity) (named : List Entity) :
    Except TerminalError Bool × Terminal :=
  t.act .group (Group.expel group named)

def quit (t : Terminal) (group : Entity) : Except TerminalError Bool × Terminal :=
  t.act .group (Group.quit group)

def query (t : Terminal) (group : Entity) : Except TerminalError Bool × Terminal :=
  t.act .group (Group.query group)

def groupSend (t : Terminal) (group : Entity) (content : Content) :
    Except TerminalError Bool × Terminal :=
  t.act .group (Group.send group content)

def deliveryStatus? (t : Terminal) (m : MessageRef) : Option DeliveryStatus :=
  t.connection?.bind (·.client.desk.tracker.status? m)

def resetSession (t : Terminal) : Except TerminalError Unit × Terminal :=
  match t.link with
  | .offline _ => (.error .notConnected, t)
  | .online c =>
    match c.client.session.reset t.account.clock with
    | .error e => (.error (.session e), t)
    | .ok (_, s) => (.ok (), t.updateClient fun c => { c with session := s })

def reduceMemory (t : Terminal) : Nat × Terminal :=
  match t.link with
  | .offline _ => (0, t)
  | .online c =>
    let (dropped, client) := c.client.reduceMemory
    (dropped, { t with link := .online { c with client := client } })

end Terminal

end Courier
