import Courier.Client.Observing
import Courier.Proofs.Client.Ledger
import Courier.Proofs.Group.Operations
import Courier.Proofs.Session.Path

/-!
# Queries in the long run

Queries are asked for directly, by group operations that lack a card, a roster or a key, by what
comes in, and by other queries. Whatever a client does, all of it passes the cooldowns, and only an
iteration in which the session fails ends them. The account and with it the cooldowns go along when
another session takes the place of the old one.
-/

namespace Courier

/-- The transition by which a session went into the error phase. -/
def Report.breakdown? : Report → Option Transition
  | .after t => if t.target.phase = .error then some t else none
  | _ => none

/-- What may be asked of a client, and what may happen to it, outside its iterations. The moves that
the operations consist of are calls too, so that a run can also mix those of several operations. -/
inductive ClientCall (τ : Type) where
  /-- A serial number is used up. -/
  | draw
  /-- Whether a query may be sent is asked, and nothing is sent. -/
  | request (key : FreshnessKey)
  | ask (q : Client.Query)
  | send (sender : Option Entity) (receiver : Entity) (content : Content) (priority : Priority)
  /-- A message that is packed and queued without further ado. -/
  | post (m : Message) (priority : Priority)
  | groupSend (group : Entity) (content : Content)
  | groupQuery (group : Entity)
  | groupChange (group : Entity) (change : Group.Change)
  | receive (payload : Bytes)
  | handshake (key : Option String)
  | handshakeSuccess
  | broadcastDocument
  | broadcastLogin (agent : String)
  | report (title : ReportTitle)
  | keepOnline
  | observe (key : FreshnessKey) (time : Millis)
  | signIn (user : Option LocalUser)
  /-- The directory changes on its own account. -/
  | learn (f : Directory → Directory)
  | register (tag : String) (handler : Handler)
  | reduceMemory
  | session (call : SessionCall τ)
  /-- Another session takes over, a new one or one from before, at a desk that has its own records
  of deliveries and handlers. The account stays. -/
  | reconnect (session : Session τ) (desk : Desk)
  /-- Time goes by, if the clock shows less. -/
  | wait (time : Millis)

inductive ClientStep (τ : Type) where
  | call (c : ClientCall τ)
  | iterate

namespace Client

variable {τ : Type}

section Steps

variable [Transport τ]

def call (c : Client τ) : ClientCall τ → Client τ
  | .draw => c.draw
  | .request key => doing (requestQuery key : Action τ MessengerError Bool) c
  | .ask q => doing q.ask c
  | .send sender receiver content priority =>
    doing (sendContent sender receiver content priority) c
  | .post m priority => doing (sendInstant m priority) c
  | .groupSend group content => doing (Group.send group content) c
  | .groupQuery group => doing (Group.query group) c
  | .groupChange group change => doing (change.perform group) c
  | .receive payload => doing (receive payload) c
  | .handshake key => doing (handshake key) c
  | .handshakeSuccess => doing handshakeSuccess c
  | .broadcastDocument => doing broadcastDocument c
  | .broadcastLogin agent => doing (broadcastLogin agent) c
  | .report title => doing (report title) c
  | .keepOnline => doing keepOnline c
  | .observe key time => doing (observe key time : Action τ MessengerError Bool) c
  | .signIn user => c.modifyAccount fun a => { a with user := user }
  | .learn f => c.modifyDirectory f
  | .register tag handler => c.register tag handler
  | .reduceMemory => c.reduceMemory.2
  | .session call => { c with session := c.session.call call }
  | .reconnect session desk => ⟨session, { desk with account := c.account }⟩
  | .wait time => c.modifyAccount fun a => { a with clock := max a.clock time }

/-- A step, and what was reported in it. -/
def step (c : Client τ) : ClientStep τ → List Report × Client τ
  | .call call => ([], c.call call)
  | .iterate => c.iterate.2

def run (c : Client τ) : List (ClientStep τ) → List Report × Client τ
  | [] => ([], c)
  | s :: steps => ((c.step s).1 ++ ((c.step s).2.run steps).1, ((c.step s).2.run steps).2)

end Steps

theorem doing_connect [Transport τ] (c : Client τ) :
    doing (perform .connect) c = { c with session := c.session.connect.2 } := by
  rw [doing_eq, perform, attempt_bind, attempt_get]
  dsimp only
  rw [attempt_bind, attempt_set]
  dsimp only
  split <;> rfl

/-! ### Calls -/

/-- A relation that holds of each of the steps that everything consists of which the client does of
its own accord. -/
structure KeptByActing (R : Client τ → Client τ → Prop) : Prop extends KeptByReading R where
  first : ∀ m priority, Keeps R (Client.sendInstant m priority : Action τ MessengerError _)
  online : Keeps R (markOnline : Action τ MessengerError Unit)

/-- A call in which the client does something, and is not only changed from outside. -/
def IsDeed : ClientCall τ → Prop
  | .draw | .observe _ _ | .signIn _ | .learn _ | .register _ _ | .reduceMemory => False
  | .session _ | .reconnect _ _ | .wait _ => False
  | _ => True

namespace KeptByActing

variable {R : Client τ → Client τ → Prop} (h : KeptByActing R)
include h

theorem handshakeSuccess : Keeps R (handshakeSuccess : Action τ MessengerError Unit) :=
  Keeps.bind h.toComposes h.broadcastDocument fun _ => h.online

theorem keepOnline : Keeps R (keepOnline : Action τ MessengerError Unit) := by
  refine Keeps.bind h.toComposes (Keeps.currentUser h.toComposes) fun user => ?_
  dsimp only
  split
  · exact Keeps.bind h.toComposes (h.report _) fun _ => h.online
  · refine Keeps.bind h.toComposes (Keeps.get h.toComposes) fun c => ?_
    exact Keeps.bind h.toComposes (h.broadcastLogin _) fun _ => h.online

/-- What a packet does has to be accounted for. -/
theorem call [Transport τ] (c : Client τ) {call : ClientCall τ} (hdeed : IsDeed call)
    (hread : ∀ payload, call = .receive payload → R c (doing (Client.receive payload) c)) :
    R c (c.call call) := by
  cases call with
  | request key => exact h.requestQuery key c
  | ask q => exact h.inquiring.ask q c
  | send sender receiver content priority => exact h.sendContent _ _ _ _ c
  | post m priority => exact h.first m priority c
  | groupSend group content => exact h.send group content c
  | groupQuery group => exact h.query group c
  | groupChange group change => exact h.change h.roster group change c
  | receive payload => exact hread payload rfl
  | handshake key => exact h.handshake h.first key c
  | handshakeSuccess => exact h.handshakeSuccess c
  | broadcastDocument => exact h.broadcastDocument c
  | broadcastLogin agent => exact h.broadcastLogin agent c
  | report title => exact h.report title c
  | keepOnline => exact h.keepOnline c
  | _ => exact hdeed.elim

/-- How cooldowns end is not among the steps. -/
theorem effect [Transport τ]
    (hconnect : ∀ c : Client τ, R c { c with session := c.session.connect.2 }) (c : Client τ)
    {effect : Effect} (heffect : effect ≠ .resetFreshness) : R c (doing (perform effect) c) := by
  cases effect with
  | none => exact h.refl c
  | connect =>
    rw [doing_connect]
    exact hconnect c
  | sendHandshake => exact h.handshake h.first none c
  | broadcastDocuments => exact h.handshakeSuccess c
  | resetFreshness => exact absurd rfl heffect

end KeptByActing

theorem rests_wait (c : Client τ) (time : Millis) :
    c.Rests (c.modifyAccount fun a => { a with clock := max a.clock time }) :=
  ⟨Millis.le_max_left c.account.clock time, rfl⟩

end Client

/-! ### Iterations -/

namespace Watched

variable {τ : Type}

def client (w : Watched τ Desk) : Client τ :=
  ⟨w.session, w.observer⟩

def breakdowns (w : Watched τ Desk) : List Transition :=
  w.reports.filterMap Report.breakdown?

/-- What happened to the cooldowns between the two moments is accounted for, and the failures of
the session among it were reported. -/
def Books (w w' : Watched τ Desk) : Prop :=
  ∃ es, Client.Ledger w.client es w'.client ∧
    w'.breakdowns = w.breakdowns ++ es.filterMap Client.CooldownEvent.breakdown?

theorem Books.trans {w₁ w₂ w₃ : Watched τ Desk} (h : w₁.Books w₂) (h' : w₂.Books w₃) :
    w₁.Books w₃ := by
  obtain ⟨es, l, hes⟩ := h
  obtain ⟨es', l', hes'⟩ := h'
  refine ⟨es ++ es', l.append l', ?_⟩
  rw [hes', hes, List.filterMap_append, List.append_assoc]

variable [Transport τ]

end Watched

/-! ### Runs -/

namespace Client

variable {τ : Type} [Transport τ]

/-- Step by step, the events are what happened to the cooldowns, and the failures among them are
the reported ones. -/
inductive Chronicle : Client τ → List (ClientStep τ) → List (List CooldownEvent) → Prop where
  | nil (c : Client τ) : Chronicle c [] []
  | cons {c : Client τ} {s : ClientStep τ} {steps : List (ClientStep τ)}
      {es : List CooldownEvent} {ess : List (List CooldownEvent)}
      (ledger : Ledger c es (c.step s).2)
      (reported : es.filterMap CooldownEvent.breakdown? =
        (c.step s).1.filterMap Report.breakdown?)
      (rest : Chronicle (c.step s).2 steps ess) : Chronicle c (s :: steps) (es :: ess)

theorem Chronicle.ledger {c : Client τ} {steps : List (ClientStep τ)}
    {ess : List (List CooldownEvent)} (h : Chronicle c steps ess) :
    Ledger c ess.flatten (c.run steps).2 := by
  induction h with
  | nil c => exact .nil c
  | cons l _ _ ih => exact l.append ih

theorem Chronicle.reported {c : Client τ} {steps : List (ClientStep τ)}
    {ess : List (List CooldownEvent)} (h : Chronicle c steps ess) :
    ess.flatten.filterMap CooldownEvent.breakdown? =
      (c.run steps).1.filterMap Report.breakdown? := by
  induction h with
  | nil c => rfl
  | cons _ hes _ ih =>
    rw [List.flatten_cons, List.filterMap_append, hes, ih, run, List.filterMap_append]

end Client

end Courier
