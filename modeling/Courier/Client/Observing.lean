import Courier.Client.Inbound
import Courier.Session.Iteration

/-!
# The client as observer of its session

The client carries out the effects of its session's transitions, reads what comes in, and keeps
track of what was delivered. A failure on the way is not passed on.
-/

namespace Courier.Client

variable {τ : Type} [Transport τ]

/-- Carries out the effect of a transition. -/
def perform (effect : Effect) : Action τ MessengerError Unit := do
  match effect with
  | .none => return
  | .connect =>
    let c ← get
    let (result, session) := c.session.connect
    set { c with session := session }
    match result with
    | .ok () => return
    | .error e => throw (.session (.transport e))
  | .sendHandshake => handshake none
  | .broadcastDocuments => handshakeSuccess
  | .resetFreshness =>
    modify fun c => c.modifyAccount fun a => { a with freshness := a.freshness.resetCooldowns }

/-- Acts as a client on a session and a desk. -/
def onPair {α : Type} (action : Action τ MessengerError α) (p : Session τ × Desk) :
    Session τ × Desk :=
  let c := doing action ⟨p.1, p.2⟩
  (c.session, c.desk)

def markDelivery (m : MessageRef) (status : DeliveryStatus) (desk : Desk) : Desk :=
  { desk with tracker := (desk.tracker.mark m status).2 }

def observer : Observer τ Desk where
  moved t := onPair (perform t.effect)
  received p := onPair (receive p.payload)
  sent m := markDelivery m .sent
  failed m reason := markDelivery m (.failed reason)

/-- One iteration of the client's session under a given observer; also whether it moved anything,
and what the observer was told. -/
def iterateWith (o : Observer τ Desk) (c : Client τ) : Bool × List Report × Client τ :=
  let (busy, w) := Watched.iterate o c.account.clock ⟨c.session, c.desk, []⟩
  (busy, w.reports, ⟨w.session, w.observer⟩)

def iterate (c : Client τ) : Bool × List Report × Client τ :=
  iterateWith observer c

def iterations (o : Observer τ Desk) : Nat → Client τ → List Bool × List Report × Client τ
  | 0, c => ([], [], c)
  | n + 1, c =>
    let (busy, reports, c) := c.iterateWith o
    let (moved, more, c) := iterations o n c
    (busy :: moved, reports ++ more, c)

end Courier.Client
