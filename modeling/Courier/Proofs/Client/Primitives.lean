import Courier.Proofs.Client.Inquiring

/-!
# What sending is made of

Sending a content draws serial numbers, requests queries and queues messages, and changes the
client in no other way. A relation that these three steps keep is kept by everything that is sent.
-/

namespace Courier.Client

variable {τ : Type} {R : Client τ → Client τ → Prop}

/-- A relation that holds of drawing a serial number and of queueing a message without a card. Only
a first handshake carries one. -/
structure KeptByMailing (R : Client τ → Client τ → Prop) : Prop extends Composes R where
  newContent : ∀ {ε : Type} (body : Body), Keeps R (newContent body : Action τ ε Content)
  sendInstant : ∀ (m : Message) priority, m.card = none →
    Keeps R (sendInstant m priority : Action τ MessengerError _)

/-- A relation that holds of each of the steps that sending consists of. -/
structure KeptBySending (R : Client τ → Client τ → Prop) : Prop extends KeptByMailing R where
  requestQuery : ∀ key, Keeps R (requestQuery key : Action τ MessengerError Bool)

namespace KeptByMailing

variable (h : KeptByMailing R)
include h

theorem announce (receiver : Entity) (command : Command) (priority : Priority) :
    Keeps R (announce receiver command priority : Action τ MessengerError _) := by
  refine Keeps.bind h.toComposes (h.newContent _) fun content => ?_
  refine Keeps.bind h.toComposes (Keeps.currentUser h.toComposes) fun user => ?_
  exact h.sendInstant _ _ rfl

theorem restart (key : String) :
    Keeps R (handshake (some key) : Action τ MessengerError Unit) := by
  refine Keeps.bind h.toComposes (Keeps.currentUser h.toComposes) fun user => ?_
  refine Keeps.bind h.toComposes (Keeps.get h.toComposes) fun c => ?_
  refine Keeps.bind h.toComposes (h.newContent _) fun content => ?_
  exact Keeps.bind h.toComposes (h.sendInstant _ _ rfl) fun _ => Keeps.pure h.toComposes _

theorem handshake
    (hfirst : ∀ m priority, Keeps R (Client.sendInstant m priority : Action τ MessengerError _))
    (key : Option String) : Keeps R (handshake key : Action τ MessengerError Unit) := by
  cases key with
  | some key => exact h.restart key
  | none =>
    refine Keeps.bind h.toComposes (Keeps.currentUser h.toComposes) fun user => ?_
    refine Keeps.bind h.toComposes (Keeps.get h.toComposes) fun c => ?_
    refine Keeps.bind h.toComposes (h.newContent _) fun content => ?_
    exact Keeps.bind h.toComposes (hfirst _ _) fun _ => Keeps.pure h.toComposes _

theorem broadcastDocument : Keeps R (broadcastDocument : Action τ MessengerError Unit) := by
  refine Keeps.bind h.toComposes (Keeps.currentUser h.toComposes) fun user => ?_
  exact Keeps.bind h.toComposes (h.announce _ _ _) fun _ => Keeps.pure h.toComposes _

theorem broadcastLogin (agent : String) :
    Keeps R (broadcastLogin agent : Action τ MessengerError Unit) := by
  refine Keeps.bind h.toComposes (Keeps.currentUser h.toComposes) fun user => ?_
  refine Keeps.bind h.toComposes (Keeps.get h.toComposes) fun c => ?_
  exact Keeps.bind h.toComposes (h.announce _ _ _) fun _ => Keeps.pure h.toComposes _

theorem report (title : ReportTitle) : Keeps R (report title : Action τ MessengerError Unit) :=
  Keeps.bind h.toComposes (h.announce _ _ _) fun _ => Keeps.pure h.toComposes _

theorem senderOr (sender : Option Entity) :
    Keeps R (senderOr sender : Action τ MessengerError Entity) := by
  cases sender with
  | some sender => exact Keeps.pure h.toComposes _
  | none =>
    refine Keeps.bind h.toComposes (Keeps.currentUser h.toComposes) fun user => ?_
    exact Keeps.pure h.toComposes _

/-- Nothing has to be asked for before a message to somebody without a roster. -/
theorem sendContentBy {query : Entity → Action τ MessengerError Bool} {receiver : Entity}
    (hreceiver : (receiver.isGroup && !receiver.isBroadcast) = false) (sender : Option Entity)
    (content : Content) (priority : Priority) :
    Keeps R (sendContentBy query sender receiver content priority) := by
  refine Keeps.bind h.toComposes (h.senderOr sender) fun who => ?_
  rw [hreceiver, if_neg Bool.false_ne_true]
  exact h.sendInstant _ _ rfl

theorem askAssistants {query : Entity → Action τ MessengerError Bool} {group : Entity}
    {command : Command} {bots : List Entity}
    (hbots : ∀ bot ∈ bots, (bot.isGroup && !bot.isBroadcast) = false) :
    Keeps R (askAssistants query group command bots) := by
  induction bots with
  | nil => exact Keeps.pure h.toComposes _
  | cons bot rest ih =>
    refine Keeps.bind h.toComposes (h.newContent _) fun content => ?_
    refine Keeps.bind h.toComposes (h.sendContentBy (hbots bot List.mem_cons_self) _ _ _) fun _ => ?_
    exact ih fun b hb => hbots b (List.mem_cons_of_mem bot hb)

end KeptByMailing

namespace KeptBySending

variable (h : KeptBySending R)
include h

theorem sendContentBy {query : Entity → Action τ MessengerError Bool} {receiver : Entity}
    (hcheck : Keeps R (checkGroup query receiver)) (sender : Option Entity) (content : Content)
    (priority : Priority) : Keeps R (sendContentBy query sender receiver content priority) := by
  refine Keeps.bind h.toComposes (h.senderOr sender) fun who => ?_
  split
  · refine Keeps.bind h.toComposes hcheck fun ready => ?_
    cases ready with
    | false => exact Keeps.pure h.toComposes _
    | true => exact h.sendInstant _ _ rfl
  · exact h.sendInstant _ _ rfl

theorem inquiring : Inquiring (Keeps R) where
  pure := Keeps.pure h.toComposes
  bind := Keeps.bind h.toComposes
  get := Keeps.get h.toComposes
  requestQuery := h.requestQuery
  announce receiver _ _ := h.announce receiver _ _
  tell _ _ _ _ hcheck :=
    Keeps.bind h.toComposes (h.newContent _) fun _ => h.sendContentBy hcheck _ _ _

theorem sendContent (sender : Option Entity) (receiver : Entity) (content : Content)
    (priority : Priority) :
    Keeps R (sendContent sender receiver content priority : Action τ MessengerError _) :=
  h.sendContentBy (h.inquiring.checkGroup h.inquiring.queryMembers receiver) sender content priority

end KeptBySending

end Courier.Client
