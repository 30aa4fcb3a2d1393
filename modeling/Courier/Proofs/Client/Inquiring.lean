import Courier.Proofs.Client.Actions

/-!
# What questions are made of

A question for a card, for documents or for a roster is a request, which starts a cooldown, followed
by commands that ask and tell nothing. A property of actions that these have, and that what is done
in turn has if its parts have it, is one of every question.
-/

namespace Courier

/-- The command asks for something and tells nothing. -/
def Command.isInquiry : Command → Bool
  | .card _ none => true
  | .document _ none [] _ => true
  | .group (.query _ _) => true
  | _ => false

namespace Client

variable {τ : Type}

/-- Draws a serial number for a command and sends it to a group, or to whoever else waits for it. -/
def tell (query : Entity → Action τ MessengerError Bool) (group receiver : Entity)
    (command : Command) : Action τ MessengerError (Option MessageRef) := do
  let content ← newContent (.command command)
  sendContentBy query none receiver (content.inGroup group) .normal

theorem askAssistants_cons (query : Entity → Action τ MessengerError Bool) (group bot : Entity)
    (command : Command) (rest : List Entity) :
    askAssistants query group command (bot :: rest) =
      tell query group bot command >>= fun _ => askAssistants query group command rest := by
  rw [askAssistants, tell, bind_assoc]

/-- A property that the parts of a question hand on to the whole. Somebody who is asked may be a
group, and then has to be ready for it. -/
structure Inquiring (P : ∀ {α : Type}, Action τ MessengerError α → Prop) : Prop where
  pure : ∀ {α : Type} (x : α), P (Pure.pure x)
  bind : ∀ {α β : Type} {a : Action τ MessengerError α} {f : α → Action τ MessengerError β},
    P a → (∀ x, P (f x)) → P (a >>= f)
  get : P (MonadState.get : Action τ MessengerError (Client τ))
  requestQuery : ∀ key, P (Client.requestQuery key)
  announce : ∀ (receiver : Entity) {command : Command}, command.isInquiry = true →
    P (Client.announce receiver command .normal)
  tell : ∀ {query : Entity → Action τ MessengerError Bool} (group receiver : Entity)
    {command : Command}, command.isInquiry = true → P (Client.checkGroup query receiver) →
      P (Client.tell query group receiver command)

namespace Inquiring

variable {P : ∀ {α : Type}, Action τ MessengerError α → Prop} (h : Inquiring P)
include h

theorem queryCard (id : Entity) : P (queryCard id) := by
  refine h.bind (h.requestQuery _) fun granted => ?_
  cases granted with
  | false => exact h.pure _
  | true => exact h.bind (h.announce _ rfl) fun _ => h.pure _

theorem queryDocument (id : Entity) : P (queryDocument id) := by
  refine h.bind (h.requestQuery _) fun granted => ?_
  cases granted with
  | false => exact h.pure _
  | true =>
    refine h.bind (h.bind h.get fun c => h.pure c.account.directory) fun d => ?_
    exact h.bind (h.announce _ rfl) fun _ => h.pure _

theorem queryDocuments (ids : List Entity) : P (queryDocuments ids) := by
  induction ids with
  | nil => exact h.pure _
  | cons id rest ih => exact h.bind (h.queryDocument id) fun _ => ih

section Rosters

variable {query : Entity → Action τ MessengerError Bool} (hquery : ∀ g, P (query g))
include hquery

theorem checkGroup (group : Entity) : P (checkGroup query group) := by
  refine h.bind h.get fun c => ?_
  dsimp only
  split
  · exact h.bind (h.queryCard group) fun _ => h.pure _
  · split
    · exact h.bind (hquery group) fun _ => h.pure _
    · exact h.bind (h.queryDocuments _) fun _ => h.pure _

theorem askAssistants (group : Entity) {command : Command} (hcommand : command.isInquiry = true)
    (bots : List Entity) : P (askAssistants query group command bots) := by
  induction bots with
  | nil => exact h.pure _
  | cons bot rest ih =>
    rw [askAssistants_cons]
    exact h.bind (h.tell group bot hcommand (h.checkGroup hquery bot)) fun _ => ih

end Rosters

/-- By induction on how many groups may still be asked through one another. -/
theorem queryMembersWithin (chain : Nat) (group : Entity) : P (queryMembersWithin chain group) := by
  induction chain generalizing group with
  | zero => exact h.pure _
  | succ chain ih =>
    refine h.bind (h.requestQuery _) fun granted => ?_
    cases granted with
    | false => exact h.pure _
    | true =>
      refine h.bind h.get fun c => ?_
      dsimp only
      split
      · exact h.pure _
      · exact h.bind (h.askAssistants ih group rfl _) fun _ => h.pure _

theorem queryMembers (group : Entity) : P (queryMembers group) :=
  h.bind h.get fun _ => h.queryMembersWithin _ group

end Inquiring

end Client

end Courier
