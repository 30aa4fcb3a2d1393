import Courier.Proofs.Client.Conduct

/-!
# First handshakes in the queue

An iteration that enters the handshake queues the first handshake of the signed-in user ahead of
whatever else it queues. Nothing else that a client does by itself queues one: all other messages
go without a card.
-/

namespace Courier

/-- A first handshake asks for a session and presents card and visa of the user. -/
structure Message.IsGreeting (m : Message) : Prop where
  command : m.content.command? = some (.handshake .start none)
  card : m.card.isSome
  visa : m.visa.isSome

/-- The entry holds a message without a card. -/
def QueueEntry.IsPlain (codec : Codec) (e : QueueEntry) : Prop :=
  ∃ m, m.card = none ∧ codec.Packs m e.message e.shipment

/-- Whether a call leaves first handshakes to the iterations and stays with the session. -/
def ClientCall.IsPlain {τ : Type} (codec : Codec) : ClientCall τ → Prop
  | .handshake none => False
  | .post m _ => m.card = none
  | .session (.enqueue s) => s.IsPlain codec
  | .reconnect _ _ => False
  | _ => True

def ClientStep.IsPlain {τ : Type} (codec : Codec) : ClientStep τ → Prop
  | .call c => c.IsPlain codec
  | .iterate => True

/-- Other than what clients do all the time, such a call is one to the session or changes who is
signed in or what the clock shows. -/
theorem ClientCall.IsPlain.ordinary_or {τ : Type} {codec : Codec} {call : ClientCall τ}
    (h : call.IsPlain codec) : Client.Ordinary call ∨ (∃ sc, call = .session sc) ∨
      (∃ user, call = .signIn user) ∨ ∃ time, call = .wait time := by
  cases call with
  | handshake key =>
    cases key with
    | none => exact absurd h id
    | some key => exact .inl trivial
  | post m priority => exact .inl h
  | session sc => exact .inr (.inl ⟨sc, rfl⟩)
  | reconnect s desk => exact absurd h id
  | signIn user => exact .inr (.inr (.inl ⟨user, rfl⟩))
  | wait time => exact .inr (.inr (.inr ⟨time, rfl⟩))
  | _ => exact .inl trivial

theorem Phase.follow?_greets {p target : Phase} {event : LifecycleEvent} {effect : Effect}
    (h : p.follow? event = some (target, effect)) :
    effect = .sendHandshake ↔ target = .handshaking := by
  revert h
  cases p <;> cases event <;> rintro ⟨⟩ <;> simp

theorem QueueEntry.isPlain_of_accepted {codec : Codec} {q : DeliveryQueue} {ss : List Submission}
    (h : ∀ s ∈ ss, s.IsPlain codec) {e : QueueEntry} (he : e ∈ q.accepted ss) :
    e.IsPlain codec := by
  obtain ⟨s, hs, hmessage, hshipment⟩ := DeliveryQueue.mem_accepted he
  obtain ⟨m, hcard, hpacks⟩ := h s hs
  exact ⟨m, hcard, hmessage ▸ hshipment ▸ hpacks⟩

namespace Client

variable {τ : Type}

theorem isGreeting_greeting (c : Client τ) (user : LocalUser) : (c.greeting user).IsGreeting :=
  ⟨rfl, rfl, rfl⟩

variable [Transport τ]

/-- The transition that the next iteration makes. -/
def transition? (c : Client τ) : Option Transition :=
  c.session.foldStatuses.evaluate? c.account.clock

/-- The entries that a step adds to the queue. An iteration may send one of them at once. -/
def newcomers (c : Client τ) : ClientStep τ → List QueueEntry
  | .call call => (c.call call).session.queue.queuedSince c.session.queue.nextOrder
  | .iterate =>
    (Watched.prepare observer c.account.clock ⟨c.session, c.desk, []⟩).2.session.queue.queuedSince
      c.session.queue.nextOrder

/-- What an iteration queues because it enters the handshake. -/
def greetings (c : Client τ) : List QueueEntry :=
  match c.transition? with
  | none => []
  | some t => if t.target.phase = .handshaking then c.session.queue.accepted c.opening else []

theorem openings_eq (c : Client τ) :
    Watched.openings c.account.clock ⟨c.session.foldStatuses, c.desk, []⟩ =
      match c.transition? with
      | none => []
      | some t => if t.target.phase = .handshaking then c.opening else [] := by
  unfold Watched.openings transition?
  cases ht : c.session.foldStatuses.evaluate? c.account.clock with
  | none => rfl
  | some t =>
    obtain ⟨-, -, -, -, hfollow, -⟩ := Session.evaluate?_eq_some ht
    have hopening : opening ⟨c.session.foldStatuses, c.desk⟩ = c.opening := by
      obtain ⟨activity, failed, cursor, hfolded⟩ := c.session.foldStatuses_eq
      rw [hfolded]
      rfl
    have hgreets := Phase.follow?_greets hfollow
    by_cases h : t.target.phase = .handshaking
    · simp only [if_pos h, if_pos (hgreets.mpr h)]
      exact hopening
    · simp only [if_neg h, if_neg (mt hgreets.mp h)]

/-- What an iteration that enters the handshake queues first is the handshake of the signed-in user,
unless that cannot be packed or its id is taken. -/
theorem greetings_of_entering {c : Client τ} {t : Transition} (ht : c.transition? = some t)
    (hphase : t.target.phase = .handshaking) {user : LocalUser} (huser : c.account.user = some user)
    {b : Bytes} (hb : c.account.codec.encode (c.greeting user) = .ok b)
    (hfree : (c.greeting user).ref.id ∉ c.session.queue.reserved) :
    c.greetings = [c.session.queue.entry (c.greeting user).ref
      ⟨b, .handshake, some (c.greeting user).ref.id⟩ c.account.clock] := by
  simp only [greetings, ht, if_pos hphase, opening, huser, hb]
  exact DeliveryQueue.accepted_cons [] hfree

/-- Whatever an iteration queues behind the first handshake goes without a card. -/
theorem newcomers_iterate {c : Client τ} (hsound : c.session.queue.Sound []) :
    ∃ others, (c.newcomers .iterate).Perm (c.greetings ++ others) ∧
      ∀ e ∈ others, e.IsPlain c.account.codec := by
  obtain ⟨payloads, -, hprepare⟩ := Watched.conducts_prepare c.account.clock ⟨c.session, c.desk, []⟩
  obtain ⟨ss, hss, hqueue⟩ := hprepare.queue
  obtain ⟨first, hfirst⟩ : ∃ first, first =
    Watched.openings c.account.clock ⟨c.session.foldStatuses, c.desk, []⟩ := ⟨_, rfl⟩
  have hgreetings : c.greetings = c.session.queue.accepted first := by
    rw [hfirst, openings_eq, greetings]
    cases c.transition? with
    | none => rfl
    | some t =>
      dsimp only
      split <;> rfl
  refine ⟨(c.session.queue.submitAll first).accepted ss, ?_, ?_⟩
  · rw [newcomers, hqueue, ← hfirst, ← DeliveryQueue.submitAll_append, hgreetings,
      ← DeliveryQueue.accepted_append]
    exact DeliveryQueue.queuedSince_submitAll hsound _
  · intro e he
    apply QueueEntry.isPlain_of_accepted _ he
    intro s hs
    exact (hss s hs).1

theorem plain_of_greetings_eq_nil {c : Client τ} (hsound : c.session.queue.Sound [])
    (h : c.greetings = []) : ∀ e ∈ c.newcomers .iterate, e.IsPlain c.account.codec := by
  obtain ⟨others, hnewcomers, hothers⟩ := newcomers_iterate hsound
  rw [h] at hnewcomers
  intro e he
  exact hothers e (hnewcomers.mem_iff.mp he)

/-- While nobody is signed in, no first handshake is queued. -/
theorem plain_of_nobody {c : Client τ} (hsound : c.session.queue.Sound [])
    (h : c.account.user = none) : ∀ e ∈ c.newcomers .iterate, e.IsPlain c.account.codec := by
  apply plain_of_greetings_eq_nil hsound
  unfold greetings opening
  rw [h]
  cases c.transition? with
  | none => rfl
  | some t =>
    dsimp only
    split <;> rfl

/-- Calls queue nothing but messages without a card. -/
theorem submits_call (c : Client τ) {call : ClientCall τ} (h : call.IsPlain c.account.codec) :
    ∃ ss : List Submission, (∀ s ∈ ss, s.IsPlain c.account.codec) ∧
      (c.call call).session.queue = c.session.queue.submitAll ss := by
  rcases h.ordinary_or with ho | ⟨sc, rfl⟩ | ⟨user, rfl⟩ | ⟨time, rfl⟩
  · obtain ⟨cs, hcs, hsession⟩ := (c.acts_call ho).session
    refine ⟨cs.filterMap SessionCall.submission?, ?_, ?_⟩
    · intro s hs
      obtain ⟨call, hcall, hsubmission⟩ := List.mem_filterMap.mp hs
      have hroutine := hcs call hcall
      cases call with
      | enqueue m => exact Option.some.inj hsubmission ▸ hroutine.1
      | _ => cases hsubmission
    · rw [hsession]
      exact Session.queue_calls c.session cs
  · refine ⟨sc.submission?.toList, ?_, Session.queue_call c.session sc⟩
    intro s hs
    cases sc with
    | enqueue m => exact List.mem_singleton.mp hs ▸ h
    | _ => cases hs
  · exact ⟨[], fun _ hs => absurd hs List.not_mem_nil, rfl⟩
  · exact ⟨[], fun _ hs => absurd hs List.not_mem_nil, rfl⟩

theorem newcomers_call {c : Client τ} (hsound : c.session.queue.Sound []) {call : ClientCall τ}
    (h : call.IsPlain c.account.codec) :
    ∀ e ∈ c.newcomers (.call call), e.IsPlain c.account.codec := by
  obtain ⟨ss, hss, hqueue⟩ := c.submits_call h
  intro e he
  rw [newcomers, hqueue] at he
  exact QueueEntry.isPlain_of_accepted hss
    ((DeliveryQueue.queuedSince_submitAll hsound ss).mem_iff.mp he)

theorem sound_step {c : Client τ} (hsound : c.session.queue.Sound []) {s : ClientStep τ}
    (h : s.IsPlain c.account.codec) : (c.step s).2.session.queue.Sound [] := by
  cases s with
  | call call =>
    obtain ⟨ss, -, hqueue⟩ := c.submits_call h
    exact hqueue ▸ hsound.submitAll ss
  | iterate =>
    obtain ⟨payloads, -, hprepare⟩ :=
      Watched.conducts_prepare c.account.clock ⟨c.session, c.desk, []⟩
    obtain ⟨ss, -, hqueue⟩ := hprepare.queue
    have hprepared : (Watched.prepare observer c.account.clock
        ⟨c.session, c.desk, []⟩).2.session.queue.Sound [] :=
      hqueue ▸ (hsound.submitAll _).submitAll ss
    change (Watched.iterate observer c.account.clock
      ⟨c.session, c.desk, []⟩).2.session.queue.Sound []
    rw [Watched.iterate_snd]
    split
    · exact (Watched.settles_send _ _ _).1.sound hprepared
    · exact hprepared

end Client

end Courier
