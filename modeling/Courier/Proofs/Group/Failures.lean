import Courier.Proofs.Client.Failing
import Courier.Proofs.Group.Owner

/-!
# Failed group operations

A group operation that fails has stored nothing. One that the group protocol forbids has done
nothing at all, and one that fails because nobody is signed in has queued nothing. Only a codec that
refuses a message can stop an operation half way, and then the messages before stay queued: those
who are told of a change that was not made can be told of it again.
-/

namespace Courier.Group

open Client

variable {τ : Type}

/-- What can be asked of a group. -/
inductive Operation where
  | change (change : Change)
  | query
  | send (content : Content)

def Operation.perform (group : Entity) : Operation → Action τ GroupError Bool
  | change ch => ch.perform group
  | query => Group.query group
  | send content => Group.send group content

/-! ### Two ways to fail -/

/-- An operation fails because it is forbidden, before anything was done, or because something keeps
the client from sending, after what could be sent before. -/
inductive Failure (c : Client τ) : GroupError → Client τ → Prop
  | forbidden {e : GroupError} : e.isViolation = true → Failure c e c
  | stopped {cause : MessengerError} {c' : Client τ} {ls : List Letter} :
      Obstacle c cause → Posted c c' ls → Failure c (.messenger cause) c'

section

variable {group : Entity} {c c' : Client τ} {e : GroupError}

theorem Failure.of_ends {α : Type} {r : Except GroupError α × Client τ}
    (hends : Ends .messenger c r) (h : r = (.error e, c')) : Failure c e c' := by
  subst h
  obtain ⟨⟨ls, hposted⟩, hblamed⟩ := hends
  obtain ⟨cause, rfl, hcause⟩ := hblamed e rfl
  exact .stopped hcause hposted

theorem failure_ensureGroup {a : Action τ GroupError Bool} (ha : Posting .messenger a)
    (h : attempt (ensureGroup group >>= fun _ => a) c = (.error e, c')) : Failure c e c' := by
  rw [attempt_bind, ensureGroup] at h
  by_cases hgroup : (group.isGroup && !group.isBroadcast) = true
  · rw [if_pos hgroup] at h
    exact .of_ends (ha c) h
  · rw [if_neg hgroup] at h
    cases h
    exact .forbidden rfl

/-! ### What is sent -/

theorem posting_sendToAll (group : Entity) (command : Command) (receivers : List Entity) :
    Posting .messenger (sendToAll group command receivers : Action τ GroupError Unit) := by
  induction receivers with
  | nil => exact .pure _
  | cons receiver rest ih =>
    refine (Posting.newContent _).bind fun content => ?_
    exact (posting_sendContent receiver _).messaging.bind fun _ => ih

theorem posting_sendRounds (group : Entity) (rounds : List Round) :
    Posting .messenger (sendRounds group rounds : Action τ GroupError Unit) := by
  induction rounds with
  | nil => exact .pure _
  | cons r rounds ih => exact (posting_sendToAll group r.command r.receivers).bind fun _ => ih

theorem posting_sendToFirst (content : Content) (bots : List Entity) :
    Posting .messenger (sendToFirst content bots : Action τ GroupError Bool) := by
  induction bots with
  | nil => exact .pure _
  | cons bot rest ih =>
    refine (posting_sendContent bot content).messaging.bind fun taken => ?_
    cases taken with
    | none => exact ih
    | some m => exact .pure _

theorem posting_deferred (group : Entity) :
    Posting .messenger (deferred group : Action τ GroupError Bool) :=
  (inquiring_posting.queryMembers group).messaging.bind fun _ => .pure _

/-! ### Every operation -/

/-- Storing comes last and does not fail. -/
theorem run_failure {plan : Plan} (h : attempt (plan.run group) c = (.error e, c')) :
    Failure c e c' := by
  have hends := posting_sendRounds group plan.rounds c
  rw [Plan.run, attempt_bind] at h
  rcases hrounds : attempt (sendRounds group plan.rounds) c with ⟨cause | _, c₁⟩
  · rw [hrounds] at h hends
    cases h
    exact .of_ends hends rfl
  · rw [hrounds] at h
    dsimp only at h
    rw [saveMembers, attempt_bind, attempt_get] at h
    dsimp only at h
    split at h
    · cases h
    · cases h

theorem change_failure {change : Change}
    (h : attempt (change.perform group) c = (.error e, c')) : Failure c e c' := by
  have hcourse := perform_course change group c
  rw [h] at hcourse
  generalize hr : ((.error e, c') : Except GroupError Bool × Client τ) = r at hcourse
  cases hcourse with
  | forbidden he =>
    cases hr
    exact .forbidden he
  | nobody hu =>
    cases hr
    exact .stopped (.nobody hu) (.refl c)
  | pointless => cases hr
  | waits q => exact .of_ends ((inquiring_posting.ask q).messaging.bind (fun _ => .pure _) c) hr.symm
  | planned hplan => exact run_failure hr.symm

theorem perform_failure (op : Operation)
    (h : attempt (op.perform group) c = (.error e, c')) : Failure c e c' := by
  cases op with
  | change ch => exact change_failure h
  | query => exact failure_ensureGroup (inquiring_posting.queryMembers group).messaging h
  | send content =>
    refine failure_ensureGroup (Posting.directory.bind fun d => ?_) h
    dsimp only
    split
    · exact posting_deferred group
    · exact posting_sendToFirst _ _

end

/-- A failed operation leaves every roster as it was. If it was forbidden it leaves everything as it
was, and if the codec did not refuse a message it leaves the delivery queue and the statuses of all
messages as they were; what was not forbidden then lacked somebody signed in. A codec that refuses a
message leaves queued, and marked so, what the user had sent before, and nothing else but cooldowns
and the serial numbers that are used up has changed. -/
theorem failed_operation_keeps_records (op : Operation) (group : Entity) {c c' : Client τ}
    {e : GroupError} (h : attempt (op.perform group) c = (.error e, c')) :
    c'.account.directory = c.account.directory ∧
    (e.isViolation = true → c' = c) ∧
    ((∀ cause, e ≠ .messenger (.codec cause)) →
      c'.session = c.session ∧ c'.desk.tracker = c.desk.tracker ∧
      (e.isViolation = false → e = .messenger .missingIdentity ∧ c.account.user = none)) ∧
    ∀ cause, e = .messenger (.codec cause) →
      ∃ m ls, c.account.codec.encode m = .error cause ∧ Posted c c' ls := by
  cases perform_failure op h with
  | forbidden he =>
    refine ⟨rfl, fun _ => rfl, fun _ => ⟨rfl, rfl, fun hallowed => ?_⟩, ?_⟩
    · cases he.symm.trans hallowed
    · rintro cause rfl
      cases he
  | stopped hcause hposted =>
    refine ⟨hposted.fields.2.2.2, nofun, fun hcodec => ?_, ?_⟩
    · cases hcause with
      | nobody hu =>
        obtain rfl := hposted.eq_nil_of_nobody hu
        have htracker : c'.desk.tracker = c.desk.tracker := by
          rw [hposted.desk]
          rfl
        exact ⟨hposted.session, htracker, fun _ => ⟨rfl, hu⟩⟩
      | refused he => exact absurd rfl (hcodec _)
    · rintro cause ⟨⟩
      cases hcause with
      | refused he => exact ⟨_, _, he, hposted⟩

/-! ### A codec that refuses -/

/-- Does not write invitations. -/
def halting : Client Loopback :=
  knowing (Codec.json.refusing ["group.invite"]) alice (some [alice, bob, carol])

def halted : Client Loopback :=
  (attempt ((Operation.change (.invite [dora])).perform team) halting).2

theorem perform_halted : attempt ((Operation.change (.invite [dora])).perform team) halting =
    (.error (.messenger (.codec (.malformed "refused group.invite"))), halted) :=
  attempt_eq_of_failure? (by decide +kernel)

theorem waiting_halted :
    halted.session.queue.waiting.map (·.message.receiver) = [dora] := by decide +kernel

/-- The roster of the team has not changed, but the card that was sent ahead is queued for dora. -/
theorem failed_operation_keeps_records_halted :
    halted.account.directory = halting.account.directory ∧
      halted.session.queue.waiting.map (·.message.receiver) = [dora] ∧
      ∃ m ls, halting.account.codec.encode m = .error (.malformed "refused group.invite") ∧
        Posted halting halted ls := by
  obtain ⟨hdirectory, -, -, hrefused⟩ := failed_operation_keeps_records _ team perform_halted
  exact ⟨hdirectory, waiting_halted, hrefused _ rfl⟩

theorem not_every_failure_keeps_queue :
    ¬ ∀ (op : Operation) (group : Entity) (c c' : Client Loopback) (e : GroupError),
      attempt (op.perform group) c = (.error e, c') →
      (∀ g, c'.account.directory.members g = c.account.directory.members g) ∧
      c'.session.queue = c.session.queue ∧
      (∀ m, c'.desk.tracker.status? m = c.desk.tracker.status? m) ∧
      (e.isViolation = true → c'.account.freshness = c.account.freshness) := by
  intro h
  obtain ⟨-, hqueue, -, -⟩ := h _ team halting halted _ perform_halted
  have hwaiting := waiting_halted
  rw [hqueue] at hwaiting
  cases hwaiting

end Courier.Group
