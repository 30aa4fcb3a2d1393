import Courier.Proofs.Client.Cooldowns

/-!
# Why sending fails

Sending in the name of the signed-in user fails for one of two reasons. Either nobody is signed in,
and then nothing was queued, or the codec refuses a message, and then the messages before it are
queued. What was queued in vain is not taken back.
-/

namespace Courier

/-- Marks one entry after the other as queued. -/
def DeliveryTracker.markAll (t : DeliveryTracker) (es : List QueueEntry) : DeliveryTracker :=
  es.foldl (fun t e => (t.mark e.message .queued).2) t

theorem DeliveryTracker.markAll_append (t : DeliveryTracker) (es es' : List QueueEntry) :
    t.markAll (es ++ es') = (t.markAll es).markAll es' :=
  List.foldl_append

namespace Client

variable {τ ε : Type} {α β : Type}

/-- What keeps a client from sending. -/
inductive Obstacle (c : Client τ) : MessengerError → Prop
  | nobody : c.account.user = none → Obstacle c .missingIdentity
  | refused {m : Message} {cause : CodecError} :
      c.account.codec.encode m = .error cause → Obstacle c (.codec cause)

def submissions (c : Client τ) (ls : List Letter) : List Submission :=
  ls.map (·.submission .normal c.account.clock)

/-! ### Letters of the user -/

theorem desk_submitted (c : Client τ) (l : Letter) (priority : Priority) :
    (c.submitted l priority).desk =
      { c.desk with
        tracker := c.desk.tracker.markAll
          (c.session.queue.accepted [l.submission priority c.account.clock]) } := by
  by_cases h : l.message.ref.id ∈ c.session.queue.reserved
  · have hsame : c.submitted l priority = c := by
      simp [submitted, Session.enqueue, DeliveryQueue.append_of_contains _ _ h]
    have haccepted : c.session.queue.accepted [l.submission priority c.account.clock] = [] :=
      DeliveryQueue.accepted_cons_of_contains (s := l.submission priority c.account.clock) [] h
    rw [hsame, haccepted]
    rfl
  · have hmarked : (c.submitted l priority).desk =
        { c.desk with tracker := (c.desk.tracker.mark l.message.ref .queued).2 } := by
      simp only [submitted, Session.enqueue, DeliveryQueue.append_fst.mpr h, if_true]
    rw [hmarked,
      DeliveryQueue.accepted_cons (s := l.submission priority c.account.clock) [] h]
    rfl

/-- Between the two moments the signed-in user submitted letters with normal priority, the ones that
were queued were marked so, and nothing else happened but that serial numbers were drawn and queries
started to cool down. -/
structure Posted (c c' : Client τ) (ls : List Letter) : Prop where
  account : ∃ cooldowns, c'.account =
    { c.account with
      drawn := c'.account.drawn
      freshness := { c.account.freshness with cooldowns := cooldowns } }
  session : c'.session =
    { c.session with queue := c.session.queue.submitAll (c.submissions ls) }
  desk : c'.desk =
    { c.desk with
      account := c'.account
      tracker := c.desk.tracker.markAll (c.session.queue.accepted (c.submissions ls)) }
  written : ∀ l ∈ ls, c.account.codec.encode l.message = .ok l.payload
  signed : ∀ l ∈ ls, ∃ user, c.account.user = some user ∧ l.message.sender = user.id

namespace Posted

variable {c c₁ c' : Client τ} {ls ls' : List Letter}

/-- Without a letter, serial numbers may be used up and queries may start to cool down. -/
theorem nothing (haccount : ∃ cooldowns, c'.account =
      { c.account with
        drawn := c'.account.drawn
        freshness := { c.account.freshness with cooldowns := cooldowns } })
    (hsession : c'.session = c.session) (hdesk : c'.desk = { c.desk with account := c'.account }) :
    Posted c c' [] where
  account := haccount
  session := hsession
  desk := hdesk
  written := fun _ h => nomatch h
  signed := fun _ h => nomatch h

theorem refl (c : Client τ) : Posted c c [] :=
  .nothing ⟨c.account.freshness.cooldowns, rfl⟩ rfl rfl

theorem fields (h : Posted c c' ls) :
    c'.account.user = c.account.user ∧ c'.account.clock = c.account.clock ∧
    c'.account.codec = c.account.codec ∧ c'.account.directory = c.account.directory := by
  obtain ⟨cooldowns, ha⟩ := h.account
  rw [ha]
  exact ⟨rfl, rfl, rfl, rfl⟩

theorem trans (h : Posted c c₁ ls) (h' : Posted c₁ c' ls') : Posted c c' (ls ++ ls') := by
  obtain ⟨cooldowns, ha⟩ := h.account
  obtain ⟨cooldowns', ha'⟩ := h'.account
  obtain ⟨huser, hclock, hcodec, -⟩ := h.fields
  have hsubmissions : c.submissions (ls ++ ls') = c.submissions ls ++ c₁.submissions ls' := by
    rw [submissions, submissions, submissions, hclock, List.map_append]
  have hqueue : c₁.session.queue = c.session.queue.submitAll (c.submissions ls) := by
    rw [h.session]
  refine ⟨⟨cooldowns', ?_⟩, ?_, ?_, ?_, ?_⟩
  · rw [ha', ha]
  · rw [h'.session, hqueue, hsubmissions, DeliveryQueue.submitAll_append, h.session]
  · rw [h'.desk, hqueue, hsubmissions, DeliveryQueue.accepted_append,
      DeliveryTracker.markAll_append, h.desk]
  · intro l hl
    rcases List.mem_append.mp hl with hl | hl
    · exact h.written l hl
    · exact hcodec ▸ h'.written l hl
  · intro l hl
    rcases List.mem_append.mp hl with hl | hl
    · exact h.signed l hl
    · exact huser ▸ h'.signed l hl

theorem eq_nil_of_nobody (h : Posted c c' ls) (hu : c.account.user = none) : ls = [] := by
  refine List.eq_nil_iff_forall_not_mem.mpr fun l hl => ?_
  obtain ⟨user, hsome, -⟩ := h.signed l hl
  cases hu.symm.trans hsome

theorem submitted {user : LocalUser} (hu : c.account.user = some user) {m : Message} {b : Bytes}
    (hsender : m.sender = user.id) (hb : c.account.codec.encode m = .ok b) :
    Posted c (c.submitted ⟨m, b⟩ .normal) [⟨m, b⟩] := by
  obtain ⟨haccount, -, hsession⟩ := c.submitted_fields ⟨m, b⟩ .normal
  refine ⟨⟨c.account.freshness.cooldowns, ?_⟩, hsession, ?_, ?_, ?_⟩
  · rw [haccount]
  · rw [desk_submitted, haccount]
    rfl
  · intro l hl
    rw [List.mem_singleton.mp hl]
    exact hb
  · intro l hl
    rw [List.mem_singleton.mp hl]
    exact ⟨user, hu, hsender⟩

end Posted

theorem posted_draw (c : Client τ) : Posted c c.draw [] :=
  .nothing ⟨c.account.freshness.cooldowns, rfl⟩ rfl rfl

theorem posted_arm (c : Client τ) (key : FreshnessKey) : Posted c (c.arm key) [] :=
  .nothing ⟨_, rfl⟩ rfl rfl

/-! ### Actions that fail for these reasons alone -/

theorem Obstacle.before {c c₁ : Client τ} {ls : List Letter} {e : MessengerError}
    (h : Obstacle c₁ e) (hposted : Posted c c₁ ls) : Obstacle c e := by
  obtain ⟨huser, -, hcodec, -⟩ := hposted.fields
  cases h with
  | nobody hu => exact .nobody (huser.symm.trans hu)
  | refused he => exact .refused (hcodec ▸ he)

/-- Letters were posted, and if that was not all, an obstacle stopped it. -/
structure Ends (wrap : MessengerError → ε) (c : Client τ) (r : Except ε α × Client τ) : Prop where
  posted : ∃ ls, Posted c r.2 ls
  blamed : ∀ e, r.1 = .error e → ∃ cause, e = wrap cause ∧ Obstacle c cause

def Posting (wrap : MessengerError → ε) (a : Action τ ε α) : Prop :=
  ∀ c, Ends wrap c (attempt a c)

variable {wrap : MessengerError → ε}

section Ends

variable {c c₁ : Client τ} {ls : List Letter}

theorem Posted.ends (h : Posted c c₁ ls) (x : α) : Ends wrap c (.ok x, c₁) :=
  ⟨⟨ls, h⟩, nofun⟩

theorem Obstacle.ends {cause : MessengerError} (h : Obstacle c cause) :
    Ends wrap c ((.error (wrap cause), c) : Except ε α × Client τ) := by
  refine ⟨⟨[], .refl c⟩, ?_⟩
  rintro e ⟨⟩
  exact ⟨cause, rfl, h⟩

theorem Posted.then_ends {r : Except ε α × Client τ} (h : Posted c c₁ ls) (hr : Ends wrap c₁ r) :
    Ends wrap c r := by
  obtain ⟨ls', hposted⟩ := hr.posted
  refine ⟨⟨ls ++ ls', h.trans hposted⟩, fun e he => ?_⟩
  obtain ⟨cause, hwrap, hcause⟩ := hr.blamed e he
  exact ⟨cause, hwrap, hcause.before h⟩

theorem Ends.bind {a : Action τ ε α} {f : α → Action τ ε β} (ha : Ends wrap c (attempt a c))
    (hf : ∀ x c₁ ls, Posted c c₁ ls → Ends wrap c₁ (attempt (f x) c₁)) :
    Ends wrap c (attempt (a >>= f) c) := by
  obtain ⟨⟨ls, hposted⟩, hblamed⟩ := ha
  rw [attempt_bind]
  rcases hc : attempt a c with ⟨e | x, c₁⟩
  · rw [hc] at hposted hblamed
    refine ⟨⟨ls, hposted⟩, ?_⟩
    rintro e' ⟨⟩
    exact hblamed e rfl
  · rw [hc] at hposted
    exact hposted.then_ends (hf x c₁ ls hposted)

end Ends

namespace Posting

theorem pure (x : α) : Posting wrap (Pure.pure x : Action τ ε α) :=
  fun c => (Posted.refl c).ends x

theorem bind {a : Action τ ε α} {f : α → Action τ ε β} (ha : Posting wrap a)
    (hf : ∀ x, Posting wrap (f x)) : Posting wrap (a >>= f) :=
  fun c => (ha c).bind fun x c₁ _ _ => hf x c₁

theorem get : Posting wrap (MonadState.get : Action τ ε (Client τ)) :=
  fun c => (Posted.refl c).ends c

theorem directory : Posting wrap (Client.directory : Action τ ε Directory) :=
  fun c => (Posted.refl c).ends c.account.directory

theorem newContent (body : Body) : Posting wrap (newContent body : Action τ ε Content) :=
  fun c => (posted_draw c).ends (c.nextContent body)

theorem requestQuery (key : FreshnessKey) : Posting wrap (requestQuery key : Action τ ε Bool) := by
  intro c
  by_cases h : c.Cooling key
  · rw [attempt_requestQuery_of_cooling h]
    exact (Posted.refl c).ends false
  · rw [attempt_requestQuery_of_not_cooling h]
    exact (posted_arm c key).ends true

theorem messaging {a : Action τ MessengerError α} (ha : Posting id a) :
    Posting .messenger (messaging a) := by
  intro c
  obtain ⟨hposted, hblamed⟩ := ha c
  rw [attempt_messaging]
  rcases hc : attempt a c with ⟨e | x, c₁⟩
  · rw [hc] at hposted hblamed
    refine ⟨hposted, ?_⟩
    rintro e' ⟨⟩
    obtain ⟨cause, rfl, hcause⟩ := hblamed e rfl
    exact ⟨e, rfl, hcause⟩
  · rw [hc] at hposted
    exact ⟨hposted, nofun⟩

end Posting

theorem ends_sendInstant {c : Client τ} {user : LocalUser} (hu : c.account.user = some user)
    {m : Message} (hsender : m.sender = user.id) :
    Ends id c (attempt (sendInstant m .normal) c) := by
  rw [attempt_sendInstant]
  cases hb : c.account.codec.encode m with
  | error cause => exact (Obstacle.refused hb).ends
  | ok b => exact (Posted.submitted hu hsender hb).ends _

/-- What is done in the name of the user needs one. -/
theorem ends_currentUser {f : LocalUser → Action τ MessengerError α} {c : Client τ}
    (hf : ∀ user, c.account.user = some user → Ends id c (attempt (f user) c)) :
    Ends id c (attempt (currentUser >>= f) c) := by
  rw [attempt_bind, attempt_currentUser]
  cases hu : c.account.user with
  | none => exact (Obstacle.nobody hu).ends
  | some user => exact hf user hu

theorem posting_announce (receiver : Entity) (command : Command) :
    Posting id (announce receiver command .normal : Action τ MessengerError _) :=
  (Posting.newContent _).bind fun _ _ => ends_currentUser fun _ hu => ends_sendInstant hu rfl

theorem posting_sendContentBy {query : Entity → Action τ MessengerError Bool} {receiver : Entity}
    (hcheck : Posting id (checkGroup query receiver)) (content : Content) :
    Posting id (sendContentBy query none receiver content .normal) := by
  intro c
  rw [sendContentBy, attempt_bind, attempt_senderOr_none]
  cases hu : c.account.user with
  | none => exact (Obstacle.nobody hu).ends
  | some user =>
    dsimp only
    split
    · refine (hcheck c).bind fun ready c₁ ls hposted => ?_
      cases ready with
      | false => exact (Posted.refl c₁).ends _
      | true => exact ends_sendInstant (hposted.fields.1.trans hu) rfl
    · exact ends_sendInstant hu rfl

theorem inquiring_posting :
    Inquiring (Posting id : ∀ {α : Type}, Action τ MessengerError α → Prop) where
  pure := Posting.pure
  bind := Posting.bind
  get := Posting.get
  requestQuery := Posting.requestQuery
  announce receiver _ _ := posting_announce receiver _
  tell _ _ _ _ hcheck := (Posting.newContent _).bind fun _ => posting_sendContentBy hcheck _

theorem posting_sendContent (receiver : Entity) (content : Content) :
    Posting id (sendContent none receiver content .normal : Action τ MessengerError _) :=
  posting_sendContentBy
    (inquiring_posting.checkGroup inquiring_posting.queryMembers receiver) content

/-! ### Which failure it was -/

def failure? : Except ε α → Option ε
  | .error e => some e
  | .ok _ => none

theorem attempt_eq_of_failure? {a : Action τ ε α} {c : Client τ} {e : ε}
    (h : failure? (attempt a c).1 = some e) : attempt a c = (.error e, (attempt a c).2) := by
  generalize attempt a c = r at h ⊢
  rcases r with ⟨_ | x, c'⟩
  · cases h
    rfl
  · cases h

end Client

end Courier
