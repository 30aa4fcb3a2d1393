import Courier.Proofs.Client.Inquiring
import Courier.Proofs.Delivery.Submissions

/-!
# What sending leaves behind

Sending changes cooldowns, draws serial numbers and submits letters to the queue, and nothing else
that a group operation or a later command could depend on. The letters of a query tell nobody of a
membership change; those of a group operation tell of no other change than its own.
-/

namespace Courier

/-- The membership change that a command asks for, if it does. -/
def Command.membership? : Command → Option GroupCommand
  | .group (.query _ _) => none
  | .group command => some command
  | _ => none

theorem Command.membership?_of_isInquiry {command : Command} (h : command.isInquiry = true) :
    command.membership? = none := by
  unfold isInquiry at h
  split at h
  · rfl
  · rfl
  · rfl
  · cases h

/-- Who asked for which membership change, and when. -/
structure MembershipChange where
  sender : Entity
  time : Millis
  command : GroupCommand
  deriving DecidableEq, Repr

def Message.change? (m : Message) : Option MembershipChange :=
  (m.content.command?.bind Command.membership?).map (⟨m.sender, m.content.time, ·⟩)

/-- A message with the payload that it was packed into. -/
structure Letter where
  message : Message
  payload : Bytes

def Letter.change? (l : Letter) : Option MembershipChange := l.message.change?

def Letter.submission (l : Letter) (priority : Priority) (now : Millis) : Submission :=
  ⟨l.message.ref, ⟨l.payload, priority, some l.message.ref.id⟩, now⟩

namespace Client

variable {τ ε : Type}

def draw (c : Client τ) : Client τ :=
  c.modifyAccount fun a => { a with drawn := a.drawn + 1 }

def nextContent (c : Client τ) (body : Body) : Content :=
  Content.new (c.account.serials c.account.drawn) body c.account.clock

def submitted (c : Client τ) (l : Letter) (priority : Priority) : Client τ :=
  let (queued, session) := c.session.enqueue l.message.ref
    ⟨l.payload, priority, some l.message.ref.id⟩ c.account.clock
  if queued then
    { c with
      session := session
      desk := { c.desk with tracker := (c.desk.tracker.mark l.message.ref .queued).2 } }
  else c

theorem submitted_fields (c : Client τ) (l : Letter) (priority : Priority) :
    (c.submitted l priority).account = c.account ∧
    (c.submitted l priority).desk.handlers = c.desk.handlers ∧
    (c.submitted l priority).session =
      { c.session with
        queue := c.session.queue.submit (l.submission priority c.account.clock) } := by
  by_cases h : l.message.ref.id ∈ c.session.queue.reserved
  · have hs : c.session.queue.submit (l.submission priority c.account.clock) = c.session.queue :=
      DeliveryQueue.submit_of_contains h
    rw [hs]
    simp [submitted, Session.enqueue, DeliveryQueue.append_of_contains _ _ h]
  · simp only [submitted, Session.enqueue, DeliveryQueue.append_fst.mpr h, if_true]
    exact ⟨rfl, trivial, rfl⟩

@[simp] theorem attempt_newContent (body : Body) (c : Client τ) :
    attempt (newContent body : Action τ ε Content) c = (.ok (c.nextContent body), c.draw) := rfl

theorem attempt_sendInstant (m : Message) (priority : Priority) (c : Client τ) :
    attempt (sendInstant m priority) c =
      match c.account.codec.encode m with
      | .error e => (.error (.codec e), c)
      | .ok b =>
        (.ok (if m.ref.id ∈ c.session.queue.reserved then none else some m.ref),
          c.submitted ⟨m, b⟩ priority) := by
  rw [sendInstant, attempt_bind, attempt_get]
  dsimp only
  cases c.account.codec.encode m with
  | error e => rfl
  | ok b =>
    by_cases h : m.ref.id ∈ c.session.queue.reserved
    · simp [submitted, Session.enqueue, DeliveryQueue.append_of_contains _ _ h, h]
    · simp [submitted, Session.enqueue, DeliveryQueue.append_fst.mpr h, h]

/-- To send a message is to submit it, if it can be packed. -/
theorem Keeps.sendInstant {R : Client τ → Client τ → Prop} (hR : Composes R) {m : Message}
    {priority : Priority}
    (h : ∀ c b, c.account.codec.encode m = .ok b → R c (c.submitted ⟨m, b⟩ priority)) :
    Keeps R (Client.sendInstant m priority : Action τ MessengerError _) := by
  intro c
  rw [attempt_sendInstant]
  cases hb : c.account.codec.encode m with
  | error e => exact hR.refl c
  | ok b => exact h c b hb

theorem attempt_currentUser (c : Client τ) :
    attempt currentUser c =
      match c.account.user with
      | some user => (.ok user, c)
      | none => (.error .missingIdentity, c) := by
  rw [currentUser, attempt_bind, attempt_get]
  dsimp only
  cases c.account.user <;> rfl

/-! ### Letters between two moments -/

/-- Between the two moments some letters were submitted with normal priority, each with a serial
number of its own, and nothing else happened but queries that started to cool down. -/
structure Sent (c c' : Client τ) (ls : List Letter) : Prop where
  account : ∃ cooldowns, c'.account =
    { c.account with
      drawn := c'.account.drawn
      freshness := { c.account.freshness with cooldowns := cooldowns } }
  handlers : c'.desk.handlers = c.desk.handlers
  session : c'.session =
    { c.session with
      queue := c.session.queue.submitAll (ls.map (·.submission .normal c.account.clock)) }
  drawn : c.account.drawn ≤ c'.account.drawn
  encoded : ∀ l ∈ ls, c.account.codec.encode l.message = .ok l.payload
  serials : ∃ ns : List Nat, ns.Nodup ∧
    (∀ n ∈ ns, c.account.drawn ≤ n ∧ n < c'.account.drawn) ∧
    ls.map (·.message.content.serial) = ns.map c.account.serials

namespace Sent

variable {c c₁ c₂ c' : Client τ} {ls ls' : List Letter}

/-- Without a letter, serial numbers may be used up and queries may start to cool down. -/
theorem nothing (haccount : ∃ cooldowns, c'.account =
      { c.account with
        drawn := c'.account.drawn
        freshness := { c.account.freshness with cooldowns := cooldowns } })
    (hhandlers : c'.desk.handlers = c.desk.handlers) (hsession : c'.session = c.session)
    (hdrawn : c.account.drawn ≤ c'.account.drawn) : Sent c c' [] where
  account := haccount
  handlers := hhandlers
  session := hsession
  drawn := hdrawn
  encoded := fun _ h => nomatch h
  serials := ⟨[], .nil, (fun _ h => nomatch h), rfl⟩

theorem refl (c : Client τ) : Sent c c [] :=
  .nothing ⟨c.account.freshness.cooldowns, rfl⟩ rfl rfl (Nat.le_refl _)

theorem trans (h : Sent c c₁ ls) (h' : Sent c₁ c' ls') : Sent c c' (ls ++ ls') := by
  obtain ⟨cooldowns, ha⟩ := h.account
  obtain ⟨cooldowns', ha'⟩ := h'.account
  obtain ⟨ns, hnd, hns, hserials⟩ := h.serials
  obtain ⟨ns', hnd', hns', hserials'⟩ := h'.serials
  have hcodec : c₁.account.codec = c.account.codec := by rw [ha]
  have hclock : c₁.account.clock = c.account.clock := by rw [ha]
  have hstream : c₁.account.serials = c.account.serials := by rw [ha]
  refine ⟨⟨cooldowns', ?_⟩, h'.handlers.trans h.handlers, ?_, Nat.le_trans h.drawn h'.drawn, ?_, ?_⟩
  · rw [ha', ha]
  · rw [h'.session, h.session, hclock, List.map_append, DeliveryQueue.submitAll_append]
  · intro l hl
    rcases List.mem_append.mp hl with hl | hl
    · exact h.encoded l hl
    · exact hcodec ▸ h'.encoded l hl
  · refine ⟨ns ++ ns', List.nodup_append.mpr ⟨hnd, hnd', ?_⟩, ?_, ?_⟩
    · intro n hn n' hn'
      have := (hns n hn).2
      have := (hns' n' hn').1
      omega
    · intro n hn
      have := h.drawn
      have := h'.drawn
      rcases List.mem_append.mp hn with hn | hn
      · have := hns n hn
        omega
      · have := hns' n hn
        omega
    · rw [List.map_append, List.map_append, hserials, hserials', hstream]

theorem letter (h : Sent c.draw c₂ ls) {m : Message} {b : Bytes}
    (hm : m.content.serial = c.account.serials c.account.drawn)
    (hb : c.account.codec.encode m = .ok b) :
    Sent c (c₂.submitted ⟨m, b⟩ .normal) (ls ++ [⟨m, b⟩]) := by
  obtain ⟨cooldowns, ha⟩ := h.account
  obtain ⟨ns, hnd, hns, hserials⟩ := h.serials
  obtain ⟨haccount, hhandlers, hsession⟩ := c₂.submitted_fields ⟨m, b⟩ .normal
  have hclock : c₂.account.clock = c.account.clock := by rw [ha]; rfl
  have hdrawn : c.account.drawn + 1 ≤ c₂.account.drawn := h.drawn
  refine ⟨⟨cooldowns, ?_⟩, hhandlers.trans h.handlers, ?_, ?_, ?_, ?_⟩
  · rw [haccount, ha]
    rfl
  · rw [hsession, h.session, hclock, List.map_append, DeliveryQueue.submitAll_append]
    rfl
  · rw [haccount]
    omega
  · intro l hl
    rcases List.mem_append.mp hl with hl | hl
    · exact h.encoded l hl
    · rw [List.mem_singleton.mp hl]
      exact hb
  · refine ⟨ns ++ [c.account.drawn], ?_, ?_, ?_⟩
    · refine List.nodup_append.mpr ⟨hnd, by simp, ?_⟩
      intro n hn n' hn'
      have : c.account.drawn + 1 ≤ n := (hns n hn).1
      have := List.mem_singleton.mp hn'
      omega
    · intro n hn
      rw [haccount]
      rcases List.mem_append.mp hn with hn | hn
      · have : c.account.drawn + 1 ≤ n := (hns n hn).1
        have := (hns n hn).2
        omega
      · have := List.mem_singleton.mp hn
        omega
    · rw [List.map_append, List.map_append, hserials, List.map_singleton, hm]
      rfl

end Sent

theorem sent_draw (c : Client τ) : Sent c c.draw [] :=
  .nothing ⟨c.account.freshness.cooldowns, rfl⟩ rfl rfl (Nat.le_succ _)

theorem sent_requestQuery (key : FreshnessKey) (c : Client τ) :
    Sent c (attempt (requestQuery key : Action τ ε Bool) c).2 [] :=
  .nothing ⟨_, rfl⟩ rfl rfl (Nat.le_refl _)

theorem Sent.of_draw {c c' : Client τ} {ls : List Letter} (h : Sent c.draw c' ls) : Sent c c' ls :=
  (sent_draw c).trans h

theorem Sent.fields {c c' : Client τ} {ls : List Letter} (h : Sent c c' ls) :
    c'.account.user = c.account.user ∧ c'.account.clock = c.account.clock ∧
    c'.account.codec = c.account.codec ∧ c'.account.directory = c.account.directory := by
  obtain ⟨cooldowns, ha⟩ := h.account
  rw [ha]
  exact ⟨rfl, rfl, rfl, rfl⟩

/-! ### Queries -/

/-- Whatever was sent between the two moments tells of no membership change. -/
def Asks (c c' : Client τ) : Prop :=
  ∃ ls, Sent c c' ls ∧ ∀ l ∈ ls, l.change? = none

theorem composes_asks : Composes (Asks : Client τ → Client τ → Prop) where
  refl c := ⟨[], .refl c, fun _ h => nomatch h⟩
  trans := by
    rintro a b c ⟨ls, h, hn⟩ ⟨ls', h', hn'⟩
    refine ⟨ls ++ ls', h.trans h', fun l hl => ?_⟩
    rcases List.mem_append.mp hl with hl | hl
    · exact hn l hl
    · exact hn' l hl

theorem asks_draw (c : Client τ) : Asks c c.draw :=
  ⟨[], sent_draw c, fun _ h => nomatch h⟩

theorem keeps_requestQuery (key : FreshnessKey) :
    Keeps Asks (requestQuery key : Action τ ε Bool) :=
  fun c => ⟨[], sent_requestQuery key c, fun _ h => nomatch h⟩

theorem keeps_announce (receiver : Entity) {command : Command} (h : command.membership? = none) :
    Keeps Asks (announce receiver command .normal : Action τ MessengerError _) := by
  intro c
  rw [announce, attempt_bind, attempt_newContent]
  dsimp only
  rw [attempt_bind, attempt_currentUser]
  cases hu : c.draw.account.user with
  | none => exact asks_draw c
  | some user =>
    dsimp only
    rw [attempt_sendInstant]
    cases hb : c.draw.account.codec.encode
        (Message.new user.id receiver (c.nextContent (.command command))) with
    | error e => exact asks_draw c
    | ok b =>
      refine ⟨_, (Sent.refl c.draw).letter rfl hb, ?_⟩
      intro l hl
      rw [List.mem_singleton.mp hl]
      simp [Letter.change?, Message.change?, Message.new, nextContent, Content.new,
        Content.command?, h]

/-! ### Telling -/

/-- The letter tells a receiver of a command of the signed-in user. -/
def Tells (c : Client τ) (receiver : Entity) (command : Command) (l : Letter) : Prop :=
  ∃ user, c.account.user = some user ∧ l.message.receiver = receiver ∧
    l.change? = command.membership?.map (⟨user.id, c.account.clock, ·⟩)

/-- Between the two moments nothing was told but a command to a receiver, and it was told to him if
`done` holds. -/
def Told (receiver : Entity) (command : Command) (c c' : Client τ) (done : Prop) : Prop :=
  ∃ ls, Sent c c' ls ∧ (∀ l ∈ ls, l.change? = none ∨ c.Tells receiver command l) ∧
    (done → ∃ l ∈ ls, c.Tells receiver command l)

theorem attempt_senderOr_none (c : Client τ) :
    attempt (senderOr none) c =
      match c.account.user with
      | some user => (.ok user.id, c)
      | none => (.error .missingIdentity, c) := by
  change attempt (currentUser >>= fun user => pure user.id) c = _
  rw [attempt_bind, attempt_currentUser]
  cases c.account.user <;> rfl

theorem told_of_asks {receiver : Entity} {command : Command} {c c' : Client τ} {done : Prop}
    (h : Asks c.draw c') (hdone : ¬done) : Told receiver command c c' done := by
  obtain ⟨ls, hsent, hnone⟩ := h
  exact ⟨ls, hsent.of_draw, fun l hl => .inl (hnone l hl), fun h => absurd h hdone⟩

theorem told_sendInstant {c c₂ : Client τ} (h : Asks c.draw c₂) {user : LocalUser}
    (hu : c.account.user = some user) (group receiver : Entity) (command : Command) :
    let m := Message.new user.id receiver ((c.nextContent (.command command)).inGroup group)
    Told receiver command c (attempt (sendInstant m .normal) c₂).2
      (attempt (sendInstant m .normal) c₂).1.isOk := by
  intro m
  have hcodec : c₂.account.codec = c.account.codec := by
    obtain ⟨ls, hsent, -⟩ := h
    exact hsent.fields.2.2.1
  rw [attempt_sendInstant, hcodec]
  cases hb : c.account.codec.encode m with
  | error e => exact told_of_asks h (fun hok => nomatch hok)
  | ok b =>
    obtain ⟨ls, hsent, hnone⟩ := h
    have htells : c.Tells receiver command ⟨m, b⟩ := by
      refine ⟨user, hu, rfl, ?_⟩
      simp [Letter.change?, Message.change?, m, Message.new, nextContent, Content.new,
        Content.inGroup, Content.command?]
    refine ⟨ls ++ [⟨m, b⟩], hsent.letter rfl hb, ?_, ?_⟩
    · intro l hl
      rcases List.mem_append.mp hl with hl | hl
      · exact .inl (hnone l hl)
      · rw [List.mem_singleton.mp hl]
        exact .inr htells
    · exact fun _ => ⟨_, List.mem_append_right ls (List.mem_singleton_self _), htells⟩

/-- A command that the client makes next is told, or has to wait for the roster of its receiver. -/
theorem told_sendContentBy {query : Entity → Action τ MessengerError Bool} {receiver : Entity}
    (hcheck : Keeps Asks (checkGroup query receiver)) (c : Client τ) (group : Entity)
    (command : Command) :
    let content := (c.nextContent (.command command)).inGroup group
    Told receiver command c (attempt (sendContentBy query none receiver content .normal) c.draw).2
      ((attempt (sendContentBy query none receiver content .normal) c.draw).1.isOk ∧
        receiver.isGroup = false) := by
  intro content
  have hrefl : Asks c.draw c.draw := composes_asks.refl _
  rw [sendContentBy, attempt_bind, attempt_senderOr_none]
  cases hu : c.draw.account.user with
  | none => exact told_of_asks hrefl (fun h => nomatch h.1)
  | some user =>
    dsimp only
    by_cases hg : (receiver.isGroup && !receiver.isBroadcast) = true
    · have hgroup : receiver.isGroup = true := (Bool.and_eq_true_iff.mp hg).1
      have hnot (p : Prop) : ¬(p ∧ receiver.isGroup = false) := by simp [hgroup]
      rw [if_pos hg, attempt_bind]
      have hchecked := hcheck c.draw
      generalize attempt (checkGroup query receiver) c.draw = checked at hchecked ⊢
      rcases checked with ⟨e | ready, c₂⟩
      · exact told_of_asks hchecked (hnot _)
      · cases ready with
        | false => exact told_of_asks hchecked (hnot _)
        | true =>
          obtain ⟨ls, hsent, honly, -⟩ := told_sendInstant hchecked hu group receiver command
          exact ⟨ls, hsent, honly, fun h => absurd h (hnot _)⟩
    · obtain ⟨ls, hsent, honly, hdone⟩ := told_sendInstant hrefl hu group receiver command
      rw [if_neg hg]
      exact ⟨ls, hsent, honly, fun h => hdone h.1⟩

theorem inquiring_asks : Inquiring (Keeps (Asks : Client τ → Client τ → Prop)) where
  pure := Keeps.pure composes_asks
  bind := Keeps.bind composes_asks
  get := Keeps.get composes_asks
  requestQuery := keeps_requestQuery
  announce receiver _ h := keeps_announce receiver (Command.membership?_of_isInquiry h)
  tell group _ _ h hcheck := by
    intro c
    obtain ⟨ls, hsent, honly, -⟩ := told_sendContentBy hcheck c group _
    rw [tell, attempt_bind, attempt_newContent]
    refine ⟨ls, hsent, fun l hl => ?_⟩
    rcases honly l hl with hnone | ⟨user, -, -, hchange⟩
    · exact hnone
    · rw [hchange, Command.membership?_of_isInquiry h]
      rfl

end Client

end Courier
