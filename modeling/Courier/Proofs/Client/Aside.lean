import Courier.Proofs.Client.Cooldowns

/-!
# What is sent past somebody

Asking for documents concerns the station, and a message to a group the group. Neither puts anything
on its way to anyone else, and neither fails for somebody who is signed in and whose codec writes such
questions. Questions for documents start cooldowns of their own, which nothing but such questions
depends on.
-/

namespace Courier

/-- The command asks for documents or for a roster. -/
def Command.isQuestion : Command → Bool
  | .document _ _ [] _ => true
  | .group (.query _ _) => true
  | _ => false

/-- Every question for documents or for a roster can be written. -/
def Codec.PutsQuestions (codec : Codec) : Prop :=
  ∀ (m : Message) (command : Command), m.content.body = .command command →
    command.isQuestion = true → ∃ b, codec.encode m = .ok b

theorem Codec.putsQuestions_json : Codec.json.PutsQuestions :=
  fun m _ _ _ => ⟨Envelope.encode m, rfl⟩

namespace Client

variable {τ ε : Type} {α β : Type} {who : Entity}

/-- Between the two moments letters were sent to others, and at most questions for documents started
to cool down. -/
structure Aside (who : Entity) (c c' : Client τ) : Prop where
  sent : ∃ ls, Sent c c' ls ∧ ∀ l ∈ ls, l.message.receiver ≠ who
  period : c'.account.freshness.cooldowns.period = c.account.freshness.cooldowns.period
  ends : ∀ key, key.kind ≠ .document → c'.coolsUntil? key = c.coolsUntil? key

theorem composes_aside : Composes (Aside who : Client τ → Client τ → Prop) where
  refl c := ⟨⟨[], .refl c, fun _ h => nomatch h⟩, rfl, fun _ _ => rfl⟩
  trans := by
    rintro a b c ⟨⟨ls, hsent, hls⟩, hperiod, hends⟩ ⟨⟨ls', hsent', hls'⟩, hperiod', hends'⟩
    refine ⟨⟨ls ++ ls', hsent.trans hsent', ?_⟩, hperiod'.trans hperiod, ?_⟩
    · intro l hl
      rcases List.mem_append.mp hl with hl | hl
      · exact hls l hl
      · exact hls' l hl
    · exact fun key hkey => (hends' key hkey).trans (hends key hkey)

theorem aside_draw (c : Client τ) : Aside who c c.draw :=
  ⟨⟨[], sent_draw c, fun _ h => nomatch h⟩, rfl, fun _ _ => rfl⟩

/-- A letter with a serial number that was drawn before anything else was sent. -/
theorem Aside.letter {c c' : Client τ} {m : Message} {b : Bytes} (h : Aside who c.draw c')
    (hserial : m.content.serial = c.account.serials c.account.drawn)
    (hb : c.account.codec.encode m = .ok b) (hreceiver : m.receiver ≠ who) :
    Aside who c (c'.submitted ⟨m, b⟩ .normal) := by
  obtain ⟨⟨ls, hsent, hls⟩, hperiod, hends⟩ := h
  obtain ⟨haccount, -, -⟩ := c'.submitted_fields ⟨m, b⟩ .normal
  refine ⟨⟨ls ++ [⟨m, b⟩], hsent.letter hserial hb, ?_⟩, ?_, ?_⟩
  · intro l hl
    rcases List.mem_append.mp hl with hl | hl
    · exact hls l hl
    · rw [List.mem_singleton.mp hl]
      exact hreceiver
  · rw [haccount, hperiod]
    rfl
  · intro key hkey
    rw [coolsUntil?, haccount]
    exact hends key hkey

theorem aside_arm (c : Client τ) (id : Entity) : Aside who c (c.arm ⟨id, .document⟩) := by
  refine ⟨⟨[], ?_, fun _ h => nomatch h⟩, rfl, ?_⟩
  · exact .nothing ⟨_, rfl⟩ rfl rfl (Nat.le_refl _)
  · intro key hkey
    rw [coolsUntil?_arm]
    apply if_neg
    rintro rfl
    exact hkey rfl

/-! ### Actions that do not fail -/

/-- Somebody is signed in, and questions can be written. -/
structure Able (c : Client τ) : Prop where
  user : ∃ user, c.account.user = some user
  codec : c.account.codec.PutsQuestions

theorem Aside.able {c c' : Client τ} (h : Aside who c c') (hc : c.Able) : c'.Able := by
  obtain ⟨⟨ls, hsent, -⟩, -, -⟩ := h
  obtain ⟨huser, -, hcodec, -⟩ := hsent.fields
  exact ⟨huser ▸ hc.user, hcodec ▸ hc.codec⟩

/-- Goes well for a client that is able, and sends nothing to somebody. -/
def Strays (who : Entity) (a : Action τ ε α) (c : Client τ) : Prop :=
  ∃ x c', attempt a c = (.ok x, c') ∧ Aside who c c'

namespace Strays

variable {c : Client τ}

theorem pure (x : α) : Strays who (Pure.pure x : Action τ ε α) c :=
  ⟨x, c, rfl, composes_aside.refl c⟩

theorem bind {a : Action τ ε α} {f : α → Action τ ε β} (hc : c.Able) (ha : Strays who a c)
    (hf : ∀ x c', Able c' → Strays who (f x) c') : Strays who (a >>= f) c := by
  obtain ⟨x, c₁, hx, haside⟩ := ha
  obtain ⟨y, c₂, hy, haside'⟩ := hf x c₁ (haside.able hc)
  refine ⟨y, c₂, ?_, composes_aside.trans haside haside'⟩
  rw [attempt_bind, hx]
  exact hy

end Strays

variable {c : Client τ}

theorem attempt_sendInstant_of_encodes {m : Message} {b : Bytes} (priority : Priority)
    (hb : c.account.codec.encode m = .ok b) :
    ∃ ref, attempt (sendInstant m priority) c = (.ok ref, c.submitted ⟨m, b⟩ priority) := by
  refine ⟨if m.ref.id ∈ c.session.queue.reserved then none else some m.ref, ?_⟩
  rw [attempt_sendInstant, hb]

theorem attempt_announce_of_user {user : LocalUser} (hu : c.account.user = some user)
    (receiver : Entity) (command : Command) (priority : Priority) :
    attempt (announce receiver command priority) c = attempt (sendInstant
      (Message.new user.id receiver (c.nextContent (.command command))) priority) c.draw := by
  have hdraw : c.draw.account.user = some user := hu
  rw [announce, attempt_bind, attempt_newContent]
  dsimp only
  rw [attempt_bind, attempt_currentUser, hdraw]

theorem strays_announce {receiver : Entity} (hc : c.Able) (hreceiver : receiver ≠ who)
    (command : Command) (hquestion : command.isQuestion = true) :
    Strays who (announce receiver command .normal) c := by
  obtain ⟨user, hu⟩ := hc.user
  let m := Message.new user.id receiver (c.nextContent (.command command))
  obtain ⟨b, hb⟩ := hc.codec m command rfl hquestion
  have hb' : c.draw.account.codec.encode m = .ok b := hb
  obtain ⟨ref, hsent⟩ := attempt_sendInstant_of_encodes .normal hb'
  refine ⟨ref, c.draw.submitted ⟨m, b⟩ .normal, ?_, ?_⟩
  · exact (attempt_announce_of_user hu receiver command .normal).trans hsent
  · exact (composes_aside.refl c.draw).letter rfl hb hreceiver

theorem strays_queryDocument (hc : c.Able) (hwho : .anyStation ≠ who) (id : Entity) :
    Strays who (queryDocument id) c := by
  by_cases h : c.Cooling ⟨id, .document⟩
  · refine ⟨false, c, ?_, composes_aside.refl c⟩
    rw [queryDocument, attempt_bind, attempt_requestQuery_of_cooling h]
    rfl
  · let held := Document.newest? ((c.arm ⟨id, .document⟩).account.directory.documents id)
    have harm : Aside who c (c.arm ⟨id, .document⟩) := aside_arm c id
    obtain ⟨ref, c', hsent, haside⟩ :=
      strays_announce (harm.able hc) hwho (.document id none [] held) rfl
    refine ⟨true, c', ?_, composes_aside.trans harm haside⟩
    rw [queryDocument, attempt_bind, attempt_requestQuery_of_not_cooling h]
    dsimp only
    rw [if_pos rfl, attempt_bind, attempt_directory]
    dsimp only
    rw [attempt_bind, hsent]
    rfl

theorem strays_queryDocuments (hc : c.Able) (hwho : .anyStation ≠ who) (ids : List Entity) :
    Strays who (queryDocuments ids) c := by
  induction ids generalizing c with
  | nil => exact Strays.pure ()
  | cons id rest ih => exact (strays_queryDocument hc hwho id).bind hc fun _ _ hc' => ih hc'

/-! ### Messages to groups -/

/-- Nothing has to be asked for before a message to the group can be sent, except for documents. -/
structure KnowsGroup (c : Client τ) (group : Entity) : Prop where
  card : Freshness.needsCard group (c.account.directory.card? group) = false
  roster : c.account.freshness.needsMembers group (some (c.account.directory.members group)) none =
    false

theorem strays_checkGroup (query : Entity → Action τ MessengerError Bool) {group : Entity}
    (hc : c.Able) (hwho : .anyStation ≠ who) (hknows : c.KnowsGroup group) :
    Strays who (checkGroup query group) c := by
  let waiting := (c.account.directory.members group).filter fun m =>
    !c.account.directory.hasEncryptionKey m
  obtain ⟨_, c', hsent, haside⟩ := strays_queryDocuments hc hwho waiting
  refine ⟨waiting.isEmpty, c', ?_, haside⟩
  rw [checkGroup, attempt_bind, attempt_get]
  dsimp only
  rw [hknows.card, hknows.roster, if_neg Bool.false_ne_true, if_neg Bool.false_ne_true,
    attempt_bind, hsent]
  rfl

section Tell

variable (query : Entity → Action τ MessengerError Bool) (group receiver : Entity)
  (command : Command)

theorem attempt_tell_of_nobody (h : c.account.user = none) :
    attempt (tell query group receiver command) c = (.error .missingIdentity, c.draw) := by
  have hdraw : c.draw.account.user = none := h
  rw [tell, attempt_bind, attempt_newContent]
  dsimp only
  rw [sendContentBy, attempt_bind, attempt_senderOr_none, hdraw]

/-- A group has to be ready for the command, anyone else is sent it at once. -/
theorem attempt_tell_of_user {user : LocalUser} (h : c.account.user = some user) :
    let m := Message.new user.id receiver ((c.nextContent (.command command)).inGroup group)
    attempt (tell query group receiver command) c =
      if (receiver.isGroup && !receiver.isBroadcast) = true then
        attempt (checkGroup query receiver >>= fun ready =>
          if ready then sendInstant m .normal else pure none) c.draw
      else attempt (sendInstant m .normal) c.draw := by
  have hdraw : c.draw.account.user = some user := h
  rw [tell, attempt_bind, attempt_newContent]
  dsimp only
  rw [sendContentBy, attempt_bind, attempt_senderOr_none, hdraw]
  dsimp only
  split <;> rfl

theorem attempt_checkGroup_of_needsCard
    (h : Freshness.needsCard group (c.account.directory.card? group) = true) :
    attempt (checkGroup query group) c =
      attempt (queryCard group >>= fun _ => pure false) c := by
  rw [checkGroup, attempt_bind, attempt_get]
  dsimp only
  rw [if_pos h]

theorem attempt_checkGroup_of_needsMembers
    (hcard : Freshness.needsCard group (c.account.directory.card? group) = false)
    (h : c.account.freshness.needsMembers group
      (some (c.account.directory.members group)) none = true) :
    attempt (checkGroup query group) c = attempt (query group >>= fun _ => pure false) c := by
  rw [checkGroup, attempt_bind, attempt_get]
  dsimp only
  rw [hcard, if_neg Bool.false_ne_true, if_pos h]

variable {group receiver command}

theorem strays_tell (hc : c.Able) (hwho : .anyStation ≠ who) (hreceiver : receiver ≠ who)
    (hquestion : command.isQuestion = true)
    (hgroup : (receiver.isGroup && !receiver.isBroadcast) = true)
    (hknows : c.KnowsGroup receiver) : Strays who (tell query group receiver command) c := by
  obtain ⟨user, hu⟩ := hc.user
  let m := Message.new user.id receiver ((c.nextContent (.command command)).inGroup group)
  obtain ⟨b, hb⟩ := hc.codec m command rfl hquestion
  have hdraw : Aside who c c.draw := aside_draw c
  have hknows' : c.draw.KnowsGroup receiver := ⟨hknows.card, hknows.roster⟩
  obtain ⟨ready, c', hchecked, haside⟩ := strays_checkGroup query (hdraw.able hc) hwho hknows'
  have hsend : attempt (tell query group receiver command) c =
      attempt (if ready then sendInstant m .normal else pure none) c' := by
    rw [attempt_tell_of_user query group receiver command hu, if_pos hgroup, attempt_bind,
      hchecked]
  have hcodec : c'.account.codec = c.account.codec := by
    obtain ⟨⟨ls, hsent, -⟩, -, -⟩ := haside
    exact hsent.fields.2.2.1
  cases ready with
  | false => exact ⟨none, c', hsend, composes_aside.trans hdraw haside⟩
  | true =>
    obtain ⟨ref, hsent⟩ := attempt_sendInstant_of_encodes .normal (hcodec ▸ hb)
    refine ⟨ref, c'.submitted ⟨m, b⟩ .normal, ?_, haside.letter rfl hb hreceiver⟩
    rw [hsend, if_pos rfl, hsent]

end Tell

end Client

end Courier
