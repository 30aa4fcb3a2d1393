import Courier.Proofs.Client.Aside

/-!
# When a group message leaves

A group message leaves once the card of the group, its roster and a key of everybody listed are
known. Until then exactly one of these three is asked for, the first that is missing, and nothing
goes to the group itself. Questions that cool down are not put again, also not within one attempt:
who is listed twice is asked for once.
-/

namespace Courier

def Codec.Writes (codec : Codec) : Prop :=
  ∀ m, ∃ b, codec.encode m = .ok b

theorem Codec.writes_json : Codec.json.Writes :=
  fun m => ⟨Envelope.encode m, rfl⟩

/-- Messages to the group can be encrypted for everybody in it. -/
structure Directory.Ready (d : Directory) (group : Entity) : Prop where
  card : (d.card? group).isSome
  roster : d.members group ≠ []
  keys : ∀ m ∈ d.members group, d.hasEncryptionKey m = true

def Directory.keyless (d : Directory) (group : Entity) : List Entity :=
  (d.members group).filter fun m => !d.hasEncryptionKey m

theorem Directory.keyless_eq_nil {d : Directory} {group : Entity} :
    d.keyless group = [] ↔ ∀ m ∈ d.members group, d.hasEncryptionKey m = true := by
  simp [keyless]

namespace Freshness

/-- For whose documents it may be asked, when it is asked for one after the other. -/
def granted (f : Freshness) (now : Millis) : List Entity → List Entity
  | [] => []
  | id :: rest =>
    if f.cooldowns.isCooling ⟨id, .document⟩ now then f.granted now rest
    else id :: (f.request ⟨id, .document⟩ now true).2.granted now rest

variable {f : Freshness} {now : Millis} {id : Entity} {ids : List Entity}

theorem isCooling_request (key k : FreshnessKey) :
    (f.request key now true).2.cooldowns.isCooling k now =
      if k = key then decide (now < Millis.later now f.cooldowns.period)
      else f.cooldowns.isCooling k now := by
  have hends : (f.request key now true).2.cooldowns.ends =
      f.cooldowns.ends.insert key (Millis.later now f.cooldowns.period) := by
    simp [request, Cooldowns.request]
  rw [Cooldowns.isCooling, hends, Table.get?_insert]
  split
  · exact Option.any_some ..
  · rfl

/-- Everybody who does not cool down is asked for. -/
theorem mem_granted : id ∈ f.granted now ids ↔
    id ∈ ids ∧ f.cooldowns.isCooling ⟨id, .document⟩ now = false := by
  induction ids generalizing f with
  | nil => simp [granted]
  | cons who rest ih =>
    rw [granted]
    by_cases h : f.cooldowns.isCooling ⟨who, .document⟩ now = true
    · rw [if_pos h, ih, List.mem_cons]
      refine and_congr_left fun hid => ⟨.inr, fun hmem => hmem.resolve_left ?_⟩
      rintro rfl
      exact Bool.false_ne_true (hid.symm.trans h)
    · rw [if_neg h, List.mem_cons, ih, isCooling_request, List.mem_cons]
      by_cases hid : id = who
      · simp [hid, h]
      · simp [hid]

/-- Whoever is listed twice is asked for once, if cooldowns last at all. -/
theorem nodup_granted (hlasts : now < Millis.later now f.cooldowns.period) :
    (f.granted now ids).Nodup := by
  induction ids generalizing f with
  | nil => exact .nil
  | cons who rest ih =>
    rw [granted]
    split
    · exact ih hlasts
    · have hperiod : (f.request ⟨who, .document⟩ now true).2.cooldowns.period =
          f.cooldowns.period := by simp [request, Cooldowns.request]
      refine List.nodup_cons.mpr ⟨fun hmem => ?_, ih (hperiod ▸ hlasts)⟩
      have hcools := (mem_granted.mp hmem).2
      rw [isCooling_request, if_pos rfl, decide_eq_true hlasts] at hcools
      cases hcools

end Freshness

/-- Whom a letter asks what. -/
def Letter.question? (l : Letter) : Option (Entity × Command) :=
  l.message.content.command?.map fun command => (l.message.receiver, command)

namespace Client

variable {τ ε : Type} {c c' : Client τ}

instance (c : Client τ) (key : FreshnessKey) : Decidable (c.Cooling key) :=
  inferInstanceAs (Decidable (_ = true))

/-- What has to be asked before a message to the group can leave, as far as it does not cool
down. -/
def questions (c : Client τ) (group : Entity) : List (Entity × Command) :=
  let d := c.account.directory
  let f := c.account.freshness
  if (d.card? group).isNone then
    if c.Cooling ⟨group, .card⟩ then []
    else [(.anyStation, .card group none)]
  else if (d.members group).isEmpty then
    if c.Cooling ⟨group, .members⟩ then []
    else
      let held := f.recent.latest? ⟨group, .history⟩
      (d.assistants group).map fun bot => (bot, .group (.query group held))
  else
    (f.granted c.account.clock (d.keyless group)).map fun id =>
      (.anyStation, .document id none [] (Document.newest? (d.documents id)))

/-- Between the two moments just these questions were put. -/
def Poses (c c' : Client τ) (qs : List (Entity × Command)) : Prop :=
  ∃ ls, Sent c c' ls ∧ ls.map Letter.question? = qs.map some

/-- Somebody is signed in, and all that he says can be written. -/
structure Fluent (c : Client τ) : Prop where
  user : ∃ user, c.account.user = some user
  codec : c.account.codec.Writes

namespace Poses

variable {c₁ c₂ c₃ : Client τ} {qs rs : List (Entity × Command)}

theorem refl (c : Client τ) : Poses c c [] :=
  ⟨[], .refl c, rfl⟩

theorem trans (h : Poses c₁ c₂ qs) (h' : Poses c₂ c₃ rs) : Poses c₁ c₃ (qs ++ rs) := by
  obtain ⟨ls, hsent, hls⟩ := h
  obtain ⟨ls', hsent', hls'⟩ := h'
  exact ⟨ls ++ ls', hsent.trans hsent', by rw [List.map_append, List.map_append, hls, hls']⟩

theorem fluent (h : Poses c₁ c₂ qs) (hc : c₁.Fluent) : c₂.Fluent := by
  obtain ⟨ls, hsent, -⟩ := h
  obtain ⟨huser, -, hcodec, -⟩ := hsent.fields
  exact ⟨huser ▸ hc.user, hcodec ▸ hc.codec⟩

theorem fields (h : Poses c₁ c₂ qs) :
    c₂.account.clock = c₁.account.clock ∧ c₂.account.directory = c₁.account.directory := by
  obtain ⟨ls, hsent, -⟩ := h
  exact ⟨hsent.fields.2.1, hsent.fields.2.2.2⟩

end Poses

theorem poses_arm (c : Client τ) (key : FreshnessKey) : Poses c (c.arm key) [] :=
  ⟨[], .nothing ⟨_, rfl⟩ rfl rfl (Nat.le_refl _), rfl⟩

/-! ### Single questions -/

theorem attempt_announce_of_fluent (hc : c.Fluent) (receiver : Entity) (command : Command) :
    ∃ ref c', attempt (announce receiver command .normal) c = (.ok ref, c') ∧
      Poses c c' [(receiver, command)] ∧ c'.account.freshness = c.account.freshness := by
  obtain ⟨user, hu⟩ := hc.user
  let m := Message.new user.id receiver (c.nextContent (.command command))
  obtain ⟨b, hb⟩ := hc.codec m
  have hb' : c.draw.account.codec.encode m = .ok b := hb
  obtain ⟨ref, hsent⟩ := attempt_sendInstant_of_encodes .normal hb'
  obtain ⟨haccount, -, -⟩ := c.draw.submitted_fields ⟨m, b⟩ .normal
  refine ⟨ref, c.draw.submitted ⟨m, b⟩ .normal,
    (attempt_announce_of_user hu receiver command .normal).trans hsent, ?_, ?_⟩
  · exact ⟨[⟨m, b⟩], (Sent.refl c.draw).letter rfl hb, rfl⟩
  · exact (congrArg Account.freshness haccount).trans rfl

theorem attempt_queryCard_of_fluent (hc : c.Fluent) (id : Entity) : ∃ granted c',
    attempt (queryCard id) c = (.ok granted, c') ∧
      Poses c c' (if c.Cooling ⟨id, .card⟩ then [] else [(.anyStation, .card id none)]) := by
  by_cases h : c.Cooling ⟨id, .card⟩
  · refine ⟨false, c, ?_, ?_⟩
    · rw [queryCard, attempt_bind, attempt_requestQuery_of_cooling h]
      rfl
    · rw [if_pos h]
      exact .refl c
  · have harm := c.poses_arm ⟨id, .card⟩
    obtain ⟨ref, c', hsent, hposes, -⟩ :=
      attempt_announce_of_fluent (harm.fluent hc) .anyStation (.card id none)
    refine ⟨true, c', ?_, ?_⟩
    · rw [queryCard, attempt_bind, attempt_requestQuery_of_not_cooling h]
      dsimp only
      rw [if_pos rfl, attempt_bind, hsent]
      rfl
    · rw [if_neg h]
      exact harm.trans hposes

theorem attempt_queryDocument_of_not_cooling (hc : c.Fluent) {id : Entity}
    (h : ¬c.Cooling ⟨id, .document⟩) : ∃ c', attempt (queryDocument id) c = (.ok true, c') ∧
      Poses c c' [(.anyStation, .document id none []
        (Document.newest? (c.account.directory.documents id)))] ∧
      c'.account.freshness = (c.arm ⟨id, .document⟩).account.freshness := by
  let held := Document.newest? ((c.arm ⟨id, .document⟩).account.directory.documents id)
  have harm := c.poses_arm ⟨id, .document⟩
  obtain ⟨ref, c', hsent, hposes, hfreshness⟩ :=
    attempt_announce_of_fluent (harm.fluent hc) .anyStation (.document id none [] held)
  refine ⟨c', ?_, harm.trans hposes, hfreshness⟩
  rw [queryDocument, attempt_bind, attempt_requestQuery_of_not_cooling h]
  dsimp only
  rw [if_pos rfl, attempt_bind, attempt_directory]
  dsimp only
  rw [attempt_bind, hsent]
  rfl

/-- By induction on those asked for, each of them at the cooldowns that the ones before left. -/
theorem attempt_queryDocuments_of_fluent (hc : c.Fluent) (ids : List Entity) : ∃ c',
    attempt (queryDocuments ids) c = (.ok (), c') ∧
      Poses c c' ((c.account.freshness.granted c.account.clock ids).map fun id =>
        (.anyStation,
          .document id none [] (Document.newest? (c.account.directory.documents id)))) := by
  induction ids generalizing c with
  | nil => exact ⟨c, rfl, .refl c⟩
  | cons who rest ih =>
    rw [Freshness.granted]
    by_cases h : c.Cooling ⟨who, .document⟩
    · have hcools : c.account.freshness.cooldowns.isCooling ⟨who, .document⟩ c.account.clock =
          true := h
      obtain ⟨c', hrest, hposes⟩ := ih hc
      refine ⟨c', ?_, ?_⟩
      · rw [queryDocuments, queryDocument, attempt_bind, attempt_bind,
          attempt_requestQuery_of_cooling h]
        exact hrest
      · rw [if_pos hcools]
        exact hposes
    · have hrests : ¬c.account.freshness.cooldowns.isCooling ⟨who, .document⟩ c.account.clock =
          true := h
      obtain ⟨c₁, hfirst, hposes, hfreshness⟩ := attempt_queryDocument_of_not_cooling hc h
      obtain ⟨c', hrest, hposes'⟩ := ih (hposes.fluent hc)
      obtain ⟨hclock, hdirectory⟩ := hposes.fields
      refine ⟨c', ?_, ?_⟩
      · rw [queryDocuments, attempt_bind, hfirst]
        exact hrest
      · rw [hfreshness, hclock, hdirectory] at hposes'
        rw [if_neg hrests, List.map_cons]
        exact hposes.trans hposes'

/-- Every assistant that is no group itself is asked at once. -/
theorem attempt_askAssistants_of_fluent (hc : c.Fluent)
    (query : Entity → Action τ MessengerError Bool) (group : Entity) (command : Command)
    {bots : List Entity} (hbots : ∀ bot ∈ bots, bot.isGroup = false) : ∃ c',
      attempt (askAssistants query group command bots) c = (.ok (), c') ∧
        Poses c c' (bots.map (·, command)) := by
  induction bots generalizing c with
  | nil => exact ⟨c, rfl, .refl c⟩
  | cons bot rest ih =>
    obtain ⟨user, hu⟩ := hc.user
    let m := Message.new user.id bot ((c.nextContent (.command command)).inGroup group)
    obtain ⟨b, hb⟩ := hc.codec m
    have hb' : c.draw.account.codec.encode m = .ok b := hb
    obtain ⟨ref, hsent⟩ := attempt_sendInstant_of_encodes .normal hb'
    have hposes : Poses c (c.draw.submitted ⟨m, b⟩ .normal) [(bot, command)] :=
      ⟨[⟨m, b⟩], (Sent.refl c.draw).letter rfl hb, rfl⟩
    have hdirect : ¬(bot.isGroup && !bot.isBroadcast) = true := by
      simp [hbots bot List.mem_cons_self]
    obtain ⟨c', hrest, hposes'⟩ :=
      ih (hposes.fluent hc) fun b hb => hbots b (List.mem_cons_of_mem bot hb)
    refine ⟨c', ?_, hposes.trans hposes'⟩
    rw [askAssistants_cons, attempt_bind,
      attempt_tell_of_user query group bot command hu, if_neg hdirect, hsent]
    exact hrest

theorem attempt_queryMembers_of_fluent (hc : c.Fluent) {group : Entity}
    (hbots : ∀ bot ∈ c.account.directory.assistants group, bot.isGroup = false) :
    ∃ asked c', attempt (queryMembers group) c = (.ok asked, c') ∧
      Poses c c' (if c.Cooling ⟨group, .members⟩ then []
        else (c.account.directory.assistants group).map fun bot =>
          (bot, .group (.query group (c.account.freshness.recent.latest? ⟨group, .history⟩)))) := by
  by_cases h : c.Cooling ⟨group, .members⟩
  · rw [if_pos h]
    exact ⟨false, c, Query.attempt_ask_of_cooling (q := .members group) h, .refl c⟩
  · have hask : attempt (queryMembers group) c =
        attempt (Query.followUp c (.members group)) (c.arm ⟨group, .members⟩) :=
      Query.attempt_ask_of_not_cooling (q := .members group) h
    have harm := c.poses_arm ⟨group, .members⟩
    rw [if_neg h]
    rw [Query.followUp] at hask
    dsimp only at hask
    cases hnone : (c.account.directory.assistants group).isEmpty with
    | true =>
      rw [hnone, if_pos rfl] at hask
      rw [List.isEmpty_iff.mp hnone]
      exact ⟨false, _, hask, harm⟩
    | false =>
      obtain ⟨c', hall, hposes⟩ := attempt_askAssistants_of_fluent (harm.fluent hc)
        (queryMembersWithin c.account.directory.helpers.size) group
        (.group (.query group (c.account.freshness.recent.latest? ⟨group, .history⟩))) hbots
      rw [hnone, if_neg Bool.false_ne_true, attempt_bind, hall] at hask
      exact ⟨true, c', hask, harm.trans hposes⟩

/-! ### Groups -/

variable {group : Entity}

theorem attempt_checkGroup_of_fluent (hc : c.Fluent) (hnarrow : group.isBroadcast = false)
    (hbots : ∀ bot ∈ c.account.directory.assistants group, bot.isGroup = false) :
    ∃ ready c', attempt (checkGroup queryMembers group) c = (.ok ready, c') ∧
      (ready = true ↔ c.account.directory.Ready group) ∧ Poses c c' (c.questions group) ∧
      (ready = true → c' = c) := by
  unfold questions
  dsimp only
  cases hcard : (c.account.directory.card? group).isNone with
  | true =>
    have hneeds : Freshness.needsCard group (c.account.directory.card? group) = true := by
      simp [Freshness.needsCard, hnarrow, hcard]
    obtain ⟨granted, c', hasked, hposes⟩ := attempt_queryCard_of_fluent hc group
    refine ⟨false, c', ?_, ⟨nofun, fun hready => ?_⟩, hposes, nofun⟩
    · rw [attempt_checkGroup_of_needsCard queryMembers group hneeds, attempt_bind, hasked]
      rfl
    · have hsome := hready.card
      rw [Option.isNone_iff_eq_none.mp hcard] at hsome
      cases hsome
  | false =>
    have hknown : Freshness.needsCard group (c.account.directory.card? group) = false := by
      simp [Freshness.needsCard, hcard]
    have hmembers : c.account.freshness.needsMembers group
        (some (c.account.directory.members group)) none =
          (c.account.directory.members group).isEmpty := by
      rw [Freshness.needsMembers, hnarrow, if_neg Bool.false_ne_true, Option.all_some]
      split
      · rename_i h
        exact h.symm
      · rename_i h
        exact (Bool.eq_false_iff.mpr h).symm
    cases hroster : (c.account.directory.members group).isEmpty with
    | true =>
      obtain ⟨asked, c', hasked, hposes⟩ := attempt_queryMembers_of_fluent hc hbots
      refine ⟨false, c', ?_, ⟨nofun, fun hready => ?_⟩, hposes, nofun⟩
      · rw [attempt_checkGroup_of_needsMembers queryMembers group hknown (hmembers.trans hroster),
          attempt_bind, hasked]
        rfl
      · exact absurd (List.isEmpty_iff.mp hroster) hready.roster
    | false =>
      obtain ⟨c', hasked, hposes⟩ :=
        attempt_queryDocuments_of_fluent hc (c.account.directory.keyless group)
      have hchecked : attempt (checkGroup queryMembers group) c =
          (.ok (c.account.directory.keyless group).isEmpty, c') := by
        rw [checkGroup, attempt_bind, attempt_get]
        dsimp only
        rw [hknown, hmembers, hroster, if_neg Bool.false_ne_true, if_neg Bool.false_ne_true,
          attempt_bind]
        have hall := hasked
        rw [Directory.keyless] at hall
        rw [hall]
        rfl
      refine ⟨_, c', hchecked, ?_, hposes, fun hnone => ?_⟩
      · rw [List.isEmpty_iff, Directory.keyless_eq_nil]
        have hsome : (c.account.directory.card? group).isSome := by
          rw [← Option.not_isNone, hcard]
          rfl
        have hlisted : c.account.directory.members group ≠ [] := by
          rw [Ne, ← List.isEmpty_iff, hroster]
          exact Bool.false_ne_true
        exact ⟨fun hkeys => ⟨hsome, hlisted, hkeys⟩, fun hready => hready.keys⟩
      · rw [List.isEmpty_iff.mp hnone] at hasked
        cases hasked
        rfl

/-- The station is asked, or assistants are. -/
theorem receiver_ne_of_questions (hgroup : group.isGroup = true)
    (hbots : ∀ bot ∈ c.account.directory.assistants group, bot.isGroup = false) {ls : List Letter}
    (hls : ls.map Letter.question? = (c.questions group).map some) :
    ∀ l ∈ ls, l.message.receiver ≠ group := by
  have hsingle : ∀ q ∈ c.questions group, q.1.isGroup = false := by
    unfold questions
    dsimp only
    split
    · split <;> simp [Entity.anyStation, Entity.isGroup]
    · split
      · split
        · intro q hq
          cases hq
        · intro q hq
          obtain ⟨bot, hbot, rfl⟩ := List.mem_map.mp hq
          exact hbots bot hbot
      · intro q hq
        obtain ⟨id, -, rfl⟩ := List.mem_map.mp hq
        rfl
  rintro l hl rfl
  have hmem : l.question? ∈ (c.questions l.message.receiver).map some := by
    rw [← hls]
    exact List.mem_map_of_mem hl
  obtain ⟨q, hq, hquestion⟩ := List.mem_map.mp hmem
  obtain ⟨command, -, rfl⟩ := Option.map_eq_some_iff.mp hquestion.symm
  exact Bool.false_ne_true ((hsingle _ hq).symm.trans hgroup)

theorem attempt_senderOr_of_user {user : LocalUser} (hu : c.account.user = some user)
    (sender : Option Entity) : attempt (senderOr sender) c = (.ok (sender.getD user.id), c) := by
  cases sender with
  | some who => rfl
  | none => rw [attempt_senderOr_none, hu]; rfl

/-- For somebody who is signed in and whose codec writes every message, and a group whose assistants
are no groups: a message to the group is queued just if the group is ready and the id of the message
is free. Otherwise nothing is returned, and what is asked instead are the questions that are due,
each in a message of its own and none of them to the group. -/
theorem group_message_leaves_if_ready {user : LocalUser} (hu : c.account.user = some user)
    (hcodec : c.account.codec.Writes) (hgroup : group.isGroup = true)
    (hnarrow : group.isBroadcast = false)
    (hbots : ∀ bot ∈ c.account.directory.assistants group, bot.isGroup = false)
    (sender : Option Entity) (content : Content) (priority : Priority) :
    let m := Message.new (sender.getD user.id) group content
    let sent := attempt (sendContent sender group content priority) c
    (sent.1 = .ok (some m.ref) ↔
      c.account.directory.Ready group ∧ m.ref.id ∉ c.session.queue.reserved) ∧
    (sent.1 = .ok (some m.ref) → ∃ b, c.account.codec.encode m = .ok b ∧
      (true, sent.2.session.queue) = c.session.queue.append m.ref ⟨b, priority, some m.ref.id⟩
        c.account.clock) ∧
    (sent.1 ≠ .ok (some m.ref) → sent.1 = .ok none ∧ ∃ ls, Sent c sent.2 ls ∧
      ls.map Letter.question? = (c.questions group).map some ∧
      ∀ l ∈ ls, l.message.receiver ≠ group) := by
  intro m sent
  obtain ⟨ready, c', hchecked, hready, ⟨ls, hsent, hls⟩, hsame⟩ :=
    attempt_checkGroup_of_fluent ⟨⟨user, hu⟩, hcodec⟩ hnarrow hbots
  have hnarrowed : (group.isGroup && !group.isBroadcast) = true := by simp [hgroup, hnarrow]
  have hattempt : sent = attempt (if ready then sendInstant m priority else pure none) c' := by
    change attempt (sendContent sender group content priority) c = _
    rw [sendContent, sendContentBy, attempt_bind, attempt_senderOr_of_user hu]
    dsimp only
    rw [if_pos hnarrowed, attempt_bind, hchecked]
  have hothers : ∀ l ∈ ls, l.message.receiver ≠ group :=
    receiver_ne_of_questions hgroup hbots hls
  cases ready with
  | false =>
    have hnone : sent = (.ok none, c') := hattempt
    rw [hnone]
    refine ⟨⟨?_, ?_⟩, ?_, fun _ => ⟨rfl, ls, hsent, hls, hothers⟩⟩
    · intro h
      cases h
    · intro h
      cases hready.mpr h.1
    · intro h
      cases h
  | true =>
    obtain rfl := hsame rfl
    obtain ⟨b, hb⟩ := hcodec m
    rw [if_pos rfl, attempt_sendInstant, hb] at hattempt
    dsimp only at hattempt
    by_cases hreserved : m.ref.id ∈ c'.session.queue.reserved
    · have hsubmitted : c'.submitted ⟨m, b⟩ priority = c' := by
        simp [submitted, Session.enqueue, DeliveryQueue.append_of_contains _ _ hreserved]
      rw [if_pos hreserved, hsubmitted] at hattempt
      rw [hattempt]
      refine ⟨⟨?_, ?_⟩, ?_, fun _ => ⟨rfl, ls, hsent, hls, hothers⟩⟩
      · intro h
        cases h
      · intro h
        exact absurd hreserved h.2
      · intro h
        cases h
    · rw [if_neg hreserved] at hattempt
      rw [hattempt]
      refine ⟨⟨fun _ => ⟨hready.mp rfl, hreserved⟩, fun _ => rfl⟩, fun _ => ⟨b, hb, ?_⟩,
        fun h => absurd rfl h⟩
      obtain ⟨-, -, hsession⟩ := c'.submitted_fields ⟨m, b⟩ priority
      exact Prod.ext (DeliveryQueue.append_fst.mpr hreserved).symm
        (congrArg Session.queue hsession)

def crew : Entity := ⟨"crew", "moky", .group⟩

def mate : Entity := ⟨"mate", "moky", .user⟩

/-- Knows a crew in which the mate is listed twice, and some documents. -/
def recruited (docs : List Document) : Client Loopback :=
  (Query.signedIn Query.signedOut).modifyDirectory fun d =>
    docs.foldl (fun d doc => (d.saveDocument doc).2)
      ((d.saveCard crew ⟨"key", none⟩).saveMembers crew [mate, mate])

def matesVisa : Document :=
  { Document.new mate .visa 1 with
    properties := Properties.empty.insert "key" (.bool true) (by simp [Json.Canonical]) }

/-- The mate is asked about once, and the message leaves as soon as there is a visa of his. -/
theorem group_message_leaves_if_ready_recruited :
    let hello := Content.new 9 (.text "hello") 5
    let send (c : Client Loopback) := attempt (sendContent none crew hello .normal) c
    (send (recruited [])).1 = .ok none ∧
      ((recruited []).questions crew).map Prod.fst = [.anyStation] ∧
      ∃ m, (send (recruited [matesVisa])).1 = .ok (some m) := by
  intro hello send
  have hgroup : crew.isGroup = true := rfl
  have hnarrow : crew.isBroadcast = false := by decide
  have hbots (docs : List Document) (h : (recruited docs).account.directory.assistants crew = []) :
      ∀ bot ∈ (recruited docs).account.directory.assistants crew, bot.isGroup = false := by
    rw [h]
    nofun
  obtain ⟨hwaits, -, hdeferred⟩ := group_message_leaves_if_ready (c := recruited []) rfl
    Codec.writes_json hgroup hnarrow (hbots [] (by decide +kernel)) none hello .normal
  obtain ⟨hleaves, -, -⟩ := group_message_leaves_if_ready (c := recruited [matesVisa]) rfl
    Codec.writes_json hgroup hnarrow (hbots [matesVisa] (by decide +kernel)) none hello .normal
  have hkeyless : ¬(recruited []).account.directory.hasEncryptionKey mate = true := by
    decide +kernel
  have hlisted : mate ∈ (recruited []).account.directory.members crew := by decide +kernel
  have hready : (recruited [matesVisa]).account.directory.Ready crew := by
    constructor <;> decide +kernel
  refine ⟨(hdeferred fun h => ?_).1, by decide +kernel, _, hleaves.mpr ⟨hready, ?_⟩⟩
  · exact hkeyless ((hwaits.mp h).1.keys mate hlisted)
  · decide +kernel

end Client

end Courier
