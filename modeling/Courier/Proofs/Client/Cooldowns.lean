import Courier.Proofs.Client.Primitives
import Courier.Proofs.Client.Sending
import Courier.Transport.Loopback

/-!
# Queries and cooldowns

A query that is asked for while an equal one cools down changes nothing. Every other one starts its
cooldown before it is known whether it can be sent, and what stops it later does not end the
cooldown: with the user or the assistants that were missing at hand, the same query has to wait all
the same.
-/

namespace Courier.Client

variable {τ ε : Type}

/-! ### The queries -/

inductive Query where
  | card (id : Entity)
  | document (id : Entity)
  | members (group : Entity)

namespace Query

/-- Equal queries share a cooldown. -/
def key : Query → FreshnessKey
  | card id => ⟨id, .card⟩
  | document id => ⟨id, .document⟩
  | members group => ⟨group, .members⟩

def ask : Query → Action τ MessengerError Bool
  | card id => queryCard id
  | document id => queryDocument id
  | members group => queryMembers group

/-- Nobody asks, or there is nobody to ask. -/
def Lacks (c : Client τ) : Query → Prop
  | card _ | document _ => c.account.user = none
  | members group => c.account.user = none ∨ c.account.directory.assistants group = []

/-- Nobody who is asked has a roster that has to be asked for first. -/
def Direct (c : Client τ) : Query → Prop
  | card _ | document _ => True
  | members group => ∀ bot ∈ c.account.directory.assistants group,
      (bot.isGroup && !bot.isBroadcast) = false

end Query

theorem Inquiring.ask {P : ∀ {α : Type}, Action τ MessengerError α → Prop} (h : Inquiring P)
    (q : Query) : P q.ask := by
  cases q with
  | card id => exact h.queryCard id
  | document id => exact h.queryDocument id
  | members group => exact h.queryMembers group

/-! ### Cooldowns of a client -/

def coolsUntil? (c : Client τ) (key : FreshnessKey) : Option Millis :=
  c.account.freshness.cooldowns.ends.get? key

def Cooling (c : Client τ) (key : FreshnessKey) : Prop :=
  c.account.freshness.cooldowns.isCooling key c.account.clock = true

/-- When a cooldown ends that starts now. -/
def renewal (c : Client τ) : Millis :=
  Millis.later c.account.clock c.account.freshness.cooldowns.period

/-- The cooldown of a key starts. -/
def arm (c : Client τ) (key : FreshnessKey) : Client τ :=
  c.modifyAccount fun a => { a with freshness := (a.freshness.request key a.clock true).2 }

theorem cooling_iff {c : Client τ} {key : FreshnessKey} :
    c.Cooling key ↔ ∃ t, c.coolsUntil? key = some t ∧ c.account.clock < t := by
  simp [Cooling, Cooldowns.isCooling, coolsUntil?, Option.any_eq_true]

theorem coolsUntil?_arm (c : Client τ) (key k : FreshnessKey) :
    (c.arm key).coolsUntil? k = if k = key then some c.renewal else c.coolsUntil? k :=
  Table.get?_insert _ _ _ _

theorem attempt_requestQuery_of_cooling {c : Client τ} {key : FreshnessKey} (h : c.Cooling key) :
    attempt (requestQuery key : Action τ ε Bool) c = (.ok false, c) := by
  have hrequest : c.account.freshness.request key c.account.clock false =
      (false, c.account.freshness) := by
    have hcooling : c.account.freshness.cooldowns.isCooling key c.account.clock = true := h
    simp [Freshness.request, Cooldowns.request, hcooling]
  rw [requestQuery, attempt_bind, attempt_get]
  dsimp only
  rw [hrequest]
  rfl

theorem attempt_requestQuery_of_not_cooling {c : Client τ} {key : FreshnessKey}
    (h : ¬c.Cooling key) :
    attempt (requestQuery key : Action τ ε Bool) c = (.ok true, c.arm key) := by
  have hrequest : c.account.freshness.request key c.account.clock false =
      c.account.freshness.request key c.account.clock true := by
    have hcooling : c.account.freshness.cooldowns.isCooling key c.account.clock = false := by
      simpa [Cooling] using h
    simp [Freshness.request, Cooldowns.request, hcooling]
  rw [requestQuery, attempt_bind, attempt_get]
  dsimp only
  rw [hrequest]
  rfl

/-! ### Cooldowns only start -/

/-- Between the two moments some cooldowns started, and none that was running started anew. -/
structure Armed (c c' : Client τ) : Prop where
  clock : c'.account.clock = c.account.clock
  period : c'.account.freshness.cooldowns.period = c.account.freshness.cooldowns.period
  ends : ∀ key, c'.coolsUntil? key = c.coolsUntil? key ∨
    ¬c.Cooling key ∧ c'.coolsUntil? key = some c.renewal

theorem Armed.renewal {c c' : Client τ} (h : Armed c c') : c'.renewal = c.renewal := by
  rw [Client.renewal, h.clock, h.period, Client.renewal]

theorem armed_of_freshness {c c' : Client τ} (hclock : c'.account.clock = c.account.clock)
    (hfreshness : c'.account.freshness = c.account.freshness) : Armed c c' where
  clock := hclock
  period := by rw [hfreshness]
  ends key := .inl (by rw [coolsUntil?, hfreshness, coolsUntil?])

theorem composes_armed : Composes (Armed : Client τ → Client τ → Prop) where
  refl _ := armed_of_freshness rfl rfl
  trans := by
    intro a b c h h'
    refine ⟨h'.clock.trans h.clock, h'.period.trans h.period, fun key => ?_⟩
    -- A cooldown that starts in both halves ends when it does after the first.
    rcases h'.ends key with hsame | ⟨hrest, hends⟩
    · rw [hsame]
      exact h.ends key
    · rcases h.ends key with hsame | ⟨hrest', -⟩
      · refine .inr ⟨?_, hends.trans (congrArg some h.renewal)⟩
        rwa [cooling_iff, hsame, h.clock, ← cooling_iff] at hrest
      · exact .inr ⟨hrest', hends.trans (congrArg some h.renewal)⟩

theorem armed_arm {c : Client τ} {key : FreshnessKey} (h : ¬c.Cooling key) :
    Armed c (c.arm key) := by
  refine ⟨rfl, rfl, fun k => ?_⟩
  rw [coolsUntil?_arm]
  by_cases hk : k = key
  · rw [if_pos hk, hk]
    exact .inr ⟨h, rfl⟩
  · rw [if_neg hk]
    exact .inl rfl

/-- A cooldown that was started just now goes on. -/
theorem Armed.coolsUntil? {c c' : Client τ} {key : FreshnessKey} (h : Armed (c.arm key) c') :
    c'.coolsUntil? key = some c.renewal := by
  rcases h.ends key with hsame | ⟨-, hends⟩
  · rw [hsame, coolsUntil?_arm, if_pos rfl]
  · exact hends

theorem keptBySending_armed : KeptBySending (Armed : Client τ → Client τ → Prop) where
  toComposes := composes_armed
  newContent _ _ := armed_of_freshness rfl rfl
  requestQuery key c := by
    by_cases h : c.Cooling key
    · rw [attempt_requestQuery_of_cooling h]
      exact composes_armed.refl c
    · rw [attempt_requestQuery_of_not_cooling h]
      exact armed_arm h
  sendInstant m priority _ := by
    refine Keeps.sendInstant composes_armed fun c b _ => ?_
    obtain ⟨haccount, -, -⟩ := c.submitted_fields ⟨m, b⟩ priority
    exact armed_of_freshness (by rw [haccount]) (by rw [haccount])

/-! ### Queries that are granted -/

namespace Query

variable {c : Client τ} {q : Query}

/-- What is left to do for a query that is granted. -/
def followUp (c : Client τ) : Query → Action τ MessengerError Bool
  | card id => do
    let _ ← announce .anyStation (.card id none) .normal
    return true
  | document id => do
    let held := Document.newest? (c.account.directory.documents id)
    let _ ← announce .anyStation (.document id none [] held) .normal
    return true
  | members group => do
    let bots := c.account.directory.assistants group
    if bots.isEmpty then return false
    else
      let held := c.account.freshness.recent.latest? ⟨group, .history⟩
      askAssistants (queryMembersWithin c.account.directory.helpers.size) group
        (.group (.query group held)) bots
      return true

theorem attempt_ask (q : Query) (c : Client τ) :
    attempt q.ask c = attempt (requestQuery q.key >>= fun granted =>
      if granted then q.followUp c else return false) c := by
  cases q with
  | card id => rfl
  | document id =>
    rw [ask, queryDocument, key, attempt_bind, attempt_bind]
    by_cases h : c.Cooling ⟨id, .document⟩
    · rw [attempt_requestQuery_of_cooling h]
      rfl
    · rw [attempt_requestQuery_of_not_cooling h]
      rfl
  | members group =>
    rw [ask, queryMembers, attempt_bind, attempt_get]
    dsimp only
    rw [longestChain, queryMembersWithin, key, attempt_bind, attempt_bind]
    by_cases h : c.Cooling ⟨group, .members⟩
    · rw [attempt_requestQuery_of_cooling h]
      rfl
    · rw [attempt_requestQuery_of_not_cooling h]
      rfl

theorem attempt_ask_of_cooling (h : c.Cooling q.key) : attempt q.ask c = (.ok false, c) := by
  rw [attempt_ask, attempt_bind, attempt_requestQuery_of_cooling h]
  rfl

theorem attempt_ask_of_not_cooling (h : ¬c.Cooling q.key) :
    attempt q.ask c = attempt (q.followUp c) (c.arm q.key) := by
  rw [attempt_ask, attempt_bind, attempt_requestQuery_of_not_cooling h]
  rfl

theorem keeps_followUp (q : Query) (c : Client τ) : Keeps Armed (q.followUp c) := by
  have hsend := keptBySending_armed (τ := τ)
  cases q with
  | card id =>
    exact Keeps.bind composes_armed (hsend.announce _ _ _) fun _ => Keeps.pure composes_armed _
  | document id =>
    exact Keeps.bind composes_armed (hsend.announce _ _ _) fun _ => Keeps.pure composes_armed _
  | members group =>
    unfold followUp
    dsimp only
    split
    · exact Keeps.pure composes_armed _
    · refine Keeps.bind composes_armed ?_ fun _ => Keeps.pure composes_armed _
      exact hsend.inquiring.askAssistants (hsend.inquiring.queryMembersWithin _) _ rfl _

theorem coolsUntil?_ask (h : ¬c.Cooling q.key) :
    (attempt q.ask c).2.coolsUntil? q.key = some c.renewal := by
  rw [attempt_ask_of_not_cooling h]
  exact (keeps_followUp q c _).coolsUntil?

theorem armed_ask (q : Query) (c : Client τ) : Armed c (attempt q.ask c).2 := by
  by_cases h : c.Cooling q.key
  · rw [attempt_ask_of_cooling h]
    exact composes_armed.refl c
  · rw [attempt_ask_of_not_cooling h]
    exact composes_armed.trans (armed_arm h) (keeps_followUp q c _)

/-! ### Queries that ask nothing else -/

def SameFreshness (c c' : Client τ) : Prop :=
  c'.account.freshness = c.account.freshness

theorem composes_sameFreshness : Composes (SameFreshness : Client τ → Client τ → Prop) where
  refl _ := rfl
  trans h h' := h'.trans h

theorem keptByMailing_sameFreshness :
    KeptByMailing (SameFreshness : Client τ → Client τ → Prop) where
  toComposes := composes_sameFreshness
  newContent _ _ := rfl
  sendInstant m priority _ := Keeps.sendInstant composes_sameFreshness fun c b _ =>
    congrArg Account.freshness (c.submitted_fields ⟨m, b⟩ priority).1

theorem sameFreshness_followUp (h : q.Direct c) : Keeps SameFreshness (q.followUp c) := by
  have hmail := keptByMailing_sameFreshness (τ := τ)
  have hR := hmail.toComposes
  cases q with
  | card id => exact Keeps.bind hR (hmail.announce _ _ _) fun _ => Keeps.pure hR _
  | document id => exact Keeps.bind hR (hmail.announce _ _ _) fun _ => Keeps.pure hR _
  | members group =>
    unfold followUp
    dsimp only
    split
    · exact Keeps.pure hR _
    · exact Keeps.bind hR (hmail.askAssistants h) fun _ => Keeps.pure hR _

theorem coolsUntil?_ask_direct (h : q.Direct c) {key : FreshnessKey} (hkey : key ≠ q.key) :
    (attempt q.ask c).2.coolsUntil? key = c.coolsUntil? key := by
  by_cases hcooling : c.Cooling q.key
  · rw [attempt_ask_of_cooling hcooling]
  · rw [attempt_ask_of_not_cooling hcooling, coolsUntil?, sameFreshness_followUp h]
    exact (coolsUntil?_arm c q.key key).trans (if_neg hkey)

/-! ### Queries that are not sent -/

theorem attempt_announce_of_nobody {c : Client τ} (h : c.account.user = none) (receiver : Entity)
    (command : Command) (priority : Priority) :
    attempt (announce receiver command priority) c = (.error .missingIdentity, c.draw) := by
  have hdraw : c.draw.account.user = none := h
  rw [announce, attempt_bind, attempt_newContent]
  dsimp only
  rw [attempt_bind, attempt_currentUser, hdraw]

theorem attempt_askAssistants_of_nobody {c : Client τ} (h : c.account.user = none)
    (query : Entity → Action τ MessengerError Bool) (group bot : Entity) (command : Command)
    (rest : List Entity) :
    attempt (askAssistants query group command (bot :: rest)) c =
      (.error .missingIdentity, c.draw) := by
  have hdraw : c.draw.account.user = none := h
  rw [askAssistants, attempt_bind, attempt_newContent]
  dsimp only
  rw [attempt_bind, sendContentBy, attempt_bind, attempt_senderOr_none, hdraw]

theorem followUp_of_lacks (h : q.Lacks c) {c₁ : Client τ}
    (huser : c₁.account.user = c.account.user) :
    (attempt (q.followUp c) c₁).2.session = c₁.session ∧
      (attempt (q.followUp c) c₁).1 ≠ .ok true := by
  cases q with
  | card id =>
    rw [followUp, attempt_bind, attempt_announce_of_nobody (huser.trans h)]
    exact ⟨rfl, nofun⟩
  | document id =>
    rw [followUp, attempt_bind, attempt_announce_of_nobody (huser.trans h)]
    exact ⟨rfl, nofun⟩
  | members group =>
    rw [followUp]
    cases hbots : c.account.directory.assistants group with
    | nil => exact ⟨rfl, nofun⟩
    | cons bot rest =>
      have hnobody : c.account.user = none := by simpa [Lacks, hbots] using h
      dsimp only [List.isEmpty_cons]
      rw [if_neg Bool.false_ne_true, attempt_bind,
        attempt_askAssistants_of_nobody (huser.trans hnobody)]
      exact ⟨rfl, nofun⟩

theorem ask_of_lacks (h : q.Lacks c) :
    (attempt q.ask c).2.session = c.session ∧ (attempt q.ask c).1 ≠ .ok true := by
  by_cases hcooling : c.Cooling q.key
  · rw [attempt_ask_of_cooling hcooling]
    exact ⟨rfl, nofun⟩
  · rw [attempt_ask_of_not_cooling hcooling]
    exact followUp_of_lacks h rfl

/-- A query that is refused because an equal one cools down leaves everything as it was. Every
other query starts its cooldown, also one that queues nothing because nobody is signed in or no
assistant is known. Whatever is at hand later, the same query has to wait until that cooldown is
over. Other cooldowns at most start, and only those of questions that groups among the assistants
give rise to. -/
theorem ask_spends_cooldown (q : Query) (c : Client τ) :
    (c.Cooling q.key → attempt q.ask c = (.ok false, c)) ∧
    (¬c.Cooling q.key →
      (attempt q.ask c).2.coolsUntil? q.key = some c.renewal ∧
      ∀ later : Client τ, later.coolsUntil? q.key = (attempt q.ask c).2.coolsUntil? q.key →
        (later.Cooling q.key ↔ later.account.clock < c.renewal)) ∧
    (q.Lacks c →
      (attempt q.ask c).2.session = c.session ∧ (attempt q.ask c).1 ≠ .ok true) ∧
    ∀ key, key ≠ q.key →
      ((attempt q.ask c).2.coolsUntil? key = c.coolsUntil? key ∨
        ¬q.Direct c ∧ ¬c.Cooling key ∧ (attempt q.ask c).2.coolsUntil? key = some c.renewal) := by
  refine ⟨attempt_ask_of_cooling, fun h => ⟨coolsUntil?_ask h, fun later hlater => ?_⟩,
    ask_of_lacks, fun key hkey => ?_⟩
  · rw [coolsUntil?_ask h] at hlater
    rw [cooling_iff, hlater]
    simp
  · by_cases hdirect : q.Direct c
    · exact .inl (coolsUntil?_ask_direct hdirect hkey)
    · exact ((armed_ask q c).ends key).imp_right fun harmed => ⟨hdirect, harmed⟩

/-- Nobody is signed in, and no query was sent yet. -/
def signedOut : Client Loopback where
  session := .new .anyStation "127.0.0.1" 9394 .auto (.standard "courier") 0
  desk := .new {
    settings := .standard "courier"
    clock := 1000
    directory := .empty
    rostersWritable := true
    user := none
    codec := Codec.json
    freshness := .new 600000
    serials := fun n => 1 + n.toUInt64
    drawn := 0 }

/-- The same client a second later, with somebody signed in. -/
def signedIn (c : Client Loopback) : Client Loopback :=
  let alice : Entity := ⟨"alice", "moky", .user⟩
  c.modifyAccount fun a =>
    { a with user := some ⟨alice, ⟨"key", none⟩, Document.new alice .visa 1⟩, clock := 2000 }

theorem not_cooling_signedOut (key : FreshnessKey) : ¬signedOut.Cooling key :=
  fun h => Bool.false_ne_true h

/-- Who asked in vain for want of a user may not ask again once there is one. -/
theorem ask_spends_cooldown_signedOut :
    let q := Query.card ⟨"bob", "moky", .user⟩
    let c := (attempt q.ask signedOut).2
    ¬signedOut.Cooling q.key ∧ q.Lacks signedOut ∧ c.session = signedOut.session ∧
      attempt q.ask (signedIn c) = (.ok false, signedIn c) := by
  intro q c
  obtain ⟨-, hspent, hunsent, -⟩ := ask_spends_cooldown q signedOut
  obtain ⟨-, hlater⟩ := hspent (not_cooling_signedOut _)
  have hcooling : (signedIn c).Cooling q.key := (hlater (signedIn c) rfl).mpr (by decide)
  exact ⟨not_cooling_signedOut _, rfl, (hunsent rfl).1,
    (ask_spends_cooldown q (signedIn c)).1 hcooling⟩

theorem not_every_unsent_query_spares_cooldowns :
    ¬ ∀ (q : Query) (c : Client Loopback),
      (attempt q.ask c).2.session = c.session → (attempt q.ask c).1 ≠ .ok true →
      ∀ key, (attempt q.ask c).2.coolsUntil? key = c.coolsUntil? key := by
  intro h
  let q := Query.card ⟨"bob", "moky", .user⟩
  obtain ⟨hsession, hunsent⟩ := ask_of_lacks (q := q) (c := signedOut) rfl
  have hsame := h q signedOut hsession hunsent q.key
  rw [coolsUntil?_ask (not_cooling_signedOut _)] at hsame
  cases hsame

end Query

end Courier.Client
