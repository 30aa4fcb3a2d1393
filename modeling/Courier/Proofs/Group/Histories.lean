import Courier.Proofs.Client.Conduct
import Courier.Proofs.Group.Agreement
import Courier.Proofs.Group.Receiving

/-!
# Histories

The history of a group is the time of the newest membership command that took effect. Nothing that
a client does, and nothing that happens to it, takes a history back. So the commands of a group take
effect in the order of their times, and a packet that is delivered again changes nothing, whatever
has become of the roster and of its sender since.
-/

namespace Courier

namespace Recency

variable {κ : Type} [DecidableEq κ]

theorem latest?_observe_le {r : Recency κ} {key : κ} {t : Millis} (h : r.latest? key = some t)
    (k : κ) (time : Millis) : ∃ t', (r.observe k time).2.latest? key = some t' ∧ t ≤ t' := by
  unfold observe
  split
  · exact ⟨t, h, UInt64.le_refl t⟩
  · rename_i hnew
    have hinsert : (⟨r.seen.insert k time⟩ : Recency κ).latest? key =
        if key = k then some time else r.latest? key := Table.get?_insert _ _ _ _
    rw [hinsert]
    by_cases hk : key = k
    · rw [← hk, h] at hnew
      have hlt : t < time := by simpa using hnew
      rw [if_pos hk]
      exact ⟨time, rfl, UInt64.le_of_lt hlt⟩
    · rw [if_neg hk]
      exact ⟨t, h, UInt64.le_refl t⟩

end Recency

/-- The step leaves it to the same handlers what is done with commands. -/
def ClientStep.KeepsHandlers {τ : Type} (handlers : Handlers) : ClientStep τ → Prop
  | .call (.register _ _) => False
  | .call (.reconnect _ desk) => desk.handlers = handlers
  | _ => True

namespace Client

variable {τ : Type}

/-! ### What is remembered -/

/-- The later client reads and handles packets as before, and no history went back. -/
structure Remembers (c c' : Client τ) : Prop where
  codec : c'.account.codec = c.account.codec
  handlers : c'.desk.handlers = c.desk.handlers
  history : ∀ group t, c.latest? group = some t → ∃ t', c'.latest? group = some t' ∧ t ≤ t'

theorem remembers_of_recent {c c' : Client τ} (hcodec : c'.account.codec = c.account.codec)
    (hhandlers : c'.desk.handlers = c.desk.handlers)
    (hrecent : c'.account.freshness.recent = c.account.freshness.recent) : Remembers c c' where
  codec := hcodec
  handlers := hhandlers
  history group t h := by
    rw [latest?, hrecent]
    exact ⟨t, h, UInt64.le_refl t⟩

theorem composes_remembers : Composes (Remembers : Client τ → Client τ → Prop) where
  refl _ := remembers_of_recent rfl rfl rfl
  trans h h' := by
    refine ⟨h'.codec.trans h.codec, h'.handlers.trans h.handlers, fun group t ht => ?_⟩
    obtain ⟨t₁, ht₁, hle⟩ := h.history group t ht
    obtain ⟨t₂, ht₂, hle'⟩ := h'.history group t₁ ht₁
    exact ⟨t₂, ht₂, UInt64.le_trans hle hle'⟩

/-- The session has no part in what is remembered. -/
theorem Remembers.at_desk {c c' : Client τ} (h : Remembers c c') (session : Session τ) :
    Remembers c ⟨session, c'.desk⟩ :=
  ⟨h.codec, h.handlers, h.history⟩

theorem remembers_observe {ε : Type} (key : FreshnessKey) (time : Millis) :
    Keeps Remembers (observe key time : Action τ ε Bool) :=
  fun _ => ⟨rfl, rfl, fun _ _ h => Recency.latest?_observe_le h key time⟩

theorem remembers_sendInstant (m : Message) (priority : Priority) :
    Keeps Remembers (sendInstant m priority : Action τ MessengerError _) := by
  refine Keeps.sendInstant composes_remembers fun c b _ => ?_
  obtain ⟨haccount, hhandlers, -⟩ := c.submitted_fields ⟨m, b⟩ priority
  exact remembers_of_recent (by rw [haccount]) hhandlers (by rw [haccount])

theorem keptByActing_remembers : KeptByActing (Remembers : Client τ → Client τ → Prop) where
  toComposes := composes_remembers
  newContent _ _ := remembers_of_recent rfl rfl rfl
  requestQuery _ _ := remembers_of_recent rfl rfl rfl
  sendInstant m priority _ := remembers_sendInstant m priority
  seen did time := remembers_observe ⟨did, .document⟩ time
  card _ _ _ := remembers_of_recent rfl rfl rfl
  history group m := remembers_observe ⟨group, .history⟩ m.content.time
  roster _ _ := Keeps.saveMembers composes_remembers fun _ => remembers_of_recent rfl rfl rfl
  first := remembers_sendInstant
  online _ := remembers_of_recent rfl rfl rfl

theorem remembers_receive (payload : Bytes) :
    Keeps Remembers (receive payload : Action τ MessengerError Nat) :=
  keptByActing_remembers.receive (fun _ _ => remembers_of_recent rfl rfl rfl)
    (fun _ _ => remembers_of_recent rfl rfl rfl) payload

section Steps

variable [Transport τ]

theorem remembers_perform (c : Client τ) (effect : Effect) :
    Remembers c (doing (perform effect) c) := by
  by_cases heffect : effect = .resetFreshness
  · rw [heffect]
    exact remembers_of_recent rfl rfl rfl
  · exact keptByActing_remembers.effect (fun _ => remembers_of_recent rfl rfl rfl) c heffect

theorem remembers_iterate (c : Client τ) : Remembers c c.iterate.2.2 := by
  have hdesk : Remembers c ⟨c.session, c.iterate.2.2.desk⟩ := by
    apply Watched.observer_iterate (P := fun desk => Remembers c ⟨c.session, desk⟩)
    · intro t s x hx
      exact composes_remembers.trans (hx.at_desk s)
        ((remembers_perform ⟨s, x⟩ t.effect).at_desk c.session)
    · intro p s x hx
      exact composes_remembers.trans (hx.at_desk s)
        ((remembers_receive p.payload ⟨s, x⟩).at_desk c.session)
    · exact fun _ _ hx => ⟨hx.codec, hx.handlers, hx.history⟩
    · exact fun _ _ _ hx => ⟨hx.codec, hx.handlers, hx.history⟩
    · exact composes_remembers.refl c
  exact hdesk.at_desk c.iterate.2.2.session

theorem remembers_step (c : Client τ) {s : ClientStep τ} (h : s.KeepsHandlers c.desk.handlers) :
    Remembers c (c.step s).2 := by
  cases s with
  | iterate => exact remembers_iterate c
  | call call =>
    by_cases hdeed : IsDeed call
    · exact keptByActing_remembers.call c hdeed fun payload _ => remembers_receive payload c
    · cases call with
      | observe key time => exact remembers_observe (ε := MessengerError) key time c
      | register tag handler => exact h.elim
      | reconnect session desk => exact remembers_of_recent rfl h rfl
      | _ => first | exact remembers_of_recent rfl rfl rfl | exact absurd trivial hdeed

/-- Not even other handlers take a history back. -/
theorem latest?_step (c : Client τ) (s : ClientStep τ) {group : Entity} {t : Millis}
    (h : c.latest? group = some t) : ∃ t', (c.step s).2.latest? group = some t' ∧ t ≤ t' := by
  by_cases hkeep : s.KeepsHandlers c.desk.handlers
  · exact (c.remembers_step hkeep).history group t h
  · cases s with
    | iterate => exact absurd trivial hkeep
    | call call =>
      cases call with
      | register tag handler => exact ⟨t, h, UInt64.le_refl t⟩
      | reconnect session desk => exact ⟨t, h, UInt64.le_refl t⟩
      | _ => exact absurd trivial hkeep

end Steps

/-! ### Which commands take effect -/

section Decidable

variable (c : Client τ)

instance (command : GroupCommand) : Decidable (c.Handles command) :=
  match h : c.desk.handlers.get? (Command.group command).tag with
  | some .standard => .isTrue h
  | some (.answer _) | some .refuse | none => .isFalse fun hstandard => by cases h.symm.trans hstandard

instance (sender : Entity) : (command : GroupCommand) → Decidable (c.Permits sender command)
  | .invite _ _ => inferInstanceAs (Decidable (_ ∨ _ ∨ _))
  | .expel _ _ => inferInstanceAs (Decidable (_ = _))
  | .quit _ => inferInstanceAs (Decidable (_ ∧ _))
  | .query _ _ => inferInstanceAs (Decidable False)

instance (group : Entity) (time : Millis) : Decidable (c.Before group time) :=
  match h : c.latest? group with
  | none => .isTrue fun t ht => by cases h.symm.trans ht
  | some t => decidable_of_iff (t < time)
      ⟨fun hlt t' ht' => Option.some.inj (h.symm.trans ht') ▸ hlt, fun hbefore => hbefore t h⟩

/-- The membership change by which a packet takes effect. -/
def accepts? (payload : Bytes) : Option MembershipChange :=
  (c.account.codec.change? payload).filter fun ch =>
    c.Handles ch.command ∧ c.Permits ch.sender ch.command ∧ c.Before ch.command.group ch.time

end Decidable

theorem accepts?_eq_some {c : Client τ} {payload : Bytes} {ch : MembershipChange} :
    c.accepts? payload = some ch ↔ c.Accepts payload ch := by
  rw [accepts?, Option.filter_eq_some_iff, decide_eq_true_iff]
  constructor
  · rintro ⟨hchange, hhandles, hpermits, hbefore⟩
    exact ⟨hchange, hhandles, hpermits, hbefore⟩
  · intro h
    exact ⟨h.change, h.handles, h.permits, h.before⟩

theorem Accepts.latest? {c : Client τ} {payload : Bytes} {ch : MembershipChange}
    (h : c.Accepts payload ch) :
    (doing (receive payload) c).latest? ch.command.group = some ch.time := by
  have hnoted := (observe_of_before h.before).2
  rw [h.doing_receive]
  split
  · exact hnoted
  · exact hnoted

/-- A packet that takes effect moves the history of its own group only. -/
theorem Accepts.moves {c : Client τ} {payload : Bytes} {ch : MembershipChange} {group : Entity}
    (h : c.Accepts payload ch) (hmoved : (doing (receive payload) c).latest? group ≠ c.latest? group) :
    ch.command.group = group ∧ (doing (receive payload) c).latest? group = some ch.time := by
  have hlatest := h.latest?
  by_cases hgroup : ch.command.group = group
  · exact ⟨hgroup, hgroup ▸ hlatest⟩
  · have hother : (c.noted ch.command.group ch.time).latest? group = c.latest? group :=
      Recency.latest?_observe_of_ne (fun hkey => hgroup (FreshnessKey.mk.inj hkey).1.symm) ch.time
    refine absurd ?_ hmoved
    rw [h.doing_receive]
    split
    · exact hother
    · exact hother

/-- A packet takes effect just when it moves a history. -/
theorem accepts_iff_latest? {c : Client τ} {payload : Bytes} : (∃ ch, c.Accepts payload ch) ↔
    ∃ group, (doing (receive payload) c).latest? group ≠ c.latest? group := by
  constructor
  · rintro ⟨ch, h⟩
    refine ⟨ch.command.group, fun hsame => ?_⟩
    rw [h.latest?] at hsame
    exact UInt64.lt_irrefl _ (h.before _ hsame.symm)
  · rintro ⟨group, hmoved⟩
    refine Classical.byContradiction fun hnone => hmoved ?_
    exact (sameGroups_receive_of_not_accepts (not_exists.mp hnone)).history group

/-! ### Redelivery -/

/-- The packet carries a command that is not newer than what the client has seen. -/
def Outdated (c : Client τ) (payload : Bytes) : Prop :=
  ∃ ch, c.account.codec.change? payload = some ch ∧ c.Handles ch.command ∧
    ¬c.Before ch.command.group ch.time

theorem Outdated.receive {c : Client τ} {payload : Bytes} (h : c.Outdated payload) :
    doing (receive payload) c = c := by
  obtain ⟨ch, hchange, hhandles, hlate⟩ := h
  exact receive_of_late hhandles hchange hlate

theorem Remembers.outdated {c c' : Client τ} (h : Remembers c c') {payload : Bytes}
    (hp : c.Outdated payload) : c'.Outdated payload := by
  obtain ⟨ch, hchange, hhandles, hlate⟩ := hp
  refine ⟨ch, h.codec ▸ hchange, ?_, fun hbefore => hlate fun t ht => ?_⟩
  · rw [Handles, h.handlers]
    exact hhandles
  · obtain ⟨t', ht', hle⟩ := h.history _ t ht
    exact UInt64.lt_of_le_of_lt hle (hbefore t' ht')

theorem Accepts.outdated {c : Client τ} {payload : Bytes} {ch : MembershipChange}
    (h : c.Accepts payload ch) : (doing (receive payload) c).Outdated payload := by
  have hread := remembers_receive payload c
  refine ⟨ch, ?_, ?_, fun hbefore => UInt64.lt_irrefl _ (hbefore _ h.latest?)⟩
  · rw [doing_eq, hread.codec]
    exact h.change
  · rw [Handles, doing_eq, hread.handlers]
    exact h.handles

section Redelivery

variable [Transport τ]

/-- The membership change by which a step takes effect, if a packet is read in it. -/
def acceptedBy? (c : Client τ) : ClientStep τ → Option MembershipChange
  | .call (.receive payload) => c.accepts? payload
  | _ => none

/-- The membership changes that took effect one after the other. -/
def acceptedIn (c : Client τ) : List (ClientStep τ) → List MembershipChange
  | [] => []
  | s :: steps => (c.acceptedBy? s).toList ++ (c.step s).2.acceptedIn steps

/-- The second list has copies of packets in between that took effect when the client, which goes
through the first list, read them. Such packets among what came before are `known`. -/
inductive Redelivers : Client τ → List Bytes → List (ClientStep τ) → List (ClientStep τ) → Prop where
  | done (c : Client τ) (known : List Bytes) : Redelivers c known [] []
  | step {c : Client τ} {known : List Bytes} {steps copied : List (ClientStep τ)}
      (s : ClientStep τ) (rest : Redelivers (c.step s).2 known steps copied) :
      Redelivers c known (s :: steps) (s :: copied)
  | accepted {c : Client τ} {known : List Bytes} {steps copied : List (ClientStep τ)}
      {payload : Bytes} {ch : MembershipChange} (h : c.Accepts payload ch)
      (rest : Redelivers (doing (receive payload) c) (payload :: known) steps copied) :
      Redelivers c known (.call (.receive payload) :: steps) (.call (.receive payload) :: copied)
  | copy {c : Client τ} {known : List Bytes} {steps copied : List (ClientStep τ)}
      {payload : Bytes} (h : payload ∈ known) (rest : Redelivers c known steps copied) :
      Redelivers c known steps (.call (.receive payload) :: copied)

/-- What takes effect later on is newer than the history as it is now. -/
theorem lt_of_mem_acceptedIn {c : Client τ} {steps : List (ClientStep τ)} {ch : MembershipChange}
    {t : Millis} (hmem : ch ∈ c.acceptedIn steps) (h : c.latest? ch.command.group = some t) :
    t < ch.time := by
  induction steps generalizing c t with
  | nil => cases hmem
  | cons s steps ih =>
    rcases List.mem_append.mp hmem with hnow | hlater
    · have hby : c.acceptedBy? s = some ch := by simpa using hnow
      unfold acceptedBy? at hby
      split at hby
      · exact (accepts?_eq_some.mp hby).before t h
      · cases hby
    · obtain ⟨t', ht', hle⟩ := c.latest?_step s h
      exact UInt64.lt_of_le_of_lt hle (ih hlater ht')

theorem pairwise_acceptedIn (c : Client τ) (steps : List (ClientStep τ)) :
    (c.acceptedIn steps).Pairwise fun a b => a.command.group = b.command.group → a.time < b.time := by
  induction steps generalizing c with
  | nil => exact .nil
  | cons s steps ih =>
    refine List.pairwise_append.mpr ⟨?_, ih _, ?_⟩
    · cases c.acceptedBy? s with
      | none => exact .nil
      | some a => exact List.pairwise_singleton _ a
    · intro a ha b hb hgroup
      have hby : c.acceptedBy? s = some a := by simpa using ha
      unfold acceptedBy? at hby
      split at hby
      · have hlatest := (accepts?_eq_some.mp hby).latest?
        rw [hgroup] at hlatest
        exact lt_of_mem_acceptedIn hb hlatest
      · cases hby

theorem Redelivers.run_eq {c : Client τ} {known : List Bytes} {steps copied : List (ClientStep τ)}
    (h : Redelivers c known steps copied)
    (hkeep : ∀ s ∈ steps, s.KeepsHandlers c.desk.handlers)
    (hknown : ∀ p ∈ known, c.Outdated p) : c.run copied = c.run steps := by
  induction h with
  | done c known => rfl
  | @step c known steps copied s rest ih =>
    have hstep := c.remembers_step (hkeep s List.mem_cons_self)
    have hrest := ih (fun s' hs' => hstep.handlers ▸ hkeep s' (List.mem_cons_of_mem s hs'))
      fun p hp => hstep.outdated (hknown p hp)
    rw [run, hrest, ← run]
  | @accepted c known steps copied payload ch h rest ih =>
    have hstep := c.remembers_step (hkeep _ List.mem_cons_self)
    have hrest := ih (fun s' hs' => hstep.handlers ▸ hkeep s' (List.mem_cons_of_mem _ hs')) ?_
    · exact congrArg (fun r => (([] : List Report) ++ r.1, r.2)) hrest
    · intro p hp
      rcases List.mem_cons.mp hp with rfl | hp
      · exact h.outdated
      · exact hstep.outdated (hknown p hp)
  | @copy c known steps copied payload h rest ih =>
    have hsame : c.call (.receive payload) = c := (hknown payload h).receive
    rw [run, Client.step, hsame, ih hkeep hknown]
    rfl

/-- The commands of one group take effect in the order of their times, each newer than all those
before it. If packets that took effect are delivered again later on, anywhere and however often,
the run ends with the same client and the same reports as without the copies. -/
theorem redelivery_changes_nothing (c : Client τ) (steps : List (ClientStep τ)) :
    (∀ group, (((c.acceptedIn steps).filter (·.command.group = group)).map
      MembershipChange.time).Pairwise (· < ·)) ∧
    ∀ copied, (∀ s ∈ steps, s.KeepsHandlers c.desk.handlers) → Redelivers c [] steps copied →
      c.run copied = c.run steps := by
  constructor
  · intro group
    refine List.pairwise_map.mpr ?_
    refine ((pairwise_acceptedIn c steps).filter _).imp_of_mem fun {a b} ha hb h => h ?_
    have hgroup {x : MembershipChange}
        (hx : x ∈ (c.acceptedIn steps).filter (·.command.group = group)) :
        x.command.group = group := by simpa using (List.mem_filter.mp hx).2
    rw [hgroup ha, hgroup hb]
  · intro copied hkeep h
    exact h.run_eq hkeep nofun

end Redelivery

end Client

/-! ### An invitation that outlives its sender's membership -/

namespace Group

open Client

def erin : Entity := ⟨"erin", "moky", .user⟩

/-- What bob gets to read when somebody changes the team. -/
def packetToBob (ch : MembershipChange) : Bytes :=
  let content := Content.new 5 (.command (.group ch.command)) ch.time
  (Codec.json.encode (Message.new ch.sender bob (content.inGroup team))).toOption.getD []

def carolInvites : MembershipChange := ⟨carol, 2000, .invite team [erin]⟩

def carolExpelled : MembershipChange := ⟨alice, 3000, .expel team [carol]⟩

def readOnce : List (ClientStep Loopback) :=
  [.call (.receive (packetToBob carolInvites)), .iterate,
    .call (.receive (packetToBob carolExpelled))]

def readAgain : List (ClientStep Loopback) :=
  [.call (.receive (packetToBob carolInvites)), .iterate,
    .call (.receive (packetToBob carolInvites)), .call (.receive (packetToBob carolExpelled)),
    .call (.receive (packetToBob carolInvites)), .call (.receive (packetToBob carolExpelled))]

/-- Bob reads carol's invitation again when she has been expelled, and could not invite anymore. -/
theorem redelivery_changes_nothing_readAgain :
    let c := knowing Codec.json bob (some [alice, bob, carol])
    c.acceptedIn readOnce = [carolInvites, carolExpelled] ∧
    ¬(c.run readOnce).2.Permits carol carolInvites.command ∧
    Redelivers c [] readOnce readAgain ∧ c.run readAgain = c.run readOnce := by
  intro c
  have haccepted : c.acceptedIn readOnce = [carolInvites, carolExpelled] := by decide +kernel
  have hforbidden : ¬(c.run readOnce).2.Permits carol carolInvites.command := by decide +kernel
  have hinvites : c.Accepts (packetToBob carolInvites) carolInvites :=
    accepts?_eq_some.mp (by decide +kernel)
  have hexpelled : (c.run (readOnce.take 2)).2.Accepts (packetToBob carolExpelled) carolExpelled :=
    accepts?_eq_some.mp (by decide +kernel)
  have hkeep : ∀ s ∈ readOnce, s.KeepsHandlers c.desk.handlers := by
    simp [readOnce, ClientStep.KeepsHandlers]
  have hcopies : Redelivers c [] readOnce readAgain := by
    apply Redelivers.accepted hinvites
    apply Redelivers.step
    apply Redelivers.copy List.mem_cons_self
    apply Redelivers.accepted hexpelled
    apply Redelivers.copy (List.mem_cons_of_mem _ List.mem_cons_self)
    apply Redelivers.copy List.mem_cons_self
    exact Redelivers.done _ _
  exact ⟨haccepted, hforbidden, hcopies,
    (redelivery_changes_nothing c readOnce).2 readAgain hkeep hcopies⟩

end Group

end Courier
