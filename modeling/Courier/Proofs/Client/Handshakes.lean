import Courier.Proofs.Client.Greeting

/-!
# The pace of first handshakes

A session that entered the handshake either stays in it, goes on to serve traffic, fails, or waits
until the handshake timeout is over. Running and failed sessions come back to the handshake only
through the default phase, so unless that happens, two first handshakes are more than a timeout
apart. A session that hears nothing sends its next one in the second iteration after that.
-/

namespace Courier

theorem Millis.since_le_since {a b : Millis} (h : a ≤ b) (t : Millis) : since a t ≤ since b t := by
  rw [UInt64.le_iff_toNat_le] at h ⊢
  rw [toNat_since, toNat_since]
  omega

/-- Only a reset and a session that lost its key or its identity lead into the default phase. -/
theorem Phase.follow?_default {p : Phase} {event : LifecycleEvent} {effect : Effect}
    (h : p.follow? event = some (.default, effect)) :
    p = .error ∧ event = .reset ∨ p = .running ∧ event = .sessionCleared := by
  revert h
  cases p <;> cases event <;> simp [Phase.follow?]

namespace Client

variable {τ : Type} [Transport τ]

/-- The change of stage that a step makes. -/
def change? (c : Client τ) : ClientStep τ → Option Transition
  | .call (.session call) => c.session.reset? call
  | .call _ => none
  | .iterate => c.transition?

/-- The session is neither reset in a step nor falls from running in it. -/
def KeepsUp (c : Client τ) (s : ClientStep τ) : Prop :=
  ∀ t ∈ c.change? s, t.event ≠ .reset ∧ t.event ≠ .sessionCleared

instance (c : Client τ) (s : ClientStep τ) : Decidable (c.KeepsUp s) :=
  inferInstanceAs (Decidable (∀ t ∈ c.change? s, t.event ≠ .reset ∧ t.event ≠ .sessionCleared))

def Unbroken (c : Client τ) : List (ClientStep τ) → Prop
  | [] => True
  | s :: steps => c.KeepsUp s ∧ (c.step s).2.Unbroken steps

instance decidableUnbroken : (c : Client τ) → (steps : List (ClientStep τ)) →
    Decidable (c.Unbroken steps)
  | _, [] => isTrue trivial
  | c, s :: steps =>
    have := decidableUnbroken (c.step s).2 steps
    inferInstanceAs (Decidable (c.KeepsUp s ∧ _))

/-- Once its statuses are applied, the session is not paused, its connection is ready, no failure
was seen and there is no key. -/
structure Quiet (c : Client τ) : Prop where
  unpaused : c.session.foldStatuses.isPaused = false
  ready : c.session.foldStatuses.connection = .ready
  sound : c.session.foldStatuses.transportFailed = false
  keyless : c.session.foldStatuses.key = none

instance (c : Client τ) : Decidable c.Quiet :=
  decidable_of_iff
    (c.session.foldStatuses.isPaused = false ∧ c.session.foldStatuses.connection = .ready ∧
      c.session.foldStatuses.transportFailed = false ∧ c.session.foldStatuses.key = none)
    ⟨fun ⟨hpaused, hready, hfailed, hkey⟩ => ⟨hpaused, hready, hfailed, hkey⟩,
      fun h => ⟨h.unpaused, h.ready, h.sound, h.keyless⟩⟩

/-- The next iteration enters the handshake. -/
def Enters (c : Client τ) : Prop :=
  c.session.phase ≠ .handshaking ∧ (c.step .iterate).2.session.phase = .handshaking

instance (c : Client τ) : Decidable c.Enters :=
  inferInstanceAs (Decidable (_ ∧ _))

/-- The next iteration queues the first handshake of the signed-in user, once, and besides it only
messages without a card. The queue takes it unless one with the same id waits there already. -/
def Greets (c : Client τ) : Prop :=
  ∀ user b, c.account.user = some user → c.account.codec.encode (c.greeting user) = .ok b →
    (c.greeting user).ref.id ∉ c.session.queue.reserved →
    (c.greeting user).IsGreeting ∧ ∃ others, (∀ e ∈ others, e.IsPlain c.account.codec) ∧
      (c.newcomers .iterate).Perm
        (c.session.queue.entry (c.greeting user).ref
          ⟨b, .handshake, some (c.greeting user).ref.id⟩ c.account.clock :: others)

def handshakeTimeout (c : Client τ) : Millis :=
  c.session.machine.handshakeTimeout

/-- Every iteration finds the session quiet and the handshake that was entered at `t` not yet
expired. -/
def Waits (t : Millis) (c : Client τ) : List (ClientStep τ) → Prop
  | [] => True
  | .call call :: steps => (c.call call).Waits t steps
  | .iterate :: steps =>
    c.Quiet ∧ Millis.since c.account.clock t ≤ c.handshakeTimeout ∧
      (c.step .iterate).2.Waits t steps

instance decidableWaits (t : Millis) : (c : Client τ) → (steps : List (ClientStep τ)) →
    Decidable (c.Waits t steps)
  | _, [] => isTrue trivial
  | c, .call call :: steps => decidableWaits t (c.call call) steps
  | c, .iterate :: steps =>
    have := decidableWaits t (c.step .iterate).2 steps
    inferInstanceAs (Decidable (c.Quiet ∧ _ ∧ _))

/-! ### Steps -/

theorem transition?_eq_some {c : Client τ} {t : Transition} (h : c.transition? = some t) :
    t.source = c.session.stage ∧ t.source.phase ≠ .error ∧
      t.source.detect? c.session.foldStatuses.snapshot c.account.clock c.handshakeTimeout =
        some t.event ∧
      t.source.phase.follow? t.event = some (t.target.phase, t.effect) ∧
      t.target.enteredAt = c.account.clock := by
  have hfold := Watched.rests_foldStatuses (⟨c.session, c.desk, []⟩ : Watched τ Desk)
  have hentered := Session.enteredAt_of_evaluate? h
  obtain ⟨hsource, -, herror, hdetect, hfollow, -⟩ := Session.evaluate?_eq_some h
  have htimeout : c.session.foldStatuses.machine.handshakeTimeout = c.handshakeTimeout :=
    hfold.timeout
  rw [hentered, htimeout] at hdetect
  exact ⟨hsource.trans hfold.stage, herror, hdetect, hfollow, hentered⟩

theorem machine_call (c : Client τ) {call : ClientCall τ} (h : call.IsPlain c.account.codec)
    (hs : ∀ sc, call ≠ .session sc) : (c.call call).session.machine = c.session.machine := by
  rcases h.ordinary_or with ho | ⟨sc, rfl⟩ | ⟨user, rfl⟩ | ⟨time, rfl⟩
  · exact (c.acts_call ho).machine
  · exact absurd rfl (hs sc)
  · rfl
  · rfl

/-- Apart from what is done to the session itself, calls make no change of stage. -/
theorem change?_of_ne (c : Client τ) {call : ClientCall τ} (hs : ∀ sc, call ≠ .session sc) :
    c.change? (.call call) = none := by
  cases call with
  | session sc => exact absurd rfl (hs sc)
  | _ => rfl

theorem stage_step (c : Client τ) {s : ClientStep τ} (h : s.IsPlain c.account.codec) :
    (c.step s).2.session.stage = ((c.change? s).map Transition.target).getD c.session.stage := by
  cases s with
  | iterate => exact Watched.stage_iterate c.account.clock ⟨c.session, c.desk, []⟩
  | call call =>
    by_cases hs : ∃ sc, call = .session sc
    · obtain ⟨sc, rfl⟩ := hs
      exact c.session.stage_call sc
    · have hne := not_exists.mp hs
      rw [c.change?_of_ne hne]
      exact congrArg Machine.stage (c.machine_call h hne)

theorem timeout_step (c : Client τ) {s : ClientStep τ} (h : s.IsPlain c.account.codec) :
    (c.step s).2.handshakeTimeout = c.handshakeTimeout := by
  cases s with
  | iterate =>
    exact (Watched.passes_step onlyCalls_observer ⟨c.session, c.desk, []⟩
      (.iterate c.account.clock)).timeout
  | call call =>
    by_cases hs : ∃ sc, call = .session sc
    · obtain ⟨sc, rfl⟩ := hs
      exact c.session.timeout_call sc
    · exact congrArg Machine.handshakeTimeout (c.machine_call h (not_exists.mp hs))

theorem clock_step (c : Client τ) {s : ClientStep τ} (h : s.IsPlain c.account.codec) :
    c.account.clock ≤ (c.step s).2.account.clock := by
  cases s with
  | iterate =>
    obtain ⟨-, -, hoffice, -⟩ := Watched.key_iterate c.account.clock ⟨c.session, c.desk, []⟩
    exact UInt64.le_of_eq hoffice.clock.symm
  | call call =>
    rcases ClientCall.IsPlain.ordinary_or h with ho | ⟨sc, rfl⟩ | ⟨user, rfl⟩ | ⟨time, rfl⟩
    · exact UInt64.le_of_eq (c.acts_call ho).office.clock.symm
    · exact UInt64.le_refl _
    · exact UInt64.le_refl _
    · exact (rests_wait c time).clock

theorem run_nil (c : Client τ) : (c.run []).2 = c := rfl

/-- What steps do not change unless another session takes over. -/
theorem run_fields (c : Client τ) {steps : List (ClientStep τ)}
    (h : ∀ s ∈ steps, s.IsPlain c.account.codec) :
    (c.run steps).2.account.codec = c.account.codec ∧
      (c.run steps).2.handshakeTimeout = c.handshakeTimeout ∧
      (c.session.queue.Sound [] → (c.run steps).2.session.queue.Sound []) := by
  induction steps generalizing c with
  | nil => exact ⟨rfl, rfl, id⟩
  | cons s steps ih =>
    have hs := h s List.mem_cons_self
    have hrest (s') (hs' : s' ∈ steps) : s'.IsPlain (c.step s).2.account.codec := by
      rw [codec_step]
      exact h s' (List.mem_cons_of_mem s hs')
    obtain ⟨hcodec, htimeout, hsound⟩ := ih (c.step s).2 hrest
    refine ⟨hcodec.trans (c.codec_step s), htimeout.trans (c.timeout_step hs), ?_⟩
    intro hq
    exact hsound (sound_step hq hs)

/-! ### Entering the handshake -/

/-- Only a connected session enters the handshake. -/
theorem leads_to_handshaking {p : Phase} {event : LifecycleEvent} {effect : Effect}
    (h : p.follow? event = some (.handshaking, effect)) : p = .connected := by
  revert h
  cases p <;> cases event <;> simp [Phase.follow?]

theorem connected_of_entering {c : Client τ} {t : Transition} (ht : c.transition? = some t)
    (hphase : t.target.phase = .handshaking) : c.session.phase = .connected := by
  obtain ⟨hsource, -, -, hfollow, -⟩ := transition?_eq_some ht
  rw [hsource, hphase] at hfollow
  exact leads_to_handshaking hfollow

theorem enters_iff {c : Client τ} :
    c.Enters ↔ ∃ t, c.transition? = some t ∧ t.target.phase = .handshaking := by
  have hstage : (c.step .iterate).2.session.stage =
      (c.transition?.map Transition.target).getD c.session.stage :=
    Watched.stage_iterate c.account.clock ⟨c.session, c.desk, []⟩
  constructor
  · rintro ⟨hbefore, hafter⟩
    cases ht : c.transition? with
    | none =>
      rw [ht] at hstage
      exact absurd ((congrArg Stage.phase hstage).symm.trans hafter) hbefore
    | some t =>
      rw [ht] at hstage
      exact ⟨t, rfl, (congrArg Stage.phase hstage).symm.trans hafter⟩
  · rintro ⟨t, ht, hphase⟩
    have hconnected := connected_of_entering ht hphase
    rw [ht] at hstage
    refine ⟨?_, (congrArg Stage.phase hstage).trans hphase⟩
    rw [hconnected]
    intro h
    cases h

theorem Enters.greets {c : Client τ} (h : c.Enters) (hsound : c.session.queue.Sound []) :
    c.Greets := by
  intro user b huser hb hfree
  obtain ⟨t, ht, hphase⟩ := enters_iff.mp h
  obtain ⟨others, hnewcomers, hothers⟩ := newcomers_iterate hsound
  rw [greetings_of_entering ht hphase huser hb hfree] at hnewcomers
  exact ⟨c.isGreeting_greeting user, others, hothers, hnewcomers⟩

/-- Whatever does not enter the handshake queues no first handshake. -/
theorem plain_newcomers {c : Client τ} (hsound : c.session.queue.Sound []) {s : ClientStep τ}
    (hs : s.IsPlain c.account.codec) (h : s = .iterate → ¬c.Enters) :
    ∀ e ∈ c.newcomers s, e.IsPlain c.account.codec := by
  cases s with
  | call call => exact newcomers_call hsound hs
  | iterate =>
    apply plain_of_greetings_eq_nil hsound
    unfold greetings
    cases ht : c.transition? with
    | none => rfl
    | some t =>
      have hphase : t.target.phase ≠ .handshaking := fun hphase =>
        h rfl (enters_iff.mpr ⟨t, ht, hphase⟩)
      exact if_neg hphase

/-! ### Two first handshakes -/

/-- What a session that entered the handshake at `t` has come to, unless it went back to the default
phase. -/
def Since (t : Millis) (c : Client τ) : Prop :=
  c.session.stage = ⟨.handshaking, t⟩ ∨ c.session.phase = .running ∨ c.session.phase = .error ∨
    c.handshakeTimeout < Millis.since c.account.clock t

omit [Transport τ] in
theorem since_of_expired {c c' : Client τ} {t : Millis}
    (hclock : c.account.clock ≤ c'.account.clock) (htimeout : c'.handshakeTimeout = c.handshakeTimeout)
    (h : c.handshakeTimeout < Millis.since c.account.clock t) : c'.Since t := by
  right; right; right
  rw [htimeout]
  exact UInt64.lt_of_lt_of_le h (Millis.since_le_since hclock t)

/-- A transition out of a handshake shows what has become of it. -/
theorem handshaking_leads {p : Phase} {event : LifecycleEvent} {effect : Effect}
    (h : Phase.handshaking.follow? event = some (p, effect)) :
    event = .handshakeExpired ∨ p = .running ∨ p = .error := by
  revert h
  cases event <;> simp [Phase.follow?] <;> rintro rfl <;> simp

theorem running_leads {p : Phase} {event : LifecycleEvent} {effect : Effect}
    (h : Phase.running.follow? event = some (p, effect)) : p = .default ∨ p = .error := by
  revert h
  cases event <;> simp [Phase.follow?] <;> rintro rfl <;> simp

theorem expired_of_detect? {stage : Stage} {seen : Snapshot} {now timeout : Millis}
    (h : stage.detect? seen now timeout = some .handshakeExpired) :
    timeout < Millis.since now stage.enteredAt := by
  by_cases hb : seen.isBroken = true
  · cases hp : stage.phase <;> simp [Stage.detect?, hb, hp] at h
  · by_cases hr : seen.isReady = true
    · cases hp : stage.phase with
      | handshaking =>
        by_cases hk : seen.hasKey = true
        · simp [Stage.detect?, hb, hr, hk, hp] at h
        · simpa [Stage.detect?, hb, hr, hk, hp] using h
      | _ => simp [Stage.detect?, hb, hr, hp] at h
    · cases hp : stage.phase <;> simp [Stage.detect?, hb, hr, hp] at h

theorem Since.step {c : Client τ} {t : Millis} (h : c.Since t) {s : ClientStep τ}
    (hs : s.IsPlain c.account.codec) (hkeeps : c.KeepsUp s) : (c.step s).2.Since t := by
  have hclock := c.clock_step hs
  have htimeout := c.timeout_step hs
  have hstage := c.stage_step hs
  cases hchange : c.change? s with
  | none =>
    -- Nothing but time goes by.
    rw [hchange] at hstage
    have hphase : (c.step s).2.session.phase = c.session.phase := congrArg Stage.phase hstage
    rcases h with hentered | hrunning | herror | hlate
    · exact .inl (hstage.trans hentered)
    · exact .inr (.inl (hphase.trans hrunning))
    · exact .inr (.inr (.inl (hphase.trans herror)))
    · exact since_of_expired hclock htimeout hlate
  | some u =>
    obtain ⟨hreset, hcleared⟩ := hkeeps u hchange
    rw [hchange] at hstage
    have hphase : (c.step s).2.session.phase = u.target.phase := congrArg Stage.phase hstage
    cases s with
    | call call =>
      cases call with
      | session sc =>
        obtain ⟨-, now, -, rfl⟩ := Session.reset?_eq_some hchange
        exact absurd rfl hreset
      | _ => cases hchange
    | iterate =>
      obtain ⟨hsource, herror, hdetect, hfollow, -⟩ := transition?_eq_some hchange
      rw [hsource] at herror hdetect hfollow
      have htarget : u.target.phase ≠ .default := by
        intro hdefault
        rw [hdefault] at hfollow
        rcases Phase.follow?_default hfollow with ⟨-, hevent⟩ | ⟨-, hevent⟩
        · exact hreset hevent
        · exact hcleared hevent
      rcases h with hentered | hrunning | hfailed | hlate
      · rw [hentered] at hdetect hfollow
        rcases handshaking_leads hfollow with hexpired | hrunning | hfailed
        · rw [hexpired] at hdetect
          exact since_of_expired hclock htimeout (expired_of_detect? hdetect)
        · exact .inr (.inl (hphase.trans hrunning))
        · exact .inr (.inr (.inl (hphase.trans hfailed)))
      · have hphase' : c.session.stage.phase = .running := hrunning
        rw [hphase'] at hfollow
        have hleads := running_leads hfollow
        exact .inr (.inr (.inl (hphase.trans (hleads.resolve_left htarget))))
      · exact absurd hfailed herror
      · exact since_of_expired hclock htimeout hlate

theorem Since.run {c : Client τ} {t : Millis} (h : c.Since t) {steps : List (ClientStep τ)}
    (hsteps : ∀ s ∈ steps, s.IsPlain c.account.codec) (hunbroken : c.Unbroken steps) :
    (c.run steps).2.Since t := by
  induction steps generalizing c with
  | nil => exact h
  | cons s steps ih =>
    obtain ⟨hkeeps, hrest⟩ := hunbroken
    apply ih (h.step (hsteps s List.mem_cons_self) hkeeps) _ hrest
    intro s' hs'
    rw [codec_step]
    exact hsteps s' (List.mem_cons_of_mem s hs')

theorem Since.expired {c : Client τ} {t : Millis} (h : c.Since t) (hc : c.Enters) :
    c.handshakeTimeout < Millis.since c.account.clock t := by
  obtain ⟨u, hu, hphase⟩ := enters_iff.mp hc
  have hconnected := connected_of_entering hu hphase
  rcases h with hentered | hrunning | hfailed | hlate
  · cases hconnected.symm.trans (congrArg Stage.phase hentered)
  · cases hconnected.symm.trans hrunning
  · cases hconnected.symm.trans hfailed
  · exact hlate

/-! ### Quiet sessions -/

theorem Quiet.detect? {c : Client τ} (h : c.Quiet) (stage : Stage) (now timeout : Millis) :
    stage.detect? c.session.foldStatuses.snapshot now timeout =
      match stage.phase with
      | .connected => some .noError
      | .handshaking =>
        if timeout < Millis.since now stage.enteredAt then some .handshakeExpired else none
      | _ => stage.detect? c.session.foldStatuses.snapshot now timeout := by
  have hbroken : c.session.foldStatuses.snapshot.isBroken = false := by
    simp [Snapshot.isBroken, Session.snapshot, h.sound, h.ready]
  have hready : c.session.foldStatuses.snapshot.isReady = true := by
    simp [Snapshot.isReady, Session.snapshot, h.ready]
  have hkey : c.session.foldStatuses.snapshot.hasKey = false := by
    simp [Session.snapshot, h.keyless]
  cases hp : stage.phase with
  | connected => simp [Stage.detect?, hp, hbroken, hready]
  | handshaking => simp [Stage.detect?, hp, hbroken, hready, hkey]
  | _ => rfl

theorem Quiet.transition?_eq {c : Client τ} (h : c.Quiet) : c.transition? =
    (c.session.stage.detect? c.session.foldStatuses.snapshot c.account.clock
      c.handshakeTimeout).bind fun event =>
        (c.session.stage.phase.follow? event).map fun (phase, effect) =>
          ⟨c.session.stage, ⟨phase, c.account.clock⟩, event, effect⟩ := by
  have hfold := Watched.rests_foldStatuses (⟨c.session, c.desk, []⟩ : Watched τ Desk)
  have hstage : c.session.foldStatuses.machine.stage = c.session.stage := hfold.stage
  have htimeout : c.session.foldStatuses.machine.handshakeTimeout = c.handshakeTimeout :=
    hfold.timeout
  have hpaused : c.session.foldStatuses.machine.paused = false := h.unpaused
  simp only [transition?, Session.evaluate?, Machine.evaluate?, Machine.transition?, hpaused,
    hstage, htimeout, Bool.false_eq_true, if_false]

/-- A quiet session that is connected enters the handshake. -/
theorem Quiet.enters {c : Client τ} (h : c.Quiet) {t : Millis}
    (hstage : c.session.stage = ⟨.connected, t⟩) : c.transition? =
      some ⟨⟨.connected, t⟩, ⟨.handshaking, c.account.clock⟩, .noError, .sendHandshake⟩ := by
  rw [h.transition?_eq, h.detect?, hstage]
  rfl

/-- A quiet session leaves the handshake when it expires, and not before. -/
theorem Quiet.expires {c : Client τ} (h : c.Quiet) {t : Millis}
    (hstage : c.session.stage = ⟨.handshaking, t⟩) : c.transition? =
      if c.handshakeTimeout < Millis.since c.account.clock t then
        some ⟨⟨.handshaking, t⟩, ⟨.connected, c.account.clock⟩, .handshakeExpired, .none⟩
      else none := by
  rw [h.transition?_eq, h.detect?, hstage]
  dsimp only
  split <;> rfl

theorem change?_call {c : Client τ} (h : c.session.phase ≠ .error) (call : ClientCall τ) :
    c.change? (.call call) = none := by
  cases call with
  | session sc =>
    cases hreset : c.session.reset? sc with
    | none => exact hreset
    | some t => exact absurd (Session.reset?_eq_some hreset).1 h
  | _ => rfl

/-- Calls leave a session in its stage unless it failed. -/
theorem stage_call {c : Client τ} (h : c.session.phase ≠ .error) {call : ClientCall τ}
    (hcall : call.IsPlain c.account.codec) : (c.call call).session.stage = c.session.stage := by
  have hstage := c.stage_step (s := .call call) hcall
  rw [change?_call h] at hstage
  exact hstage

theorem stage_calls {c : Client τ} {stage : Stage} (hstage : c.session.stage = stage)
    (h : stage.phase ≠ .error) {calls : List (ClientCall τ)}
    (hcalls : ∀ call ∈ calls, call.IsPlain c.account.codec) :
    (c.run (calls.map .call)).2.session.stage = stage := by
  induction calls generalizing c with
  | nil => exact hstage
  | cons call calls ih =>
    have hphase : c.session.phase ≠ .error := by
      rw [Session.phase, ← Session.stage, hstage]
      exact h
    apply ih ((stage_call hphase (hcalls call List.mem_cons_self)).trans hstage)
    intro call' hcall'
    have hcodec : (c.call call).account.codec = c.account.codec := c.codec_step (.call call)
    rw [hcodec]
    exact hcalls call' (List.mem_cons_of_mem call hcall')

theorem Waits.stage {c : Client τ} {t : Millis} {steps : List (ClientStep τ)}
    (h : c.Waits t steps) (hsteps : ∀ s ∈ steps, s.IsPlain c.account.codec)
    (hstage : c.session.stage = ⟨.handshaking, t⟩) :
    (c.run steps).2.session.stage = ⟨.handshaking, t⟩ := by
  induction steps generalizing c with
  | nil => exact hstage
  | cons s steps ih =>
    have hrest (s') (hs' : s' ∈ steps) : s'.IsPlain (c.step s).2.account.codec := by
      rw [codec_step]
      exact hsteps s' (List.mem_cons_of_mem s hs')
    cases s with
    | call call =>
      have hphase : c.session.phase ≠ .error := by
        rw [Session.phase, ← Session.stage, hstage]
        intro herror
        cases herror
      exact ih h hrest ((stage_call hphase (hsteps _ List.mem_cons_self)).trans hstage)
    | iterate =>
      obtain ⟨hquiet, hearly, h⟩ := h
      refine ih h hrest ?_
      have hnone := hquiet.expires hstage
      rw [if_neg (UInt64.not_lt.mpr hearly)] at hnone
      rw [c.stage_step (s := .iterate) trivial, change?, hnone]
      exact hstage

/-! ### The law -/

/-- A session that stays quiet in the handshake until that expires is connected again then, and the
next iteration sends the next first handshake. -/
theorem Waits.greets {c : Client τ} {t : Millis} {waiting : List (ClientStep τ)}
    (h : c.Waits t waiting) (hwaiting : ∀ s ∈ waiting, s.IsPlain c.account.codec)
    (hstage : c.session.stage = ⟨.handshaking, t⟩) (hsound : c.session.queue.Sound []) :
    let late := (c.run waiting).2
    late.Quiet → c.handshakeTimeout < Millis.since late.account.clock t →
      late.transition? =
          some ⟨⟨.handshaking, t⟩, ⟨.connected, late.account.clock⟩, .handshakeExpired, .none⟩ ∧
        ∀ calls : List (ClientCall τ), (∀ call ∈ calls, call.IsPlain c.account.codec) →
          let next := ((late.step .iterate).2.run (calls.map .call)).2
          next.Quiet → next.Enters ∧ next.Greets := by
  intro late hquiet hlate
  obtain ⟨hcodec, htimeout, hqueue⟩ := c.run_fields hwaiting
  have hlated : late.handshakeTimeout < Millis.since late.account.clock t := htimeout ▸ hlate
  have hmove := hquiet.expires (h.stage hwaiting hstage)
  rw [if_pos hlated] at hmove
  refine ⟨hmove, ?_⟩
  intro calls hcalls next hnext
  have hexpired : (late.step .iterate).2.session.stage = ⟨.connected, late.account.clock⟩ := by
    rw [late.stage_step (s := .iterate) trivial, change?, hmove]
    rfl
  have hplain (call) (hcall : call ∈ calls) :
      call.IsPlain (late.step .iterate).2.account.codec := by
    rw [codec_step, hcodec]
    exact hcalls call hcall
  have hentering := hnext.enters (stage_calls hexpired nofun hplain)
  have henters : next.Enters := enters_iff.mpr ⟨_, hentering, rfl⟩
  have hsteps (s) (hs : s ∈ calls.map ClientStep.call) :
      s.IsPlain (late.step .iterate).2.account.codec := by
    obtain ⟨call, hcall, rfl⟩ := List.mem_map.mp hs
    exact hplain call hcall
  obtain ⟨-, -, hlast⟩ := (late.step .iterate).2.run_fields hsteps
  exact ⟨henters, henters.greets (hlast (sound_step (s := .iterate) (hqueue hsound) trivial))⟩

/-- In every run of a session, whatever else is done with it and however its clock goes on, an
iteration that enters the handshake queues exactly one first handshake, that of the signed-in user,
and nothing else queues any. Two iterations that enter it are more than the handshake timeout apart
unless the session was reset or fell from running in between. A session that hears of no key and no
failure and is not paused stays in the handshake until the first iteration later than the timeout,
is connected again then and sends the next one with the iteration after that. -/
theorem first_handshakes (station : Entity) (host : String) (port : UInt16) (transport : τ)
    (settings : Settings) (start : Millis) (desk : Desk) (before : List (ClientStep τ))
    (hbefore : ∀ s ∈ before, s.IsPlain desk.account.codec) :
    let opened : Client τ := ⟨.new station host port transport settings start, desk⟩
    let c := (opened.run before).2
    ((c.Enters → c.Greets) ∧
      ∀ s : ClientStep τ, s.IsPlain desk.account.codec → (s = .iterate → ¬c.Enters) →
        ∀ e ∈ c.newcomers s, e.IsPlain desk.account.codec) ∧
    (∀ between : List (ClientStep τ), (∀ s ∈ between, s.IsPlain desk.account.codec) →
      let again := (c.run (.iterate :: between)).2
      c.Enters → (c.step .iterate).2.Unbroken between → again.Enters →
        settings.handshakeTimeout < Millis.since again.account.clock c.account.clock) ∧
    ∀ t, c.session.stage = ⟨.handshaking, t⟩ → ∀ waiting : List (ClientStep τ),
      (∀ s ∈ waiting, s.IsPlain desk.account.codec) → c.Waits t waiting →
      let late := (c.run waiting).2
      late.Quiet → settings.handshakeTimeout < Millis.since late.account.clock t →
        late.transition? =
            some ⟨⟨.handshaking, t⟩, ⟨.connected, late.account.clock⟩, .handshakeExpired, .none⟩ ∧
          ∀ calls : List (ClientCall τ), (∀ call ∈ calls, call.IsPlain desk.account.codec) →
            let next := ((late.step .iterate).2.run (calls.map .call)).2
            next.Quiet → next.Enters ∧ next.Greets := by
  intro opened c
  obtain ⟨hcodec, htimeout, hqueue⟩ := opened.run_fields hbefore
  have hcodec' : c.account.codec = desk.account.codec := hcodec
  have hsettings : c.handshakeTimeout = settings.handshakeTimeout := htimeout
  have hsound : c.session.queue.Sound [] := hqueue (.new settings.retryPolicy)
  rw [← hcodec']
  refine ⟨⟨fun h => h.greets hsound, fun s hs h => plain_newcomers hsound hs h⟩, ?_, ?_⟩
  · intro between hbetween again hc hunbroken hagain
    obtain ⟨t, ht, hphase⟩ := enters_iff.mp hc
    obtain ⟨-, -, -, -, hentered⟩ := transition?_eq_some ht
    have hstage : (c.step .iterate).2.session.stage = ⟨.handshaking, c.account.clock⟩ := by
      rw [c.stage_step (s := .iterate) trivial, change?, ht, ← hphase, ← hentered]
      rfl
    have hplain (s) (hs : s ∈ between) : s.IsPlain (c.step .iterate).2.account.codec := by
      rw [codec_step]
      exact hbetween s hs
    have hsince : again.Since c.account.clock := Since.run (.inl hstage) hplain hunbroken
    obtain ⟨-, hsame, -⟩ := (c.step .iterate).2.run_fields hplain
    have hexpired := hsince.expired hagain
    have hagain' : again.handshakeTimeout = settings.handshakeTimeout :=
      hsame.trans ((c.timeout_step (s := .iterate) trivial).trans hsettings)
    rwa [hagain'] at hexpired
  · intro t hstage waiting hwaiting hwaits late hquiet hlate
    exact hwaits.greets hwaiting hstage hsound hquiet (hsettings ▸ hlate)

/-- A session that comes to be connected. -/
def arriving : List (ClientStep Loopback) :=
  [.call (.session (.setIdentity (some ⟨"alice", "moky", .user⟩))), .iterate, .iterate]

/-- The handshake is not answered. It has not expired at its timeout, but a millisecond later. -/
def unanswered : List (ClientStep Loopback) :=
  [.call (.wait 32000), .iterate, .call (.wait 32001)]

theorem isPlain_arriving : ∀ s ∈ arriving, s.IsPlain Codec.json := by
  intro s hs
  simp only [arriving, List.mem_cons, List.not_mem_nil, or_false] at hs
  rcases hs with rfl | rfl | rfl <;> trivial

theorem isPlain_unanswered : ∀ s ∈ unanswered, s.IsPlain Codec.json := by
  intro s hs
  simp only [unanswered, List.mem_cons, List.not_mem_nil, or_false] at hs
  rcases hs with rfl | rfl | rfl <;> trivial

theorem first_handshakes_unanswered :
    let desk := (Query.signedIn Query.signedOut).desk
    let opened : Client Loopback :=
      ⟨.new .anyStation "127.0.0.1" 9394 .auto (.standard "courier") 0, desk⟩
    let c := (opened.run arriving).2
    let late := ((opened.run (arriving ++ [ClientStep.iterate])).2.run unanswered).2
    let again := (c.run (.iterate :: (unanswered ++ [ClientStep.iterate]))).2
    (c.Enters ∧ c.Greets) ∧ ((late.step .iterate).2.Enters ∧ (late.step .iterate).2.Greets) ∧
      30000 < Millis.since again.account.clock c.account.clock := by
  intro desk opened c late again
  have henters : c.Enters := by decide +kernel
  have hplain {steps : List (ClientStep Loopback)} (h : ∀ s ∈ steps, s.IsPlain Codec.json) :
      ∀ s ∈ steps ++ [ClientStep.iterate], s.IsPlain Codec.json := by
    intro s hs
    rcases List.mem_append.mp hs with hs | hs
    · exact h s hs
    · rw [List.mem_singleton.mp hs]
      trivial
  obtain ⟨⟨hgreets, -⟩, htwice, -⟩ := first_handshakes .anyStation "127.0.0.1" 9394 Loopback.auto
    (.standard "courier") 0 desk arriving isPlain_arriving
  obtain ⟨-, -, hwaits⟩ := first_handshakes .anyStation "127.0.0.1" 9394 Loopback.auto
    (.standard "courier") 0 desk (arriving ++ [ClientStep.iterate]) (hplain isPlain_arriving)
  obtain ⟨-, hnext⟩ := hwaits 2000 (by decide +kernel) unanswered isPlain_unanswered
    (by decide +kernel) (by decide +kernel) (by decide +kernel)
  have hnone : ∀ call ∈ ([] : List (ClientCall Loopback)), call.IsPlain Codec.json :=
    fun _ hcall => absurd hcall List.not_mem_nil
  have hagain := hnext [] hnone (by decide +kernel)
  rw [List.map_nil, run_nil] at hagain
  refine ⟨⟨henters, hgreets henters⟩, hagain, ?_⟩
  exact htwice (unanswered ++ [ClientStep.iterate]) (hplain isPlain_unanswered) henters
    (by decide +kernel) (by decide +kernel)

end Client

end Courier
