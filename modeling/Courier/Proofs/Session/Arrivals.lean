import Courier.Proofs.Session.View
import Mathlib.Data.List.Nodup

/-!
# Statuses in the order in which they arrive

Statuses may arrive late and in any order, and a reset may come in between. What a session believes
in the end is the newest of them: a status that is not newer than the last one applied is passed
over, so of those with the greatest time it is the first. The flag by which the session sends keeps
in step with the connection all the while, and so do the two times, which no reset takes back.
-/

namespace Courier

/-! ### The newest status -/

/-- The first of the events with the greatest time, if that is later than `time`. -/
def StatusEvent.IsNewest (time : Millis) (es : List StatusEvent) (e : StatusEvent) : Prop :=
  time < e.timestamp ∧ ∃ earlier later, es = earlier ++ e :: later ∧
    (∀ e' ∈ earlier, e'.timestamp < e.timestamp) ∧ ∀ e' ∈ later, e'.timestamp ≤ e.timestamp

namespace StatusEvent.IsNewest

variable {time : Millis} {es es' : List StatusEvent} {e e' : StatusEvent}

theorem mem (h : IsNewest time es e) : e ∈ es := by
  obtain ⟨-, earlier, later, rfl, -⟩ := h
  exact List.mem_append_right earlier List.mem_cons_self

theorem le (h : IsNewest time es e) (he' : e' ∈ es) : e'.timestamp ≤ e.timestamp := by
  obtain ⟨-, earlier, later, rfl, hearlier, hlater⟩ := h
  rcases List.mem_append.mp he' with hmem | hmem
  · exact UInt64.le_of_lt (hearlier e' hmem)
  · rcases List.mem_cons.mp hmem with rfl | hmem
    · exact UInt64.le_refl _
    · exact hlater e' hmem

/-- An event in front that is older does not matter. -/
theorem cons (h : IsNewest time es e) (hold : e'.timestamp < e.timestamp) :
    IsNewest time (e' :: es) e := by
  obtain ⟨hnew, earlier, later, rfl, hearlier, hlater⟩ := h
  refine ⟨hnew, e' :: earlier, later, rfl, ?_, hlater⟩
  intro x hx
  rcases List.mem_cons.mp hx with rfl | hx
  · exact hold
  · exact hearlier x hx

theorem mono {time' : Millis} (h : IsNewest time es e) (hle : time' ≤ time) :
    IsNewest time' es e :=
  ⟨UInt64.lt_of_le_of_lt hle h.1, h.2⟩

/-- With distinct times the order of the events does not matter. -/
theorem eq_of_perm (h : IsNewest time es e) (h' : IsNewest time es' e') (hperm : es.Perm es')
    (hdistinct : (es.map StatusEvent.timestamp).Nodup) : e = e' := by
  have hmem : e' ∈ es := hperm.mem_iff.mpr h'.mem
  have hsame : e.timestamp = e'.timestamp :=
    UInt64.le_antisymm (h'.le (hperm.mem_iff.mp h.mem)) (h.le hmem)
  exact List.inj_on_of_nodup_map hdistinct h.mem hmem hsame

end StatusEvent.IsNewest

namespace Activity

open StatusEvent

variable {a : Activity} {es es' : List StatusEvent}

/-- Of some events the newest one is believed, unless all of them are too old. -/
theorem applyAll_newest (a : Activity) (es : List StatusEvent) :
    (∃ e, IsNewest a.statusAt es e ∧ (a.applyAll es).connection = e.status ∧
      (a.applyAll es).statusAt = e.timestamp) ∨
    (∀ e ∈ es, e.timestamp ≤ a.statusAt) ∧ a.applyAll es = a := by
  induction es generalizing a with
  | nil => exact .inr ⟨nofun, rfl⟩
  | cons e es ih =>
    by_cases hold : e.timestamp ≤ a.statusAt
    · rw [applyAll_cons_none (accept?_eq_none hold)]
      rcases ih a with ⟨newest, hnewest, hbelieved⟩ | ⟨htooOld, hsame⟩
      · have hlate : e.timestamp < newest.timestamp := UInt64.lt_of_le_of_lt hold hnewest.1
        exact .inl ⟨newest, hnewest.cons hlate, hbelieved⟩
      · refine .inr ⟨fun e' he' => ?_, hsame⟩
        rcases List.mem_cons.mp he' with rfl | he'
        · exact hold
        · exact htooOld e' he'
    · have hnew : a.statusAt < e.timestamp := UInt64.not_le.mp hold
      obtain ⟨b, hb, hconnection, hstatusAt⟩ := accept?_eq_some hnew
      rw [applyAll_cons_some hb]
      rcases ih b with ⟨newest, hnewest, hbelieved⟩ | ⟨htooOld, hsame⟩
      · -- Something later is newer than what was applied first.
        rw [hstatusAt] at hnewest
        exact .inl ⟨newest, (hnewest.cons hnewest.1).mono (UInt64.le_of_lt hnew), hbelieved⟩
      · rw [hstatusAt] at htooOld
        refine .inl ⟨e, ⟨hnew, [], es, rfl, nofun, htooOld⟩, ?_⟩
        rw [hsame]
        exact ⟨hconnection, hstatusAt⟩

theorem statusAt_le_applyAll (a : Activity) (es : List StatusEvent) :
    a.statusAt ≤ (a.applyAll es).statusAt := by
  rcases a.applyAll_newest es with ⟨e, hnewest, -, hstatusAt⟩ | ⟨-, hsame⟩
  · rw [hstatusAt]
    exact UInt64.le_of_lt hnewest.1
  · rw [hsame]
    exact UInt64.le_refl _

/-- Events with distinct times lead to the same connection in whatever order they arrive. -/
theorem connection_applyAll_perm (hperm : es.Perm es')
    (hdistinct : (es.map StatusEvent.timestamp).Nodup) :
    (a.applyAll es).connection = (a.applyAll es').connection := by
  rcases a.applyAll_newest es with ⟨e, hnewest, hconnection, -⟩ | ⟨htooOld, hsame⟩
  · rcases a.applyAll_newest es' with ⟨e', hnewest', hconnection', -⟩ | ⟨htooOld', -⟩
    · rw [hconnection, hconnection', hnewest.eq_of_perm hnewest' hperm hdistinct]
    · exact absurd hnewest.1 (UInt64.not_lt.mpr (htooOld' e (hperm.mem_iff.mp hnewest.mem)))
  · rcases a.applyAll_newest es' with ⟨e', hnewest', -⟩ | ⟨-, hsame'⟩
    · exact absurd hnewest'.1 (UInt64.not_lt.mpr (htooOld e' (hperm.mem_iff.mpr hnewest'.mem)))
    · rw [hsame, hsame']

end Activity

/-! ### Sessions that apply statuses and are reset -/

/-- What may happen to the activity of a session. -/
inductive StatusStep (τ : Type) where
  | apply (e : StatusEvent)
  | reset (now : Millis)
  /-- Whatever else there is of the session becomes as it is in this one. -/
  | meanwhile (other : Session τ)

namespace StatusStep

variable {τ : Type}

def event? : StatusStep τ → Option StatusEvent
  | apply e => some e
  | _ => none

def isReset : StatusStep τ → Bool
  | reset _ => true
  | _ => false

def events (steps : List (StatusStep τ)) : List StatusEvent :=
  steps.filterMap event?

end StatusStep

namespace Session

open StatusStep

variable {τ : Type}

def heed (s : Session τ) : StatusStep τ → Session τ
  | .apply e => s.applyStatus e
  | .reset now =>
    match s.reset now with
    | .ok (_, s) => s
    | .error _ => s
  | .meanwhile other => { other with activity := s.activity }

def heedAll (s : Session τ) (steps : List (StatusStep τ)) : Session τ :=
  steps.foldl heed s

theorem activity_applyStatus (s : Session τ) (e : StatusEvent) :
    (s.applyStatus e).activity = s.activity.applyAll [e] := by
  unfold applyStatus
  cases h : s.activity.accept? e with
  | none =>
    rw [Activity.applyAll_cons_none h]
    rfl
  | some activity =>
    rw [Activity.applyAll_cons_some h]
    rfl

/-- A step applies an event to the activity, or resets it, or leaves it alone. -/
theorem activity_heed (s : Session τ) (step : StatusStep τ) :
    (s.heed step).activity = s.activity.applyAll step.event?.toList ∨
      step.isReset = true ∧ (s.heed step).activity = s.activity.reset := by
  cases step with
  | apply e => exact .inl (s.activity_applyStatus e)
  | reset now =>
    simp only [heed, reset_eq]
    by_cases he : s.phase = .error
    · rw [if_pos he]
      exact .inr ⟨rfl, rfl⟩
    · rw [if_neg he]
      exact .inl rfl
  | meanwhile other => exact .inl rfl

theorem follows_heedAll {s : Session τ} (h : s.activity.Follows) (steps : List (StatusStep τ)) :
    (s.heedAll steps).activity.Follows := by
  induction steps generalizing s with
  | nil => exact h
  | cons step steps ih =>
    apply ih
    rcases s.activity_heed step with happlied | ⟨-, hreset⟩
    · rw [happlied]
      exact h.applyAll _
    · rw [hreset]
      exact h.reset

theorem statusAt_le_heedAll (s : Session τ) (steps : List (StatusStep τ)) :
    s.activity.statusAt ≤ (s.heedAll steps).activity.statusAt := by
  induction steps generalizing s with
  | nil => exact UInt64.le_refl _
  | cons step steps ih =>
    refine UInt64.le_trans ?_ (ih (s.heed step))
    rcases s.activity_heed step with happlied | ⟨-, hreset⟩
    · rw [happlied]
      exact s.activity.statusAt_le_applyAll _
    · rw [hreset]
      exact UInt64.le_refl _

/-- Without resets the events are applied one after the other. -/
theorem activity_heedAll {s : Session τ} {steps : List (StatusStep τ)}
    (h : ∀ step ∈ steps, step.isReset = false) :
    (s.heedAll steps).activity = s.activity.applyAll (events steps) := by
  induction steps generalizing s with
  | nil => rfl
  | cons step steps ih =>
    have hrest := ih (s := s.heed step) fun x hx => h x (List.mem_cons_of_mem step hx)
    have hstep : (s.heed step).activity = s.activity.applyAll step.event?.toList := by
      rcases s.activity_heed step with happlied | ⟨hreset, -⟩
      · exact happlied
      · rw [h step List.mem_cons_self] at hreset
        cases hreset
    have hevents : events (step :: steps) = step.event?.toList ++ events steps := by
      unfold events
      cases step <;> rfl
    rw [hevents, Activity.applyAll, List.foldl_append]
    rw [hstep] at hrest
    exact hrest

variable [Transport τ]

/-- Whatever statuses a session applies and however often it is reset, it is active just if it
believes that its transport is ready, the flag never changed after the last status applied, and the
time of that status never goes back. Without resets the first of the newest statuses is believed,
unless all are dated at zero, so that the order in which statuses with distinct times arrive does
not matter. -/
theorem statuses_in_any_order (station : Entity) (host : String) (port : UInt16) (transport : τ)
    (settings : Settings) (now : Millis) (steps : List (StatusStep τ)) :
    let fresh := Session.new station host port transport settings now
    let s := fresh.heedAll steps
    (s.isActive = true ↔ s.connection = .ready) ∧
    s.activity.changedAt ≤ s.activity.statusAt ∧
    (∀ n, (fresh.heedAll (steps.take n)).activity.statusAt ≤ s.activity.statusAt) ∧
    ((∀ step ∈ steps, step.isReset = false) →
      ((∃ e, StatusEvent.IsNewest 0 (events steps) e ∧ s.connection = e.status) ∨
        (∀ e ∈ events steps, e.timestamp = 0) ∧ s.connection = .idle) ∧
      ∀ others : List (StatusStep τ), (∀ step ∈ others, step.isReset = false) →
        (events steps).Perm (events others) →
        ((events steps).map StatusEvent.timestamp).Nodup →
        s.connection = (fresh.heedAll others).connection ∧
          s.isActive = (fresh.heedAll others).isActive) := by
  intro fresh s
  have hfollows (steps : List (StatusStep τ)) : (fresh.heedAll steps).activity.Follows :=
    follows_heedAll Activity.Follows.initial steps
  have hactive : s.isActive = (s.connection == .ready) := (hfollows steps).active
  refine ⟨?_, (hfollows steps).changedAt, fun n => ?_, fun hresets => ⟨?_, ?_⟩⟩
  · rw [hactive]
    exact beq_iff_eq
  · have hlater := statusAt_le_heedAll (fresh.heedAll (steps.take n)) (steps.drop n)
    rwa [heedAll, heedAll, ← List.foldl_append, List.take_append_drop, ← heedAll,
      ← heedAll] at hlater
  · have happlied : s.activity = Activity.initial.applyAll (events steps) :=
      activity_heedAll hresets
    rw [connection, happlied]
    rcases Activity.initial.applyAll_newest (events steps) with
      ⟨e, hnewest, hconnection, -⟩ | ⟨htooOld, hsame⟩
    · exact .inl ⟨e, hnewest, hconnection⟩
    · refine .inr ⟨fun e he => ?_, by rw [hsame]; rfl⟩
      exact UInt64.le_antisymm (htooOld e he) UInt64.zero_le
  · intro others hothers hperm hdistinct
    have hconnection : s.connection = (fresh.heedAll others).connection := by
      rw [connection, connection, activity_heedAll hresets, activity_heedAll hothers]
      exact Activity.connection_applyAll_perm hperm hdistinct
    have hothers : (fresh.heedAll others).isActive =
        ((fresh.heedAll others).connection == .ready) := (hfollows others).active
    exact ⟨hconnection, by rw [hactive, hothers, hconnection]⟩

/-! ### The same statuses in two orders -/

def untouched : Session Loopback :=
  .new .anyStation "127.0.0.1" 9394 .auto (.standard "courier") 0

/-- A second status of the greatest time, a late one and one without a time change nothing. -/
def scattered : List (StatusStep Loopback) :=
  [.apply ⟨.connecting, 4⟩, .apply ⟨.ready, 7⟩, .apply ⟨.error, 7⟩,
    .meanwhile { untouched with machine := ⟨⟨.error, 0⟩, false, 0⟩ }, .apply ⟨.idle, 3⟩,
    .apply ⟨.idle, 0⟩]

def early : List (StatusStep Loopback) :=
  [.apply ⟨.connecting, 4⟩, .apply ⟨.idle, 3⟩, .apply ⟨.ready, 7⟩]

def late : List (StatusStep Loopback) :=
  [.apply ⟨.ready, 7⟩, .apply ⟨.connecting, 4⟩, .apply ⟨.idle, 3⟩]

theorem statuses_in_any_order_early_late :
    ((∀ step ∈ early, step.isReset = false) ∧ (∀ step ∈ late, step.isReset = false) ∧
      (events early).Perm (events late) ∧
      ((events early).map StatusEvent.timestamp).Nodup) ∧
    (untouched.heedAll early).connection = (untouched.heedAll late).connection ∧
    (untouched.heedAll early).isActive = true ∧ (untouched.heedAll late).isActive = true ∧
    (untouched.heedAll scattered).isActive = true ∧
    (untouched.heedAll (scattered ++ [.reset 9])).isActive = false := by
  have hearly : ∀ step ∈ early, step.isReset = false := by simp [early, isReset]
  have hlate : ∀ step ∈ late, step.isReset = false := by simp [late, isReset]
  have hperm : (events early).Perm (events late) := by decide +kernel
  have hdistinct : ((events early).map StatusEvent.timestamp).Nodup := by decide +kernel
  have order (steps : List (StatusStep Loopback)) :=
    statuses_in_any_order .anyStation "127.0.0.1" 9394 Loopback.auto (.standard "courier") 0 steps
  obtain ⟨hconnection, hactive⟩ := ((order early).2.2.2 hearly).2 late hlate hperm hdistinct
  have hready : (untouched.heedAll early).isActive = true := (order early).1.mpr (by decide +kernel)
  refine ⟨⟨hearly, hlate, hperm, hdistinct⟩, hconnection, hready, hactive.symm.trans hready,
    (order scattered).1.mpr (by decide +kernel), ?_⟩
  have hidle : (untouched.heedAll (scattered ++ [.reset 9])).connection = .idle := by decide +kernel
  obtain ⟨hactive, -⟩ := order (scattered ++ [.reset 9])
  rw [← Bool.not_eq_true]
  intro h
  cases hidle.symm.trans (hactive.mp h)

end Session

end Courier
