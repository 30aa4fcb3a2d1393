import Courier.Proofs.Session.Runs
import Courier.Transport.Loopback

/-!
# The path of a session

The transitions that an observer hears of and the resets from outside lead from one stage to the
next, with no stage changed in between. A pause holds back what iterations do, and not a reset.
-/

namespace Courier

/-- Transitions that lead from one stage to another, each going on where the last one ended. -/
inductive Stage.Path : Stage → List Transition → Stage → Prop where
  | nil (s : Stage) : Path s [] s
  | cons {t : Transition} {ts : List Transition} {s : Stage} (h : Path t.target ts s) :
      Path t.source (t :: ts) s

namespace Stage.Path

variable {a b c : Stage} {ts us : List Transition}

theorem append (h : Path a ts b) (h' : Path b us c) : Path a (ts ++ us) c := by
  induction h with
  | nil => exact h'
  | cons _ ih => exact .cons (ih h')

theorem single (t : Transition) : Path t.source [t] t.target := .cons (.nil _)

end Stage.Path

/-- A change of stage. -/
inductive Moment where
  /-- An iteration made a transition; what it saw of the session, and whether that was paused. -/
  | made (t : Transition) (seen : Snapshot) (paused : Bool)
  | reset (t : Transition)
  deriving DecidableEq

namespace Moment

def transition : Moment → Transition
  | made t _ _ => t
  | reset t => t

def made? : Moment → Option Transition
  | made t _ _ => some t
  | reset _ => none

def Lawful (timeout : Millis) : Moment → Prop
  | made t seen paused =>
    paused = false ∧
    t.source.phase ≠ .error ∧
    t.source.detect? seen t.target.enteredAt timeout = some t.event ∧
    t.source.phase.follow? t.event = some (t.target.phase, t.effect) ∧
    (t.target.phase = .running → t.source.phase = .handshaking ∧
      seen.connection = .ready ∧ seen.hasKey = true ∧ seen.transportFailed = false)
  | reset t =>
    t.source.phase = .error ∧
    t.event = .reset ∧
    t.source.phase.follow? .reset = some (t.target.phase, t.effect)

end Moment

def Report.isMove : Report → Bool
  | .before _ => true
  | .after _ => true
  | _ => false

/-- What was reset when nothing else may have changed the stage. -/
def Stage.resetTo (a b : Stage) : List Transition :=
  if b = a then [] else [⟨a, b, .reset, .none⟩]

/-! ### Transitions -/

theorem Phase.follow?_running {p : Phase} {event : LifecycleEvent} {effect : Effect}
    (h : p.follow? event = some (.running, effect)) : p = .handshaking ∧ event = .keyAccepted := by
  revert h
  cases p <;> cases event <;> simp [Phase.follow?]

theorem Stage.detect?_error {stage : Stage} {seen : Snapshot} {now timeout : Millis}
    (h : stage.phase = .error) : stage.detect? seen now timeout = none := by
  simp [detect?, h]

theorem Stage.detect?_keyAccepted {stage : Stage} {seen : Snapshot} {now timeout : Millis}
    (h : stage.detect? seen now timeout = some .keyAccepted) :
    seen.connection = .ready ∧ seen.hasKey = true ∧ seen.transportFailed = false := by
  by_cases hb : seen.isBroken = true
  · cases hp : stage.phase <;> simp [detect?, hb, hp] at h
  · have hfailed : seen.transportFailed = false := by
      cases hf : seen.transportFailed with
      | false => rfl
      | true => exact absurd (by simp [Snapshot.isBroken, hf]) hb
    by_cases hr : seen.isReady = true
    · by_cases hk : seen.hasKey = true
      · exact ⟨by simpa [Snapshot.isReady] using hr, hk, hfailed⟩
      · cases hp : stage.phase <;> simp [detect?, hb, hr, hk, hp] at h
    · cases hp : stage.phase <;> simp [detect?, hb, hr, hp] at h

theorem Session.evaluate?_eq_some {τ : Type} {s : Session τ} {now : Millis} {t : Transition}
    (h : s.evaluate? now = some t) :
    t.source = s.stage ∧ (Moment.made t s.snapshot s.isPaused).Lawful s.machine.handshakeTimeout := by
  unfold Session.evaluate? Machine.evaluate? at h
  split at h
  · cases h
  · rename_i hp
    obtain ⟨event, hd, h⟩ := Option.bind_eq_some_iff.mp h
    obtain ⟨⟨phase, effect⟩, hf, rfl⟩ := Option.map_eq_some_iff.mp h
    have herror : s.machine.stage.phase ≠ .error := by
      intro he
      rw [Stage.detect?_error he] at hd
      cases hd
    refine ⟨rfl, by simpa [Session.isPaused] using hp, herror, hd, hf, ?_⟩
    intro (hrun : phase = .running)
    subst hrun
    obtain ⟨hsource, rfl⟩ := Phase.follow?_running hf
    exact ⟨hsource, Stage.detect?_keyAccepted hd⟩

theorem Session.enteredAt_of_evaluate? {τ : Type} {s : Session τ} {now : Millis} {t : Transition}
    (h : s.evaluate? now = some t) : t.target.enteredAt = now := by
  unfold Session.evaluate? Machine.evaluate? at h
  split at h
  · cases h
  · obtain ⟨event, -, h⟩ := Option.bind_eq_some_iff.mp h
    obtain ⟨target, -, rfl⟩ := Option.map_eq_some_iff.mp h
    rfl

theorem Session.evaluate?_of_paused {τ : Type} {s : Session τ} {now : Millis} (h : s.isPaused) :
    s.evaluate? now = none :=
  if_pos h

theorem Phase.follow?_reset (p : Phase) :
    p.follow? .reset = if p = .error then some (.default, .none) else none := by
  cases p <;> rfl

namespace Session

variable {τ : Type}

/-- Only a failed session can be reset, paused or not. -/
theorem reset_eq (s : Session τ) (now : Millis) : s.reset now =
    if s.phase = .error then
      .ok (⟨s.stage, ⟨.default, now⟩, .reset, .none⟩,
        { s.enter ⟨.default, now⟩ with
          transportFailed := false
          activity := s.activity.reset
          key := none })
    else .error (.invalidTransition s.phase .default) := by
  unfold reset Machine.reset Machine.transition?
  rw [Phase.follow?_reset]
  by_cases h : s.machine.stage.phase = .error
  · simp [h, phase, Machine.commit, Except.map, stage, enter]
  · simp [h, phase, Except.map]

def reset? (s : Session τ) : SessionCall τ → Option Transition
  | .reset now => (s.reset now).toOption.map Prod.fst
  | _ => none

theorem reset?_eq_some {s : Session τ} {c : SessionCall τ} {t : Transition}
    (h : s.reset? c = some t) :
    s.phase = .error ∧ ∃ now, c = .reset now ∧ t = ⟨s.stage, ⟨.default, now⟩, .reset, .none⟩ := by
  cases c with
  | reset now =>
    by_cases he : s.phase = .error
    · simp only [reset?, reset_eq, he, if_true] at h
      cases h
      exact ⟨he, now, rfl, rfl⟩
    · simp only [reset?, reset_eq, he, if_false] at h
      cases h
  | _ => cases h

theorem lawful_reset? {s : Session τ} {c : SessionCall τ} {t : Transition}
    (h : s.reset? c = some t) (timeout : Millis) : (Moment.reset t).Lawful timeout := by
  obtain ⟨he, now, rfl, rfl⟩ := reset?_eq_some h
  exact ⟨he, rfl, (Phase.follow?_reset _).trans (if_pos he)⟩

variable [Transport τ]

/-- Calls change the machine only by pausing, resuming and resetting. -/
theorem machine_call (s : Session τ) (c : SessionCall τ) : (s.call c).machine =
    match c with
    | .pause => s.machine.pause
    | .resume => s.machine.resume
    | .reset now => if s.phase = .error then (s.enter ⟨.default, now⟩).machine else s.machine
    | _ => s.machine := by
  cases c with
  | setIdentity identity =>
    simp only [call, setIdentity]
    split <;> rfl
  | setKey key =>
    simp only [call, setKey]
    split <;> rfl
  | connect => simp only [call, connect_snd]
  | reset now =>
    simp only [call, reset_eq]
    by_cases h : s.phase = .error <;> simp [h]
  | _ => rfl

theorem timeout_call (s : Session τ) (c : SessionCall τ) :
    (s.call c).machine.handshakeTimeout = s.machine.handshakeTimeout := by
  rw [machine_call]
  cases c with
  | reset now =>
    dsimp only
    split <;> rfl
  | _ => rfl

theorem timeout_calls (s : Session τ) (cs : List (SessionCall τ)) :
    (s.calls cs).machine.handshakeTimeout = s.machine.handshakeTimeout := by
  induction cs generalizing s with
  | nil => rfl
  | cons c cs ih => exact (ih (s.call c)).trans (s.timeout_call c)

theorem stage_call (s : Session τ) (c : SessionCall τ) :
    (s.call c).stage = ((s.reset? c).map Transition.target).getD s.stage := by
  rw [stage, machine_call]
  cases c with
  | reset now =>
    simp only [reset?, reset_eq]
    split <;> rfl
  | _ => rfl

theorem path_call (s : Session τ) (c : SessionCall τ) :
    Stage.Path s.stage (s.reset? c).toList (s.call c).stage := by
  rw [stage_call]
  cases h : s.reset? c with
  | none => exact .nil _
  | some t =>
    obtain ⟨-, now, -, rfl⟩ := reset?_eq_some h
    exact .single ⟨s.stage, ⟨.default, now⟩, .reset, .none⟩

def resets (s : Session τ) : List (SessionCall τ) → List Transition
  | [] => []
  | c :: cs => (s.reset? c).toList ++ (s.call c).resets cs

theorem calls_of_ne_error (s : Session τ) (cs : List (SessionCall τ)) (h : s.phase ≠ .error) :
    s.resets cs = [] ∧ (s.calls cs).stage = s.stage := by
  induction cs generalizing s with
  | nil => exact ⟨rfl, rfl⟩
  | cons c cs ih =>
    have hr : s.reset? c = none := by
      cases hr : s.reset? c with
      | none => rfl
      | some t => exact absurd (reset?_eq_some hr).1 h
    have hs : (s.call c).stage = s.stage := by rw [stage_call, hr]; rfl
    obtain ⟨hrs, hss⟩ := ih (s.call c) (by rwa [phase, ← stage, hs])
    exact ⟨by rw [resets, hr, hrs]; rfl, hss.trans hs⟩

/-- Among calls at most one reset succeeds, and the stages show whether one did. -/
theorem resets_eq (s : Session τ) (cs : List (SessionCall τ)) :
    s.resets cs = s.stage.resetTo (s.calls cs).stage := by
  induction cs generalizing s with
  | nil => simp [resets, calls, Stage.resetTo]
  | cons c cs ih =>
    have hs := s.stage_call c
    cases hr : s.reset? c with
    | none =>
      rw [hr] at hs
      rw [resets, hr, ih, hs]
      rfl
    | some t =>
      obtain ⟨he, now, -, rfl⟩ := reset?_eq_some hr
      rw [hr] at hs
      have hne : (s.call c).phase ≠ .error := by
        rw [phase, ← stage, hs]
        intro h
        cases h
      obtain ⟨hrs, hss⟩ := (s.call c).calls_of_ne_error cs hne
      have hend : (s.calls (c :: cs)).stage = ⟨.default, now⟩ := hss.trans hs
      have hmoved : (⟨.default, now⟩ : Stage) ≠ s.stage := by
        intro heq
        rw [phase, ← stage, ← heq] at he
        cases he
      rw [resets, hr, hrs, hend, Stage.resetTo, if_neg hmoved]
      rfl

/-- Calls reset a session at most once, and only a failed one. -/
theorem path_calls (s : Session τ) (cs : List (SessionCall τ)) :
    Stage.Path s.stage (s.stage.resetTo (s.calls cs).stage) (s.calls cs).stage ∧
      ∀ t ∈ s.stage.resetTo (s.calls cs).stage, ∀ timeout, (Moment.reset t).Lawful timeout := by
  rw [← resets_eq]
  induction cs generalizing s with
  | nil => exact ⟨.nil _, fun _ ht => nomatch ht⟩
  | cons c cs ih =>
    obtain ⟨hpath, hlaw⟩ := ih (s.call c)
    refine ⟨(s.path_call c).append hpath, fun t ht => ?_⟩
    rcases List.mem_append.mp ht with ht | ht
    · exact lawful_reset? (Option.mem_toList.mp ht)
    · exact hlaw t ht

end Session

namespace Watched

variable {τ σ : Type}

def moves (w : Watched τ σ) : List Report :=
  w.reports.filter Report.isMove

structure Rests (w w' : Watched τ σ) : Prop where
  stage : w'.session.stage = w.session.stage
  timeout : w'.session.machine.handshakeTimeout = w.session.machine.handshakeTimeout
  moves : w'.moves = w.moves

theorem Rests.trans {w₁ w₂ w₃ : Watched τ σ} (h : w₁.Rests w₂) (h' : w₂.Rests w₃) :
    w₁.Rests w₃ :=
  ⟨h'.stage.trans h.stage, h'.timeout.trans h.timeout, h'.moves.trans h.moves⟩

/-- Some changes of stage are the ones between two moments. -/
structure Passes (w : Watched τ σ) (ms : List Moment) (w' : Watched τ σ) : Prop where
  path : Stage.Path w.session.stage (ms.map Moment.transition) w'.session.stage
  lawful : ∀ m ∈ ms, m.Lawful w.session.machine.handshakeTimeout
  timeout : w'.session.machine.handshakeTimeout = w.session.machine.handshakeTimeout
  moves : w'.moves =
    w.moves ++ (ms.filterMap Moment.made?).flatMap fun t => [.before t, .after t]

theorem Rests.passes {w w' : Watched τ σ} (h : w.Rests w') : w.Passes [] w' where
  path := h.stage ▸ .nil _
  lawful := fun _ hm => nomatch hm
  timeout := h.timeout
  moves := h.moves.trans (List.append_nil _).symm

theorem Passes.trans {w₁ w₂ w₃ : Watched τ σ} {ms ns : List Moment} (h : w₁.Passes ms w₂)
    (h' : w₂.Passes ns w₃) : w₁.Passes (ms ++ ns) w₃ where
  path := List.map_append ▸ h.path.append h'.path
  lawful := fun m hm => by
    rcases List.mem_append.mp hm with hm | hm
    · exact h.lawful m hm
    · exact h.timeout ▸ h'.lawful m hm
  timeout := h'.timeout.trans h.timeout
  moves := by
    rw [h'.moves, h.moves, List.filterMap_append, List.flatMap_append, List.append_assoc]

theorem rests_of_machine {w : Watched τ σ} {s : Session τ} {x : σ} {rs : List Report}
    (hm : s.machine = w.session.machine) (hr : ∀ r ∈ rs, r.isMove = false) :
    w.Rests ⟨s, x, w.reports ++ rs⟩ := by
  refine ⟨congrArg Machine.stage hm, congrArg Machine.handshakeTimeout hm, ?_⟩
  have hnil : rs.filter Report.isMove = [] :=
    List.filter_eq_nil_iff.mpr fun r h => by simp [hr r h]
  rw [moves, moves, List.filter_append, hnil, List.append_nil]

theorem rests_retry (o : Observer τ σ) (now : Millis) (e : QueueEntry) (reason : String)
    (w : Watched τ σ) : w.Rests (w.retry o now e reason) := by
  unfold retry
  dsimp only
  split
  · exact ⟨rfl, rfl, rfl⟩
  · exact rests_of_machine rfl (by simp [Report.isMove])

theorem rests_purge (o : Observer τ σ) (now : Millis) (w : Watched τ σ) :
    w.Rests (w.purge o now) := by
  obtain ⟨x, hx⟩ := failAll_eq o "expired"
    { w with session := { w.session with queue := (w.session.queue.purge now).2 } }
    (w.session.queue.purge now).1
  unfold purge
  dsimp only
  rw [hx]
  exact rests_of_machine rfl (by simp [Report.isMove])

variable [Transport τ]

theorem rests_foldStatuses (w : Watched τ σ) :
    w.Rests { w with session := w.session.foldStatuses } := by
  obtain ⟨activity, failed, cursor, h⟩ := w.session.foldStatuses_eq
  rw [h]
  exact ⟨rfl, rfl, rfl⟩

theorem rests_dispatch (o : Observer τ σ) (now : Millis) (e : QueueEntry) (w : Watched τ σ) :
    w.Rests (w.dispatch o now e) := by
  have hpush : w.Rests { w with session := (w.session.push e).2 } := by
    rw [Session.push_snd]
    exact ⟨rfl, rfl, rfl⟩
  unfold dispatch
  dsimp only
  split
  · exact hpush.trans (rests_of_machine rfl (by simp [Report.isMove]))
  · exact hpush.trans (rests_retry o now e _ _)
  · exact hpush.trans (rests_retry o now e _ _)

theorem rests_send (o : Observer τ σ) (now : Millis) (w : Watched τ σ) :
    w.Rests (w.send o now).2 := by
  unfold send
  split
  · cases h : w.session.queue.next now with
    | none => exact rests_purge o now w
    | some taken =>
      obtain ⟨e, queue⟩ := taken
      have hheld : w.Rests { w with session := { w.session with queue := queue } } :=
        ⟨rfl, rfl, rfl⟩
      exact hheld.trans (rests_dispatch o now e _)
  · exact rests_purge o now w

section Iterations

variable {o : Observer τ σ} (ho : o.OnlyCalls)
include ho

theorem rests_pump {w : Watched τ σ} (h : w.session.phase ≠ .error) : w.Rests (w.pump o).2 := by
  obtain ⟨cs, x, ps, hp⟩ := pump_eq ho w
  have hm : w.session.poll.2.takePackets.2.machine = w.session.machine := by
    simp only [Session.takePackets, Session.poll_snd]
  have hpolled : w.Rests ⟨w.session.poll.2.takePackets.2, x,
      w.reports ++ ps.map (.received ·.payload)⟩ :=
    rests_of_machine hm (by simp [Report.isMove])
  rw [hp]
  refine hpolled.trans ⟨?_, Session.timeout_calls _ cs, rfl⟩
  refine (Session.calls_of_ne_error _ cs ?_).2
  rwa [Session.phase, hm]

/-- The stage changes no more once an iteration has made its move. -/
theorem rests_move_iterate (now : Millis) {w : Watched τ σ} (h : ¬w.session.foldStatuses.isPaused) :
    (({ w with session := w.session.foldStatuses } : Watched τ σ).move o now).Rests
      (w.iterate o now).2 := by
  simp only [iterate, h, Bool.false_eq_true, if_false]
  generalize ({ w with session := w.session.foldStatuses } : Watched τ σ).move o now = moved
  by_cases he : moved.session.phase = .error
  · simpa only [he, if_true] using rests_send o now moved
  · have hpump := rests_pump ho he
    simp only [he, if_false]
    split
    · exact hpump
    · exact hpump.trans (rests_send o now _)

end Iterations

/-- The changes of stage that a step makes. Within an iteration the observer may reset the session
that just failed. -/
def moments (o : Observer τ σ) (w : Watched τ σ) : SessionStep τ → List Moment
  | .call c => (w.session.reset? c).toList.map .reset
  | .iterate now =>
    let s := w.session.foldStatuses
    match s.evaluate? now with
    | none => []
    | some t =>
      .made t s.snapshot s.isPaused ::
        (t.target.resetTo (w.iterate o now).2.session.stage).map .reset

def momentsAll (o : Observer τ σ) (w : Watched τ σ) : List (SessionStep τ) → List Moment
  | [] => []
  | s :: steps => w.moments o s ++ (w.step o s).momentsAll o steps

theorem evaluate?_of_moment {o : Observer τ σ} {w : Watched τ σ} {now : Millis} {t : Transition}
    {seen : Snapshot} {paused : Bool} (h : .made t seen paused ∈ w.moments o (.iterate now)) :
    w.session.foldStatuses.evaluate? now = some t := by
  simp only [moments] at h
  split at h
  · cases h
  · rename_i ht
    rcases List.mem_cons.mp h with hmade | hreset
    · rw [ht, (Moment.made.inj hmade).1]
    · obtain ⟨r, -, hr⟩ := List.mem_map.mp hreset
      cases hr

theorem passes_calls (s : Session τ) (cs : List (SessionCall τ)) (x y : σ) (rs : List Report) :
    (⟨s, x, rs⟩ : Watched τ σ).Passes ((s.stage.resetTo (s.calls cs).stage).map .reset)
      ⟨s.calls cs, y, rs⟩ := by
  obtain ⟨hpath, hlaw⟩ := s.path_calls cs
  refine ⟨?_, ?_, s.timeout_calls cs, ?_⟩
  · simpa [Function.comp_def, Moment.transition] using hpath
  · intro m hm
    obtain ⟨t, ht, rfl⟩ := List.mem_map.mp hm
    exact hlaw t ht _
  · simp [moves, List.filterMap_map, Moment.made?, Function.comp_def]

section Runs

variable {o : Observer τ σ} (ho : o.OnlyCalls)
include ho

theorem passes_step (w : Watched τ σ) (s : SessionStep τ) :
    w.Passes (w.moments o s) (w.step o s) := by
  cases s with
  | call c =>
    have h := passes_calls w.session [c] w.observer w.observer w.reports
    rw [← Session.resets_eq, Session.resets, Session.resets, List.append_nil] at h
    exact h
  | iterate now =>
    have hfold := rests_foldStatuses w
    by_cases hp : w.session.foldStatuses.isPaused
    · simpa [moments, Session.evaluate?_of_paused hp, step, iterate, hp] using hfold.passes
    · have hrest := rests_move_iterate ho now hp
      cases ht : w.session.foldStatuses.evaluate? now with
      | none =>
        simp only [move, ht] at hrest
        simpa [moments, ht, step] using (hfold.trans hrest).passes
      | some t =>
        obtain ⟨cs, x, hm⟩ := move_eq (w := { w with session := w.session.foldStatuses }) ho ht
        obtain ⟨hsource, hlaw⟩ := Session.evaluate?_eq_some ht
        rw [hm] at hrest
        have hmade : ({ w with session := w.session.foldStatuses } : Watched τ σ).Passes
            [.made t w.session.foldStatuses.snapshot w.session.foldStatuses.isPaused]
            ⟨w.session.foldStatuses.enter t.target, x, w.reports ++ [.before t, .after t]⟩ := by
          refine ⟨hsource ▸ .single t, ?_, rfl, List.filter_append _ _⟩
          intro m h
          rw [List.mem_singleton.mp h]
          exact hlaw
        have hcalls := passes_calls (w.session.foldStatuses.enter t.target) cs x x
          (w.reports ++ [.before t, .after t])
        have hall := ((hfold.passes.trans hmade).trans hcalls).trans hrest.passes
        rw [List.nil_append, List.append_nil] at hall
        simp only [moments, ht]
        rw [hrest.stage]
        exact hall

/-- A transition that an iteration reports is the one that the session called for. -/
theorem evaluate?_of_reported {w : Watched τ σ} {now : Millis} {t : Transition}
    (h : .after t ∈ (w.iterate o now).2.reports) (hnew : .after t ∉ w.reports) :
    w.session.foldStatuses.evaluate? now = some t := by
  have hmoves := (passes_step ho w (.iterate now)).moves
  have hmem : .after t ∈ (w.step o (.iterate now)).moves := List.mem_filter.mpr ⟨h, rfl⟩
  rw [hmoves] at hmem
  rcases List.mem_append.mp hmem with hold | hmem
  · exact absurd (List.mem_filter.mp hold).1 hnew
  · obtain ⟨t', ht', hreport⟩ := List.mem_flatMap.mp hmem
    obtain ⟨m, hm, hmade⟩ := List.mem_filterMap.mp ht'
    obtain rfl : t = t' := by simpa using hreport
    cases m with
    | made t'' seen paused =>
      obtain rfl := Option.some.inj hmade
      exact evaluate?_of_moment hm
    | reset r => cases hmade

theorem passes_run (w : Watched τ σ) (steps : List (SessionStep τ)) :
    w.Passes (w.momentsAll o steps) (w.run o steps) := by
  induction steps generalizing w with
  | nil => exact ⟨.nil _, (fun _ hm => nomatch hm), rfl, (List.append_nil _).symm⟩
  | cons s steps ih => exact (passes_step ho w s).trans (ih (w.step o s))

/-- Through every run of a session, the transitions that were reported and the resets lead on one
unbroken path from the default phase to where the session is. Each follows the table; a reported
one was called for by what the session looked like, in a session that was not paused and had not
failed, and leads to the running phase only from the handshake of a ready session with a key and
without a failure; only a reset leads out of the error phase. -/
theorem path_from_default (station : Entity) (host : String) (port : UInt16) (transport : τ)
    (settings : Settings) (now : Millis) (x : σ) (steps : List (SessionStep τ)) :
    let w₀ := start station host port transport settings now x
    let w := w₀.run o steps
    let ms := w₀.momentsAll o steps
    Stage.Path ⟨.default, now⟩ (ms.map Moment.transition) w.session.stage ∧
    (∀ m ∈ ms, m.Lawful settings.handshakeTimeout) ∧
    w.moves = (ms.filterMap Moment.made?).flatMap fun t => [.before t, .after t] := by
  intro w₀ w ms
  have h := passes_run ho (start station host port transport settings now x) steps
  exact ⟨h.path, h.lawful, h.moves⟩

end Runs

/-- A session that fails in the handshake, is paused and reset, and connects again
after the pause. -/
def resetInPause : List (SessionStep Loopback) :=
  [.call (.setIdentity (some ⟨"alice", "moky", .user⟩)), .iterate 1, .iterate 2, .iterate 3,
    .call .markFailed, .iterate 10, .call .pause,
    .call (.reset 11), .iterate 12, .call .resume, .iterate 13]

theorem path_from_default_resetInPause :
    let w₀ : Watched Loopback Unit := start ⟨"gsp", "any", .station⟩ "127.0.0.1" 9394 .auto
      (.standard "courier") 0 ()
    (Observer.connecting : Observer Loopback Unit).OnlyCalls ∧
    (w₀.momentsAll .connecting resetInPause).length = 6 ∧
    Stage.Path ⟨.default, 0⟩ ((w₀.momentsAll .connecting resetInPause).map Moment.transition)
      (w₀.run .connecting resetInPause).session.stage := by
  intro w₀
  exact ⟨Observer.onlyCalls_connecting, by decide +kernel,
    (path_from_default Observer.onlyCalls_connecting ⟨"gsp", "any", .station⟩ "127.0.0.1" 9394
      .auto (.standard "courier") 0 () resetInPause).1⟩

/-- A pause does not hold back a reset. -/
theorem not_still_while_paused : ¬ ∀ (steps : List (SessionStep Loopback)) (s : SessionStep Loopback),
    let w := (start ⟨"gsp", "any", .station⟩ "127.0.0.1" 9394 Loopback.auto
      (.standard "courier") 0 () : Watched Loopback Unit).run .connecting steps
    w.session.isPaused → w.moments .connecting s = [] := by
  intro h
  have hreset := h (resetInPause.take 7) (.call (.reset 11)) (by decide +kernel)
  revert hreset
  decide +kernel

end Watched

end Courier
