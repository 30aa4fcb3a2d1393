import Courier.Proofs.Session.Contacts
import Courier.Transport.Faulty
import Mathlib.Data.List.Induction
import Mathlib.Tactic.Choose

/-!
# Failures of a session

A session learns of a failure of its transport in four ways: from a status, and from the answer to
a connect, a poll or a push. What a run shows of its failures, its transitions and its resets is
written down in the order in which it happens, and the failure flag of the session is a function
of that record. So a failure stands until the next reset, whatever else happens in between.
-/

namespace Courier

/-- Something that the session takes for a failure of its transport. -/
inductive Failure where
  /-- A status that was applied. -/
  | status (e : StatusEvent)
  | connect (e : TransportError)
  | poll (e : TransportError)
  | push (e : TransportError)
  /-- A failure that somebody else reports. -/
  | marked
  deriving DecidableEq

inductive Incident where
  | failure (f : Failure)
  /-- An iteration made a transition. -/
  | made (t : Transition)
  | reset (t : Transition)
  deriving DecidableEq

namespace Incident

def transition? : Incident → Option Transition
  | failure _ => none
  | made t => some t
  | reset t => some t

def made? : Incident → Option Transition
  | made t => some t
  | _ => none

/-- Whether a failure stands after an incident. -/
def follow (standing : Bool) : Incident → Bool
  | failure _ => true
  | made _ => standing
  | reset _ => false

def standing (b : Bool) (is : List Incident) : Bool :=
  is.foldl follow b

/-- No transition but one into the error phase is made while a failure stands. -/
def Heeded : Bool → List Incident → Prop
  | _, [] => True
  | b, i :: is => (∀ t, i = made t → b = true → t.target.phase = .error) ∧ Heeded (follow b i) is

/-- A failure with no reset after it. -/
def Unreset (is : List Incident) : Prop :=
  ∃ before f after, is = before ++ failure f :: after ∧ ∀ t, reset t ∉ after

@[simp] theorem standing_nil (b : Bool) : standing b [] = b := rfl

@[simp] theorem standing_cons (b : Bool) (i : Incident) (is : List Incident) :
    standing b (i :: is) = standing (follow b i) is := rfl

@[simp] theorem standing_append (b : Bool) (is js : List Incident) :
    standing b (is ++ js) = standing (standing b is) js :=
  List.foldl_append

theorem heeded_append {b : Bool} {is js : List Incident} :
    Heeded b (is ++ js) ↔ Heeded b is ∧ Heeded (standing b is) js := by
  induction is generalizing b with
  | nil => simp [Heeded]
  | cons i is ih => simp [Heeded, ih, and_assoc]

/-- Failures ask for nothing to be heeded. -/
theorem heeded_of_failures {is : List Incident} (h : ∀ i ∈ is, i.made? = none) (b : Bool) :
    Heeded b is := by
  induction is generalizing b with
  | nil => trivial
  | cons i is ih =>
    refine ⟨?_, ih (fun j hj => h j (List.mem_cons_of_mem i hj)) _⟩
    rintro t rfl
    cases h _ List.mem_cons_self

theorem standing_of_no_reset {is : List Incident} (h : ∀ t, reset t ∉ is) : standing true is := by
  induction is with
  | nil => rfl
  | cons i is ih =>
    have hi : follow true i = true := by
      cases i with
      | reset t => exact absurd List.mem_cons_self (h t)
      | _ => rfl
    rw [standing_cons, hi]
    exact ih fun t ht => h t (List.mem_cons_of_mem i ht)

/-- Between a failure and the next reset, every transition leads into the error phase. -/
theorem Heeded.made_after_failure {before between after : List Incident} {f : Failure}
    {t : Transition} {b : Bool}
    (h : Heeded b (before ++ failure f :: (between ++ made t :: after)))
    (hreset : ∀ r, reset r ∉ between) : t.target.phase = .error := by
  obtain ⟨-, -, hrest⟩ := heeded_append.mp h
  obtain ⟨-, hmade, -⟩ := heeded_append.mp hrest
  exact hmade t rfl (standing_of_no_reset hreset)

theorem filterMap_toList (f : Incident → Option Transition) (i? : Option Incident) :
    i?.toList.filterMap f = (i?.bind f).toList := by
  cases i? with
  | none => rfl
  | some i => cases h : f i <;> simp [h]

/-- Without a failure to begin with, one stands just if one has happened since the last reset. -/
theorem standing_eq_true {is : List Incident} : standing false is = true ↔ Unreset is := by
  constructor
  · intro h
    induction is using List.reverseRecOn with
    | nil => cases h
    | append_singleton is i ih =>
      rw [standing_append, standing_cons, standing_nil] at h
      cases i with
      | failure f => exact ⟨is, f, [], rfl, fun _ => List.not_mem_nil⟩
      | made t =>
        obtain ⟨before, f, after, rfl, hno⟩ := ih h
        exact ⟨before, f, after ++ [made t], by simp, by simpa using hno⟩
      | reset t => cases h
  · rintro ⟨before, f, after, rfl, hno⟩
    rw [standing_append, standing_cons]
    exact standing_of_no_reset hno

end Incident

/-- The transition that a failure calls for. -/
def Stage.retreat? (stage : Stage) (now : Millis) : Option Transition :=
  if stage.phase = .error then none
  else some ⟨stage, ⟨.error, now⟩,
    if stage.phase = .connecting then .connectFailed else .connectionLost, .resetFreshness⟩

theorem Stage.target_of_retreat? {stage : Stage} {now : Millis} {t : Transition}
    (h : stage.retreat? now = some t) : t.target.phase = .error := by
  unfold retreat? at h
  split at h
  · cases h
  · obtain rfl := Option.some.inj h
    rfl

/-! ### What is observed -/

/-- The errors among statuses, as far as they are applied. -/
def Activity.alarms (a : Activity) : List StatusEvent → List StatusEvent
  | [] => []
  | e :: es =>
    match a.accept? e with
    | none => a.alarms es
    | some b => (if e.status = .error then [e] else []) ++ b.alarms es

namespace Session

variable {τ : Type} [Transport τ]

/-- The errors among the statuses that wait for the next iteration. -/
def alarms (s : Session τ) : List Incident :=
  (s.activity.alarms ((Transport.statusEvents s.transport).waiting s.statusCursor)).map fun e =>
    .failure (.status e)

def incident? (s : Session τ) : SessionCall τ → Option Incident
  | .markFailed => some (.failure .marked)
  | .connect =>
    match s.connect.1 with
    | .ok () => none
    | .error e => some (.failure (.connect e))
  | c => (s.reset? c).map .reset

def incidents (s : Session τ) : List (SessionCall τ) → List Incident
  | [] => []
  | c :: cs => (s.incident? c).toList ++ (s.call c).incidents cs

/-- The failure of the next poll. -/
def pollFailure? (s : Session τ) : Option Incident :=
  match (Transport.poll s.transport).1 with
  | .ok _ => none
  | .error e => some (.failure (.poll e))

/-! ### The flag follows -/

theorem transportFailed_foldStatuses (s : Session τ) :
    s.foldStatuses.transportFailed = Incident.standing s.transportFailed s.alarms := by
  unfold foldStatuses alarms Channel.drain
  generalize (Transport.statusEvents s.transport).waiting s.statusCursor = events
  suffices ∀ (events : List StatusEvent) (s : Session τ),
      (events.foldl applyStatus s).transportFailed = Incident.standing s.transportFailed
        ((s.activity.alarms events).map fun e => .failure (.status e)) from
    this events { s with statusCursor := (Transport.statusEvents s.transport).subscribe }
  intro events
  induction events with
  | nil => exact fun _ => rfl
  | cons e events ih =>
    intro s
    refine (ih (s.applyStatus e)).trans ?_
    cases h : s.activity.accept? e with
    | none => simp [applyStatus, Activity.alarms, h]
    | some activity =>
      by_cases he : e.status = .error
      · simp [applyStatus, Activity.alarms, h, he, Incident.follow]
      · simp [applyStatus, Activity.alarms, h, he, beq_eq_false_iff_ne.mpr he]

theorem transportFailed_call (s : Session τ) (c : SessionCall τ) :
    (s.call c).transportFailed = Incident.standing s.transportFailed (s.incident? c).toList := by
  cases c with
  | setIdentity identity =>
    simp only [call, setIdentity]
    split <;> rfl
  | setKey key =>
    simp only [call, setKey]
    split <;> rfl
  | connect =>
    unfold call connect incident? connect
    rcases Transport.connect s.transport s.remote with ⟨_ | _, t⟩ <;> rfl
  | reset now =>
    simp only [call, incident?, reset?, reset_eq]
    by_cases he : s.phase = .error <;> simp [he, Except.toOption, Incident.follow]
  | _ => rfl

theorem transition?_incident? (s : Session τ) (c : SessionCall τ) :
    (s.incident? c).bind Incident.transition? = s.reset? c := by
  cases c with
  | connect =>
    simp only [incident?]
    split <;> rfl
  | reset now =>
    simp only [incident?, reset?, Option.map_map, Option.bind_map]
    cases (s.reset now).toOption <;> rfl
  | _ => rfl

theorem made?_incident? (s : Session τ) (c : SessionCall τ) :
    (s.incident? c).bind Incident.made? = none := by
  cases c with
  | connect =>
    simp only [incident?]
    split <;> rfl
  | reset now =>
    simp only [incident?, reset?, Option.map_map, Option.bind_map]
    cases (s.reset now).toOption <;> rfl
  | _ => rfl

omit [Transport τ] in
/-- A failed session moves into the error phase or not at all, whatever else is true of it. -/
theorem evaluate?_of_failed {s : Session τ} (h : s.transportFailed = true) (now : Millis) :
    s.evaluate? now = if s.isPaused then none else s.stage.retreat? now := by
  have hb : s.snapshot.isBroken = true := by simp [snapshot, Snapshot.isBroken, h]
  unfold evaluate? Machine.evaluate? Stage.detect?
  cases hp : s.machine.paused with
  | true => simp [isPaused, hp]
  | false =>
    cases hs : s.machine.stage.phase <;>
      simp [isPaused, hp, hs, hb, stage, Stage.retreat?, Machine.transition?, Phase.follow?]

end Session

/-- What an observer does to the session, as the calls that it makes. -/
structure Observer.Script {τ σ : Type} [Transport τ] (o : Observer τ σ) where
  moved : Transition → Session τ → σ → List (SessionCall τ)
  received : Packet → Session τ → σ → List (SessionCall τ)
  moved_eq : ∀ t s x, (o.moved t (s, x)).1 = s.calls (moved t s x)
  received_eq : ∀ p s x, (o.received p (s, x)).1 = s.calls (received p s x)

def Observer.scriptConnecting {τ σ : Type} [Transport τ] :
    (Observer.connecting : Observer τ σ).Script where
  moved t _ _ := if t.effect = .connect then [.connect] else []
  received _ _ _ := []
  moved_eq t s x := by
    by_cases h : t.effect = .connect <;>
      simp [Observer.connecting, h, Session.calls, Session.call]
  received_eq _ _ _ := rfl

/-- Every observer that leaves the session to its calls has a script, the one of a client among
them. -/
theorem Observer.OnlyCalls.exists_script {τ σ : Type} [Transport τ] {o : Observer τ σ}
    (h : o.OnlyCalls) : Nonempty o.Script := by
  obtain ⟨hmoved, hreceived⟩ := h
  choose moved hmoved using hmoved
  choose received hreceived using hreceived
  exact ⟨⟨moved, received, hmoved, hreceived⟩⟩

namespace Watched

variable {τ σ : Type} [Transport τ] {o : Observer τ σ} (script : o.Script)

/-- The incidents of a move. -/
def moving (now : Millis) (w : Watched τ σ) : List Incident :=
  match w.session.evaluate? now with
  | none => []
  | some t =>
    let entered := w.session.enter t.target
    .made t :: entered.incidents (script.moved t entered w.observer)

/-- The incidents of handing out packets. -/
def receiving (w : Watched τ σ) : List Packet → List Incident
  | [] => []
  | p :: ps =>
    w.session.incidents (script.received p w.session w.observer) ++ receiving (w.receive o p) ps

def pumping (w : Watched τ σ) : List Incident :=
  let polled := w.session.poll.2.takePackets
  w.session.pollFailure?.toList ++ { w with session := polled.2 }.receiving script polled.1

/-- The incidents of an iteration up to the point where it may send. -/
def preparing (now : Millis) (w : Watched τ σ) : List Incident :=
  let folded := { w with session := w.session.foldStatuses }
  let moved := folded.move o now
  w.session.alarms ++
    if folded.session.isPaused then [] else
      folded.moving script now ++
        if moved.session.phase = .error then [] else moved.pumping script

def pushFailure? (p : Push) : Option Incident :=
  p.error?.map fun e => .failure (.push e)

/-- The incidents of a step. -/
def incidents (w : Watched τ σ) : SessionStep τ → List Incident
  | .call c => (w.session.incident? c).toList
  | .iterate now =>
    w.preparing script now ++ ((w.pushed? o (.iterate now)).bind pushFailure?).toList

def incidentsAll (w : Watched τ σ) : List (SessionStep τ) → List Incident
  | [] => []
  | s :: steps => w.incidents script s ++ (w.step o s).incidentsAll steps

/-- Between two moments, `is` is what happened: the failure flag follows it, what stands was heeded,
and it leaves out no change of stage. -/
structure Heeds (w : Watched τ σ) (is : List Incident) (w' : Watched τ σ) : Prop where
  failed : w'.session.transportFailed = Incident.standing w.session.transportFailed is
  heeded : Incident.Heeded w.session.transportFailed is
  path : Stage.Path w.session.stage (is.filterMap Incident.transition?) w'.session.stage
  moves : w'.moves =
    w.moves ++ (is.filterMap Incident.made?).flatMap fun t => [.before t, .after t]

omit [Transport τ] in
theorem Heeds.refl (w : Watched τ σ) : w.Heeds [] w :=
  ⟨rfl, trivial, .nil _, (List.append_nil _).symm⟩

omit [Transport τ] in
theorem Heeds.trans {w₁ w₂ w₃ : Watched τ σ} {is js : List Incident} (h : w₁.Heeds is w₂)
    (h' : w₂.Heeds js w₃) : w₁.Heeds (is ++ js) w₃ where
  failed := by rw [Incident.standing_append, h'.failed, h.failed]
  heeded := Incident.heeded_append.mpr ⟨h.heeded, h.failed ▸ h'.heeded⟩
  path := List.filterMap_append ▸ h.path.append h'.path
  moves := by
    rw [h'.moves, h.moves, List.filterMap_append, List.flatMap_append, List.append_assoc]

omit [Transport τ] in
/-- Failures are all that happens while the stage stays as it is and no move is reported. -/
theorem Rests.heeds {w w' : Watched τ σ} {is : List Incident} (h : w.Rests w')
    (hfailed : w'.session.transportFailed = Incident.standing w.session.transportFailed is)
    (his : ∀ i ∈ is, i.transition? = none) : w.Heeds is w' := by
  have hmade (i : Incident) (hi : i ∈ is) : i.made? = none := by
    have := his i hi
    cases i with
    | made t => cases this
    | _ => rfl
  refine ⟨hfailed, Incident.heeded_of_failures hmade _, ?_, ?_⟩
  · rw [List.filterMap_eq_nil_iff.mpr his, h.stage]
    exact .nil _
  · rw [List.filterMap_eq_nil_iff.mpr hmade, h.moves]
    exact (List.append_nil _).symm

theorem heeds_foldStatuses (w : Watched τ σ) :
    w.Heeds w.session.alarms { w with session := w.session.foldStatuses } := by
  refine (rests_foldStatuses w).heeds w.session.transportFailed_foldStatuses fun i hi => ?_
  obtain ⟨e, -, rfl⟩ := List.mem_map.mp hi
  rfl

theorem heeds_call (s : Session τ) (c : SessionCall τ) (x y : σ) (rs : List Report) :
    (⟨s, x, rs⟩ : Watched τ σ).Heeds (s.incident? c).toList ⟨s.call c, y, rs⟩ := by
  have hmade := s.made?_incident? c
  refine ⟨s.transportFailed_call c, ?_, ?_, ?_⟩
  · refine Incident.heeded_of_failures (fun i hi => ?_) _
    rwa [Option.mem_toList.mp hi] at hmade
  · rw [Incident.filterMap_toList, s.transition?_incident? c]
    exact s.path_call c
  · rw [Incident.filterMap_toList, hmade]
    exact (List.append_nil _).symm

theorem heeds_calls (s : Session τ) (cs : List (SessionCall τ)) (x y : σ) (rs : List Report) :
    (⟨s, x, rs⟩ : Watched τ σ).Heeds (s.incidents cs) ⟨s.calls cs, y, rs⟩ := by
  induction cs generalizing s with
  | nil => exact ⟨rfl, trivial, .nil _, (List.append_nil _).symm⟩
  | cons c cs ih => exact (heeds_call s c x x rs).trans (ih (s.call c))

theorem heeds_move (now : Millis) (w : Watched τ σ) (hp : w.session.isPaused = false) :
    w.Heeds (w.moving script now) (w.move o now) := by
  unfold moving
  cases ht : w.session.evaluate? now with
  | none =>
    rw [move_of_none o ht]
    exact .refl _
  | some t =>
    have hmove : w.move o now = ⟨(w.session.enter t.target).calls
          (script.moved t (w.session.enter t.target) w.observer),
        (o.moved t (w.session.enter t.target, w.observer)).2,
        w.reports ++ [.before t, .after t]⟩ := by
      simp [move, ht, report, Session.commit_of_evaluate ht, act, script.moved_eq]
    have hmade : w.Heeds [.made t]
        ⟨w.session.enter t.target, w.observer, w.reports ++ [.before t, .after t]⟩ := by
      refine ⟨rfl, ⟨?_, trivial⟩, ?_, List.filter_append _ _⟩
      · rintro _ ⟨⟩ hfailed
        rw [Session.evaluate?_of_failed hfailed, hp] at ht
        exact Stage.target_of_retreat? ht
      · exact (Session.evaluate?_eq_some ht).1 ▸ .single t
    rw [hmove]
    exact hmade.trans (heeds_calls _ _ _ _ _)

theorem heeds_receiveAll (w : Watched τ σ) (ps : List Packet) :
    w.Heeds (w.receiving script ps) (ps.foldl (receive o) w) := by
  induction ps generalizing w with
  | nil => exact .refl _
  | cons p ps ih =>
    have hrests : w.Rests (w.report (.received p.payload)) :=
      rests_of_machine rfl (by simp [Report.isMove])
    have hreported : w.Heeds [] (w.report (.received p.payload)) :=
      hrests.heeds rfl fun _ hi => absurd hi List.not_mem_nil
    have hreceived := hreported.trans (heeds_calls w.session
      (script.received p w.session w.observer) w.observer
      (o.received p (w.session, w.observer)).2 (w.report (.received p.payload)).reports)
    rw [← script.received_eq] at hreceived
    exact hreceived.trans (ih (w.receive o p))

theorem heeds_pump (w : Watched τ σ) : w.Heeds (w.pumping script) (w.pump o).2 := by
  have hpolled : w.Heeds w.session.pollFailure?.toList
      { w with session := w.session.poll.2.takePackets.2 } := by
    have hrests : w.Rests { w with session := w.session.poll.2.takePackets.2 } := by
      simp only [Session.takePackets, Session.poll_snd]
      exact ⟨rfl, rfl, rfl⟩
    refine hrests.heeds ?_ ?_
    · simp only [Session.takePackets, Session.poll_snd, Session.pollFailure?]
      cases (Transport.poll w.session.transport).1 <;> rfl
    · unfold Session.pollFailure?
      cases (Transport.poll w.session.transport).1 <;> simp [Incident.transition?]
  exact hpolled.trans (heeds_receiveAll script _ _)

theorem heeds_prepare (now : Millis) (w : Watched τ σ) :
    w.Heeds (w.preparing script now) (w.prepare o now).2 := by
  have hfold := heeds_foldStatuses w
  unfold preparing prepare
  dsimp only
  by_cases hp : w.session.foldStatuses.isPaused
  · simpa [hp] using hfold
  · have hmove := hfold.trans (heeds_move script now { w with session := w.session.foldStatuses }
      (by simpa using hp))
    simp only [hp, Bool.false_eq_true, if_false]
    split
    · simpa using hmove
    · rw [← List.append_assoc]
      exact hmove.trans (heeds_pump script _)

theorem heeds_send (o : Observer τ σ) (now : Millis) (w : Watched τ σ) :
    w.Heeds ((w.sending? now).bind pushFailure?).toList (w.send o now).2 := by
  refine (rests_send o now w).heeds ?_ ?_
  · obtain ⟨queue, hsession⟩ := session_send o now w
    rw [hsession]
    unfold pushFailure?
    cases (w.sending? now) with
    | none => simp
    | some p => cases h : p.error? <;> simp [h, Incident.follow]
  · unfold pushFailure?
    cases (w.sending? now) with
    | none => simp
    | some p => cases h : p.error? <;> simp [h, Incident.transition?]

theorem heeds_step (w : Watched τ σ) (s : SessionStep τ) :
    w.Heeds (w.incidents script s) (w.step o s) := by
  cases s with
  | call c => exact heeds_call w.session c w.observer w.observer w.reports
  | iterate now =>
    have hprepare := heeds_prepare script now w
    simp only [step, iterate_snd, incidents, pushed?]
    split
    · exact hprepare.trans (heeds_send o now _)
    · simpa using hprepare

theorem heeds_run (w : Watched τ σ) (steps : List (SessionStep τ)) :
    w.Heeds (w.incidentsAll script steps) (w.run o steps) := by
  induction steps generalizing w with
  | nil => exact .refl _
  | cons s steps ih => exact (heeds_step script w s).trans (ih (w.step o s))

/-! ### The transition of an iteration -/

omit [Transport τ] in
theorem made?_pushFailures (p? : Option Push) :
    (p?.bind pushFailure?).toList.filterMap Incident.made? = [] := by
  rw [Incident.filterMap_toList]
  cases p? with
  | none => rfl
  | some p => cases h : p.error? <;> simp [pushFailure?, h, Incident.made?]

theorem made?_incidents (s : Session τ) (cs : List (SessionCall τ)) :
    (s.incidents cs).filterMap Incident.made? = [] := by
  induction cs generalizing s with
  | nil => rfl
  | cons c cs ih =>
    rw [Session.incidents, List.filterMap_append, Incident.filterMap_toList, s.made?_incident? c,
      ih]
    rfl

theorem made?_receiving (w : Watched τ σ) (ps : List Packet) :
    (w.receiving script ps).filterMap Incident.made? = [] := by
  induction ps generalizing w with
  | nil => rfl
  | cons p ps ih => rw [receiving, List.filterMap_append, made?_incidents, ih, List.nil_append]

theorem made?_pumping (w : Watched τ σ) : (w.pumping script).filterMap Incident.made? = [] := by
  have hpoll : (w.session.pollFailure?.bind Incident.made?) = none := by
    unfold Session.pollFailure?
    cases (Transport.poll w.session.transport).1 <;> rfl
  rw [pumping, List.filterMap_append, Incident.filterMap_toList, hpoll, made?_receiving]
  rfl

theorem made?_moving (now : Millis) (w : Watched τ σ) :
    (w.moving script now).filterMap Incident.made? = (w.session.evaluate? now).toList := by
  unfold moving
  cases w.session.evaluate? now with
  | none => rfl
  | some t => simp [Incident.made?, made?_incidents]

/-- An iteration makes the transition that the session calls for once the statuses are applied. -/
theorem made?_iterate (now : Millis) (w : Watched τ σ) (hp : w.session.isPaused = false) :
    (w.incidents script (.iterate now)).filterMap Incident.made? =
      (w.session.foldStatuses.evaluate? now).toList := by
  have halarms : w.session.alarms.filterMap Incident.made? = [] := by
    simp [Session.alarms, List.filterMap_map, Function.comp_def, Incident.made?]
  simp only [incidents, preparing, isPaused_foldStatuses, hp, Bool.false_eq_true, if_false,
    List.filterMap_append, halarms, made?_moving, made?_pushFailures, List.nil_append,
    List.append_nil]
  split <;> simp [made?_pumping]

/-- Through every run of a session, a failure that was observed stands until the next reset: every
transition that is made before it leads into the error phase, and the next iteration that is not
paused makes that transition unless the session is in the error phase already. What happened is all
that happened: the transitions and the resets lead on one path from the default phase to where the
session is, the transitions are the reported ones, and the session remembers just a failure that
was not reset. -/
theorem failures_remembered (station : Entity) (host : String) (port : UInt16) (transport : τ)
    (settings : Settings) (start : Millis) (x : σ) (steps : List (SessionStep τ)) :
    let w₀ := Watched.start station host port transport settings start x
    let w := w₀.run o steps
    let is := w₀.incidentsAll script steps
    (∀ before f between t after, is = before ++ .failure f :: (between ++ .made t :: after) →
      (∀ r, .reset r ∉ between) → t.target.phase = .error) ∧
    (∀ now, w.session.isPaused = false → Incident.Unreset (is ++ w.session.alarms) →
      (w.incidents script (.iterate now)).filterMap Incident.made? =
        (w.session.stage.retreat? now).toList) ∧
    (w.session.transportFailed = true ↔ Incident.Unreset is) ∧
    Stage.Path ⟨.default, start⟩ (is.filterMap Incident.transition?) w.session.stage ∧
    w.moves = (is.filterMap Incident.made?).flatMap fun t => [.before t, .after t] := by
  intro w₀ w is
  have h : w₀.Heeds is w := heeds_run script w₀ steps
  have hflag : w.session.transportFailed = Incident.standing false is := h.failed
  refine ⟨?_, ?_, ?_, h.path, h.moves⟩
  · intro before f between t after his hreset
    exact Incident.Heeded.made_after_failure (his ▸ h.heeded) hreset
  · intro now hp hstands
    have hfailed : w.session.foldStatuses.transportFailed = true := by
      rw [Session.transportFailed_foldStatuses, hflag, ← Incident.standing_append]
      exact Incident.standing_eq_true.mpr hstands
    rw [made?_iterate script now w hp, Session.evaluate?_of_failed hfailed, isPaused_foldStatuses,
      hp, (rests_foldStatuses w).stage]
    rfl
  · rw [hflag]
    exact Incident.standing_eq_true

/-- A session whose first push fails while its connection is ready, and that is then paused, given
another identity and another key, and resumed. -/
def pushFails (m : MessageRef) : List (SessionStep (Faulty Loopback)) :=
  [.call (.setIdentity (some m.sender)), .iterate 1, .iterate 2, .iterate 3,
    .call (.setKey (some "k")), .iterate 4, .call (.enqueue ⟨m, ⟨[7], 0, none⟩, 5⟩), .iterate 5,
    .call .pause, .iterate 6, .call (.setIdentity (some m.receiver)), .call (.setKey (some "l")),
    .call .resume]

theorem failures_remembered_pushFails :
    let m : MessageRef := ⟨⟨"alice", "moky", .user⟩, ⟨"bob", "moky", .user⟩, 1⟩
    let w₀ : Watched (Faulty Loopback) Unit := start ⟨"gsp", "any", .station⟩ "127.0.0.1" 9394
      ⟨.auto, 0, 1, 0⟩ (.standard "courier") 0 ()
    let w := w₀.run .connecting (pushFails m)
    let before := (w₀.incidentsAll Observer.scriptConnecting (pushFails m)).dropLast
    let t : Transition := ⟨⟨.running, 4⟩, ⟨.error, 7⟩, .connectionLost, .resetFreshness⟩
    (w.session.stage = ⟨.running, 4⟩ ∧ w.session.connection = .ready) ∧
      (w.incidents Observer.scriptConnecting (.iterate 7)).filterMap Incident.made? = [t] ∧
      w₀.incidentsAll Observer.scriptConnecting (pushFails m ++ [.iterate 7]) =
        before ++ .failure (.push .closed) :: ([] ++ .made t :: []) ∧
      t.target.phase = .error := by
  intro m w₀ w before t
  have hstage : w.session.stage = ⟨.running, 4⟩ ∧ w.session.connection = .ready := by
    decide +kernel
  have hpaused : w.session.isPaused = false := by decide +kernel
  have hstands : w₀.incidentsAll Observer.scriptConnecting (pushFails m) ++ w.session.alarms =
      before ++ [.failure (.push .closed)] := by decide +kernel
  have hsplit : w₀.incidentsAll Observer.scriptConnecting (pushFails m ++ [.iterate 7]) =
      before ++ .failure (.push .closed) :: ([] ++ .made t :: []) := by decide +kernel
  have hunreset : Incident.Unreset
      (w₀.incidentsAll Observer.scriptConnecting (pushFails m) ++ w.session.alarms) :=
    ⟨before, .push .closed, [], hstands, fun _ => List.not_mem_nil⟩
  obtain ⟨-, hnext, -⟩ := failures_remembered Observer.scriptConnecting ⟨"gsp", "any", .station⟩
    "127.0.0.1" 9394 ⟨.auto, 0, 1, 0⟩ (.standard "courier") 0 () (pushFails m)
  obtain ⟨hlater, -⟩ := failures_remembered Observer.scriptConnecting ⟨"gsp", "any", .station⟩
    "127.0.0.1" 9394 ⟨.auto, 0, 1, 0⟩ (.standard "courier") 0 () (pushFails m ++ [.iterate 7])
  have hmade : (w.incidents Observer.scriptConnecting (.iterate 7)).filterMap Incident.made? =
      (w.session.stage.retreat? 7).toList := hnext 7 hpaused hunreset
  rw [hstage.1] at hmade
  have herror := hlater before (.push .closed) [] t [] hsplit fun _ => List.not_mem_nil
  exact ⟨hstage, hmade, hsplit, herror⟩

end Watched

end Courier
