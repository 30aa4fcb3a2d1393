import Courier.Proofs.Delivery.Submissions
import Courier.Session.Iteration

/-!
# Runs of a session

A run mixes iterations of a session with calls from outside. The transport takes part in both: what
it answers within an iteration depends on its state, and between iterations that state may become
anything. An observer acts on the session through the same calls. Nobody but the iterations takes
anything out of the queue.
-/

namespace Courier

/-- What may happen to a session outside its iterations. -/
inductive SessionCall (τ : Type) where
  | enqueue (s : Submission)
  | setIdentity (identity : Option Entity)
  | setKey (key : Option String)
  | setActive (flag : Bool) (time : Millis)
  | markFailed
  | connect
  | close
  | pause
  | resume
  | reset (now : Millis)
  /-- The transport changes on its own account. -/
  | transport (t : τ)

def SessionCall.submission? {τ : Type} : SessionCall τ → Option Submission
  | .enqueue s => some s
  | _ => none

namespace Session

variable {τ : Type} [Transport τ]

def call (s : Session τ) : SessionCall τ → Session τ
  | .enqueue m => (s.enqueue m.message m.shipment m.now).2
  | .setIdentity identity => (s.setIdentity identity).2
  | .setKey key => (s.setKey key).2
  | .setActive flag time => (s.setActive flag time).2
  | .markFailed => s.markFailed.2
  | .connect => s.connect.2
  | .close => s.close
  | .pause => s.pause
  | .resume => s.resume
  | .reset now =>
    match s.reset now with
    | .ok (_, s) => s
    | .error _ => s
  | .transport t => { s with transport := t }

def calls (s : Session τ) (cs : List (SessionCall τ)) : Session τ :=
  cs.foldl call s

theorem connect_snd (s : Session τ) : s.connect.2 =
    { s with
      transport := (Transport.connect s.transport s.remote).2
      transportFailed := match (Transport.connect s.transport s.remote).1 with
        | .ok () => s.transportFailed
        | .error _ => true } := by
  unfold connect
  rcases Transport.connect s.transport s.remote with ⟨_ | _, t⟩ <;> rfl

theorem poll_snd (s : Session τ) : s.poll.2 =
    { s with
      transport := (Transport.poll s.transport).2
      transportFailed := match (Transport.poll s.transport).1 with
        | .ok _ => s.transportFailed
        | .error _ => true } := by
  unfold poll
  rcases Transport.poll s.transport with ⟨_ | _, t⟩ <;> rfl

theorem push_fst (s : Session τ) (e : QueueEntry) :
    (s.push e).1 = (Transport.push s.transport e.shipment s.remote).1 := by
  unfold push
  rcases Transport.push s.transport e.shipment s.remote with ⟨_ | _, t⟩ <;> rfl

theorem push_snd (s : Session τ) (e : QueueEntry) : (s.push e).2 =
    { s with
      transport := (Transport.push s.transport e.shipment s.remote).2
      transportFailed := match (Transport.push s.transport e.shipment s.remote).1 with
        | .ok _ => s.transportFailed
        | .error _ => true } := by
  unfold push
  rcases Transport.push s.transport e.shipment s.remote with ⟨_ | _, t⟩ <;> rfl

theorem foldStatuses_eq (s : Session τ) : ∃ activity failed cursor,
    s.foldStatuses =
      { s with activity := activity, transportFailed := failed, statusCursor := cursor } := by
  unfold foldStatuses
  generalize (Transport.statusEvents s.transport).drain s.statusCursor = drained
  obtain ⟨events, cursor⟩ := drained
  suffices ∀ (events : List StatusEvent) (s : Session τ), ∃ activity failed,
      events.foldl applyStatus s = { s with activity := activity, transportFailed := failed } by
    obtain ⟨activity, failed, h⟩ := this events { s with statusCursor := cursor }
    exact ⟨activity, failed, cursor, h⟩
  intro events
  induction events with
  | nil => exact fun s => ⟨s.activity, s.transportFailed, rfl⟩
  | cons e events ih =>
    intro s
    obtain ⟨activity, failed, h⟩ := ih (s.applyStatus e)
    refine ⟨activity, failed, h.trans ?_⟩
    unfold applyStatus
    split <;> rfl

/-! ### The queue under calls -/

theorem queue_call (s : Session τ) (c : SessionCall τ) :
    (s.call c).queue = s.queue.submitAll c.submission?.toList := by
  cases c with
  | enqueue m => rfl
  | setIdentity identity =>
    simp only [call, setIdentity]
    split <;> rfl
  | setKey key =>
    simp only [call, setKey]
    split <;> rfl
  | connect =>
    simp only [call, connect_snd]
    rfl
  | reset now =>
    simp only [call, reset]
    cases s.machine.reset now <;> rfl
  | _ => rfl

theorem queue_calls (s : Session τ) (cs : List (SessionCall τ)) :
    (s.calls cs).queue = s.queue.submitAll (cs.filterMap SessionCall.submission?) := by
  induction cs generalizing s with
  | nil => rfl
  | cons c cs ih =>
    rw [calls, List.foldl_cons]
    refine (ih (s.call c)).trans ?_
    rw [queue_call, ← DeliveryQueue.submitAll_append]
    cases h : c.submission? <;> simp [h]

end Session

def Session.enter {τ : Type} (s : Session τ) (stage : Stage) : Session τ :=
  { s with machine := { s.machine with stage := stage } }

theorem Session.commit_of_evaluate {τ : Type} {s : Session τ} {now : Millis} {t : Transition}
    (h : s.evaluate? now = some t) : s.commit t = .ok (s.enter t.target) := by
  have hs : s.machine.stage = t.source := by
    unfold evaluate? Machine.evaluate? at h
    split at h
    · cases h
    · obtain ⟨event, -, h⟩ := Option.bind_eq_some_iff.mp h
      obtain ⟨⟨phase, effect⟩, -, rfl⟩ := Option.map_eq_some_iff.mp h
      rfl
  simp [commit, Machine.commit, hs, Except.map, enter]

/-- The observer acts on the session through calls only. -/
structure Observer.OnlyCalls {τ σ : Type} [Transport τ] (o : Observer τ σ) : Prop where
  moved : ∀ t s x, ∃ cs, (o.moved t (s, x)).1 = s.calls cs
  received : ∀ p s x, ∃ cs, (o.received p (s, x)).1 = s.calls cs

theorem Observer.onlyCalls_connecting {τ σ : Type} [Transport τ] :
    (Observer.connecting : Observer τ σ).OnlyCalls where
  moved t s x := by
    by_cases h : t.effect = .connect
    · refine ⟨[.connect], ?_⟩
      simp [Observer.connecting, h, Session.calls, Session.call]
    · refine ⟨[], ?_⟩
      simp [Observer.connecting, h, Session.calls]
  received _ _ _ := ⟨[], rfl⟩

inductive SessionStep (τ : Type) where
  | call (c : SessionCall τ)
  | iterate (now : Millis)

namespace Watched

variable {τ σ : Type}

theorem failAll_eq (o : Observer τ σ) (reason : String) (w : Watched τ σ) (es : List QueueEntry) : ∃ x,
    es.foldl (fail o reason) w =
      ⟨w.session, x, w.reports ++ es.map fun e => .failed e.message reason⟩ := by
  induction es generalizing w with
  | nil => exact ⟨w.observer, by simp⟩
  | cons e es ih =>
    obtain ⟨x, h⟩ := ih (w.fail o reason e)
    refine ⟨x, ?_⟩
    rw [List.foldl_cons, h]
    simp [fail, report]

theorem move_of_none (o : Observer τ σ) {now : Millis} {w : Watched τ σ}
    (h : w.session.evaluate? now = none) : w.move o now = w := by
  rw [move, h]

variable [Transport τ]

def step (o : Observer τ σ) (w : Watched τ σ) : SessionStep τ → Watched τ σ
  | .call c => { w with session := w.session.call c }
  | .iterate now => (w.iterate o now).2

def run (o : Observer τ σ) (w : Watched τ σ) (steps : List (SessionStep τ)) : Watched τ σ :=
  steps.foldl (step o) w

def start (station : Entity) (host : String) (port : UInt16) (transport : τ) (settings : Settings)
    (now : Millis) (observer : σ) : Watched τ σ :=
  ⟨.new station host port transport settings now, observer, []⟩

/-! ### The part of an iteration before it sends -/

/-- An iteration up to the point where it may send; also whether it gets there. -/
def prepare (o : Observer τ σ) (now : Millis) (w : Watched τ σ) : Bool × Watched τ σ :=
  let w := { w with session := w.session.foldStatuses }
  if w.session.isPaused then (false, w)
  else
    let w := w.move o now
    if w.session.phase = .error then (true, w)
    else
      let (busy, w) := w.pump o
      (!busy, w)

theorem iterate_snd (o : Observer τ σ) (now : Millis) (w : Watched τ σ) :
    (w.iterate o now).2 =
      if (w.prepare o now).1 then ((w.prepare o now).2.send o now).2
      else (w.prepare o now).2 := by
  simp only [iterate, prepare]
  by_cases hp : ({ w with session := w.session.foldStatuses } : Watched τ σ).session.isPaused
  · simp [hp]
  · simp only [hp, Bool.false_eq_true]
    generalize ({ w with session := w.session.foldStatuses } : Watched τ σ).move o now = moved
    by_cases he : moved.session.phase = .error
    · simp [he]
    · simp only [he]
      cases (moved.pump o).1 <;> simp

/-! ### Relations that the parts of an iteration keep -/

section Parts

variable {o : Observer τ σ} {R : Watched τ σ → Watched τ σ → Prop}

theorem pump_of (hrefl : ∀ w, R w w) (htrans : ∀ {a b c}, R a b → R b c → R a c)
    (hpolled : ∀ w, R w { w with session := w.session.poll.2.takePackets.2 })
    (hreceive : ∀ w p, R w (w.receive o p)) (w : Watched τ σ) : R w (w.pump o).2 := by
  have hall (ps : List Packet) (w : Watched τ σ) : R w (ps.foldl (receive o) w) := by
    induction ps generalizing w with
    | nil => exact hrefl w
    | cons p ps ih => exact htrans (hreceive w p) (ih (w.receive o p))
  exact htrans (hpolled w) (hall _ _)

/-- A relation that holds of each part of an iteration before it sends, and of two things done in
turn if it holds of each. -/
structure KeptByPreparing (o : Observer τ σ) (R : Watched τ σ → Watched τ σ → Prop) : Prop where
  trans : ∀ {a b c}, R a b → R b c → R a c
  fold : ∀ w, R w { w with session := w.session.foldStatuses }
  move : ∀ now w, R w (w.move o now)
  pump : ∀ w, R w (w.pump o).2

theorem KeptByPreparing.prepare (h : KeptByPreparing o R) (now : Millis) (w : Watched τ σ) :
    R w (w.prepare o now).2 := by
  have hmove := h.trans (h.fold w) (h.move now _)
  unfold Watched.prepare
  dsimp only
  split
  · exact h.fold w
  · split
    · exact hmove
    · exact h.trans hmove (h.pump _)

theorem KeptByPreparing.iterate (h : KeptByPreparing o R)
    (hsend : ∀ now w, R w (w.send o now).2) (now : Millis) (w : Watched τ σ) :
    R w (w.iterate o now).2 := by
  rw [iterate_snd]
  split
  · exact h.trans (h.prepare now w) (hsend now _)
  · exact h.prepare now w

end Parts

section Frames

variable {o : Observer τ σ} (ho : o.OnlyCalls)
include ho

theorem move_eq {now : Millis} {w : Watched τ σ} {t : Transition}
    (ht : w.session.evaluate? now = some t) : ∃ cs x,
      w.move o now =
        ⟨(w.session.enter t.target).calls cs, x, w.reports ++ [.before t, .after t]⟩ := by
  obtain ⟨cs, hcs⟩ := ho.moved t (w.session.enter t.target) w.observer
  refine ⟨cs, (o.moved t (w.session.enter t.target, w.observer)).2, ?_⟩
  simp only [move, ht, report, Session.commit_of_evaluate ht, act, List.append_assoc,
    List.cons_append, List.nil_append]
  rw [hcs]

theorem receive_eq (w : Watched τ σ) (p : Packet) :
    ∃ cs x, w.receive o p = ⟨w.session.calls cs, x, w.reports ++ [.received p.payload]⟩ := by
  obtain ⟨cs, hcs⟩ := ho.received p w.session w.observer
  refine ⟨cs, (o.received p (w.session, w.observer)).2, ?_⟩
  simp only [receive, report, act]
  rw [hcs]

theorem receiveAll_eq (w : Watched τ σ) (ps : List Packet) :
    ∃ cs x, ps.foldl (receive o) w =
      ⟨w.session.calls cs, x, w.reports ++ ps.map (.received ·.payload)⟩ := by
  induction ps generalizing w with
  | nil => exact ⟨[], w.observer, by simp [Session.calls]⟩
  | cons p ps ih =>
    obtain ⟨cs, x, h⟩ := receive_eq ho w p
    obtain ⟨cs', x', h'⟩ := ih (w.receive o p)
    refine ⟨cs ++ cs', x', ?_⟩
    rw [List.foldl_cons, h', h]
    simp [Session.calls]

theorem pump_eq (w : Watched τ σ) : ∃ cs x, ∃ ps : List Packet,
    (w.pump o).2 = ⟨w.session.poll.2.takePackets.2.calls cs, x,
      w.reports ++ ps.map (.received ·.payload)⟩ := by
  obtain ⟨cs, x, h⟩ := receiveAll_eq ho
    { w with session := w.session.poll.2.takePackets.2 } w.session.poll.2.takePackets.1
  exact ⟨cs, x, w.session.poll.2.takePackets.1, h⟩

end Frames

end Watched

end Courier
