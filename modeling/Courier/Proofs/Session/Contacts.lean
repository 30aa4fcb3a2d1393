import Courier.Proofs.Session.Path
import Courier.Proofs.Session.Retries

/-!
# What a session does with its transport

A failed session polls its transport no more and hands out nothing. What it sends is another
matter: that hangs on the activity flag, and statuses go on setting the flag whatever the phase. A
transport that comes back is sent to again before the session is reset, one shipment at a time.
-/

namespace Courier

/-- A call to a transport. -/
inductive Contact where
  | connect
  | push (s : Shipment)
  | poll
  | close
  deriving DecidableEq, Repr

/-- A transport and every call that was made to it. -/
structure Recorded (τ : Type) where
  inner : τ
  contacts : List Contact

namespace Recorded

variable {τ : Type}

def new (inner : τ) : Recorded τ :=
  ⟨inner, []⟩

instance [Transport τ] : Transport (Recorded τ) where
  connect t remote :=
    let (result, inner) := Transport.connect t.inner remote
    (result, ⟨inner, t.contacts ++ [.connect]⟩)
  push t shipment destination :=
    let (result, inner) := Transport.push t.inner shipment destination
    (result, ⟨inner, t.contacts ++ [.push shipment]⟩)
  poll t :=
    let (result, inner) := Transport.poll t.inner
    (result, ⟨inner, t.contacts ++ [.poll]⟩)
  close t := ⟨Transport.close t.inner, t.contacts ++ [.close]⟩
  status t := Transport.status t.inner
  packets t := Transport.packets t.inner
  statusEvents t := Transport.statusEvents t.inner

end Recorded

/-- The error with which the transport answered a push. -/
def Push.error? (p : Push) : Option TransportError :=
  match p.2 with
  | .ok _ => none
  | .error cause => some cause

/-! ### The activity flag -/

/-- The flag says what the last status applied said, and did not change after it. -/
structure Activity.Follows (a : Activity) : Prop where
  active : a.active = (a.connection == .ready)
  changedAt : a.changedAt ≤ a.statusAt

namespace Activity.Follows

theorem initial : Activity.initial.Follows :=
  ⟨rfl, UInt64.le_refl 0⟩

theorem reset {a : Activity} (h : a.Follows) : a.reset.Follows :=
  ⟨rfl, h.changedAt⟩

/-- A status that is newer than the last one is also newer than the last change of the flag. -/
theorem accept? {a b : Activity} {e : StatusEvent} (h : a.Follows) (hb : a.accept? e = some b) :
    b.Follows := by
  unfold Activity.accept? at hb
  split at hb
  · cases hb
  · rename_i hnew
    have hnewer : a.statusAt < e.timestamp := UInt64.not_le.mp hnew
    have hlate : ¬e.timestamp ≤ a.changedAt :=
      UInt64.not_le.mpr (UInt64.lt_of_le_of_lt h.changedAt hnewer)
    obtain rfl := Option.some.inj hb
    by_cases hflag : a.active = (e.status == .ready)
    · simp only [setActive, hflag, decide_true, Bool.true_or, if_true]
      exact ⟨rfl, UInt64.le_of_lt (UInt64.lt_of_le_of_lt h.changedAt hnewer)⟩
    · simp only [setActive, hflag, hlate, decide_false, Bool.or_false, Bool.false_eq_true,
        if_false]
      exact ⟨rfl, UInt64.le_refl _⟩

end Activity.Follows

/-- Whether a call leaves the activity flag to the statuses. -/
def SessionCall.leavesFlag {τ : Type} : SessionCall τ → Bool
  | .setActive _ _ => false
  | _ => true

namespace Session

variable {τ : Type} [Transport τ]

theorem follows_foldStatuses {s : Session τ} (h : s.activity.Follows) :
    s.foldStatuses.activity.Follows := by
  unfold foldStatuses
  generalize (Transport.statusEvents s.transport).drain s.statusCursor = drained
  obtain ⟨events, cursor⟩ := drained
  suffices ∀ (events : List StatusEvent) (s : Session τ), s.activity.Follows →
      (events.foldl applyStatus s).activity.Follows from
    this events { s with statusCursor := cursor } h
  intro events
  induction events with
  | nil => exact fun _ h => h
  | cons e events ih =>
    intro s h
    apply ih
    unfold applyStatus
    split
    · exact h
    · rename_i hb
      exact h.accept? hb

theorem follows_call {s : Session τ} (h : s.activity.Follows) {c : SessionCall τ}
    (hc : c.leavesFlag) : (s.call c).activity.Follows := by
  cases c with
  | setActive flag time => cases hc
  | setIdentity identity =>
    simp only [call, setIdentity]
    split <;> exact h
  | setKey key =>
    simp only [call, setKey]
    split <;> exact h
  | connect =>
    simp only [call, connect_snd]
    exact h
  | reset now =>
    simp only [call, reset_eq]
    by_cases he : s.phase = .error
    · simp only [he, if_true]
      exact h.reset
    · simp only [he, if_false]
      exact h
  | _ => exact h

theorem follows_calls {s : Session τ} (h : s.activity.Follows) {cs : List (SessionCall τ)}
    (hcs : ∀ c ∈ cs, c.leavesFlag) : (s.calls cs).activity.Follows := by
  induction cs generalizing s with
  | nil => exact h
  | cons c cs ih =>
    apply ih (follows_call h (hcs c List.mem_cons_self))
    intro d hd
    exact hcs d (List.mem_cons_of_mem c hd)

end Session

/-- The observer acts on the session through calls, and none of them sets the activity flag. -/
structure Observer.LeavesFlag {τ σ : Type} [Transport τ] (o : Observer τ σ) : Prop where
  moved : ∀ t s x, ∃ cs, (∀ c ∈ cs, c.leavesFlag) ∧ (o.moved t (s, x)).1 = s.calls cs
  received : ∀ p s x, ∃ cs, (∀ c ∈ cs, c.leavesFlag) ∧ (o.received p (s, x)).1 = s.calls cs

theorem Observer.leavesFlag_connecting {τ σ : Type} [Transport τ] :
    (Observer.connecting : Observer τ σ).LeavesFlag where
  moved t s x := by
    by_cases h : t.effect = .connect
    · refine ⟨[.connect], by simp [SessionCall.leavesFlag], ?_⟩
      simp [Observer.connecting, h, Session.calls, Session.call]
    · refine ⟨[], nofun, ?_⟩
      simp [Observer.connecting, h, Session.calls]
  received _ _ _ := ⟨[], nofun, rfl⟩

theorem Observer.LeavesFlag.onlyCalls {τ σ : Type} [Transport τ] {o : Observer τ σ}
    (ho : o.LeavesFlag) : o.OnlyCalls where
  moved t s x := by
    obtain ⟨cs, -, h⟩ := ho.moved t s x
    exact ⟨cs, h⟩
  received p s x := by
    obtain ⟨cs, -, h⟩ := ho.received p s x
    exact ⟨cs, h⟩

namespace Watched

variable {τ σ : Type}

/-! ### Sending leaves the rest of the session alone -/

theorem session_retry (o : Observer τ σ) (now : Millis) (e : QueueEntry) (reason : String)
    (w : Watched τ σ) :
    ∃ queue, (w.retry o now e reason).session = { w.session with queue := queue } := by
  unfold retry
  dsimp only
  split
  · exact ⟨_, rfl⟩
  · exact ⟨_, rfl⟩

theorem session_purge (o : Observer τ σ) (now : Millis) (w : Watched τ σ) :
    ∃ queue, (w.purge o now).session = { w.session with queue := queue } := by
  obtain ⟨x, hx⟩ := failAll_eq o "expired"
    { w with session := { w.session with queue := (w.session.queue.purge now).2 } }
    (w.session.queue.purge now).1
  refine ⟨(w.session.queue.purge now).2, ?_⟩
  unfold purge
  dsimp only
  rw [hx]

variable [Transport τ]

theorem session_dispatch (o : Observer τ σ) (now : Millis) (e : QueueEntry) (w : Watched τ σ) :
    ∃ queue, (w.dispatch o now e).session = { (w.session.push e).2 with queue := queue } := by
  unfold dispatch
  dsimp only
  split
  · exact ⟨_, rfl⟩
  · exact session_retry o now e _ _
  · exact session_retry o now e _ _

/-- The transport is pushed to just if there is something to send, and an error of that push is a
failure of the session. -/
theorem session_send (o : Observer τ σ) (now : Millis) (w : Watched τ σ) :
    ∃ queue, (w.send o now).2.session =
      { w.session with
        queue := queue
        transportFailed :=
          w.session.transportFailed || ((w.sending? now).bind Push.error?).isSome
        transport := ((w.sending? now).map fun p =>
          (Transport.push w.session.transport p.1.shipment w.session.remote).2).getD
            w.session.transport } := by
  unfold send sending?
  split
  · cases h : w.session.queue.next now with
    | none =>
      obtain ⟨queue, hpurge⟩ := session_purge o now w
      exact ⟨queue, by simpa using hpurge⟩
    | some taken =>
      obtain ⟨e, left⟩ := taken
      obtain ⟨queue, hsent⟩ := session_dispatch o now e
        { w with session := { w.session with queue := left } }
      refine ⟨queue, hsent.trans ?_⟩
      rw [Session.push_snd]
      simp only [Option.map_some, Option.bind_some, Option.getD_some, Push.error?,
        Session.push_fst, Session.remote]
      generalize (Transport.push w.session.transport e.shipment _).1 = answer
      cases answer <;> simp
  · obtain ⟨queue, hpurge⟩ := session_purge o now w
    exact ⟨queue, by simpa using hpurge⟩

/-- What reports of deliveries leave as it is for an observer, sending leaves as it is. -/
theorem observer_send {o : Observer τ σ} {P : σ → Prop} (hsent : ∀ m x, P x → P (o.sent m x))
    (hfailed : ∀ m reason x, P x → P (o.failed m reason x)) (now : Millis) {w : Watched τ σ}
    (h : P w.observer) : P (w.send o now).2.observer := by
  have hfail (reason : String) (w : Watched τ σ) (e : QueueEntry) (h : P w.observer) :
      P (w.fail o reason e).observer := hfailed _ _ _ h
  have hfailAll (es : List QueueEntry) (w : Watched τ σ) (h : P w.observer) :
      P (es.foldl (fail o "expired") w).observer := by
    induction es generalizing w with
    | nil => exact h
    | cons e es ih => exact ih _ (hfail _ w e h)
  have hretry (e : QueueEntry) (reason : String) (w : Watched τ σ) (h : P w.observer) :
      P (w.retry o now e reason).observer := by
    unfold retry
    dsimp only
    split
    · exact h
    · exact hfail _ _ _ h
  unfold send
  split
  · cases w.session.queue.next now with
    | none => exact hfailAll _ _ h
    | some taken =>
      unfold dispatch
      dsimp only
      split
      · exact hsent _ _ h
      · exact hretry _ _ _ h
      · exact hretry _ _ _ h
  · exact hfailAll _ _ h

/-- What an observer keeps whatever it is told, it keeps through an iteration. -/
theorem observer_iterate {o : Observer τ σ} {P : σ → Prop}
    (hmoved : ∀ t s x, P x → P (o.moved t (s, x)).2)
    (hreceived : ∀ p s x, P x → P (o.received p (s, x)).2)
    (hsent : ∀ m x, P x → P (o.sent m x)) (hfailed : ∀ m reason x, P x → P (o.failed m reason x))
    (now : Millis) {w : Watched τ σ} (h : P w.observer) : P (w.iterate o now).2.observer := by
  have hmove (w : Watched τ σ) (h : P w.observer) : P (w.move o now).observer := by
    unfold move
    split
    · exact h
    · dsimp only
      split
      · exact h
      · exact hmoved _ _ _ h
  have hreceiveAll (ps : List Packet) (w : Watched τ σ) (h : P w.observer) :
      P (ps.foldl (receive o) w).observer := by
    induction ps generalizing w with
    | nil => exact h
    | cons p ps ih => exact ih _ (hreceived p _ _ h)
  have hfolded := hmove { w with session := w.session.foldStatuses } h
  unfold iterate
  dsimp only
  split
  · exact h
  · split
    · exact observer_send hsent hfailed now hfolded
    · have hpumped : P (pump o (move o now { w with session := w.session.foldStatuses })).2.observer :=
        hreceiveAll _ _ hfolded
      split
      · exact hpumped
      · exact observer_send hsent hfailed now hpumped

/-! ### The flag through a run -/

section Follows

variable {o : Observer τ σ} (ho : o.LeavesFlag)
include ho

theorem follows_move (now : Millis) {w : Watched τ σ} (h : w.session.activity.Follows) :
    (w.move o now).session.activity.Follows := by
  cases ht : w.session.evaluate? now with
  | none =>
    rwa [move_of_none o ht]
  | some t =>
    obtain ⟨cs, hcs, hmoved⟩ := ho.moved t (w.session.enter t.target) w.observer
    have hsession : (w.move o now).session = (w.session.enter t.target).calls cs := by
      simp only [move, ht, report, Session.commit_of_evaluate ht, act]
      exact hmoved
    rw [hsession]
    exact Session.follows_calls (s := w.session.enter t.target) h hcs

theorem follows_receiveAll {w : Watched τ σ} (h : w.session.activity.Follows) (ps : List Packet) :
    (ps.foldl (receive o) w).session.activity.Follows := by
  induction ps generalizing w with
  | nil => exact h
  | cons p ps ih =>
    apply ih
    obtain ⟨cs, hcs, hreceived⟩ := ho.received p w.session w.observer
    have hsession : (w.receive o p).session = w.session.calls cs := hreceived
    rw [hsession]
    exact Session.follows_calls h hcs

theorem follows_pump {w : Watched τ σ} (h : w.session.activity.Follows) :
    (w.pump o).2.session.activity.Follows := by
  have hpolled : w.session.poll.2.takePackets.2.activity = w.session.activity := by
    simp only [Session.takePackets, Session.poll_snd]
  apply follows_receiveAll ho (w := { w with session := w.session.poll.2.takePackets.2 })
  rw [hpolled]
  exact h

theorem follows_step {w : Watched τ σ} (h : w.session.activity.Follows) {s : SessionStep τ}
    (hs : ∀ c, s = .call c → c.leavesFlag) : (w.step o s).session.activity.Follows := by
  cases s with
  | call c => exact Session.follows_call h (hs c rfl)
  | iterate now =>
    have hfold : (w.session.foldStatuses).activity.Follows := Session.follows_foldStatuses h
    have hprepare : (w.prepare o now).2.session.activity.Follows := by
      unfold prepare
      dsimp only
      split
      · exact hfold
      · have hmove := follows_move ho now (w := { w with session := w.session.foldStatuses }) hfold
        split
        · exact hmove
        · exact follows_pump ho hmove
    rw [step, iterate_snd]
    split
    · obtain ⟨queue, hsend⟩ := session_send o now (w.prepare o now).2
      rw [hsend]
      exact hprepare
    · exact hprepare

theorem follows_run {w : Watched τ σ} (h : w.session.activity.Follows)
    {steps : List (SessionStep τ)} (hsteps : ∀ c, .call c ∈ steps → c.leavesFlag) :
    (w.run o steps).session.activity.Follows := by
  induction steps generalizing w with
  | nil => exact h
  | cons s steps ih =>
    apply ih
    · apply follows_step ho h
      rintro c rfl
      exact hsteps c List.mem_cons_self
    · intro c hc
      exact hsteps c (List.mem_cons_of_mem s hc)

end Follows

/-! ### Failed sessions -/

/-- An iteration up to the point where it has applied the statuses and made its move. -/
def judge (o : Observer τ σ) (now : Millis) (w : Watched τ σ) : Watched τ σ :=
  let w := { w with session := w.session.foldStatuses }
  if w.session.isPaused then w else w.move o now

theorem isPaused_foldStatuses (s : Session τ) : s.foldStatuses.isPaused = s.isPaused := by
  obtain ⟨activity, failed, cursor, h⟩ := s.foldStatuses_eq
  rw [h]
  rfl

/-- An iteration of a failed session goes from its move right on to sending. -/
theorem prepare_of_error {o : Observer τ σ} {now : Millis} {w : Watched τ σ}
    (h : (w.judge o now).session.phase = .error) :
    w.prepare o now = (!w.session.isPaused, w.judge o now) := by
  simp only [prepare, judge, isPaused_foldStatuses] at h ⊢
  cases hp : w.session.isPaused with
  | true => rfl
  | false =>
    simp only [hp, Bool.false_eq_true, if_false] at h ⊢
    simp [h]

end Watched

/-- Reports went on from `before` to `after` with no packet handed out, and `sent` were sent. -/
def Report.Withheld (before : List Report) (sent : List MessageRef) (after : List Report) : Prop :=
  ∃ rs, after = before ++ rs ∧ (∀ payload, .received payload ∉ rs) ∧
    rs.filterMap Report.sent? = sent

namespace Watched

variable {τ σ : Type}

theorem withheld_refl (rs : List Report) : Report.Withheld rs [] rs :=
  ⟨[], (List.append_nil rs).symm, nofun, rfl⟩

theorem withheld_trans {rs₁ rs₂ rs₃ : List Report} {sent later : List MessageRef}
    (h : Report.Withheld rs₁ sent rs₂) (h' : Report.Withheld rs₂ later rs₃) :
    Report.Withheld rs₁ (sent ++ later) rs₃ := by
  obtain ⟨rs, rfl, hno, rfl⟩ := h
  obtain ⟨rs', rfl, hno', rfl⟩ := h'
  refine ⟨rs ++ rs', List.append_assoc _ _ _, ?_, List.filterMap_append⟩
  intro payload hmem
  rcases List.mem_append.mp hmem with hmem | hmem
  · exact hno payload hmem
  · exact hno' payload hmem

variable [Transport τ]

theorem withheld_send (o : Observer τ σ) (now : Millis) (w : Watched τ σ) :
    Report.Withheld w.reports ((w.sending? now).toList.filterMap Push.taken?)
      (w.send o now).2.reports := by
  obtain ⟨-, hreports⟩ := settles_send o now w
  refine ⟨(w.leaving now).map Exit.report, hreports, ?_, ?_⟩
  · intro payload hmem
    obtain ⟨x, -, hx⟩ := List.mem_map.mp hmem
    cases x <;> cases hx
  · unfold leaving
    cases w.sending? now with
    | none =>
      rw [List.map_map]
      exact filterMap_sent_failed "expired" _
    | some p =>
      obtain ⟨e, answer⟩ := p
      rcases answer with cause | taken
      · dsimp only [Push.failure?]
        split <;> rfl
      · cases taken with
        | true => rfl
        | false =>
          dsimp only [Push.failure?]
          split <;> rfl

theorem withheld_judge {o : Observer τ σ} (ho : o.OnlyCalls) (now : Millis) (w : Watched τ σ) :
    Report.Withheld w.reports [] (w.judge o now).reports := by
  unfold judge
  dsimp only
  split
  · exact withheld_refl w.reports
  · cases ht : w.session.foldStatuses.evaluate? now with
    | none =>
      rw [move_of_none o ht]
      exact withheld_refl w.reports
    | some t =>
      obtain ⟨cs, x, h⟩ := move_eq (w := { w with session := w.session.foldStatuses }) ho ht
      rw [h]
      exact ⟨[.before t, .after t], rfl, by simp, rfl⟩

theorem follows_judge {o : Observer τ σ} (ho : o.LeavesFlag) (now : Millis) {w : Watched τ σ}
    (h : w.session.activity.Follows) : (w.judge o now).session.activity.Follows := by
  have hfold := Session.follows_foldStatuses h
  unfold judge
  dsimp only
  split
  · exact hfold
  · exact follows_move ho now (w := { w with session := w.session.foldStatuses }) hfold

/-- Whatever happened to a session before, as long as only statuses set the activity flag: when
the session has failed once an iteration has made its move, it stays failed, its transport is polled
no more and no packet is handed out. All that the transport is asked for is to take the first due
shipment, and it is asked just if the last status applied was ready and the session is not paused;
the message is then reported as sent just if it was taken. -/
theorem failed_session_only_sends {o : Observer (Recorded τ) σ} (ho : o.LeavesFlag)
    (station : Entity) (host : String) (port : UInt16) (transport : Recorded τ)
    (settings : Settings) (start : Millis) (x : σ) (steps : List (SessionStep (Recorded τ)))
    (hsteps : ∀ c, .call c ∈ steps → c.leavesFlag) (now : Millis) :
    let w := (Watched.start station host port transport settings start x).run o steps
    let judged := w.judge o now
    let after := (w.iterate o now).2
    let push? := w.pushed? o (.iterate now)
    judged.session.phase = .error →
      after.session.phase = .error ∧
      after.session.transport.contacts =
        judged.session.transport.contacts ++ push?.toList.map (fun p => Contact.push p.1.shipment) ∧
      Report.Withheld w.reports (push?.toList.filterMap Push.taken?) after.reports ∧
      push?.map Prod.fst =
        if w.session.isPaused = false ∧ judged.session.connection = .ready then
          (judged.session.queue.next now).map Prod.fst
        else none := by
  intro w judged after push? herror
  have hprepare := prepare_of_error herror
  have hfollows : judged.session.activity.Follows :=
    follows_judge ho now (follows_run ho .initial hsteps)
  have hactive : judged.session.isActive = true ↔ judged.session.connection = .ready := by
    rw [Session.isActive, hfollows.active]
    exact beq_iff_eq
  have hreports := withheld_judge ho.onlyCalls now w
  have hafter : after = if !w.session.isPaused then (judged.send o now).2 else judged := by
    rw [show after = _ from iterate_snd o now w, hprepare]
  have hpush : push? = if !w.session.isPaused then judged.sending? now else none := by
    simp only [push?, pushed?, hprepare]
    rfl
  rw [hafter, hpush]
  cases hp : w.session.isPaused with
  | true => exact ⟨herror, (List.append_nil _).symm, hreports, rfl⟩
  | false =>
    obtain ⟨queue, hsession⟩ := session_send o now judged
    simp only [Bool.not_false, if_true, true_and]
    refine ⟨?_, ?_, withheld_trans hreports (withheld_send o now judged), ?_⟩
    · rw [hsession]
      exact herror
    · rw [hsession]
      cases judged.sending? now with
      | none => exact (List.append_nil _).symm
      | some p => rfl
    · unfold sending?
      simp only [hactive]
      split
      · rw [Option.map_map]
        rfl
      · rfl

/-- A session that fails, whose transport comes back, and that has something to send by then. -/
def cameBack (m : MessageRef) : List (SessionStep (Recorded Loopback)) :=
  let failed := Loopback.manual.changeStatus .error
  [.call (.setIdentity (some m.sender)), .call (.transport (.new failed)), .iterate 1,
    .call (.transport (.new (failed.changeStatus .ready))),
    .call (.enqueue ⟨m, ⟨[7], 0, none⟩, 2⟩)]

theorem failed_session_only_sends_cameBack :
    let m : MessageRef := ⟨⟨"alice", "moky", .user⟩, ⟨"bob", "moky", .user⟩, 1⟩
    let w := (start ⟨"gsp", "any", .station⟩ "127.0.0.1" 9394 (.new .manual) (.standard "courier")
      0 () : Watched (Recorded Loopback) Unit).run .connecting (cameBack m)
    (w.iterate .connecting 2).2.session.phase = .error ∧
      (w.iterate .connecting 2).2.session.transport.contacts = [.push ⟨[7], 0, none⟩] ∧
      Report.Withheld w.reports [m] (w.iterate .connecting 2).2.reports := by
  intro m w
  have herror : (w.judge .connecting 2).session.phase = .error := by decide +kernel
  have hjudged : (w.judge .connecting 2).session.transport.contacts = [] := by decide +kernel
  have hpush : (w.pushed? .connecting (.iterate 2)).toList.map
      (fun p => Contact.push p.1.shipment) = [.push ⟨[7], 0, none⟩] := by decide +kernel
  have hsent : (w.pushed? .connecting (.iterate 2)).toList.filterMap Push.taken? = [m] := by
    decide +kernel
  have hsteps (c : SessionCall (Recorded Loopback)) (hc : .call c ∈ cameBack m) :
      c.leavesFlag := by
    simp only [cameBack, List.mem_cons, SessionStep.call.injEq, reduceCtorEq, List.not_mem_nil,
      or_false, false_or] at hc
    rcases hc with rfl | rfl | rfl | rfl <;> rfl
  have hsends := failed_session_only_sends
    Observer.leavesFlag_connecting ⟨"gsp", "any", .station⟩ "127.0.0.1" 9394 (.new .manual)
    (.standard "courier") 0 () (cameBack m) hsteps 2
  obtain ⟨hphase, hcontacts, hreports, -⟩ := hsends herror
  have hw : (start ⟨"gsp", "any", .station⟩ "127.0.0.1" 9394 (.new .manual) (.standard "courier")
      0 () : Watched (Recorded Loopback) Unit).run .connecting (cameBack m) = w := rfl
  rw [hw] at hphase hcontacts hreports
  rw [hjudged, hpush] at hcontacts
  rw [hsent] at hreports
  exact ⟨hphase, hcontacts, hreports⟩

/-- The transport of a failed session is not left alone. -/
theorem failed_transport_not_left_alone : ¬ ∀ (steps : List (SessionStep (Recorded Loopback)))
    (now : Millis),
    let w := (start ⟨"gsp", "any", .station⟩ "127.0.0.1" 9394 (.new .manual) (.standard "courier")
      0 () : Watched (Recorded Loopback) Unit).run .connecting steps
    let judged := w.judge .connecting now
    let after := (w.iterate .connecting now).2
    judged.session.phase = .error →
      after.session.transport.contacts.count .poll =
        judged.session.transport.contacts.count .poll ∧
      (∀ s, after.session.transport.contacts.count (.push s) =
        judged.session.transport.contacts.count (.push s)) ∧
      Report.Withheld w.reports [] after.reports := by
  intro h
  obtain ⟨-, hpushes, -⟩ := h
    (cameBack ⟨⟨"alice", "moky", .user⟩, ⟨"bob", "moky", .user⟩, 1⟩) 2 (by decide +kernel)
  have hpush := hpushes ⟨[7], 0, none⟩
  revert hpush
  decide +kernel

end Watched

end Courier
