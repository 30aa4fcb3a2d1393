import Courier.Proofs.Client.Conduct
import Courier.Proofs.Client.Cooldowns
import Courier.Proofs.Session.Draining
import Courier.Proofs.Session.Failures
import Courier.Proofs.Session.Stamps

/-!
# Recovery of a failed session

A reset forgets the failure, the connection and the key, and keeps the date of the last status that
was applied. The clock of the transport was never behind that date, so what the transport stamps
when it connects anew is applied, and the session rises again one phase in every iteration, through
whatever came in and whatever waits to be sent.
-/

namespace Courier

/-! ### What a client leaves alone -/

namespace Client

variable {τ : Type}

/-- Only the queue and the key of the session differ. -/
def SameLink (c c' : Client τ) : Prop :=
  ∃ queue key, c'.session = { c.session with queue := queue, key := key }

theorem composes_sameLink : Composes (SameLink : Client τ → Client τ → Prop) where
  refl _ := ⟨_, _, rfl⟩
  trans := by
    rintro a b c ⟨queue, key, hb⟩ ⟨queue', key', hc⟩
    exact ⟨queue', key', by rw [hc, hb]⟩

theorem sameLink_sendInstant (m : Message) (priority : Priority) :
    Keeps SameLink (sendInstant m priority : Action τ MessengerError _) := by
  refine Keeps.sendInstant composes_sameLink fun c b _ => ?_
  obtain ⟨-, -, hsession⟩ := c.submitted_fields ⟨m, b⟩ priority
  exact ⟨_, _, hsession⟩

theorem sameLink_setKey (c : Client τ) (k : String) :
    SameLink c { c with session := (c.session.setKey (some k)).2 } := by
  unfold Session.setKey
  split
  · exact ⟨_, _, rfl⟩
  · exact ⟨_, _, rfl⟩

theorem keptByActing_sameLink : KeptByActing (SameLink : Client τ → Client τ → Prop) where
  toComposes := composes_sameLink
  newContent _ _ := ⟨_, _, rfl⟩
  requestQuery _ _ := ⟨_, _, rfl⟩
  sendInstant m priority _ := sameLink_sendInstant m priority
  seen _ _ _ := ⟨_, _, rfl⟩
  card _ _ _ := ⟨_, _, rfl⟩
  history _ _ _ := ⟨_, _, rfl⟩
  roster _ _ := Keeps.saveMembers composes_sameLink fun _ => ⟨_, _, rfl⟩
  first := sameLink_sendInstant
  online _ := ⟨_, _, rfl⟩

theorem sameLink_receive (payload : Bytes) :
    Keeps SameLink (receive payload : Action τ MessengerError Nat) :=
  keptByActing_sameLink.receive sameLink_setKey (fun _ _ => ⟨_, _, rfl⟩) payload

theorem sameLink_perform [Transport τ] (c : Client τ) {effect : Effect} (h : effect ≠ .connect) :
    SameLink c (doing (perform effect) c) := by
  have hkept := keptByActing_sameLink (τ := τ)
  cases effect with
  | none => exact composes_sameLink.refl c
  | connect => exact absurd rfl h
  | sendHandshake => exact hkept.handshake hkept.first none c
  | broadcastDocuments => exact hkept.handshakeSuccess c
  | resetFreshness => exact ⟨_, _, rfl⟩

end Client

namespace Watched

variable {τ : Type} [Transport τ]

/-- A move enters the next stage, and then connects if that is its effect. -/
theorem session_move {now : Millis} {w : Watched τ Desk} {t : Transition}
    (ht : w.session.evaluate? now = some t) : ∃ queue key,
      (w.move Client.observer now).session =
        { (if t.effect = .connect then (w.session.enter t.target).connect.2
            else w.session.enter t.target) with queue := queue, key := key } := by
  have hmove : (w.move Client.observer now).session =
      (Client.doing (Client.perform t.effect) ⟨w.session.enter t.target, w.observer⟩).session :=
    congrArg Client.session (move_client ht)
  by_cases heffect : t.effect = .connect
  · rw [heffect, Client.doing_connect] at hmove
    rw [if_pos heffect]
    exact ⟨_, _, hmove⟩
  · rw [if_neg heffect]
    obtain ⟨queue, key, hperform⟩ :=
      Client.sameLink_perform ⟨w.session.enter t.target, w.observer⟩ heffect
    exact ⟨queue, key, hmove.trans hperform⟩

theorem sameLink_receiveAll (w : Watched τ Desk) (ps : List Packet) :
    Client.SameLink w.client (ps.foldl (receive Client.observer) w).client := by
  induction ps generalizing w with
  | nil => exact Client.composes_sameLink.refl w.client
  | cons p ps ih =>
    have hreceive : Client.SameLink w.client (w.receive Client.observer p).client :=
      Client.sameLink_receive p.payload w.client
    exact Client.composes_sameLink.trans hreceive (ih (w.receive Client.observer p))

theorem session_pump (w : Watched τ Desk) : ∃ queue key,
    (w.pump Client.observer).2.session =
      { w.session.poll.2.takePackets.2 with queue := queue, key := key } :=
  sameLink_receiveAll { w with session := w.session.poll.2.takePackets.2 }
    w.session.poll.2.takePackets.1

end Watched

/-! ### The clock of the transport through a history -/

namespace Watched

variable {n : Nat} {w : Watched Loopback Desk}

theorem led_move (h : w.session.Led (n + 2)) (now : Millis) :
    (w.move Client.observer now).session.Led n := by
  have hless : w.session.Led n := h.less (Nat.le_add_right n 2)
  cases ht : w.session.evaluate? now with
  | none =>
    rw [move_of_none _ ht]
    exact hless
  | some t =>
    obtain ⟨queue, key, hsession⟩ := session_move ht
    rw [hsession]
    split
    · rw [Session.connect_snd]
      exact Loopback.Leads.connect h _
    · exact hless

theorem led_pump (h : w.session.Led n) : (w.pump Client.observer).2.session.Led n := by
  obtain ⟨queue, key, hsession⟩ := session_pump w
  rw [hsession, Session.poll_snd]
  exact Loopback.Leads.poll h

theorem led_send (h : w.session.Led (n + 1)) (now : Millis) :
    (w.send Client.observer now).2.session.Led n := by
  obtain ⟨queue, hsession⟩ := session_send Client.observer now w
  rw [hsession]
  cases w.sending? now with
  | none => exact h.less (Nat.le_succ n)
  | some p => exact Loopback.Leads.push h _ _

/-- An iteration takes two ticks at most to connect, and one more for a push that breaks. -/
theorem led_iterate (h : w.session.Led 3) (now : Millis) :
    (w.iterate Client.observer now).2.session.Led 0 := by
  let folded : Watched Loopback Desk := { w with session := w.session.foldStatuses }
  have hfolded : folded.session.Led 3 := h.foldStatuses
  have hmoved : (folded.move Client.observer now).session.Led 1 := led_move hfolded now
  have hpumped := led_pump hmoved
  unfold iterate
  dsimp only
  split
  · exact hfolded.less (Nat.zero_le 3)
  · split
    · exact led_send hmoved now
    · split
      · exact hpumped.less (Nat.zero_le 1)
      · exact led_send hpumped now

end Watched

/-- What may happen to a client that keeps its session and to the loopback transport of the
session. -/
inductive LoopbackStep where
  | client (s : ClientStep Loopback)
  | transport (call : LoopbackCall)
  /-- The queue is dropped. -/
  | clear

/-- The client keeps its session, and the session keeps its transport. -/
def LoopbackStep.stays : LoopbackStep → Bool
  | .client (.call (.reconnect _ _)) | .client (.call (.session (.transport _))) => false
  | _ => true

namespace Client

def follow (c : Client Loopback) : LoopbackStep → Client Loopback
  | .client s => (c.step s).2
  | .transport call => { c with session :=
      { c.session with transport := c.session.transport.call call } }
  | .clear => { c with session := { c.session with queue := c.session.queue.clear.2 } }

def followAll (c : Client Loopback) (steps : List LoopbackStep) : Client Loopback :=
  steps.foldl follow c

/-- The clock of the transport, which is set back just if it runs over. -/
def ticks (c : Client Loopback) : Millis := c.session.transport.ticks

/-- The clock never runs over. -/
def Forward (c : Client Loopback) : List LoopbackStep → Prop
  | [] => True
  | s :: steps => c.ticks ≤ (c.follow s).ticks ∧ (c.follow s).Forward steps

instance decidableForward : (c : Client Loopback) → (steps : List LoopbackStep) →
    Decidable (c.Forward steps)
  | _, [] => isTrue trivial
  | c, s :: steps =>
    have := decidableForward (c.follow s) steps
    inferInstanceAs (Decidable (c.ticks ≤ (c.follow s).ticks ∧ _))

variable {c : Client Loopback}

theorem led_follow (h : c.session.Led 3) {s : LoopbackStep} (hs : s.stays) :
    (c.follow s).session.Led 0 := by
  have hless : c.session.Led 0 := h.less (Nat.zero_le 3)
  cases s with
  | transport call => exact Loopback.Leads.call (h.less (Nat.le_succ 2)) call
  | clear => exact hless
  | client s =>
    cases s with
    | iterate => exact Watched.led_iterate (w := ⟨c.session, c.desk, []⟩) h c.account.clock
    | call call =>
      by_cases hdeed : IsDeed call
      · obtain ⟨queue, key, hsession⟩ := keptByActing_sameLink.call c hdeed fun payload _ =>
          sameLink_receive payload c
        exact hless.of_same (by rw [follow, step, hsession]) (by rw [follow, step, hsession])
          (by rw [follow, step, hsession])
      · cases call with
        | session call =>
          refine Session.Led.call (h.less (Nat.le_succ 2)) ?_
          rintro t rfl
          exact Bool.false_ne_true hs
        | reconnect session desk => exact absurd hs Bool.false_ne_true
        | _ => first | exact hless | exact absurd trivial hdeed

theorem Forward.le {steps : List LoopbackStep} (h : c.Forward steps) :
    c.ticks ≤ (c.followAll steps).ticks := by
  induction steps generalizing c with
  | nil => exact UInt64.le_refl _
  | cons s steps ih => exact UInt64.le_trans h.1 (ih h.2)

/-- The clock is never later than in the end, so what is room enough there was always enough. -/
theorem led_followAll (h : c.session.Led 0) {steps : List LoopbackStep}
    (hstays : ∀ s ∈ steps, s.stays) (hforward : c.Forward steps)
    (hend : (c.followAll steps).ticks.toNat + 3 ≤ Millis.latest.toNat) :
    (c.followAll steps).session.Led 3 := by
  induction steps generalizing c with
  | nil => exact { h with room := hend }
  | cons s steps ih =>
    have hle : c.ticks.toNat ≤ (c.followAll (s :: steps)).ticks.toNat :=
      UInt64.le_iff_toNat_le.mp hforward.le
    have hroom : c.session.Led 3 :=
      { h with room := Nat.le_trans (Nat.add_le_add_right hle 3) hend }
    have hrest (s') (hs' : s' ∈ steps) := hstays s' (List.mem_cons_of_mem s hs')
    exact ih (led_follow hroom (hstays s List.mem_cons_self)) hrest hforward.2 hend

end Client

/-! ### Iterations at an open transport -/

theorem Activity.alarms_eq_nil {a : Activity} {es : List StatusEvent}
    (h : ∀ e ∈ es, e.status ≠ .error) : a.alarms es = [] := by
  induction es generalizing a with
  | nil => rfl
  | cons e es ih =>
    have hrest (b : Activity) : b.alarms es = [] :=
      ih fun e' he' => h e' (List.mem_cons_of_mem e he')
    rw [alarms]
    cases a.accept? e with
    | none => exact hrest a
    | some b => simp only [if_neg (h e List.mem_cons_self), hrest, List.append_nil]

/-- Statuses among which there is no error only change the activity. -/
theorem Session.foldStatuses_of_calm {s : Session Loopback} {es : List StatusEvent}
    (hes : s.transport.statusEvents.waiting s.statusCursor = es)
    (hcalm : ∀ e ∈ es, e.status ≠ .error) : s.foldStatuses =
      { s with
        activity := s.activity.applyAll es
        statusCursor := s.transport.statusEvents.subscribe } := by
  have hwaiting : (Transport.statusEvents s.transport).waiting s.statusCursor = es := hes
  obtain ⟨activity, failed, cursor, hfold⟩ := s.foldStatuses_eq
  obtain ⟨hactivity, hcursor, -⟩ := s.foldStatuses_fields
  have hfailed := s.transportFailed_foldStatuses
  rw [Session.alarms, hwaiting, Activity.alarms_eq_nil hcalm] at hfailed
  rw [hwaiting] at hactivity
  rw [hfold] at hactivity hcursor hfailed ⊢
  dsimp only at hactivity hcursor hfailed
  subst hactivity hcursor hfailed
  rfl

/-- Whatever else became of the session, its next iterations make the same moves, and its transport
is open. -/
structure Session.Resumes (s s' : Session Loopback) : Prop where
  machine : s'.machine = s.machine
  transportFailed : s'.transportFailed = s.transportFailed
  activity : s'.activity = s.activity
  statusCursor : s'.statusCursor = s.statusCursor
  statusEvents : s'.transport.statusEvents = s.transport.statusEvents
  opened : s'.transport.Open

theorem Session.Resumes.trans {s₁ s₂ s₃ : Session Loopback} (h : s₁.Resumes s₂)
    (h' : s₂.Resumes s₃) : s₁.Resumes s₃ where
  machine := h'.machine.trans h.machine
  transportFailed := h'.transportFailed.trans h.transportFailed
  activity := h'.activity.trans h.activity
  statusCursor := h'.statusCursor.trans h.statusCursor
  statusEvents := h'.statusEvents.trans h.statusEvents
  opened := h'.opened

namespace Watched

variable {w : Watched Loopback Desk}

/-- Neither packets nor a busy poll keep the session from going on. -/
theorem resumes_pump (h : w.session.transport.Open) :
    w.session.Resumes (w.pump Client.observer).2.session := by
  have hpoll : Transport.poll w.session.transport = (.ok w.session.transport.pending,
      { w.session.transport with pending := ⟨false, false⟩ }) := h.poll
  obtain ⟨queue, key, hsession⟩ := session_pump w
  rw [hsession, Session.poll_snd, hpoll]
  exact ⟨rfl, rfl, rfl, rfl, rfl, { h with }⟩

theorem resumes_send (h : w.session.transport.Open) (now : Millis) :
    w.session.Resumes (w.send Client.observer now).2.session := by
  obtain ⟨queue, hsession⟩ := session_send Client.observer now w
  have htaken (p : Push) : Transport.push w.session.transport p.1.shipment w.session.remote =
      (.ok true, w.session.transport.taking p.1.shipment w.session.remote) := h.push _ _
  have hanswer : ((w.sending? now).bind Push.error?) = none := by
    unfold sending?
    split
    · rw [Option.bind_map]
      cases w.session.queue.next now with
      | none => rfl
      | some taken =>
        have hpush : (({ w.session with queue := taken.2 } : Session Loopback).push taken.1).1 =
            .ok true := (Session.push_fst _ _).trans (congrArg Prod.fst (h.push _ _))
        simp [Push.error?, hpush]
    · rfl
  rw [hsession, hanswer]
  cases w.sending? now with
  | none => exact ⟨rfl, Bool.or_false _, rfl, rfl, rfl, h⟩
  | some p =>
    rw [Option.map_some, htaken]
    exact ⟨rfl, Bool.or_false _, rfl, rfl, rfl, { h with }⟩

/-- From its move on, an iteration does nothing that the next ones notice. -/
theorem resumes_iterate {now : Millis} {t : Transition} {entered : Session Loopback}
    (hpaused : w.session.isPaused = false)
    (ht : w.session.foldStatuses.evaluate? now = some t) (hphase : t.target.phase ≠ .error)
    (hentered : (if t.effect = .connect then (w.session.foldStatuses.enter t.target).connect.2
      else w.session.foldStatuses.enter t.target) = entered)
    (h : entered.transport.Open) :
    entered.Resumes (w.iterate Client.observer now).2.session := by
  have hunpaused : w.session.foldStatuses.isPaused = false :=
    (isPaused_foldStatuses w.session).trans hpaused
  obtain ⟨moved, hmoved⟩ : ∃ moved, moved = ({ w with session := w.session.foldStatuses } :
    Watched Loopback Desk).move Client.observer now := ⟨_, rfl⟩
  obtain ⟨queue, key, hsession⟩ :=
    session_move (w := { w with session := w.session.foldStatuses }) ht
  rw [← hmoved, hentered] at hsession
  have hstart : entered.Resumes moved.session := by
    rw [hsession]
    exact ⟨rfl, rfl, rfl, rfl, rfl, h⟩
  have hstage : moved.session.phase ≠ .error := by
    have hmove := stage_move (w := { w with session := w.session.foldStatuses }) ht
    rw [← hmoved] at hmove
    exact (congrArg Stage.phase hmove).trans_ne hphase
  have hpump := resumes_pump hstart.opened
  have hprepare : w.prepare Client.observer now =
      (!(moved.pump Client.observer).1, (moved.pump Client.observer).2) := by
    simp only [prepare, hunpaused, Bool.false_eq_true, if_false, ← hmoved, if_neg hstage]
  rw [iterate_snd, hprepare]
  split
  · exact (hstart.trans hpump).trans (resumes_send hpump.opened now)
  · exact hstart.trans hpump

end Watched

/-! ### From the reset to the handshake -/

namespace Session

theorem remote_isEmpty {τ : Type} (s : Session τ) : s.remote.isEmpty = false := by
  have hcolon : ':' ∈ s.remote.toList := by simp [remote]
  rw [String.isEmpty_eq_false_iff]
  intro hempty
  rw [hempty] at hcolon
  cases hcolon

theorem evaluate?_of_detect? {τ : Type} {s : Session τ} {now : Millis} {event : LifecycleEvent}
    {phase : Phase} {effect : Effect} (hpaused : s.isPaused = false)
    (hdetect : s.stage.detect? s.snapshot now s.machine.handshakeTimeout = some event)
    (hfollow : s.phase.follow? event = some (phase, effect)) :
    s.evaluate? now = some ⟨s.stage, ⟨phase, now⟩, event, effect⟩ := by
  have hunpaused : ¬s.machine.paused = true := ne_true_of_eq_false hpaused
  have hdetected : s.machine.stage.detect? s.snapshot now s.machine.handshakeTimeout =
      some event := hdetect
  have hfollowed : s.machine.stage.phase.follow? event = some (phase, effect) := hfollow
  rw [evaluate?, Machine.evaluate?, if_neg hunpaused, hdetected, Option.bind_some,
    Machine.transition?, hfollowed]
  rfl

/-- The session was reset, at a transport from which it has heard everything and which has no fault
scripted. -/
structure Restarted (s : Session Loopback) : Prop where
  phase : s.phase = .default
  unpaused : s.isPaused = false
  bound : s.identity.isSome
  unfailed : s.transportFailed = false
  idle : s.connection = .idle
  drained : s.transport.statusEvents.waiting s.statusCursor = []
  faultless : s.transport.faults = []
  led : s.Led 2

/-- The transport has connected at once, and the session has still to hear of it. -/
structure Connecting (s : Session Loopback) : Prop where
  phase : s.phase = .connecting
  unpaused : s.isPaused = false
  unfailed : s.transportFailed = false
  opened : s.transport.Open
  news : ∃ t, s.activity.statusAt < t ∧ t < t + 1 ∧
    s.transport.statusEvents.waiting s.statusCursor = [⟨.connecting, t⟩, ⟨.ready, t + 1⟩]

structure Connected (s : Session Loopback) : Prop where
  phase : s.phase = .connected
  unpaused : s.isPaused = false
  unfailed : s.transportFailed = false
  ready : s.connection = .ready
  drained : s.transport.statusEvents.waiting s.statusCursor = []

end Session

namespace Watched

variable {w : Watched Loopback Desk}

theorem restarted_iterate (h : w.session.Restarted) (now : Millis) :
    (w.iterate Client.observer now).2.session.Connecting := by
  have hfold := Session.foldStatuses_of_calm h.drained (by simp)
  have hidle : w.session.activity.connection = .idle := h.idle
  have hphase : w.session.machine.stage.phase = .default := h.phase
  have ht : w.session.foldStatuses.evaluate? now =
      some ⟨w.session.stage, ⟨.connecting, now⟩, .identityAssigned, .connect⟩ := by
    rw [hfold]
    refine Session.evaluate?_of_detect? h.unpaused ?_ (congrArg (Phase.follow? · _) h.phase)
    simp [Stage.detect?, Session.stage, Session.snapshot, Snapshot.isBroken, Session.connection,
      Activity.applyAll, hphase, hidle, h.unfailed, h.bound]
  have hopen := Loopback.open_connect h.led.autoReady w.session.remote_isEmpty h.faultless
  have hnews := h.led.news w.session.remote_isEmpty
  obtain ⟨hfirst, hroom⟩ := Millis.lt_succ h.led.room
  obtain ⟨hsecond, -⟩ := Millis.lt_succ hroom
  have hentered : ((w.session.foldStatuses.enter ⟨.connecting, now⟩).connect.2) =
      { w.session.enter ⟨.connecting, now⟩ with
        transport := (w.session.transport.connect w.session.remote).2
        statusCursor := w.session.transport.statusEvents.subscribe } := by
    have hanswer : (Transport.connect w.session.transport w.session.remote).1 = .ok () :=
      congrArg Prod.fst
        (Loopback.connect_of_autoReady h.led.autoReady w.session.remote_isEmpty)
    rw [hfold, Session.connect_snd]
    simp only [Session.enter, Session.remote] at hanswer ⊢
    rw [hanswer]
    rfl
  obtain ⟨hmachine, hfailed, hactivity, hcursor, hevents, hopened⟩ :=
    resumes_iterate h.unpaused ht (by simp) ((if_pos rfl).trans hentered) hopen
  refine ⟨?_, ?_, hfailed.trans h.unfailed, hopened, w.session.transport.ticks + 1, ?_, hsecond, ?_⟩
  · exact congrArg (·.stage.phase) hmachine
  · exact (congrArg Machine.paused hmachine).trans h.unpaused
  · rw [hactivity]
    exact UInt64.lt_of_le_of_lt h.led.noted hfirst
  · rw [hevents, hcursor]
    exact hnews

theorem connecting_iterate (h : w.session.Connecting) (now : Millis) :
    (w.iterate Client.observer now).2.session.Connected := by
  obtain ⟨hphase, hpaused, hunfailed, hopen, t, hnew, hnext, hnews⟩ := h
  have hphase' : w.session.machine.stage.phase = .connecting := hphase
  have hfold := Session.foldStatuses_of_calm hnews (by simp)
  obtain ⟨a, hfirst, -, hstatusAt⟩ := Activity.accept?_eq_some (e := ⟨.connecting, t⟩) hnew
  obtain ⟨b, hsecond, hready, -⟩ := Activity.accept?_eq_some (a := a) (e := ⟨.ready, t + 1⟩)
    (hstatusAt ▸ hnext)
  rw [Activity.applyAll_cons_some hfirst, Activity.applyAll_cons_some hsecond] at hfold
  have ht : w.session.foldStatuses.evaluate? now =
      some ⟨w.session.stage, ⟨.connected, now⟩, .connectionEstablished, .none⟩ := by
    rw [hfold]
    refine Session.evaluate?_of_detect? hpaused ?_ (congrArg (Phase.follow? · _) hphase)
    simp [Stage.detect?, Session.stage, Session.snapshot, Snapshot.isBroken, Snapshot.isReady,
      Session.connection, Activity.applyAll, hphase', hready, hunfailed]
  have hentered : w.session.foldStatuses.enter ⟨.connected, now⟩ =
      { w.session.enter ⟨.connected, now⟩ with
        activity := b
        statusCursor := w.session.transport.statusEvents.subscribe } := by
    rw [hfold]
    rfl
  obtain ⟨hmachine, hfailed, hactivity, hcursor, hevents, -⟩ :=
    resumes_iterate hpaused ht (by simp) ((if_neg (by simp)).trans hentered) hopen
  refine ⟨?_, ?_, hfailed.trans hunfailed, ?_, ?_⟩
  · exact congrArg (·.stage.phase) hmachine
  · exact (congrArg Machine.paused hmachine).trans hpaused
  · exact (congrArg Activity.connection hactivity).trans hready
  · rw [hevents, hcursor]
    exact Channel.waiting_subscribe _

theorem connected_iterate (h : w.session.Connected) (now : Millis) :
    (w.iterate Client.observer now).2.session.phase = .handshaking := by
  have hfold := Session.foldStatuses_of_calm h.drained (by simp)
  have hphase : w.session.machine.stage.phase = .connected := h.phase
  have hready : w.session.activity.connection = .ready := h.ready
  have ht : w.session.foldStatuses.evaluate? now =
      some ⟨w.session.stage, ⟨.handshaking, now⟩, .noError, .sendHandshake⟩ := by
    rw [hfold]
    refine Session.evaluate?_of_detect? h.unpaused ?_ (congrArg (Phase.follow? · _) h.phase)
    simp [Stage.detect?, Session.stage, Session.snapshot, Snapshot.isBroken, Snapshot.isReady,
      Session.connection, Activity.applyAll, hphase, hready, h.unfailed]
  have hstage := stage_iterate now w
  rw [ht] at hstage
  exact congrArg Stage.phase hstage

end Watched

namespace Client

/-- The session has failed and can be reset for good: it is bound to an identity and not paused, has
heard all that its transport told, and the transport has no fault scripted and time left. -/
structure Recoverable (c : Client Loopback) : Prop where
  failed : c.session.phase = .error
  bound : c.session.identity.isSome
  unpaused : c.session.isPaused = false
  drained : c.session.transport.statusEvents.waiting c.session.statusCursor = []
  faultless : c.session.transport.faults = []
  early : c.ticks.toNat + 3 ≤ Millis.latest.toNat

theorem Recoverable.restarted {c : Client Loopback} (h : c.Recoverable) (hled : c.session.Led 3)
    (now : Millis) : (∃ t, c.session.reset now = .ok (t, (c.session.call (.reset now)))) ∧
      (c.session.call (.reset now)).Restarted := by
  have hreset := Session.reset_eq c.session now
  rw [if_pos h.failed] at hreset
  rw [Session.call, hreset]
  refine ⟨⟨_, rfl⟩, rfl, h.unpaused, h.bound, rfl, rfl, h.drained, h.faultless, ?_⟩
  exact hled.less (Nat.le_succ 2)

/-- An iteration once the clock shows at least the given time. -/
def iterateAt (c : Client Loopback) (time : Millis) : Client Loopback :=
  ((c.call (.wait time)).step .iterate).2

section Rising

variable {c : Client Loopback}

theorem restarted_iterateAt (h : c.session.Restarted) (time : Millis) :
    (c.iterateAt time).session.Connecting :=
  Watched.restarted_iterate (w := ⟨c.session, (c.call (.wait time)).desk, []⟩) h _

theorem connecting_iterateAt (h : c.session.Connecting) (time : Millis) :
    (c.iterateAt time).session.Connected :=
  Watched.connecting_iterate (w := ⟨c.session, (c.call (.wait time)).desk, []⟩) h _

theorem connected_iterateAt (h : c.session.Connected) (time : Millis) :
    (c.iterateAt time).session.phase = .handshaking :=
  Watched.connected_iterate (w := ⟨c.session, (c.call (.wait time)).desk, []⟩) h _

end Rising

/-- Wherever a history without overflow of its transport's clock has led a session, whatever packets
and shipments there are, if it has failed and can recover, a reset succeeds, and the next three
iterations lead through connecting and connected to the handshake. -/
theorem reset_recovers (station : Entity) (host : String) (port : UInt16)
    (used : List LoopbackCall) (settings : Settings) (start : Millis) (desk : Desk)
    (steps : List LoopbackStep) (hstays : ∀ s ∈ steps, s.stays) :
    let opened : Client Loopback :=
      ⟨.new station host port (Loopback.auto.calls used) settings start, desk⟩
    let c := opened.followAll steps
    opened.Forward steps → c.Recoverable → ∀ now t₁ t₂ t₃ : Millis,
      let fresh := c.call (.session (.reset now))
      (∃ t, c.session.reset now = .ok (t, fresh.session)) ∧
      fresh.session.phase = .default ∧
      (fresh.iterateAt t₁).session.phase = .connecting ∧
      ((fresh.iterateAt t₁).iterateAt t₂).session.phase = .connected ∧
      (((fresh.iterateAt t₁).iterateAt t₂).iterateAt t₃).session.phase = .handshaking := by
  intro opened c hforward h now t₁ t₂ t₃ fresh
  have hopened : opened.session.Led 0 := Loopback.leads_calls used
  have hled : c.session.Led 3 := led_followAll hopened hstays hforward h.early
  obtain ⟨hreset, hfresh⟩ := h.restarted hled now
  have hfirst : (fresh.iterateAt t₁).session.Connecting := restarted_iterateAt hfresh t₁
  have hsecond := connecting_iterateAt hfirst t₂
  exact ⟨hreset, hfresh.phase, hfirst.phase, hsecond.phase, connected_iterateAt hsecond t₃⟩

/-- A push breaks while the session shakes hands, a status of long ago and one from the future are
reported of the dead transport, it is closed, and more comes in and is queued. -/
def brokenOff : List LoopbackStep :=
  [.client (.call (.session (.setIdentity (some ⟨"alice", "moky", .user⟩)))), .client .iterate,
    .client .iterate, .transport .breakNextPush, .client .iterate, .client .iterate,
    .client .iterate, .transport (.setStatus .connecting 1), .transport (.setStatus .ready 900),
    .client .iterate, .transport .close, .client .iterate, .transport (.deliver [1]),
    .client (.call (.report .online))]

theorem reset_recovers_brokenOff :
    let opened : Client Loopback :=
      ⟨.new .anyStation "127.0.0.1" 9394 (Loopback.auto.calls [.connect "127.0.0.1:80", .close])
        (.standard "courier") 0, (Query.signedIn Query.signedOut).desk⟩
    let c := opened.followAll brokenOff
    let fresh := c.call (.session (.reset 3000))
    (∀ s ∈ brokenOff, s.stays) ∧ opened.Forward brokenOff ∧ c.Recoverable ∧
      (((fresh.iterateAt 3001).iterateAt 3002).iterateAt 3003).session.phase = .handshaking := by
  intro opened c fresh
  have hstays : ∀ s ∈ brokenOff, s.stays := by decide
  have hforward : opened.Forward brokenOff := by decide +kernel
  have h : c.Recoverable := by constructor <;> decide +kernel
  obtain ⟨-, -, -, -, hlast⟩ := reset_recovers .anyStation "127.0.0.1" 9394
    [.connect "127.0.0.1:80", .close] (.standard "courier") 0 (Query.signedIn Query.signedOut).desk
    brokenOff hstays hforward h 3000 3001 3002 3003
  exact ⟨hstays, hforward, h, hlast⟩

end Client

end Courier
