import Courier.Proofs.Session.Conservation
import Courier.Proofs.Session.View

/-!
# Draining a quiet session

A push leaves the transport busy, and a busy transport takes up the next iteration without a
shipment leaving. So a session whose transport takes everything and that nothing else happens to
sends one due shipment in two iterations, whether it finds the transport busy or not, and nothing is
purged before the last of them is gone.
-/

namespace Courier

namespace Loopback

/-- The transport takes what is pushed to it. -/
structure Open (t : Loopback) : Prop where
  unclosed : t.closed = false
  ready : t.status = .ready
  faultless : t.faults = []

/-- The transport with one more shipment. -/
def taking (t : Loopback) (s : Shipment) (destination : String) : Loopback :=
  { t with
    pushed := t.pushed ++ [(s, destination)]
    pending := { t.pending with outgoing := true } }

theorem Open.poll {t : Loopback} (h : t.Open) :
    t.poll = (.ok t.pending, { t with pending := ⟨false, false⟩ }) := by
  simp [Loopback.poll, h.unclosed, h.ready]

theorem Open.push {t : Loopback} (h : t.Open) (s : Shipment) (destination : String) :
    t.push s destination = (.ok true, t.taking s destination) := by
  obtain ⟨status, remote, pushed, faults, autoReady, closed⟩ := t
  obtain ⟨hclosed, hready, hfaults⟩ := h
  dsimp only at hclosed hready hfaults
  subst hclosed hready hfaults
  rfl

end Loopback

namespace Session

/-- An active session that has nothing to hear and no transition to make, at a loopback transport
that takes everything. -/
structure Undisturbed (s : Session Loopback) (now : Millis) : Prop where
  active : s.isActive = true
  unpaused : s.isPaused = false
  unfailed : s.phase ≠ .error
  opened : s.transport.Open
  statuses : s.transport.statusEvents.waiting s.statusCursor = []
  packets : s.transport.packets.waiting s.packetCursor = []
  settled : s.evaluate? now = none

/-- The session after it has listened to a transport with nothing to tell. -/
def listened (s : Session Loopback) : Session Loopback :=
  { s with
    statusCursor := s.transport.statusEvents.subscribe
    packetCursor := s.transport.packets.subscribe
    transport := { s.transport with pending := ⟨false, false⟩ } }

/-- The session after the transport has taken an entry that left the given queue behind. -/
def delivered (s : Session Loopback) (e : QueueEntry) (left : DeliveryQueue) : Session Loopback :=
  { s with
    queue := left.complete e
    transport := s.transport.taking e.shipment s.remote }

namespace Undisturbed

variable {s : Session Loopback} {now : Millis}

theorem listened (h : s.Undisturbed now) : s.listened.Undisturbed now :=
  { h with
    opened := { h.opened with }
    statuses := Channel.waiting_subscribe _
    packets := Channel.waiting_subscribe _ }

theorem delivered (h : s.Undisturbed now) (e : QueueEntry) (left : DeliveryQueue) :
    (s.delivered e left).Undisturbed now :=
  { h with opened := { h.opened with } }

theorem foldStatuses (h : s.Undisturbed now) :
    s.foldStatuses = { s with statusCursor := s.transport.statusEvents.subscribe } := by
  have hdrain : (Transport.statusEvents s.transport).drain s.statusCursor =
      ([], s.transport.statusEvents.subscribe) := congrArg (·, _) h.statuses
  rw [Session.foldStatuses, hdrain]
  rfl

theorem poll (h : s.Undisturbed now) :
    s.poll = (s.transport.pending.isBusy,
      { s with transport := { s.transport with pending := ⟨false, false⟩ } }) := by
  have hpoll : Transport.poll s.transport =
      (.ok s.transport.pending, { s.transport with pending := ⟨false, false⟩ }) :=
    h.opened.poll
  rw [Session.poll, hpoll]

theorem push (h : s.Undisturbed now) (e : QueueEntry) :
    s.push e = (.ok true, { s with transport := s.transport.taking e.shipment s.remote }) := by
  have hpush : Transport.push s.transport e.shipment s.remote =
      (.ok true, s.transport.taking e.shipment s.remote) :=
    h.opened.push e.shipment s.remote
  rw [Session.push, hpush]

end Undisturbed

end Session

namespace Watched

variable {σ : Type} (o : Observer Loopback σ) {now : Millis} {w : Watched Loopback σ}

/-! ### One iteration -/

/-- Nothing but the transport is looked at, and the iteration ends there if it was busy. -/
theorem prepare_undisturbed (h : w.session.Undisturbed now) :
    w.prepare o now =
      (!w.session.transport.pending.isBusy, { w with session := w.session.listened }) := by
  let listening : Session Loopback :=
    { w.session with statusCursor := w.session.transport.statusEvents.subscribe }
  have hlistening : listening.Undisturbed now :=
    { h with statuses := Channel.waiting_subscribe _ }
  have hmove : ({ w with session := listening } : Watched Loopback σ).move o now =
      { w with session := listening } := move_of_none o hlistening.settled
  have hpump : ({ w with session := listening } : Watched Loopback σ).pump o =
      (w.session.transport.pending.isBusy, { w with session := w.session.listened }) := by
    have hpackets : (Transport.packets listening.poll.2.transport).waiting
        listening.poll.2.packetCursor = [] := by
      rw [hlistening.poll]
      exact h.packets
    simp only [pump, Session.takePackets, Channel.drain, hpackets, List.isEmpty_nil, List.foldl_nil,
      Bool.not_true, Bool.or_false]
    rw [hlistening.poll]
    rfl
  unfold prepare
  dsimp only
  rw [h.foldStatuses]
  refine (if_neg (by simp [listening, hlistening.unpaused])).trans ?_
  rw [hmove]
  refine (if_neg hlistening.unfailed).trans ?_
  rw [hpump]

theorem send_undisturbed (h : w.session.Undisturbed now) {e : QueueEntry} {left : DeliveryQueue}
    (hnext : w.session.queue.next now = some (e, left)) :
    (w.send o now).2 =
      ⟨w.session.delivered e left, o.sent e.message w.observer,
        w.reports ++ [.sent e.message]⟩ := by
  have hholding : ({ w.session with queue := left } : Session Loopback).Undisturbed now :=
    { h with }
  unfold send
  rw [if_pos h.active, hnext]
  simp only [dispatch, hholding.push, report]
  rfl

/-! ### What leaves in some iterations -/

/-- Between the two moments the given entries left, in their order, and nothing else was pushed or
reported. -/
structure Sends (w : Watched Loopback σ) (es : List QueueEntry) (w' : Watched Loopback σ) :
    Prop where
  remote : w'.session.remote = w.session.remote
  pushed : w'.session.transport.pushed =
    w.session.transport.pushed ++ es.map fun e => (e.shipment, w.session.remote)
  reports : w'.reports = w.reports ++ es.map fun e => .sent e.message

theorem Sends.trans {w₁ w₂ w₃ : Watched Loopback σ} {es fs : List QueueEntry}
    (h : w₁.Sends es w₂) (h' : w₂.Sends fs w₃) : w₁.Sends (es ++ fs) w₃ where
  remote := h'.remote.trans h.remote
  pushed := by rw [h'.pushed, h.pushed, h.remote, List.map_append, List.append_assoc]
  reports := by rw [h'.reports, h.reports, List.map_append, List.append_assoc]

/-- An iteration that finds the transport busy only takes note of it. -/
theorem iterate_busy (h : w.session.Undisturbed now)
    (hbusy : w.session.transport.pending.isBusy = true) :
    (w.iterate o now).2 = { w with session := w.session.listened } := by
  rw [iterate_snd, prepare_undisturbed o h, hbusy]
  rfl

theorem iterate_idle (h : w.session.Undisturbed now)
    (hidle : w.session.transport.pending.isBusy = false) {e : QueueEntry} {left : DeliveryQueue}
    (hnext : w.session.queue.next now = some (e, left)) :
    (w.iterate o now).2 = ⟨w.session.listened.delivered e left, o.sent e.message w.observer,
      w.reports ++ [.sent e.message]⟩ := by
  rw [iterate_snd, prepare_undisturbed o h, hidle]
  exact send_undisturbed o (w := { w with session := w.session.listened }) h.listened hnext

/-- In two iterations the next entry leaves: in the second one if the transport was busy, and
otherwise in the first one, which makes it busy. -/
theorem sends_twice (h : w.session.Undisturbed now) {e : QueueEntry} {left : DeliveryQueue}
    (hnext : w.session.queue.next now = some (e, left)) :
    let w' := w.run o [.iterate now, .iterate now]
    w'.session.Undisturbed now ∧ w'.session.queue = left.complete e ∧ w.Sends [e] w' := by
  intro w'
  have hw' : w' = ((w.iterate o now).2.iterate o now).2 := rfl
  cases hbusy : w.session.transport.pending.isBusy with
  | true =>
    have hfirst := iterate_busy o h hbusy
    have hsecond := iterate_idle o (w := { w with session := w.session.listened }) h.listened rfl
      hnext
    have hboth := (congrArg (fun v => (v.iterate o now).2) hfirst).trans hsecond
    rw [hw', hboth]
    exact ⟨h.listened.listened.delivered e left, rfl, rfl, rfl, rfl⟩
  | false =>
    have hfirst := iterate_idle o h hbusy hnext
    have hafter := h.listened.delivered e left
    have hsecond := iterate_busy o (w := ⟨w.session.listened.delivered e left,
      o.sent e.message w.observer, w.reports ++ [.sent e.message]⟩) hafter (Bool.or_true _)
    have hboth := (congrArg (fun v => (v.iterate o now).2) hfirst).trans hsecond
    rw [hw', hboth]
    exact ⟨hafter.listened, rfl, rfl, rfl, rfl⟩

/-! ### Until nothing is due -/

theorem next_of_due {q : DeliveryQueue} {e : QueueEntry} {due : List QueueEntry}
    (hdue : q.waiting.filter (·.isDue now) = e :: due) : ∃ left,
      q.next now = some (e, left) ∧ left.waiting.filter (·.isDue now) = due ∧
      left.waiting.filter (!·.isDue now) = q.waiting.filter (!·.isDue now) := by
  cases hnext : q.next now with
  | none =>
    have hnil : q.waiting.filter (·.isDue now) = [] :=
      List.filter_eq_nil_iff.mpr fun a ha => by simp [DeliveryQueue.next_eq_none.mp hnext a ha]
    rw [hnil] at hdue
    cases hdue
  | some taken =>
    obtain ⟨first, left⟩ := taken
    obtain ⟨before, after, hq, hleft, hfirst, hbefore⟩ := DeliveryQueue.next_eq_some hnext
    have hskipped : before.filter (·.isDue now) = [] :=
      List.filter_eq_nil_iff.mpr fun a ha => by simp [hbefore a ha]
    have hhead : (first :: after).filter (·.isDue now) = first :: after.filter (·.isDue now) :=
      List.filter_cons_of_pos hfirst
    rw [hq, List.filter_append, hskipped, List.nil_append, hhead] at hdue
    obtain ⟨rfl, rfl⟩ := List.cons.inj hdue
    refine ⟨left, rfl, ?_, ?_⟩
    · rw [hleft, List.filter_append, hskipped, List.nil_append]
    · have htail : (first :: after).filter (!·.isDue now) = after.filter (!·.isDue now) :=
        List.filter_cons_of_neg (by simp [hfirst])
      rw [hleft, hq, List.filter_append, List.filter_append, htail]

/-- By induction on the entries that are due: each of them takes two iterations. -/
theorem sends_due (h : w.session.Undisturbed now) {due : List QueueEntry}
    (hdue : w.session.queue.waiting.filter (·.isDue now) = due) :
    let w' := w.run o (List.replicate (2 * due.length) (.iterate now))
    w'.session.Undisturbed now ∧ w.Sends due w' ∧
      w'.session.queue.waiting = w.session.queue.waiting.filter (!·.isDue now) := by
  induction due generalizing w with
  | nil =>
    refine ⟨h, ⟨rfl, (List.append_nil _).symm, (List.append_nil _).symm⟩, ?_⟩
    refine (List.filter_eq_self.mpr fun a ha => ?_).symm
    have hwaits := List.filter_eq_nil_iff.mp hdue a ha
    simpa using hwaits
  | cons e due ih =>
    obtain ⟨left, hnext, hdue', hlater⟩ := next_of_due hdue
    obtain ⟨hquiet, hqueue, hsends⟩ := sends_twice o h hnext
    have hwaiting :
        (w.run o [.iterate now, .iterate now]).session.queue.waiting = left.waiting := by
      rw [hqueue]
      rfl
    obtain ⟨hquiet', hrest, hleft⟩ := ih hquiet (hwaiting ▸ hdue')
    have hsplit : List.replicate (2 * (e :: due).length) (SessionStep.iterate now) =
        [.iterate now, .iterate now] ++
          List.replicate (2 * due.length) (SessionStep.iterate (τ := Loopback) now) := rfl
    rw [hsplit, run, List.foldl_append]
    refine ⟨hquiet', hsends.trans hrest, ?_⟩
    rw [← hlater, ← hwaiting]
    exact hleft

/-- Wherever a run has led a session, when it is undisturbed and `due` are the entries that may
leave, twice as many iterations push just these, by falling priority and then in the order of
submission, report each of them as sent and nothing else, and leave all others waiting. -/
theorem quiet_session_drains {o : Observer Loopback σ} (ho : o.OnlyCalls) (station : Entity)
    (host : String) (port : UInt16) (transport : Loopback) (settings : Settings) (begun : Millis)
    (observer : σ) (steps : List (SessionStep Loopback)) (now : Millis) :
    let w := (start station host port transport settings begun observer).run o steps
    let due := w.session.queue.waiting.filter (·.isDue now)
    let w' := w.run o (List.replicate (2 * due.length) (.iterate now))
    w.session.Undisturbed now →
      due.Pairwise QueueEntry.Precedes ∧
      w'.session.transport.pushed =
        w.session.transport.pushed ++ due.map (fun e => (e.shipment, w.session.remote)) ∧
      w'.reports = w.reports ++ due.map (fun e => .sent e.message) ∧
      w'.session.queue.waiting = w.session.queue.waiting.filter (!·.isDue now) := by
  intro w due w' h
  have hbalanced :=
    (balanced_start station host port transport settings begun observer).run ho steps
  obtain ⟨-, hsends, hleft⟩ := sends_due o h rfl
  refine ⟨?_, hsends.pushed, hsends.reports, hleft⟩
  exact hbalanced.sound.departing.sublist List.filter_sublist

def letter (serial : Serial) : MessageRef :=
  ⟨⟨"alice", "moky", .user⟩, ⟨"bob", "moky", .user⟩, serial⟩

/-- A letter that was refused has to wait, and three of other priorities are due. -/
def crowded : Watched Loopback Unit :=
  let refusing := (Loopback.manual.changeStatus .ready).refuseNextPushes 1
  let submit (serial : Serial) (priority : Priority) : SessionStep Loopback :=
    .call (.enqueue ⟨letter serial, ⟨[7], priority, none⟩, 0⟩)
  (start ⟨"gsp", "any", .station⟩ "127.0.0.1" 9394 .manual (.standard "courier") 0 ()).run
    .connecting [.call (.transport refusing), submit 1 1, .iterate 1, submit 2 (-1), submit 3 1,
      submit 4 0]

theorem quiet_session_drains_crowded :
    let iterations (due : List QueueEntry) : List (SessionStep Loopback) :=
      List.replicate (2 * due.length) (.iterate 5)
    let due := crowded.session.queue.waiting.filter (·.isDue 5)
    crowded.session.Undisturbed 5 ∧ due.length = 3 ∧
      (crowded.run .connecting (iterations due)).reports =
        [.sent (letter 3), .sent (letter 4), .sent (letter 2)] ∧
      (crowded.run .connecting (iterations due)).session.queue.waiting.map QueueEntry.message =
        [letter 1] := by
  dsimp only
  have hopen : crowded.session.transport.Open := by constructor <;> decide +kernel
  have h : crowded.session.Undisturbed 5 := by
    constructor <;> first | exact hopen | decide +kernel
  obtain ⟨-, -, hreports, hleft⟩ := quiet_session_drains Observer.onlyCalls_connecting
    ⟨"gsp", "any", .station⟩ "127.0.0.1" 9394 .manual (.standard "courier") 0 () _ 5 h
  refine ⟨h, by decide +kernel, hreports.trans (by decide +kernel), ?_⟩
  exact (congrArg (List.map QueueEntry.message) hleft).trans (by decide +kernel)

end Watched

end Courier
