import Courier.Proofs.Session.Draining

/-!
# Stamps of a loopback transport

Whatever is done to a loopback transport, and whatever dates are put into it by hand, its clock is
not behind anything that it reported, nor behind what a session took over from it, as long as the
clock does not run over. So the next status that it stamps is newer than all that the session
applied before, also when the session has been reset since.
-/

namespace Courier

/-- What may be done to a loopback transport. -/
inductive LoopbackCall where
  | connect (remote : String)
  | push (shipment : Shipment) (destination : String)
  | poll
  | close
  | setStatus (status : ConnectionStatus) (time : Millis)
  | changeStatus (status : ConnectionStatus)
  | deliver (payload : Bytes)
  | refuseNextPushes (count : Nat)
  | breakNextPush
  | takePushed

theorem Channel.Serves.sendAll {α : Type} {c : Channel α} {cursor : Cursor} (h : c.Serves cursor)
    (as : List α) : (as.foldl Channel.send c).Serves cursor := by
  induction as generalizing c with
  | nil => exact h
  | cons a as ih => exact ih (h.send a)

/-- As long as there is room nothing is lost. -/
theorem Channel.waiting_send_of_lt {α : Type} {c : Channel α} {cursor : Cursor}
    (h : c.Serves cursor) (hroom : c.sent - cursor.read < capacity) (a : α) :
    (c.send a).waiting cursor = c.waiting cursor ++ [a] := by
  obtain ⟨n, hwaiting⟩ := c.waiting_send h a
  have hbefore : (c.waiting cursor).length = c.sent - cursor.read := by
    have hkept := h.kept
    rw [waiting, List.length_drop]
    omega
  have hafter : ((c.send a).waiting cursor).length = c.sent - cursor.read + 1 := by
    have hread := h.read
    have hkept := (h.send a).kept
    have hsent : (c.send a).sent = c.sent + 1 := rfl
    rw [waiting, List.length_drop]
    omega
  have hnone : n = 0 ∨ (c.waiting cursor).length = 0 := by
    rw [hwaiting, List.length_append, List.length_drop, List.length_singleton] at hafter
    omega
  rcases hnone with rfl | hempty
  · exact hwaiting
  · rw [List.length_eq_zero_iff.mp hempty] at hwaiting ⊢
    rw [hwaiting, List.drop_nil]

namespace Loopback

def call (t : Loopback) : LoopbackCall → Loopback
  | .connect remote => (t.connect remote).2
  | .push shipment destination => (t.push shipment destination).2
  | .poll => t.poll.2
  | .close => t.close
  | .setStatus status time => t.setStatus status time
  | .changeStatus status => t.changeStatus status
  | .deliver payload => t.deliver payload
  | .refuseNextPushes count => t.refuseNextPushes count
  | .breakNextPush => t.breakNextPush
  | .takePushed => t.takePushed.2

def calls (t : Loopback) (cs : List LoopbackCall) : Loopback :=
  cs.foldl call t

/-- The clock of the transport is not behind what waits for a receiver, nor behind what the receiver
has noted, and it may tick so many times without running over. -/
structure Leads (t : Loopback) (noted : Millis) (cursor : Cursor) (room : Nat) : Prop where
  autoReady : t.autoReady = true
  serves : t.statusEvents.Serves cursor
  waiting : ∀ e ∈ t.statusEvents.waiting cursor, e.timestamp ≤ t.ticks
  noted : noted ≤ t.ticks
  room : t.ticks.toNat + room ≤ Millis.latest.toNat

namespace Leads

variable {t : Loopback} {noted : Millis} {cursor : Cursor} {n : Nat}

/-- Nothing but the clock and the status channel matters. -/
theorem of_same (h : t.Leads noted cursor n) {u : Loopback} (hauto : u.autoReady = t.autoReady)
    (hticks : u.ticks = t.ticks) (hevents : u.statusEvents = t.statusEvents) :
    u.Leads noted cursor n where
  autoReady := hauto.trans h.autoReady
  serves := hevents ▸ h.serves
  waiting := by
    rw [hevents, hticks]
    exact h.waiting
  noted := hticks ▸ h.noted
  room := hticks ▸ h.room

theorem less (h : t.Leads noted cursor n) {m : Nat} (hle : m ≤ n) : t.Leads noted cursor m :=
  { h with room := Nat.le_trans (Nat.add_le_add_left hle _) h.room }

/-- A status is reported once the clock has come at least to its date. -/
theorem emit (h : t.Leads noted cursor n) (status : ConnectionStatus) {time clock : Millis}
    (hclock : t.ticks ≤ clock) (htime : time ≤ clock) {m : Nat}
    (hroom : clock.toNat + m ≤ Millis.latest.toNat) :
    ({ t with ticks := clock }.emit status time).Leads noted cursor m where
  autoReady := h.autoReady
  serves := h.serves.send _
  waiting := by
    intro e he
    rcases Channel.mem_of_mem_waiting_send h.serves he with he | rfl
    · exact UInt64.le_trans (h.waiting e he) hclock
    · exact htime
  noted := UInt64.le_trans h.noted hclock
  room := hroom

theorem changeStatus (h : t.Leads noted cursor (n + 1)) (status : ConnectionStatus) :
    (t.changeStatus status).Leads noted cursor n := by
  obtain ⟨hnext, hroom⟩ := Millis.lt_succ h.room
  exact h.emit status (UInt64.le_of_lt hnext) (UInt64.le_refl _) hroom

theorem setStatus (h : t.Leads noted cursor n) (status : ConnectionStatus) (time : Millis) :
    (t.setStatus status time).Leads noted cursor 0 :=
  h.emit status (Millis.le_max_left _ _) (Millis.le_max_right _ _)
    (UInt64.le_iff_toNat_le.mp (Millis.le_latest _))

theorem close (h : t.Leads noted cursor (n + 1)) : t.close.Leads noted cursor n := by
  have hclosed : ({ t with closed := true } : Loopback).Leads noted cursor (n + 1) :=
    h.of_same rfl rfl rfl
  exact hclosed.changeStatus .idle

theorem connect (h : t.Leads noted cursor (n + 2)) (remote : String) :
    (t.connect remote).2.Leads noted cursor n := by
  unfold Loopback.connect
  split
  · exact h.less (Nat.le_add_right n 2)
  · have hopened : ({ t with remote := some remote, closed := false } : Loopback).Leads noted cursor
        (n + 2) := h.of_same rfl rfl rfl
    have hconnecting := hopened.changeStatus .connecting
    dsimp only
    split
    · exact hconnecting.changeStatus .ready
    · exact hconnecting.less (Nat.le_succ n)

theorem push (h : t.Leads noted cursor (n + 1)) (s : Shipment) (destination : String) :
    (t.push s destination).2.Leads noted cursor n := by
  have hless := h.less (Nat.le_succ n)
  unfold Loopback.push
  split
  · exact hless
  · split
    · exact hless
    · split
      · exact hless.of_same rfl rfl rfl
      · exact hless.of_same rfl rfl rfl
      · rename_i faults _
        have hbroken : ({ t with faults := faults } : Loopback).Leads noted cursor (n + 1) :=
          h.of_same rfl rfl rfl
        exact hbroken.changeStatus .error
      · exact hless.of_same rfl rfl rfl

theorem poll (h : t.Leads noted cursor n) : t.poll.2.Leads noted cursor n := by
  unfold Loopback.poll
  split
  · exact h
  · split
    · exact h
    · exact h.of_same rfl rfl rfl

/-- Nothing that is done to a transport takes more than two ticks. -/
theorem call (h : t.Leads noted cursor 2) (c : LoopbackCall) :
    (t.call c).Leads noted cursor 0 := by
  have hless := h.less (Nat.zero_le 2)
  cases c with
  | connect remote => exact h.connect remote
  | push s destination => exact (h.less (Nat.le_succ 1)).push s destination
  | poll => exact hless.poll
  | close => exact (h.less (Nat.le_succ 1)).close
  | setStatus status time => exact h.setStatus status time
  | changeStatus status => exact (h.less (Nat.le_succ 1)).changeStatus status
  | refuseNextPushes count => cases count <;> exact hless.of_same rfl rfl rfl
  | deliver | breakNextPush | takePushed => exact hless.of_same rfl rfl rfl

end Leads

theorem connect_of_autoReady {t : Loopback} (h : t.autoReady = true) {remote : String}
    (hremote : remote.isEmpty = false) : t.connect remote = (.ok (),
      ({ t with remote := some remote, closed := false }.changeStatus .connecting).changeStatus
        .ready) := by
  unfold connect
  rw [if_neg (by simp [hremote])]
  exact congrArg (Prod.mk _) (if_pos h)

theorem open_connect {t : Loopback} (h : t.autoReady = true) {remote : String}
    (hremote : remote.isEmpty = false) (hfaults : t.faults = []) : (t.connect remote).2.Open := by
  rw [connect_of_autoReady h hremote]
  exact ⟨rfl, rfl, hfaults⟩

/-- Who has heard everything hears of both statuses when the transport connects. -/
theorem Leads.news {t : Loopback} {noted : Millis} {cursor : Cursor} {n : Nat}
    (h : t.Leads noted cursor n) {remote : String} (hremote : remote.isEmpty = false) :
    (t.connect remote).2.statusEvents.waiting t.statusEvents.subscribe =
      [⟨.connecting, t.ticks + 1⟩, ⟨.ready, t.ticks + 1 + 1⟩] := by
  rw [connect_of_autoReady h.autoReady hremote]
  have hserves := h.serves.subscribe
  have hfirst := Channel.waiting_send_of_lt hserves (by simp [Channel.subscribe, Channel.capacity])
    ⟨.connecting, t.ticks + 1⟩
  have hsecond := Channel.waiting_send_of_lt (hserves.send ⟨.connecting, t.ticks + 1⟩)
    (by simp [Channel.send, Channel.subscribe, Channel.capacity]) ⟨.ready, t.ticks + 1 + 1⟩
  rw [hfirst, Channel.waiting_subscribe] at hsecond
  exact hsecond

/-- Statuses are all that goes into the status channel. -/
theorem statusEvents_call (t : Loopback) (c : LoopbackCall) :
    (t.call c).autoReady = t.autoReady ∧
      ∃ es : List StatusEvent,
        (t.call c).statusEvents = es.foldl Channel.send t.statusEvents := by
  cases c with
  | connect remote =>
    unfold call connect
    dsimp only
    split
    · exact ⟨rfl, [], rfl⟩
    · split
      · exact ⟨rfl, [_, _], rfl⟩
      · exact ⟨rfl, [_], rfl⟩
  | push shipment destination =>
    unfold call push
    dsimp only
    split
    · exact ⟨rfl, [], rfl⟩
    · split
      · exact ⟨rfl, [], rfl⟩
      · split
        · exact ⟨rfl, [], rfl⟩
        · exact ⟨rfl, [], rfl⟩
        · exact ⟨rfl, [_], rfl⟩
        · exact ⟨rfl, [], rfl⟩
  | poll =>
    unfold call poll
    dsimp only
    split
    · exact ⟨rfl, [], rfl⟩
    · split <;> exact ⟨rfl, [], rfl⟩
  | close | setStatus | changeStatus => exact ⟨rfl, [_], rfl⟩
  | refuseNextPushes count => cases count <;> exact ⟨rfl, [], rfl⟩
  | deliver | breakNextPush | takePushed => exact ⟨rfl, [], rfl⟩

/-- A receiver that comes late, to a transport that others have used, is led from the start. -/
theorem leads_calls (cs : List LoopbackCall) :
    (auto.calls cs).Leads 0 (auto.calls cs).statusEvents.subscribe 0 := by
  suffices ∀ t : Loopback, t.autoReady = true → (∃ cursor, t.statusEvents.Serves cursor) →
      (t.calls cs).autoReady = true ∧ ∃ cursor, (t.calls cs).statusEvents.Serves cursor by
    obtain ⟨hauto, cursor, hserves⟩ := this auto rfl ⟨_, Channel.serves_empty⟩
    refine ⟨hauto, hserves.subscribe, ?_, UInt64.zero_le, ?_⟩
    · rw [Channel.waiting_subscribe]
      exact nofun
    · exact UInt64.le_iff_toNat_le.mp (Millis.le_latest _)
  induction cs with
  | nil => exact fun _ hauto hserves => ⟨hauto, hserves⟩
  | cons c cs ih =>
    intro t hauto ⟨cursor, hserves⟩
    obtain ⟨hsame, es, hevents⟩ := t.statusEvents_call c
    refine ih (t.call c) (hsame.trans hauto) ⟨cursor, ?_⟩
    rw [hevents]
    exact hserves.sendAll es

end Loopback

namespace Activity

/-- Statuses that are not dated after a bound are applied below it. -/
theorem statusAt_applyAll_le {a : Activity} {bound : Millis} (ha : a.statusAt ≤ bound)
    {es : List StatusEvent} (hes : ∀ e ∈ es, e.timestamp ≤ bound) :
    (a.applyAll es).statusAt ≤ bound := by
  induction es generalizing a with
  | nil => exact ha
  | cons e es ih =>
    have hrest (e') (he' : e' ∈ es) := hes e' (List.mem_cons_of_mem e he')
    by_cases hold : e.timestamp ≤ a.statusAt
    · rw [applyAll_cons_none (accept?_eq_none hold)]
      exact ih ha hrest
    · obtain ⟨b, hsome, -, hstatusAt⟩ := accept?_eq_some (UInt64.not_le.mp hold)
      rw [applyAll_cons_some hsome]
      exact ih (hstatusAt ▸ hes e List.mem_cons_self) hrest

end Activity

namespace Session

/-- The clock of its transport leads the session. -/
def Led (s : Session Loopback) (room : Nat) : Prop :=
  s.transport.Leads s.activity.statusAt s.statusCursor room

variable {s s' : Session Loopback} {n : Nat}

theorem Led.of_same (h : s.Led n) (htransport : s'.transport = s.transport)
    (hstatusAt : s'.activity.statusAt = s.activity.statusAt)
    (hcursor : s'.statusCursor = s.statusCursor) : s'.Led n := by
  unfold Led
  rw [htransport, hstatusAt, hcursor]
  exact h

theorem Led.foldStatuses (h : s.Led n) : s.foldStatuses.Led n := by
  obtain ⟨hactivity, hcursor, htransport⟩ := s.foldStatuses_fields
  unfold Led
  rw [hactivity, hcursor, htransport]
  refine ⟨h.autoReady, h.serves.subscribe, ?_, ?_, h.room⟩
  · intro e he
    rw [show Transport.statusEvents s.transport = s.transport.statusEvents from rfl,
      Channel.waiting_subscribe] at he
    cases he
  · exact Activity.statusAt_applyAll_le h.noted h.waiting

theorem Led.call (h : s.Led 2) {c : SessionCall Loopback} (hc : ∀ t, c ≠ .transport t) :
    (s.call c).Led 0 := by
  have hless : s.Led 0 := h.less (Nat.zero_le 2)
  cases c with
  | setIdentity identity =>
    simp only [Session.call, setIdentity]
    split <;> exact hless
  | setKey key =>
    simp only [Session.call, setKey]
    split <;> exact hless
  | setActive flag time =>
    refine hless.of_same rfl ?_ rfl
    simp only [Session.call, setActive, Activity.setActive]
    split <;> rfl
  | connect =>
    rw [Session.call, connect_snd]
    exact h.connect s.remote
  | close => exact Loopback.Leads.close (h.less (Nat.le_succ 1))
  | reset now =>
    rw [Session.call, reset_eq]
    by_cases hphase : s.phase = .error
    · rw [if_pos hphase]
      exact hless
    · rw [if_neg hphase]
      exact hless
  | transport t => exact absurd rfl (hc t)
  | enqueue | markFailed | pause | resume => exact hless

end Session

end Courier
