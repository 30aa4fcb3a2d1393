import Courier.Proofs.Session.Contacts
import Courier.Transport.Loopback

/-!
# What a session makes of its transport

A loopback transport stamps every change of connectivity, the session hears of it through a channel
that forgets, and takes over what is newer than the last status that it applied. Stamps that the
transport draws from its clock are newer than all the ones before, whatever was injected meanwhile,
so none of them is passed over. After a drain the session sees the transport as it is, unless it has
heard nothing since it was reset.
-/

namespace Courier

/-! ### Channels that forget -/

namespace Channel

variable {α : Type} {c : Channel α} {cursor : Cursor}

/-- The receiver is not ahead of the channel, which keeps as many items as it can. -/
structure Serves (c : Channel α) (cursor : Cursor) : Prop where
  read : cursor.read ≤ c.sent
  kept : c.recent.length = min c.sent capacity

theorem serves_empty : (empty : Channel α).Serves (empty : Channel α).subscribe :=
  ⟨Nat.le_refl _, rfl⟩

theorem Serves.subscribe (h : c.Serves cursor) : c.Serves c.subscribe :=
  ⟨Nat.le_refl _, h.kept⟩

theorem Serves.send (h : c.Serves cursor) (a : α) : (c.send a).Serves cursor where
  read := Nat.le_succ_of_le h.read
  kept := by
    have hkept := h.kept
    simp only [Channel.send, List.length_drop, List.length_append, List.length_singleton]
    omega

@[simp] theorem waiting_subscribe (c : Channel α) : c.waiting c.subscribe = [] := by
  simp [waiting, subscribe]

theorem mem_of_mem_waiting {a : α} (h : a ∈ c.waiting cursor) : a ∈ c.recent :=
  List.mem_of_mem_drop h

theorem mem_of_mem_send {a b : α} (h : b ∈ (c.send a).recent) : b ∈ c.recent ∨ b = a := by
  have hmem : b ∈ c.recent ++ [a] := (List.drop_sublist _ _).mem h
  rcases List.mem_append.mp hmem with hold | hnew
  · exact .inl hold
  · exact .inr (List.mem_singleton.mp hnew)

/-- A receiver that falls behind loses the oldest items and never the newest one. -/
theorem waiting_send (h : c.Serves cursor) (a : α) :
    ∃ n, (c.send a).waiting cursor = (c.waiting cursor).drop n ++ [a] := by
  obtain ⟨hread, hkept⟩ := h
  have hpositive : 0 < capacity := by decide
  unfold waiting send
  generalize capacity = most at hkept hpositive ⊢
  -- How many items do not wait before, how many are forgotten, and how many do not wait after.
  obtain ⟨read, hr⟩ : ∃ k, k = c.recent.length - (c.sent - cursor.read) := ⟨_, rfl⟩
  obtain ⟨gone, hg⟩ : ∃ k, k = (c.recent ++ [a]).length - most := ⟨_, rfl⟩
  obtain ⟨left, hl⟩ : ∃ k, k = ((c.recent ++ [a]).drop gone).length -
    (c.sent + 1 - cursor.read) := ⟨_, rfl⟩
  have hgone := hg
  have hleft := hl
  rw [List.length_append, List.length_singleton] at hgone
  rw [List.length_drop, List.length_append, List.length_singleton] at hleft
  have hold : (c.recent.drop read).drop (gone + left - read) = c.recent.drop (gone + left) := by
    rw [List.drop_drop, Nat.add_sub_cancel' (by omega)]
  have hwhole : ((c.recent ++ [a]).drop gone).drop left = c.recent.drop (gone + left) ++ [a] := by
    rw [List.drop_drop]
    exact List.drop_append_of_le_length (by omega)
  refine ⟨gone + left - read, ?_⟩
  rw [← hr, hold, ← hwhole, hl, hg]

theorem mem_of_mem_waiting_send (h : c.Serves cursor) {a b : α}
    (hb : b ∈ (c.send a).waiting cursor) : b ∈ c.waiting cursor ∨ b = a := by
  obtain ⟨n, hwaiting⟩ := c.waiting_send h a
  rw [hwaiting] at hb
  exact (List.mem_append.mp hb).imp List.mem_of_mem_drop List.mem_singleton.mp

end Channel

/-! ### Statuses that are applied -/

namespace Activity

/-- Those of the events that are applied, one after the other. -/
def applied (a : Activity) : List StatusEvent → List StatusEvent
  | [] => []
  | e :: es =>
    match a.accept? e with
    | none => a.applied es
    | some b => e :: b.applied es

def applyAll (a : Activity) (es : List StatusEvent) : Activity :=
  es.foldl (fun a e => (a.accept? e).getD a) a

variable {a b : Activity} {e : StatusEvent} {es : List StatusEvent}

theorem accept?_eq_none (h : e.timestamp ≤ a.statusAt) : a.accept? e = none :=
  if_pos h

theorem accept?_eq_some (h : a.statusAt < e.timestamp) :
    ∃ b, a.accept? e = some b ∧ b.connection = e.status ∧ b.statusAt = e.timestamp := by
  refine ⟨_, if_neg (UInt64.not_le.mpr h), ?_⟩
  unfold setActive
  split <;> exact ⟨rfl, rfl⟩

theorem applyAll_cons_none (h : a.accept? e = none) : a.applyAll (e :: es) = a.applyAll es := by
  rw [applyAll, List.foldl_cons, h, Option.getD_none, ← applyAll]

theorem applyAll_cons_some (h : a.accept? e = some b) : a.applyAll (e :: es) = b.applyAll es := by
  rw [applyAll, List.foldl_cons, h, Option.getD_some, ← applyAll]

theorem Follows.applyAll (h : a.Follows) (es : List StatusEvent) : (a.applyAll es).Follows := by
  induction es generalizing a with
  | nil => exact h
  | cons e es ih =>
    cases hb : a.accept? e with
    | none =>
      rw [applyAll_cons_none hb]
      exact ih h
    | some b =>
      rw [applyAll_cons_some hb]
      exact ih (h.accept? hb)

/-- The last event that is applied is the one that is believed in the end. -/
theorem applyAll_eq (a : Activity) (es : List StatusEvent) :
    (a.applied es = [] → a.applyAll es = a) ∧ ∀ last, (a.applied es).getLast? = some last →
      (a.applyAll es).connection = last.status ∧ (a.applyAll es).statusAt = last.timestamp := by
  induction es generalizing a with
  | nil => exact ⟨fun _ => rfl, nofun⟩
  | cons e es ih =>
    by_cases hold : e.timestamp ≤ a.statusAt
    · have hnone := accept?_eq_none hold
      rw [applied, hnone, applyAll_cons_none hnone]
      exact ih a
    · obtain ⟨b, hsome, hconnection, hstatusAt⟩ := accept?_eq_some (UInt64.not_le.mp hold)
      obtain ⟨hrest, hlast⟩ := ih b
      have hcons : a.applied (e :: es) = e :: b.applied es := by rw [applied, hsome]
      rw [hcons, applyAll_cons_some hsome]
      refine ⟨nofun, fun last h => ?_⟩
      cases hes : b.applied es with
      | nil =>
        rw [hes] at h
        obtain rfl : e = last := by simpa using h
        rw [hrest hes]
        exact ⟨hconnection, hstatusAt⟩
      | cons e' es' =>
        rw [hes, List.getLast?_cons_cons, ← hes] at h
        exact hlast last h

/-- Of events in the order of their times, all newer than the last status unless their time is
zero, nothing but a time of zero is passed over. -/
theorem applied_of_increasing (hincreasing : es.Pairwise fun e e' => e.timestamp < e'.timestamp)
    (hnewer : ∀ e ∈ es, e.timestamp = 0 ∨ a.statusAt < e.timestamp) :
    a.applied es = es.filter fun e => 0 < e.timestamp := by
  induction es generalizing a with
  | nil => rfl
  | cons e es ih =>
    obtain ⟨hbelow, hrest⟩ := List.pairwise_cons.mp hincreasing
    rcases hnewer e List.mem_cons_self with hzero | hnew
    · have hold : e.timestamp ≤ a.statusAt := hzero ▸ UInt64.zero_le
      have hnot : ¬0 < e.timestamp := hzero ▸ UInt64.lt_irrefl 0
      rw [applied, accept?_eq_none hold, List.filter_cons_of_neg (by simpa using hnot)]
      exact ih hrest fun e' he' => hnewer e' (List.mem_cons_of_mem e he')
    · obtain ⟨b, hsome, -, hstatusAt⟩ := accept?_eq_some hnew
      have hpositive : 0 < e.timestamp := UInt64.lt_of_le_of_lt UInt64.zero_le hnew
      rw [applied, hsome, List.filter_cons_of_pos (by simpa using hpositive)]
      refine congrArg (e :: ·) (ih hrest fun e' he' => .inr ?_)
      rw [hstatusAt]
      exact hbelow e' he'

/-- If any of them is applied, it is the newest one that is applied last. -/
theorem getLast?_filter_of_increasing
    (hincreasing : es.Pairwise fun e e' => e.timestamp < e'.timestamp) {last : StatusEvent}
    (h : (es.filter fun e => 0 < e.timestamp).getLast? = some last) : es.getLast? = some last := by
  induction es with
  | nil => exact h
  | cons e es ih =>
    obtain ⟨hbelow, hrest⟩ := List.pairwise_cons.mp hincreasing
    by_cases hpositive : 0 < e.timestamp
    · -- Then the time of none of the others is zero.
      have hall : (e :: es).filter (fun e => 0 < e.timestamp) = e :: es := by
        apply List.filter_eq_self.mpr
        intro e' he'
        rcases List.mem_cons.mp he' with rfl | he'
        · exact decide_eq_true hpositive
        · exact decide_eq_true (UInt64.lt_trans hpositive (hbelow e' he'))
      rwa [hall] at h
    · rw [List.filter_cons_of_neg (by simpa using hpositive)] at h
      have hes := ih hrest h
      cases es with
      | nil => cases hes
      | cons e' es' => exact (List.getLast?_cons_cons ..).trans hes

end Activity

theorem Session.foldStatuses_fields {τ : Type} [Transport τ] (s : Session τ) :
    s.foldStatuses.activity =
        s.activity.applyAll ((Transport.statusEvents s.transport).waiting s.statusCursor) ∧
      s.foldStatuses.statusCursor = (Transport.statusEvents s.transport).subscribe ∧
      s.foldStatuses.transport = s.transport := by
  unfold foldStatuses Channel.drain
  generalize (Transport.statusEvents s.transport).waiting s.statusCursor = es
  suffices ∀ (es : List StatusEvent) (s : Session τ),
      (es.foldl applyStatus s).activity = s.activity.applyAll es ∧
        (es.foldl applyStatus s).statusCursor = s.statusCursor ∧
        (es.foldl applyStatus s).transport = s.transport from
    this es { s with statusCursor := (Transport.statusEvents s.transport).subscribe }
  intro es
  induction es with
  | nil => exact fun _ => ⟨rfl, rfl, rfl⟩
  | cons e es ih =>
    intro s
    obtain ⟨hactivity, hcursor, htransport⟩ := ih (s.applyStatus e)
    rw [List.foldl_cons, hactivity, hcursor, htransport]
    unfold applyStatus
    cases h : s.activity.accept? e with
    | none => exact ⟨(Activity.applyAll_cons_none h).symm, rfl, rfl⟩
    | some activity => exact ⟨(Activity.applyAll_cons_some h).symm, rfl, rfl⟩

/-! ### A session that listens to a loopback transport -/

/-- What may happen to a session and its loopback transport. -/
inductive LinkStep where
  | connect (remote : String)
  | push (shipment : Shipment) (destination : String)
  | close
  | changeStatus (status : ConnectionStatus)
  | setStatus (status : ConnectionStatus) (time : Millis)
  | drain
  | reset (now : Millis)
  /-- Whatever else there is of the session and its transport becomes as it is in this one: phase,
  identity, key and queue, scripted faults and packets. -/
  | meanwhile (other : Session Loopback)

/-- A session with its transport, and whether it has applied a status since it was last reset. -/
structure Listening where
  session : Session Loopback
  heard : Bool

namespace Listening

def transport (l : Listening) : Loopback := l.session.transport

def act (l : Listening) (t : Loopback) : Listening :=
  { l with session := { l.session with transport := t } }

/-- The statuses that the next drain hands out. -/
def waiting (l : Listening) : List StatusEvent :=
  l.transport.statusEvents.waiting l.session.statusCursor

/-- Those of them that it will apply. -/
def applied (l : Listening) : List StatusEvent :=
  l.session.activity.applied l.waiting

def step (l : Listening) : LinkStep → Listening
  | .connect remote => l.act (l.transport.connect remote).2
  | .push shipment destination => l.act (l.transport.push shipment destination).2
  | .close => l.act l.transport.close
  | .changeStatus status => l.act (l.transport.changeStatus status)
  | .setStatus status time => l.act (l.transport.setStatus status time)
  | .drain => ⟨l.session.foldStatuses, l.heard || !l.applied.isEmpty⟩
  | .reset now =>
    match l.session.reset now with
    | .ok (_, s) => ⟨s, false⟩
    | .error _ => l
  | .meanwhile other =>
    { l with session := { other with
        activity := l.session.activity
        statusCursor := l.session.statusCursor
        transport := { other.transport with
          status := l.transport.status
          ticks := l.transport.ticks
          statusEvents := l.transport.statusEvents } } }

def run (l : Listening) (steps : List LinkStep) : Listening :=
  steps.foldl step l

/-- A status that is set is dated after all the others, and the clock does not run over. -/
def Fits (l : Listening) : LinkStep → Prop
  | .setStatus _ time => ∀ e ∈ l.transport.statusEvents.recent, e.timestamp < time
  | .connect _ => l.transport.ticks.toNat + 2 ≤ Millis.latest.toNat
  | .push _ _ | .close | .changeStatus _ => l.transport.ticks.toNat + 1 ≤ Millis.latest.toNat
  | .drain | .reset _ | .meanwhile _ => True

instance (l : Listening) : (s : LinkStep) → Decidable (l.Fits s)
  | .setStatus _ _ => inferInstanceAs (Decidable (∀ e ∈ _, _))
  | .connect _ | .push _ _ | .close | .changeStatus _ => inferInstanceAs (Decidable (_ ≤ _))
  | .drain | .reset _ | .meanwhile _ => inferInstanceAs (Decidable True)

/-- Each of the steps fits when it is taken. -/
def AllFit (l : Listening) : List LinkStep → Prop
  | [] => True
  | s :: steps => l.Fits s ∧ (l.step s).AllFit steps

instance decidableAllFit (l : Listening) : (steps : List LinkStep) → Decidable (l.AllFit steps)
  | [] => inferInstanceAs (Decidable True)
  | s :: steps =>
    have := (l.step s).decidableAllFit steps
    inferInstanceAs (Decidable (_ ∧ _))

/-- The statuses that the transport reports in a step, as somebody hears them who subscribed just
before it. -/
def emitted (l : Listening) (s : LinkStep) : List StatusEvent :=
  (l.step s).transport.statusEvents.waiting l.transport.statusEvents.subscribe

/-- A new session at a transport of which nobody has asked anything yet. -/
def start (station : Entity) (host : String) (port : UInt16) (autoReady : Bool)
    (settings : Settings) (now : Millis) : Listening :=
  ⟨.new station host port (.new autoReady) settings now, false⟩

end Listening

/-- Between the two, the transport reported statuses of its own accord, one after the other, each
dated by the next tick of its clock, and the session hears of nothing else. -/
inductive Loopback.Reports (t : Loopback) : Loopback → Prop where
  | none {u : Loopback} (status : u.status = t.status) (ticks : u.ticks = t.ticks)
      (statusEvents : u.statusEvents = t.statusEvents) : t.Reports u
  | next {u : Loopback} (rest : t.Reports u) (tick : u.ticks < u.ticks + 1)
      (status : ConnectionStatus) : t.Reports (u.changeStatus status)

/-! ### What the session knows of the transport -/

/-- What waits for the session is dated after all that it applied, unless at time zero, and ends
with the status of the transport; when nothing waits and something was heard, it is known. -/
structure Tracks (a : Activity) (cursor : Cursor) (t : Loopback) (heard : Bool) : Prop where
  follows : a.Follows
  serves : t.statusEvents.Serves cursor
  increasing : (t.statusEvents.waiting cursor).Pairwise fun e e' => e.timestamp < e'.timestamp
  ticks : ∀ e ∈ t.statusEvents.recent, e.timestamp ≤ t.ticks
  newer : ∀ e ∈ t.statusEvents.waiting cursor, e.timestamp = 0 ∨ a.statusAt < e.timestamp
  dated : a.statusAt = 0 ∨ ∃ e ∈ t.statusEvents.recent, a.statusAt ≤ e.timestamp
  last : ∀ e, (t.statusEvents.waiting cursor).getLast? = some e → e.status = t.status
  started : heard = true → t.statusEvents.recent ≠ [] ∧
    ∀ e ∈ t.statusEvents.waiting cursor, 0 < e.timestamp
  settled : heard = true → t.statusEvents.waiting cursor = [] → a.connection = t.status

namespace Tracks

variable {a : Activity} {cursor : Cursor} {t : Loopback} {heard : Bool}

/-- Nothing but the clock, the status and the status channel matters. -/
theorem of_same (h : Tracks a cursor t heard) {u : Loopback} (hstatus : u.status = t.status)
    (hticks : u.ticks = t.ticks) (hevents : u.statusEvents = t.statusEvents) :
    Tracks a cursor u heard := by
  obtain ⟨follows, serves, increasing, ticks, newer, dated, last, started, settled⟩ := h
  constructor
  · exact follows
  all_goals rw [hevents]
  · exact serves
  · exact increasing
  · exact hticks ▸ ticks
  · exact newer
  · exact dated
  · exact hstatus ▸ last
  · exact started
  · exact hstatus ▸ settled

theorem statusAt_lt (h : Tracks a cursor t heard) {time : Millis}
    (hnew : ∀ e ∈ t.statusEvents.recent, e.timestamp < time) : time = 0 ∨ a.statusAt < time := by
  rcases h.dated with hzero | ⟨e, he, hle⟩
  · rw [hzero]
    by_cases htime : time = 0
    · exact .inl htime
    · exact .inr (UInt64.pos_iff_ne_zero.mpr htime)
  · exact .inr (UInt64.lt_of_le_of_lt hle (hnew e he))

/-- A status that is dated after all the others is the last one that waits. -/
theorem emit (h : Tracks a cursor t heard) (status : ConnectionStatus) {time clock : Millis}
    (hnew : ∀ e ∈ t.statusEvents.recent, e.timestamp < time) (hclock : t.ticks ≤ clock)
    (htime : time ≤ clock) :
    Tracks a cursor ({ t with ticks := clock }.emit status time) heard := by
  let e : StatusEvent := ⟨status, time⟩
  let sent := t.statusEvents.send e
  obtain ⟨n, hwaiting⟩ := t.statusEvents.waiting_send h.serves e
  have hmem {e' : StatusEvent} (he' : e' ∈ sent.waiting cursor) :
      e' ∈ t.statusEvents.waiting cursor ∨ e' = e := Channel.mem_of_mem_waiting_send h.serves he'
  have hlast : e ∈ sent.recent := by
    have hwaits : e ∈ sent.waiting cursor := by
      rw [hwaiting]
      exact List.mem_append_right _ (List.mem_singleton_self e)
    exact Channel.mem_of_mem_waiting hwaits
  have hstatusAt := h.statusAt_lt hnew
  constructor
  · exact h.follows
  · exact h.serves.send e
  · change (sent.waiting cursor).Pairwise _
    rw [hwaiting]
    refine List.pairwise_append.mpr ⟨h.increasing.drop, List.pairwise_singleton _ e, ?_⟩
    intro e' he' e'' he''
    rw [List.mem_singleton.mp he'']
    exact hnew e' (Channel.mem_of_mem_waiting (List.mem_of_mem_drop he'))
  · intro e' he'
    rcases Channel.mem_of_mem_send he' with he' | rfl
    · exact UInt64.le_trans (h.ticks e' he') hclock
    · exact htime
  · intro e' he'
    rcases hmem he' with he' | rfl
    · exact h.newer e' he'
    · exact hstatusAt
  · rcases h.dated with hzero | ⟨e', he', hle⟩
    · exact .inl hzero
    · exact .inr ⟨e, hlast, UInt64.le_trans hle (UInt64.le_of_lt (hnew e' he'))⟩
  · intro e' he'
    change (sent.waiting cursor).getLast? = some e' at he'
    rw [hwaiting, List.getLast?_concat] at he'
    rw [← Option.some.inj he']
    rfl
  · intro hheard
    obtain ⟨hsome, hpositive⟩ := h.started hheard
    refine ⟨List.ne_nil_of_mem hlast, fun e' he' => ?_⟩
    rcases hmem he' with he' | rfl
    · exact hpositive e' he'
    · obtain ⟨e', he'⟩ := List.exists_mem_of_ne_nil _ hsome
      exact UInt64.lt_of_le_of_lt UInt64.zero_le (hnew e' he')
  · intro _ hnone
    change sent.waiting cursor = [] at hnone
    rw [hwaiting] at hnone
    exact absurd hnone (List.append_ne_nil_of_right_ne_nil _ (List.cons_ne_nil e []))

theorem changeStatus (h : Tracks a cursor t heard) (status : ConnectionStatus)
    (hticks : t.ticks < t.ticks + 1) : Tracks a cursor (t.changeStatus status) heard := by
  apply h.emit status _ (UInt64.le_of_lt hticks) (UInt64.le_refl _)
  intro e he
  exact UInt64.lt_of_le_of_lt (h.ticks e he) hticks

theorem reports (h : Tracks a cursor t heard) {u : Loopback} (hu : t.Reports u) :
    Tracks a cursor u heard := by
  induction hu with
  | none hstatus hticks hevents => exact h.of_same hstatus hticks hevents
  | next _ hnext status ih => exact ih.changeStatus status hnext

theorem setStatus (h : Tracks a cursor t heard) (status : ConnectionStatus) {time : Millis}
    (hnew : ∀ e ∈ t.statusEvents.recent, e.timestamp < time) :
    Tracks a cursor (t.setStatus status time) heard :=
  h.emit status hnew (Millis.le_max_left _ _) (Millis.le_max_right _ _)

theorem applied_eq (h : Tracks a cursor t heard) :
    a.applied (t.statusEvents.waiting cursor) =
      (t.statusEvents.waiting cursor).filter fun e => 0 < e.timestamp :=
  Activity.applied_of_increasing h.increasing h.newer

/-- A drain after which something was heard shows the transport as it is. -/
theorem drain (h : Tracks a cursor t heard) :
    Tracks (a.applyAll (t.statusEvents.waiting cursor)) t.statusEvents.subscribe t
      (heard || !(a.applied (t.statusEvents.waiting cursor)).isEmpty) := by
  obtain ⟨hsame, hlast⟩ := a.applyAll_eq (t.statusEvents.waiting cursor)
  have hend {e : StatusEvent} (he : (a.applied (t.statusEvents.waiting cursor)).getLast? = some e) :
      (t.statusEvents.waiting cursor).getLast? = some e := by
    rw [h.applied_eq] at he
    exact Activity.getLast?_filter_of_increasing h.increasing he
  have hnone : ∀ e, e ∉ t.statusEvents.waiting t.statusEvents.subscribe := by simp
  constructor
  · exact h.follows.applyAll _
  · exact h.serves.subscribe
  · rw [Channel.waiting_subscribe]
    exact .nil
  · exact h.ticks
  · exact fun e he => absurd he (hnone e)
  · cases happlied : (a.applied (t.statusEvents.waiting cursor)).getLast? with
    | none =>
      rw [hsame (List.getLast?_eq_none_iff.mp happlied)]
      exact h.dated
    | some e =>
      have hmem := Channel.mem_of_mem_waiting (List.mem_of_getLast? (hend happlied))
      rw [(hlast e happlied).2]
      exact .inr ⟨e, hmem, UInt64.le_refl _⟩
  · rw [Channel.waiting_subscribe]
    exact nofun
  · intro hheard
    refine ⟨?_, fun e he => absurd he (hnone e)⟩
    rcases (Bool.or_eq_true _ _).mp hheard with hheard | happlied
    · exact (h.started hheard).1
    · intro hrecent
      have hempty : t.statusEvents.waiting cursor = [] := by simp [Channel.waiting, hrecent]
      rw [hempty] at happlied
      cases happlied
  · intro hheard _
    cases happlied : (a.applied (t.statusEvents.waiting cursor)).getLast? with
    | some e => exact ((hlast e happlied).1).trans (h.last e (hend happlied))
    | none =>
      -- Something was heard before, so that whatever waits is applied: nothing waits.
      have hempty := List.getLast?_eq_none_iff.mp happlied
      rw [hempty] at hheard
      have hbefore : heard = true := by simpa using hheard
      have hwaiting : t.statusEvents.waiting cursor = [] := by
        rw [h.applied_eq, List.filter_eq_nil_iff] at hempty
        apply List.eq_nil_iff_forall_not_mem.mpr
        intro e he
        exact hempty e he (decide_eq_true ((h.started hbefore).2 e he))
      rw [hsame hempty]
      exact h.settled hbefore hwaiting

/-- The times stay when a session is reset. -/
theorem reset (h : Tracks a cursor t heard) : Tracks a.reset cursor t false :=
  ⟨h.follows.reset, h.serves, h.increasing, h.ticks, h.newer, h.dated, h.last, nofun, nofun⟩

end Tracks

theorem Millis.lt_succ {t : Millis} {n : Nat} (h : t.toNat + (n + 1) ≤ latest.toNat) :
    t < t + 1 ∧ (t + 1).toNat + n ≤ latest.toNat := by
  rw [toNat_latest] at h
  have hsucc : (t + 1).toNat = t.toNat + 1 := by
    rw [UInt64.toNat_add, UInt64.toNat_one]
    omega
  rw [UInt64.lt_iff_toNat_lt, hsucc, toNat_latest]
  omega

namespace Listening

variable {l : Listening}

/-- All that a step makes the transport report, unless a status is set in it. -/
theorem reports_step {s : LinkStep} (hfits : l.Fits s)
    (hown : ∀ status time, s ≠ .setStatus status time) :
    l.transport.Reports (l.step s).transport := by
  have hsame : l.transport.Reports l.transport := .none rfl rfl rfl
  cases s with
  | connect remote =>
    obtain ⟨hfirst, hsecond⟩ := Millis.lt_succ hfits
    unfold Listening.step act transport Loopback.connect
    dsimp only
    split
    · exact hsame
    · have hopened : l.transport.Reports
          { l.transport with remote := some remote, closed := false } := .none rfl rfl rfl
      have hconnecting := hopened.next hfirst .connecting
      split
      · exact hconnecting.next (Millis.lt_succ hsecond).1 .ready
      · exact hconnecting
  | push shipment destination =>
    obtain ⟨hnext, -⟩ := Millis.lt_succ (n := 0) hfits
    unfold Listening.step act transport Loopback.push
    dsimp only
    split
    · exact hsame
    · split
      · exact hsame
      · split
        · exact .none rfl rfl rfl
        · exact .none rfl rfl rfl
        · rename_i faults _
          have hbroken : l.transport.Reports { l.transport with faults := faults } :=
            .none rfl rfl rfl
          exact hbroken.next hnext .error
        · exact .none rfl rfl rfl
  | close =>
    have hclosed : l.transport.Reports { l.transport with closed := true } := .none rfl rfl rfl
    exact hclosed.next (Millis.lt_succ (n := 0) hfits).1 .idle
  | changeStatus status => exact hsame.next (Millis.lt_succ (n := 0) hfits).1 status
  | setStatus status time => exact absurd rfl (hown status time)
  | drain =>
    obtain ⟨-, -, htransport⟩ := l.session.foldStatuses_fields
    unfold Listening.step transport
    dsimp only
    rw [htransport]
    exact hsame
  | reset now =>
    simp only [Listening.step, Session.reset_eq]
    by_cases hphase : l.session.phase = .error
    · rw [if_pos hphase]
      exact hsame
    · rw [if_neg hphase]
      exact hsame
  | meanwhile other => exact .none rfl rfl rfl

/-- The session knows its transport but for what waits. -/
def InTouch (l : Listening) : Prop :=
  Tracks l.session.activity l.session.statusCursor l.transport l.heard

theorem InTouch.step (h : l.InTouch) {s : LinkStep} (hfits : l.Fits s) : (l.step s).InTouch := by
  unfold InTouch at h ⊢
  cases s with
  | setStatus status time => exact h.setStatus status hfits
  | drain =>
    obtain ⟨hactivity, hcursor, htransport⟩ := l.session.foldStatuses_fields
    unfold Listening.step transport
    dsimp only
    rw [hactivity, hcursor, htransport]
    exact h.drain
  | reset now =>
    simp only [Listening.step, Session.reset_eq]
    by_cases hphase : l.session.phase = .error
    · rw [if_pos hphase]
      exact h.reset
    · rw [if_neg hphase]
      exact h
  | connect | push | close | changeStatus | meanwhile => exact h.reports (reports_step hfits nofun)

theorem InTouch.run (h : l.InTouch) {steps : List LinkStep} (hfit : l.AllFit steps) :
    (l.run steps).InTouch := by
  induction steps generalizing l with
  | nil => exact h
  | cons s steps ih =>
    obtain ⟨hfits, hrest⟩ := hfit
    exact ih (h.step hfits) hrest

theorem inTouch_start (station : Entity) (host : String) (port : UInt16) (autoReady : Bool)
    (settings : Settings) (now : Millis) :
    (start station host port autoReady settings now).InTouch where
  follows := .initial
  serves := Channel.serves_empty
  increasing := .nil
  ticks := nofun
  newer := nofun
  dated := .inl rfl
  last := nofun
  started := nofun
  settled := nofun

/-- The event is newer than any that the transport reported. -/
def Surpasses (t : Loopback) (e : StatusEvent) : Prop :=
  0 < e.timestamp ∧ ∀ e' ∈ t.statusEvents.recent, e'.timestamp < e.timestamp

theorem Tracks.surpasses {a : Activity} {cursor : Cursor} {t u : Loopback} {heard : Bool}
    (h : Tracks a cursor t heard) (hu : t.Reports u) :
    u.statusEvents.Serves t.statusEvents.subscribe ∧ t.ticks ≤ u.ticks ∧
      ∀ e ∈ u.statusEvents.waiting t.statusEvents.subscribe, Surpasses t e := by
  induction hu with
  | none hstatus hticks hevents =>
    rw [hticks, hevents, Channel.waiting_subscribe]
    exact ⟨h.serves.subscribe, UInt64.le_refl _, nofun⟩
  | @next u _ hnext status ih =>
    obtain ⟨hserves, hclock, hold⟩ := ih
    have hlt : t.ticks < u.ticks + 1 := UInt64.lt_of_le_of_lt hclock hnext
    refine ⟨hserves.send _, UInt64.le_of_lt hlt, fun e he => ?_⟩
    rcases Channel.mem_of_mem_waiting_send hserves he with he | rfl
    · exact hold e he
    · refine ⟨UInt64.lt_of_le_of_lt UInt64.zero_le hlt, fun e' he' => ?_⟩
      exact UInt64.lt_of_le_of_lt (h.ticks e' he') hlt

/-- What the transport reports of its own accord is dated after everything before. -/
theorem InTouch.emitted (h : l.InTouch) {s : LinkStep} (hfits : l.Fits s)
    (hown : ∀ status time, s ≠ .setStatus status time) {e : StatusEvent} (he : e ∈ l.emitted s) :
    Surpasses l.transport e :=
  (Tracks.surpasses h (reports_step hfits hown)).2.2 e he

/-- Once a session has heard anything since it was new or was last reset, every drain leaves it with
the status of its transport, and active just when the transport is ready, however many statuses the
channel forgot. A drain applies all that it is handed but a status that was dated at zero, and what
the transport reports of its own accord is newer than all the statuses before it. -/
theorem view_agrees (station : Entity) (host : String) (port : UInt16) (autoReady : Bool)
    (settings : Settings) (now : Millis) (steps : List LinkStep)
    (hfit : (start station host port autoReady settings now).AllFit steps) :
    let l := (start station host port autoReady settings now).run steps
    ((l.step .drain).heard = true →
      (l.step .drain).session.connection = (l.step .drain).transport.status ∧
      ((l.step .drain).session.isActive = true ↔ (l.step .drain).transport.status = .ready)) ∧
    (l.applied = l.waiting.filter fun e => 0 < e.timestamp) ∧
    ∀ s, l.Fits s → (∀ status time, s ≠ .setStatus status time) →
      ∀ e ∈ l.emitted s, Surpasses l.transport e := by
  intro l
  have h : l.InTouch := (inTouch_start station host port autoReady settings now).run hfit
  have hdrained : (l.step .drain).InTouch := h.step trivial
  obtain ⟨-, hcursor, htransport⟩ := l.session.foldStatuses_fields
  have hnone : (l.step .drain).waiting = [] := by
    unfold waiting Listening.step transport
    dsimp only
    rw [hcursor, htransport]
    exact Channel.waiting_subscribe _
  refine ⟨fun hheard => ?_, Tracks.applied_eq h, fun s hfits hown e he => h.emitted hfits hown he⟩
  have hconnection : (l.step .drain).session.connection = (l.step .drain).transport.status :=
    Tracks.settled hdrained hheard hnone
  refine ⟨hconnection, ?_⟩
  have hactive : (l.step .drain).session.isActive =
      ((l.step .drain).session.connection == .ready) := (Tracks.follows hdrained).active
  rw [hactive, hconnection]
  exact beq_iff_eq

/-! ### More statuses than the channel keeps -/

def newcomer : Listening :=
  start .anyStation "127.0.0.1" 9394 true (.standard "courier") 0

/-- The session has failed, and the next push will break. -/
def failing : Session Loopback :=
  { newcomer.session with
    machine := ⟨⟨.error, 0⟩, false, 0⟩
    transport := { Loopback.auto with faults := [.break] } }

/-- Everything that can happen, and the transport wavers a hundred times. -/
def wavering : List LinkStep :=
  [.connect "127.0.0.1:9394", .drain, .close, .drain, .meanwhile failing, .reset 5,
    .setStatus .connecting 1000] ++
  (List.replicate 100 [.changeStatus .idle, .changeStatus .ready]).flatten ++
  [.push ⟨[], .normal, none⟩ "127.0.0.1:9394"]

/-- The session sees that the connection broke, and not that it was ready before. -/
theorem view_agrees_wavering :
    let l := newcomer.run wavering
    newcomer.AllFit wavering ∧
    (newcomer.run (wavering.take 4)).heard = true ∧ (newcomer.run (wavering.take 6)).heard = false ∧
    l.transport.statusEvents.sent = 205 ∧ l.waiting.length = 128 ∧
    (l.step .drain).session.connection = .error ∧ (l.step .drain).session.isActive = false := by
  intro l
  have hfit : newcomer.AllFit wavering := by decide +kernel
  have hbefore : (newcomer.run (wavering.take 4)).heard = true := by decide +kernel
  have hreset : (newcomer.run (wavering.take 6)).heard = false := by decide +kernel
  have hsent : l.transport.statusEvents.sent = 205 := by decide +kernel
  have hwaiting : l.waiting.length = 128 := by decide +kernel
  have hheard : (l.step .drain).heard = true := by decide +kernel
  have hbroken : (l.step .drain).transport.status = .error := by decide +kernel
  obtain ⟨hconnection, hactive⟩ :=
    (view_agrees .anyStation "127.0.0.1" 9394 true (.standard "courier") 0 wavering hfit).1 hheard
  refine ⟨hfit, hbefore, hreset, hsent, hwaiting, hconnection.trans hbroken, ?_⟩
  rw [← Bool.not_eq_true]
  intro h
  have hready := hactive.mp h
  cases hready.symm.trans hbroken

end Listening

end Courier
