import Courier.Client.Observing
import Courier.Proofs.Client.Sending
import Courier.Proofs.Session.Runs

/-!
# Statuses under interleaving

A message is queued first and marked as queued later, by whoever sends it; an entry is settled
first and reported later, by the runner. Between the two halves everybody else may go on, and the
same message may even be sent again. Whatever the order, the status of a message is right as soon
as nobody stands between his two halves: a mark that comes late finds the outcome and leaves it.
-/

namespace Courier

namespace SnapCache

variable {κ α : Type} [DecidableEq κ]

/-- Whether an entry of this key can be written without an eviction. -/
def fits (c : SnapCache κ α) (key : κ) : Bool :=
  (c.table.erase key).size < c.capacity

theorem get?_insert_of_fits {c : SnapCache κ α} {key : κ} (h : c.fits key) (a : α) (k : κ) :
    (c.insert key a).get? k = if k = key then some a else c.get? k := by
  have hsize : ¬c.capacity < (c.table.insert key a).size := by
    have hlt : (c.table.erase key).size < c.capacity := by simpa [fits] using h
    have hinsert : (c.table.insert key a).size = (c.table.erase key).size + 1 := rfl
    omega
  have hinsert : c.insert key a = { c with table := c.table.insert key a } := if_neg hsize
  rw [hinsert]
  exact Table.get?_insert c.table key k a

end SnapCache

/-- What senders and the runner share, what each of them is still to do, and what was done so
far. -/
structure Mailroom where
  queue : DeliveryQueue
  tracker : DeliveryTracker
  /-- The messages that were queued and are not marked yet. -/
  unmarked : List MessageRef
  /-- The entry that the runner holds. -/
  hand : Option QueueEntry
  /-- What the runner settled and is still to report, in this order. -/
  unreported : List (MessageRef × DeliveryStatus)
  /-- The ids that were ever accepted. -/
  accepted : List String
  /-- Every report made, the last one first. -/
  reported : List (MessageRef × DeliveryStatus)

/-- The halves of what senders and the runner do. -/
inductive MailStep where
  /-- A sender queues a message. One that is refused needs no mark. -/
  | accept (m : MessageRef) (s : Shipment) (now : Millis)
  /-- The sender of a queued message marks it. -/
  | mark (m : MessageRef)
  | next (now : Millis)
  /-- The push of the entry in hand was taken. -/
  | taken
  /-- The push of the entry in hand was not taken. -/
  | refused (now : Millis) (reason : String)
  | purge (now : Millis)
  /-- The runner makes the next report. -/
  | report

namespace Mailroom

def new (policy : RetryPolicy) (capacity : Nat) : Mailroom :=
  ⟨.new policy, .new capacity, [], none, [], [], []⟩

/-- The runner has nothing in hand and nothing to report. -/
def isFree (r : Mailroom) : Bool :=
  r.hand.isNone && r.unreported.isEmpty

def status? (r : Mailroom) (id : String) : Option DeliveryStatus :=
  r.tracker.statuses.get? id

def lastReport? (r : Mailroom) (id : String) : Option DeliveryStatus :=
  (r.reported.find? (·.1.id = id)).map Prod.snd

/-- A step of one who is in a position to make it; of anyone else it does nothing. -/
def step (r : Mailroom) : MailStep → Mailroom
  | .accept m s now =>
    let (queued, queue) := r.queue.append m s now
    if queued then
      { r with queue := queue, unmarked := m :: r.unmarked, accepted := m.id :: r.accepted }
    else r
  | .mark m =>
    if m ∈ r.unmarked then
      { r with tracker := (r.tracker.mark m .queued).2, unmarked := r.unmarked.erase m }
    else r
  | .next now =>
    if r.isFree then
      match r.queue.next now with
      | none => r
      | some (e, queue) => { r with queue := queue, hand := some e }
    else r
  | .taken =>
    match r.hand with
    | none => r
    | some e => { r with
        queue := r.queue.complete e
        hand := none
        unreported := r.unreported ++ [(e.message, .sent)] }
  | .refused now reason =>
    match r.hand with
    | none => r
    | some e =>
      match r.queue.retry e now with
      | (.requeued, queue) => { r with queue := queue, hand := none }
      | (.exhausted e, queue) => { r with
          queue := queue
          hand := none
          unreported := r.unreported ++ [(e.message, .failed reason)] }
  | .purge now =>
    if r.isFree then
      let (expired, queue) := r.queue.purge now
      { r with
        queue := queue
        unreported := r.unreported ++ expired.map fun e => (e.message, .failed "expired") }
    else r
  | .report =>
    match r.unreported with
    | [] => r
    | (m, outcome) :: rest => { r with
        tracker := (r.tracker.mark m outcome).2
        unreported := rest
        reported := (m, outcome) :: r.reported }

def run (r : Mailroom) (steps : List MailStep) : Mailroom :=
  steps.foldl step r

/-- The message whose status a step writes. -/
def written? (r : Mailroom) : MailStep → Option MessageRef
  | .mark m => if m ∈ r.unmarked then some m else none
  | .report => r.unreported.head?.map Prod.fst
  | _ => none

/-- Whether the tracker evicts nothing on the way. -/
def keepsAll (r : Mailroom) : List MailStep → Bool
  | [] => true
  | s :: steps => (r.written? s).all (r.tracker.statuses.fits ·.id) && (r.step s).keepsAll steps

end Mailroom

/-! ### Marks -/

namespace DeliveryTracker

variable {t : DeliveryTracker} {m : MessageRef}

/-- An outcome is always written. -/
theorem get?_mark_outcome (h : t.statuses.fits m.id) {outcome : DeliveryStatus}
    (ho : outcome ≠ .queued) (id : String) :
    (t.mark m outcome).2.statuses.get? id =
      if id = m.id then some outcome else t.statuses.get? id := by
  have hkeep : (t.statuses.get? m.id).any
      (fun current => outcome == .queued && current != .queued) = false := by
    simp [beq_eq_false_iff_ne.mpr ho]
  simp only [mark, SnapCache.insertUnless, hkeep, Bool.false_eq_true, if_false]
  exact SnapCache.get?_insert_of_fits h outcome id

/-- A mark as queued leaves an outcome as it is. -/
theorem get?_mark_queued (h : t.statuses.fits m.id) (id : String) :
    (t.mark m .queued).2.statuses.get? id =
      if id = m.id ∧ (t.statuses.get? m.id).all (· = .queued) then some .queued
      else t.statuses.get? id := by
  by_cases hall : (t.statuses.get? m.id).all (· = .queued)
  · have hkeep : (t.statuses.get? m.id).any
        (fun current => DeliveryStatus.queued == .queued && current != .queued) = false := by
      cases hs : t.statuses.get? m.id with
      | none => rfl
      | some current =>
        rw [hs] at hall
        simpa using hall
    simp only [mark, SnapCache.insertUnless, hkeep, Bool.false_eq_true, if_false, hall, and_true]
    exact SnapCache.get?_insert_of_fits h .queued id
  · have hkeep : (t.statuses.get? m.id).any
        (fun current => DeliveryStatus.queued == .queued && current != .queued) = true := by
      cases hs : t.statuses.get? m.id with
      | none =>
        rw [hs] at hall
        exact absurd rfl hall
      | some current =>
        rw [hs] at hall
        simpa using hall
    simp only [mark, SnapCache.insertUnless, hkeep, if_true, hall, Bool.false_eq_true, and_false,
      if_false]

end DeliveryTracker

theorem mem_foldl_erase_of_ne {es : List QueueEntry} {ids : List String} {id : String}
    (h : id ∈ ids) (hne : ∀ e ∈ es, e.id ≠ id) :
    id ∈ es.foldl (fun ids e => ids.erase e.id) ids := by
  induction es generalizing ids with
  | nil => exact h
  | cons e es ih =>
    apply ih
    · exact (List.mem_erase_of_ne (hne e List.mem_cons_self).symm).mpr h
    · intro f hf
      exact hne f (List.mem_cons_of_mem e hf)

/-! ### The invariant -/

namespace Mailroom

/-- A message that nothing was reported of is still owned by the queue or about to be reported, and
is marked as queued or about to be; of every other one the status is the last report. -/
structure Truthful (r : Mailroom) : Prop where
  owned : ∀ id ∈ r.accepted, r.lastReport? id = none →
    id ∈ r.queue.reserved ∨ ∃ p ∈ r.unreported, p.1.id = id
  queued : ∀ id ∈ r.accepted, r.lastReport? id = none →
    r.status? id = some .queued ∨ ∃ m ∈ r.unmarked, m.id = id
  final : ∀ id outcome, outcome ≠ .queued →
    (r.status? id = some outcome ↔ r.lastReport? id = some outcome)
  outcomes : ∀ p ∈ r.unreported ++ r.reported, p.2 ≠ .queued

theorem truthful_new (policy : RetryPolicy) (capacity : Nat) : (new policy capacity).Truthful where
  owned := nofun
  queued := nofun
  final _ _ _ := ⟨nofun, nofun⟩
  outcomes := nofun

theorem lastReport?_eq_none {r : Mailroom} {id : String} :
    r.lastReport? id = none ↔ ∀ p ∈ r.reported, p.1.id ≠ id := by
  simp [lastReport?]

namespace Truthful

variable {r : Mailroom} (h : r.Truthful)
include h

theorem accept (m : MessageRef) (s : Shipment) (now : Millis) :
    (r.step (.accept m s now)).Truthful := by
  by_cases hm : m.id ∈ r.queue.reserved
  · simpa [step, DeliveryQueue.append_of_contains s now hm] using h
  · have hstep : r.step (.accept m s now) = { r with
        queue := (r.queue.append m s now).2
        unmarked := m :: r.unmarked
        accepted := m.id :: r.accepted } := by
      simp [step, DeliveryQueue.append_fst.mpr hm]
    have hreserved : (r.queue.append m s now).2.reserved = m.id :: r.queue.reserved :=
      DeliveryQueue.reserved_append hm
    rw [hstep]
    refine ⟨?_, ?_, h.final, h.outcomes⟩
    · intro id hid hnone
      rcases List.mem_cons.mp hid with rfl | hid
      · exact .inl (hreserved ▸ List.mem_cons_self)
      · rcases h.owned id hid hnone with howned | hdue
        · exact .inl (hreserved ▸ List.mem_cons_of_mem _ howned)
        · exact .inr hdue
    · intro id hid hnone
      rcases List.mem_cons.mp hid with rfl | hid
      · exact .inr ⟨m, List.mem_cons_self, rfl⟩
      · rcases h.queued id hid hnone with hqueued | ⟨n, hn, hnid⟩
        · exact .inl hqueued
        · exact .inr ⟨n, List.mem_cons_of_mem m hn, hnid⟩

theorem mark {m : MessageRef} (hroom : m ∈ r.unmarked → r.tracker.statuses.fits m.id) :
    (r.step (.mark m)).Truthful := by
  by_cases hm : m ∈ r.unmarked
  · have hstep : r.step (.mark m) = { r with
        tracker := (r.tracker.mark m .queued).2
        unmarked := r.unmarked.erase m } := if_pos hm
    have hget := DeliveryTracker.get?_mark_queued (hroom hm)
    rw [hstep]
    refine ⟨h.owned, ?_, ?_, h.outcomes⟩
    · intro id hid hnone
      change (r.tracker.mark m .queued).2.statuses.get? id = _ ∨ _
      rw [hget]
      rcases h.queued id hid hnone with hqueued | ⟨n, hn, hnid⟩
      · left
        split
        · rfl
        · exact hqueued
      · by_cases hnm : n = m
        · -- An unreported message has no outcome that the mark could find.
          left
          subst hnm
          refine if_pos ⟨hnid.symm, ?_⟩
          rw [hnid, Option.all_eq_true]
          intro outcome hstatus
          by_cases ho : outcome = .queued
          · exact decide_eq_true ho
          · have hnone : r.lastReport? id = none := hnone
            rw [(h.final id outcome ho).mp hstatus] at hnone
            cases hnone
        · exact .inr ⟨n, (List.mem_erase_of_ne hnm).mpr hn, hnid⟩
    · intro id outcome ho
      change (r.tracker.mark m .queued).2.statuses.get? id = _ ↔ _
      rw [hget]
      split
      · rename_i hwrites
        obtain ⟨rfl, hall⟩ := hwrites
        have hnot : r.status? m.id ≠ some outcome := by
          intro hstatus
          have hstatus : r.tracker.statuses.get? m.id = some outcome := hstatus
          rw [hstatus] at hall
          exact ho (by simpa using hall)
        constructor
        · intro heq
          exact absurd (Option.some.inj heq).symm ho
        · intro hlast
          exact absurd ((h.final m.id outcome ho).mpr hlast) hnot
      · exact h.final id outcome ho
  · have hstep : r.step (.mark m) = r := if_neg hm
    rw [hstep]
    exact h

/-- The runner may move entries around, as long as it keeps what is reserved or owes a report. -/
theorem moved (queue : DeliveryQueue) (hand : Option QueueEntry)
    (due : List (MessageRef × DeliveryStatus))
    (hreserved : ∀ id ∈ r.queue.reserved, id ∈ queue.reserved ∨ ∃ p ∈ due, p.1.id = id)
    (hdue : ∀ p ∈ due, p.2 ≠ .queued) :
    ({ r with queue := queue, hand := hand, unreported := r.unreported ++ due } :
      Mailroom).Truthful := by
  refine ⟨?_, h.queued, h.final, ?_⟩
  · intro id hid hnone
    rcases h.owned id hid hnone with howned | ⟨p, hp, hpid⟩
    · rcases hreserved id howned with hkept | ⟨p, hp, hpid⟩
      · exact .inl hkept
      · exact .inr ⟨p, List.mem_append_right _ hp, hpid⟩
    · exact .inr ⟨p, List.mem_append_left _ hp, hpid⟩
  · intro p hp
    simp only [List.mem_append] at hp
    rcases hp with (hp | hp) | hp
    · exact h.outcomes p (List.mem_append_left _ hp)
    · exact hdue p hp
    · exact h.outcomes p (List.mem_append_right _ hp)

theorem next (now : Millis) : (r.step (.next now)).Truthful := by
  simp only [step]
  split
  · cases hn : r.queue.next now with
    | none => exact h
    | some taken =>
      obtain ⟨e, queue⟩ := taken
      obtain ⟨-, hreserved, -⟩ := DeliveryQueue.next_fields hn
      have hmoved := h.moved queue (some e) [] (fun id hid => .inl (hreserved ▸ hid)) nofun
      rwa [List.append_nil] at hmoved
  · exact h

theorem completed {e : QueueEntry} {m : MessageRef} (hm : m.id = e.id) {outcome : DeliveryStatus}
    (ho : outcome ≠ .queued) :
    ({ r with
      queue := r.queue.complete e
      hand := none
      unreported := r.unreported ++ [(m, outcome)] } : Mailroom).Truthful := by
  apply h.moved
  · intro id hid
    by_cases heq : id = e.id
    · exact .inr ⟨_, List.mem_singleton_self _, hm.trans heq.symm⟩
    · exact .inl ((List.mem_erase_of_ne heq).mpr hid)
  · intro p hp
    rw [List.mem_singleton.mp hp]
    exact ho

theorem taken : (r.step .taken).Truthful := by
  simp only [step]
  cases r.hand with
  | none => exact h
  | some e => exact h.completed rfl nofun

theorem refused (now : Millis) (reason : String) : (r.step (.refused now reason)).Truthful := by
  simp only [step]
  cases r.hand with
  | none => exact h
  | some e =>
    by_cases hspent : r.queue.policy.maxRetries < e.attempts + 1
    · simp only [DeliveryQueue.retry_of_spent now hspent]
      exact h.completed rfl nofun
    · simp only [DeliveryQueue.retry_of_left now hspent]
      have hreserved : (r.queue.retry e now).2.reserved = r.queue.reserved := by
        rw [DeliveryQueue.retry_of_left now hspent]
      have hmoved := h.moved (r.queue.retry e now).2 none []
        (fun id hid => .inl (hreserved ▸ hid)) nofun
      rwa [List.append_nil, DeliveryQueue.retry_of_left now hspent] at hmoved

theorem purge (now : Millis) : (r.step (.purge now)).Truthful := by
  simp only [step]
  split
  · apply h.moved
    · intro id hid
      by_cases hexpired : ∃ e ∈ (r.queue.purge now).1, e.id = id
      · obtain ⟨e, he, heid⟩ := hexpired
        exact .inr ⟨_, List.mem_map_of_mem he, heid⟩
      · refine .inl (mem_foldl_erase_of_ne hid ?_)
        intro e he heid
        exact hexpired ⟨e, he, heid⟩
    · intro p hp
      obtain ⟨e, -, rfl⟩ := List.mem_map.mp hp
      exact nofun
  · exact h

theorem report (hroom : ∀ p ∈ r.unreported.head?, r.tracker.statuses.fits p.1.id) :
    (r.step .report).Truthful := by
  simp only [step]
  cases hdue : r.unreported with
  | nil => exact h
  | cons p rest =>
    obtain ⟨m, outcome⟩ := p
    have ho : outcome ≠ .queued :=
      h.outcomes (m, outcome) (List.mem_append_left _ (hdue ▸ List.mem_cons_self))
    have hget := DeliveryTracker.get?_mark_outcome (t := r.tracker) (m := m)
      (hroom (m, outcome) (by rw [hdue]; rfl)) ho
    have hlast (id : String) : ({ r with
        tracker := (r.tracker.mark m outcome).2
        unreported := rest
        reported := (m, outcome) :: r.reported } : Mailroom).lastReport? id =
          if id = m.id then some outcome else r.lastReport? id := by
      by_cases hid : id = m.id
      · simp [lastReport?, hid]
      · rw [if_neg hid]
        simp [lastReport?, Ne.symm hid]
    refine ⟨?_, ?_, ?_, ?_⟩
    · intro id hid hnone
      rw [hlast] at hnone
      split at hnone
      · cases hnone
      · rename_i hne
        rcases h.owned id hid hnone with howned | ⟨p, hp, hpid⟩
        · exact .inl howned
        · rw [hdue] at hp
          rcases List.mem_cons.mp hp with rfl | hp
          · exact absurd hpid.symm hne
          · exact .inr ⟨p, hp, hpid⟩
    · intro id hid hnone
      rw [hlast] at hnone
      split at hnone
      · cases hnone
      · rename_i hne
        change (r.tracker.mark m outcome).2.statuses.get? id = _ ∨ _
        rw [hget, if_neg hne]
        exact h.queued id hid hnone
    · intro id other hother
      change (r.tracker.mark m outcome).2.statuses.get? id = _ ↔ _
      rw [hget, hlast]
      split
      · exact Iff.rfl
      · exact h.final id other hother
    · intro p hp
      apply h.outcomes p
      rw [hdue]
      simp only [List.mem_append, List.mem_cons] at hp ⊢
      rcases hp with hp | rfl | hp
      · exact .inl (.inr hp)
      · exact .inl (.inl rfl)
      · exact .inr hp

theorem step {s : MailStep} (hroom : (r.written? s).all (r.tracker.statuses.fits ·.id)) :
    (r.step s).Truthful := by
  cases s with
  | accept m s now => exact h.accept m s now
  | mark m =>
    apply h.mark
    intro hm
    simpa [written?, hm] using hroom
  | next now => exact h.next now
  | taken => exact h.taken
  | refused now reason => exact h.refused now reason
  | purge now => exact h.purge now
  | report =>
    apply h.report
    intro p hp
    have hp : r.unreported.head? = some p := hp
    simpa [written?, hp] using hroom

theorem run {steps : List MailStep} (hroom : r.keepsAll steps) : (r.run steps).Truthful := by
  induction steps generalizing r with
  | nil => exact h
  | cons s steps ih =>
    obtain ⟨hfirst, hrest⟩ := Bool.and_eq_true_iff.mp hroom
    exact ih (h.step hfirst) hrest

end Truthful

/-- However the halves of what senders and the runner do follow one another, and however often a
message is sent again: when no sender has a mark to make and the runner no report, every message
that was ever accepted has a status. It is queued just if nothing was ever reported of the message,
and then its id is still reserved; otherwise it is the last outcome reported. -/
theorem status_tells (policy : RetryPolicy) (capacity : Nat) (steps : List MailStep)
    (hroom : (new policy capacity).keepsAll steps) :
    let r := (new policy capacity).run steps
    r.unmarked = [] → r.unreported = [] → ∀ id ∈ r.accepted,
      (∃ status, r.status? id = some status) ∧
      (r.status? id = some .queued ↔ ∀ p ∈ r.reported, p.1.id ≠ id) ∧
      ((∀ p ∈ r.reported, p.1.id ≠ id) → id ∈ r.queue.reserved) ∧
      ∀ outcome, r.lastReport? id = some outcome → r.status? id = some outcome := by
  intro r hmarked hreports id hid
  have h : r.Truthful := (truthful_new policy capacity).run hroom
  have hqueued (hnone : r.lastReport? id = none) : r.status? id = some .queued := by
    rcases h.queued id hid hnone with hqueued | ⟨m, hm, -⟩
    · exact hqueued
    · rw [hmarked] at hm
      cases hm
  have hlast (outcome : DeliveryStatus) (hsome : r.lastReport? id = some outcome) :
      outcome ≠ .queued ∧ r.status? id = some outcome := by
    obtain ⟨p, hfind, rfl⟩ := Option.map_eq_some_iff.mp hsome
    have ho := h.outcomes p (List.mem_append_right _ (List.mem_of_find?_eq_some hfind))
    exact ⟨ho, (h.final id p.2 ho).mpr hsome⟩
  rw [← lastReport?_eq_none]
  refine ⟨?_, ⟨?_, hqueued⟩, ?_, fun outcome hsome => (hlast outcome hsome).2⟩
  · cases hreport : r.lastReport? id with
    | none => exact ⟨_, hqueued hreport⟩
    | some outcome => exact ⟨_, (hlast outcome hreport).2⟩
  · intro hstatus
    cases hreport : r.lastReport? id with
    | none => rfl
    | some outcome =>
      obtain ⟨ho, hother⟩ := hlast outcome hreport
      rw [hstatus] at hother
      exact absurd (Option.some.inj hother).symm ho
  · intro hnone
    rcases h.owned id hid hnone with howned | ⟨p, hp, -⟩
    · exact howned
    · rw [hreports] at hp
      cases hp

/-- The first message is reported before it is marked, sent again, put back and dropped; the second
is given up; the third waits. -/
def overtaken (first second third : MessageRef) : List MailStep :=
  let parcel : Shipment := ⟨[7], 0, none⟩
  [.accept first parcel 0, .next 0, .taken, .accept second parcel 0, .report, .mark first,
    .accept first parcel 5, .next 5, .refused 5 "transport refused shipment", .mark second, .next 5,
    .mark first, .refused 5 "transport refused shipment", .next 105,
    .refused 105 "Transport already closed", .accept third parcel 900, .report, .purge 1200,
    .mark third, .report]

theorem status_tells_overtaken :
    let message (n : Serial) : MessageRef := ⟨⟨"alice", "moky", .user⟩, ⟨"bob", "moky", .user⟩, n⟩
    let steps := overtaken (message 1) (message 2) (message 3)
    let r := (new ⟨1, 100, 1000⟩ 3).run steps
    (new ⟨1, 100, 1000⟩ 3).keepsAll steps ∧ r.unmarked = [] ∧ r.unreported = [] ∧
      r.accepted = [message 3, message 1, message 2, message 1].map MessageRef.id ∧
      (r.status? (message 3).id = some .queued ↔ ∀ p ∈ r.reported, p.1.id ≠ (message 3).id) ∧
      r.status? (message 1).id = some (.failed "expired") := by
  intro message steps r
  have hroom : (new ⟨1, 100, 1000⟩ 3).keepsAll steps := by decide +kernel
  have hmarked : r.unmarked = [] := by decide +kernel
  have hreports : r.unreported = [] := by decide +kernel
  have haccepted : r.accepted =
      [message 3, message 1, message 2, message 1].map MessageRef.id := by decide +kernel
  have htells := status_tells ⟨1, 100, 1000⟩ 3 steps hroom hmarked hreports
  obtain ⟨-, hqueued, -, -⟩ := htells (message 3).id (by rw [haccepted]; simp)
  obtain ⟨-, -, -, hlast⟩ := htells (message 1).id (by rw [haccepted]; simp)
  exact ⟨hroom, hmarked, hreports, haccepted, hqueued, hlast _ (by decide +kernel)⟩

/-! ### One after the other -/

/-- Nobody stands between two halves, and nothing was done so far. -/
def atRest (queue : DeliveryQueue) (tracker : DeliveryTracker) : Mailroom :=
  ⟨queue, tracker, [], none, [], [], []⟩

/-- Nobody stands between two halves, and this is what they share. -/
structure Leaves (r : Mailroom) (queue : DeliveryQueue) (tracker : DeliveryTracker) : Prop where
  queue : r.queue = queue
  tracker : r.tracker = tracker
  unmarked : r.unmarked = []
  hand : r.hand = none
  unreported : r.unreported = []

/-- A client that queues a message does the two halves of a sender in turn. -/
theorem leaves_submitted {τ : Type} (c : Client τ) (l : Letter) (priority : Priority) :
    ((atRest c.session.queue c.desk.tracker).run
      [.accept l.message.ref ⟨l.payload, priority, some l.message.ref.id⟩ c.account.clock,
        .mark l.message.ref]).Leaves
      (c.submitted l priority).session.queue (c.submitted l priority).desk.tracker := by
  by_cases h : l.message.ref.id ∈ c.session.queue.reserved
  · simp only [run, List.foldl_cons, List.foldl_nil, step, atRest, Client.submitted,
      Session.enqueue, DeliveryQueue.append_of_contains _ _ h]
    exact ⟨rfl, rfl, rfl, rfl, rfl⟩
  · simp only [run, List.foldl_cons, List.foldl_nil, step, atRest, Client.submitted,
      Session.enqueue, DeliveryQueue.append_fst.mpr h, if_true, List.mem_cons_self,
      List.erase_cons_head]
    exact ⟨rfl, rfl, rfl, rfl, rfl⟩

section Iteration

variable {τ : Type} [Transport τ]

theorem leaves_failAll {r : Mailroom} {w : Watched τ Desk} {reason : String}
    {es : List QueueEntry} (hqueue : r.queue = w.session.queue)
    (htracker : r.tracker = w.observer.tracker) (hunmarked : r.unmarked = [])
    (hhand : r.hand = none) (hdue : r.unreported = es.map fun e => (e.message, .failed reason)) :
    let w' := es.foldl (Watched.fail Client.observer reason) w
    (r.run (List.replicate es.length .report)).Leaves w'.session.queue w'.observer.tracker := by
  induction es generalizing r w with
  | nil => exact ⟨hqueue, htracker, hunmarked, hhand, hdue⟩
  | cons e es ih =>
    rw [List.length_cons, List.replicate_succ, run, List.foldl_cons, List.foldl_cons]
    apply ih
    · simp only [step, hdue, List.map_cons]
      exact hqueue
    · simp only [step, hdue, List.map_cons, htracker]
      rfl
    · simp only [step, hdue, List.map_cons]
      exact hunmarked
    · simp only [step, hdue, List.map_cons]
      exact hhand
    · simp only [step, hdue, List.map_cons]

theorem leaves_purge (w : Watched τ Desk) (now : Millis) : ∃ steps,
    ((atRest w.session.queue w.observer.tracker).run steps).Leaves
      (w.purge Client.observer now).session.queue
      (w.purge Client.observer now).observer.tracker :=
  ⟨.purge now :: List.replicate (w.session.queue.purge now).1.length .report,
    leaves_failAll rfl rfl rfl rfl rfl⟩

theorem leaves_retry {r : Mailroom} {w : Watched τ Desk} {e : QueueEntry} (now : Millis)
    (reason : String) (hqueue : r.queue = w.session.queue)
    (htracker : r.tracker = w.observer.tracker) (hunmarked : r.unmarked = [])
    (hhand : r.hand = some e) (hdue : r.unreported = []) :
    (r.run [.refused now reason, .report]).Leaves
      (w.retry Client.observer now e reason).session.queue
      (w.retry Client.observer now e reason).observer.tracker := by
  by_cases hspent : w.session.queue.policy.maxRetries < e.attempts + 1
  · simp only [run, List.foldl_cons, List.foldl_nil, step, hhand, hqueue, hdue, htracker,
      Watched.retry, DeliveryQueue.retry_of_spent now hspent, List.nil_append]
    exact ⟨rfl, rfl, hunmarked, rfl, rfl⟩
  · simp only [run, List.foldl_cons, List.foldl_nil, step, hhand, hqueue, hdue,
      Watched.retry, DeliveryQueue.retry_of_left now hspent]
    exact ⟨rfl, htracker, hunmarked, rfl, rfl⟩

/-- What an iteration does when it comes to send is to settle and to report, in turn. -/
theorem leaves_send (w : Watched τ Desk) (now : Millis) : ∃ steps,
    ((atRest w.session.queue w.observer.tracker).run steps).Leaves
      (w.send Client.observer now).2.session.queue
      (w.send Client.observer now).2.observer.tracker := by
  unfold Watched.send
  split
  · cases hn : w.session.queue.next now with
    | none => exact leaves_purge w now
    | some taken =>
      obtain ⟨e, queue⟩ := taken
      have hhold : (atRest w.session.queue w.observer.tracker).step (.next now) =
          { atRest queue w.observer.tracker with hand := some e } := by
        simp [step, atRest, isFree, hn]
      dsimp only
      unfold Watched.dispatch
      have hpush := Session.push_snd { w.session with queue := queue } e
      generalize ({ w.session with queue := queue } : Session τ).push e = pushed at hpush ⊢
      obtain ⟨answer, session⟩ := pushed
      have hqueue : session.queue = queue := congrArg Session.queue hpush
      rcases answer with cause | taken
      · refine ⟨[.next now, .refused now cause.message, .report], ?_⟩
        rw [run, List.foldl_cons, hhold]
        exact leaves_retry now _ hqueue.symm rfl rfl rfl rfl
      · cases taken with
        | false =>
          refine ⟨[.next now, .refused now "transport refused shipment", .report], ?_⟩
          rw [run, List.foldl_cons, hhold]
          exact leaves_retry now _ hqueue.symm rfl rfl rfl rfl
        | true =>
          refine ⟨[.next now, .taken, .report], ?_⟩
          rw [run, List.foldl_cons, hhold]
          exact ⟨congrArg (DeliveryQueue.complete · e) hqueue.symm, rfl, rfl, rfl, rfl⟩
  · exact leaves_purge w now

end Iteration

end Mailroom

end Courier
