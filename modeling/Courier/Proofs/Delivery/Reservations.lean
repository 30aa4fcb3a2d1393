import Courier.Proofs.Delivery.Lanes

/-!
# Reservations

What each operation of a delivery queue does to its waiting entries and to its reservations. In a
sound queue exactly the messages of the waiting entries and of those handed out are reserved, each
once; every operation that its users may ask for keeps a sound queue sound.
-/

namespace Courier.DeliveryQueue

/-! ### Waiting entries -/

theorem contains_iff {q : DeliveryQueue} {id : String} : q.contains id ↔ id ∈ q.reserved := by
  simp [contains]

def entry (q : DeliveryQueue) (m : MessageRef) (s : Shipment) (now : Millis) : QueueEntry :=
  ⟨s, m, q.nextOrder, 0, now, now⟩

theorem append_of_contains {q : DeliveryQueue} {m : MessageRef} (s : Shipment) (now : Millis)
    (h : m.id ∈ q.reserved) : q.append m s now = (false, q) := by
  simp [append, contains_iff.mpr h]

theorem append_fst {q : DeliveryQueue} {m : MessageRef} {s : Shipment} {now : Millis} :
    (q.append m s now).1 = true ↔ m.id ∉ q.reserved := by
  by_cases h : m.id ∈ q.reserved
  · simp [append_of_contains s now h, h]
  · simp [append, contains, h]

section Append

variable {q : DeliveryQueue} {m : MessageRef} {s : Shipment} {now : Millis}
variable (h : m.id ∉ q.reserved)
include h

theorem lanes_append : (q.append m s now).2.lanes =
    updateLane s.priority (· ++ [q.entry m s now]) q.lanes := by
  simp [append, contains, h, entry, QueueEntry.priority]

theorem waiting_append : (q.append m s now).2.waiting.Perm (q.entry m s now :: q.waiting) := by
  unfold waiting
  rw [lanes_append h]
  exact entriesOf_updateLane (fun es => List.perm_append_comm) q.lanes

theorem reserved_append : (q.append m s now).2.reserved = m.id :: q.reserved := by
  simp [append, contains, h]

theorem nextOrder_append : (q.append m s now).2.nextOrder = q.nextOrder + 1 := by
  simp [append, contains, h]

end Append

theorem next_eq_none {q : DeliveryQueue} {now : Millis} :
    q.next now = none ↔ ∀ e ∈ q.waiting, e.isDue now = false := by
  have ht := takeDue?_entriesOf now q.lanes
  rw [next, Option.map_eq_none_iff, ← Option.map_eq_none_iff, ht]
  exact Lane.takeDue?_eq_none

/-- An entry that is handed out comes from the place of the first due one. -/
theorem next_eq_some {q q' : DeliveryQueue} {e : QueueEntry} {now : Millis}
    (h : q.next now = some (e, q')) :
    ∃ before after, q.waiting = before ++ e :: after ∧ q'.waiting = before ++ after ∧
      e.isDue now ∧ ∀ a ∈ before, a.isDue now = false := by
  obtain ⟨⟨found, lanes⟩, ht, heq⟩ := Option.map_eq_some_iff.mp h
  obtain ⟨rfl, rfl⟩ := Prod.mk.inj heq
  have hw := takeDue?_entriesOf now q.lanes
  rw [ht] at hw
  exact Lane.takeDue?_eq_some.mp hw.symm

theorem waiting_next {q q' : DeliveryQueue} {e : QueueEntry} {now : Millis}
    (h : q.next now = some (e, q')) : q.waiting.Perm (e :: q'.waiting) := by
  obtain ⟨before, after, hq, hq', -⟩ := next_eq_some h
  rw [hq, hq']
  exact List.perm_middle

theorem next_fields {q q' : DeliveryQueue} {e : QueueEntry} {now : Millis}
    (h : q.next now = some (e, q')) :
    q'.policy = q.policy ∧ q'.reserved = q.reserved ∧ q'.nextOrder = q.nextOrder := by
  obtain ⟨⟨found, lanes⟩, -, heq⟩ := Option.map_eq_some_iff.mp h
  obtain ⟨rfl, rfl⟩ := Prod.mk.inj heq
  exact ⟨rfl, rfl, rfl⟩

def failedOnce (e : QueueEntry) : QueueEntry :=
  { e with attempts := e.attempts + 1 }

def postponed (q : DeliveryQueue) (e : QueueEntry) (now : Millis) : QueueEntry :=
  { failedOnce e with notBefore := Millis.later now q.policy.retryDelay }

theorem retry_of_spent {q : DeliveryQueue} {e : QueueEntry} (now : Millis)
    (h : q.policy.maxRetries < e.attempts + 1) :
    q.retry e now = (.exhausted (failedOnce e), q.complete e) := by
  simp [retry, h, failedOnce, complete, QueueEntry.id]

theorem retry_of_left {q : DeliveryQueue} {e : QueueEntry} (now : Millis)
    (h : ¬q.policy.maxRetries < e.attempts + 1) :
    q.retry e now = (.requeued, { q with
      lanes := updateLane e.priority (Lane.insert (q.postponed e now)) q.lanes }) := by
  simp [retry, h, failedOnce, postponed, QueueEntry.priority]

theorem waiting_retry {q : DeliveryQueue} {e : QueueEntry} (now : Millis)
    (h : ¬q.policy.maxRetries < e.attempts + 1) :
    (q.retry e now).2.waiting.Perm (q.postponed e now :: q.waiting) := by
  rw [retry_of_left now h]
  exact entriesOf_updateLane (Lane.insert_perm _) q.lanes

theorem purge_fst (q : DeliveryQueue) (now : Millis) :
    (q.purge now).1 = q.waiting.filter (q.policy.isExpired · now) := rfl

theorem waiting_purge (q : DeliveryQueue) (now : Millis) :
    (q.purge now).2.waiting = q.waiting.filter (!q.policy.isExpired · now) := by
  simp only [purge, waiting]
  induction q.lanes with
  | nil => rfl
  | cons l rest ih =>
    simp only [List.map_cons, List.flatMap_cons, List.filter_append, List.filter_cons]
    split
    · rw [List.flatMap_cons, ih]
    · rename_i h
      have hnil : l.entries.filter (!q.policy.isExpired · now) = [] := by simpa using h
      rw [ih, hnil, List.nil_append]

/-! ### Sound queues -/

/-- The queue is sound while the entries `out` are handed out. -/
structure Sound (q : DeliveryQueue) (out : List QueueEntry) : Prop where
  ordered : LanesOrdered q.lanes
  reserved : q.reserved.Perm ((q.waiting ++ out).map QueueEntry.id)
  ids : ((q.waiting ++ out).map QueueEntry.id).Nodup
  orders : ((q.waiting ++ out).map QueueEntry.order).Nodup
  numbered : ∀ n ∈ (q.waiting ++ out).map QueueEntry.order, n < q.nextOrder

namespace Sound

theorem new (policy : RetryPolicy) : Sound (.new policy) [] where
  ordered := .nil
  reserved := .refl _
  ids := .nil
  orders := .nil
  numbered := by simp [DeliveryQueue.new, waiting]

theorem clear (q : DeliveryQueue) : Sound q.clear.2 [] where
  ordered := .nil
  reserved := .refl _
  ids := .nil
  orders := .nil
  numbered := by simp [DeliveryQueue.clear, waiting]

theorem mem_reserved {q : DeliveryQueue} {out : List QueueEntry} (hq : q.Sound out) {id : String} :
    id ∈ q.reserved ↔ ∃ e ∈ q.waiting ++ out, e.id = id := by
  rw [hq.reserved.mem_iff, List.mem_map]

/-- Soundness passes on to a queue that owns entries of the same ids and places. -/
theorem transfer {q q' : DeliveryQueue} {out out' : List QueueEntry} (hq : q.Sound out)
    (hordered : LanesOrdered q'.lanes)
    (hids : ((q'.waiting ++ out').map QueueEntry.id).Perm ((q.waiting ++ out).map QueueEntry.id))
    (horders : ((q'.waiting ++ out').map QueueEntry.order).Perm
      ((q.waiting ++ out).map QueueEntry.order))
    (hreserved : q'.reserved = q.reserved) (hnext : q'.nextOrder = q.nextOrder) :
    q'.Sound out' where
  ordered := hordered
  reserved := hreserved ▸ hq.reserved.trans hids.symm
  ids := hids.nodup_iff.mpr hq.ids
  orders := horders.nodup_iff.mpr hq.orders
  numbered := fun n hn => hnext ▸ hq.numbered n (horders.mem_iff.mp hn)

theorem append {q : DeliveryQueue} {out : List QueueEntry} (hq : q.Sound out) (m : MessageRef)
    (s : Shipment) (now : Millis) : (q.append m s now).2.Sound out := by
  by_cases h : m.id ∈ q.reserved
  · rw [append_of_contains s now h]
    exact hq
  · have hw : ((q.append m s now).2.waiting ++ out).Perm (q.entry m s now :: q.waiting ++ out) :=
      (waiting_append h).append_right out
    have hnum (e : QueueEntry) (he : e ∈ q.waiting ++ out) : e.order < q.nextOrder :=
      hq.numbered _ (List.mem_map_of_mem he)
    refine ⟨?_, ?_, ?_, ?_, ?_⟩
    · rw [lanes_append h]
      refine hq.ordered.updateLane ⟨by simp [entry, QueueEntry.priority], by simp⟩ ?_
      intro l hl hp
      have hlo := hq.ordered.each l hl
      refine ⟨?_, List.pairwise_append.mpr ⟨hlo.submitted, List.pairwise_singleton _ _, ?_⟩⟩
      · intro e he
        rcases List.mem_append.mp he with he | he
        · exact (hlo.priority e he).trans hp
        · obtain rfl := List.mem_singleton.mp he
          rfl
      · intro a ha b hb
        obtain rfl := List.mem_singleton.mp hb
        exact hnum a (List.mem_append_left out (mem_entriesOf.mpr ⟨l, hl, ha⟩))
    · rw [reserved_append h]
      exact (hq.reserved.cons m.id).trans (hw.map QueueEntry.id).symm
    · refine (hw.map QueueEntry.id).nodup_iff.mpr (List.nodup_cons.mpr ⟨?_, hq.ids⟩)
      exact fun hm => h (hq.reserved.mem_iff.mpr hm)
    · refine (hw.map QueueEntry.order).nodup_iff.mpr (List.nodup_cons.mpr ⟨?_, hq.orders⟩)
      exact fun hm => Nat.lt_irrefl _ (hq.numbered _ hm)
    · intro n hn
      rw [nextOrder_append h]
      rcases List.mem_cons.mp ((hw.map QueueEntry.order).mem_iff.mp hn) with rfl | hn
      · exact Nat.lt_succ_self _
      · exact Nat.lt_succ_of_lt (hq.numbered n hn)

theorem next {q q' : DeliveryQueue} {out : List QueueEntry} {e : QueueEntry} {now : Millis}
    (hq : q.Sound out) (h : q.next now = some (e, q')) : q'.Sound (e :: out) := by
  have hw : (q'.waiting ++ e :: out).Perm (q.waiting ++ out) :=
    List.perm_middle.trans ((waiting_next h).append_right out).symm
  obtain ⟨-, hreserved, hnext⟩ := next_fields h
  obtain ⟨⟨found, lanes⟩, ht, heq⟩ := Option.map_eq_some_iff.mp h
  obtain ⟨rfl, rfl⟩ := Prod.mk.inj heq
  exact hq.transfer (hq.ordered.takeDue? ht) (hw.map _) (hw.map _) hreserved hnext

theorem complete {q : DeliveryQueue} {out : List QueueEntry} {e : QueueEntry} (hq : q.Sound out)
    (he : e ∈ out) : (q.complete e).Sound (out.erase e) := by
  have hp : (q.waiting ++ out).Perm (e :: (q.waiting ++ out.erase e)) :=
    ((List.perm_cons_erase he).append_left q.waiting).trans List.perm_middle
  have hids := (hp.map QueueEntry.id).nodup_iff.mp hq.ids
  have horders := (hp.map QueueEntry.order).nodup_iff.mp hq.orders
  refine ⟨hq.ordered, ?_, (List.nodup_cons.mp hids).2, (List.nodup_cons.mp horders).2, ?_⟩
  · have h := (hq.reserved.trans (hp.map QueueEntry.id)).erase e.id
    rw [List.map_cons, List.erase_cons_head] at h
    exact h
  · intro n hn
    exact hq.numbered n ((hp.map QueueEntry.order).mem_iff.mpr (List.mem_cons_of_mem _ hn))

theorem retry {q : DeliveryQueue} {out : List QueueEntry} {e : QueueEntry} (hq : q.Sound out)
    (he : e ∈ out) (now : Millis) : (q.retry e now).2.Sound (out.erase e) := by
  by_cases h : q.policy.maxRetries < e.attempts + 1
  · rw [retry_of_spent now h]
    exact hq.complete he
  · have hp : (q.waiting ++ out).Perm (e :: (q.waiting ++ out.erase e)) :=
      ((List.perm_cons_erase he).append_left q.waiting).trans List.perm_middle
    have hw := (waiting_retry now h).append_right (out.erase e)
    have horders := (hp.map QueueEntry.order).nodup_iff.mp hq.orders
    have hnew (a : QueueEntry) (ha : a ∈ q.waiting) : a.order ≠ e.order := fun heq =>
      (List.nodup_cons.mp horders).1 (heq ▸ List.mem_map_of_mem (List.mem_append_left _ ha))
    refine hq.transfer ?_ ((hw.map QueueEntry.id).trans (hp.map QueueEntry.id).symm)
      ((hw.map QueueEntry.order).trans (hp.map QueueEntry.order).symm) ?_ ?_
    · rw [retry_of_left now h]
      refine hq.ordered.updateLane ⟨by simp [Lane.insert_nil, postponed, failedOnce,
        QueueEntry.priority], by simp [Lane.insert_nil]⟩ ?_
      intro l hl hpr
      have hlo := hq.ordered.each l hl
      refine ⟨?_, Lane.insert_submitted hlo.submitted ?_⟩
      · intro a ha
        rcases List.mem_cons.mp ((Lane.insert_perm _ _).mem_iff.mp ha) with rfl | ha
        · rfl
        · exact (hlo.priority a ha).trans hpr
      · exact fun a ha => hnew a (mem_entriesOf.mpr ⟨l, hl, ha⟩)
    · rw [retry_of_left now h]
    · rw [retry_of_left now h]

/-- Releasing the entries of a part of the reservations leaves the other part. -/
theorem foldl_erase_perm {es : List QueueEntry} {ids rest : List String}
    (h : ids.Perm (es.map QueueEntry.id ++ rest)) :
    (es.foldl (fun ids e => ids.erase e.id) ids).Perm rest := by
  induction es generalizing ids with
  | nil => exact h
  | cons e es ih =>
    refine ih ?_
    have := h.erase e.id
    simpa using this

theorem purge {q : DeliveryQueue} {out : List QueueEntry} (hq : q.Sound out) (now : Millis) :
    (q.purge now).2.Sound out := by
  have hs : ((q.purge now).2.waiting ++ out).Sublist (q.waiting ++ out) := by
    rw [waiting_purge]
    exact List.filter_sublist.append_right out
  have hp : (q.waiting ++ out).Perm ((q.purge now).1 ++ ((q.purge now).2.waiting ++ out)) := by
    rw [waiting_purge, purge_fst, ← List.append_assoc]
    exact (List.filter_append_perm _ _).symm.append_right out
  refine ⟨?_, ?_, hq.ids.sublist (hs.map _), hq.orders.sublist (hs.map _), ?_⟩
  · exact (hq.ordered.map_sublist fun es => List.filter_sublist).filter _
  · refine foldl_erase_perm ?_
    rw [← List.map_append]
    exact hq.reserved.trans (hp.map QueueEntry.id)
  · exact fun n hn => hq.numbered n ((hs.map _).subset hn)

theorem departing {q : DeliveryQueue} {out : List QueueEntry} (hq : q.Sound out) :
    q.waiting.Pairwise QueueEntry.Precedes :=
  hq.ordered.departing

end Sound

end Courier.DeliveryQueue
