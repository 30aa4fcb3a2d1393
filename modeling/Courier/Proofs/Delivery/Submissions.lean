import Courier.Proofs.Delivery.Reservations

/-!
# Submissions

What a delivery queue holds after any number of shipments were handed to it and none was taken
out. The accepted ones wait behind everything that waited before, and they are the entries whose
numbers were given out since.
-/

namespace Courier

/-- A shipment as it is handed to a queue. -/
structure Submission where
  message : MessageRef
  shipment : Shipment
  now : Millis

namespace DeliveryQueue

def submit (q : DeliveryQueue) (s : Submission) : DeliveryQueue :=
  (q.append s.message s.shipment s.now).2

def submitAll (q : DeliveryQueue) (ss : List Submission) : DeliveryQueue :=
  ss.foldl submit q

/-- The entries that the accepted ones of some submissions become. -/
def accepted (q : DeliveryQueue) : List Submission → List QueueEntry
  | [] => []
  | s :: ss =>
    let later := (q.submit s).accepted ss
    if (q.append s.message s.shipment s.now).1 then
      q.entry s.message s.shipment s.now :: later
    else later

/-- The waiting entries with a number that was not given out before `order`. -/
def queuedSince (q : DeliveryQueue) (order : Nat) : List QueueEntry :=
  q.waiting.filter (order ≤ ·.order)

variable {q : DeliveryQueue} {out : List QueueEntry} {s : Submission}

theorem submit_of_contains (h : s.message.id ∈ q.reserved) : q.submit s = q := by
  rw [submit, append_of_contains _ _ h]

theorem accepted_cons_of_contains (ss : List Submission) (h : s.message.id ∈ q.reserved) :
    q.accepted (s :: ss) = q.accepted ss := by
  simp [accepted, append_of_contains _ _ h, submit_of_contains h]

theorem accepted_cons (ss : List Submission) (h : s.message.id ∉ q.reserved) :
    q.accepted (s :: ss) =
      q.entry s.message s.shipment s.now :: (q.submit s).accepted ss := by
  simp only [accepted, append_fst.mpr h, if_pos]

theorem submitAll_cons (ss : List Submission) :
    q.submitAll (s :: ss) = (q.submit s).submitAll ss := rfl

theorem submitAll_append (ss ts : List Submission) :
    q.submitAll (ss ++ ts) = (q.submitAll ss).submitAll ts :=
  List.foldl_append

theorem accepted_append (ss ts : List Submission) :
    q.accepted (ss ++ ts) = q.accepted ss ++ (q.submitAll ss).accepted ts := by
  induction ss generalizing q with
  | nil => rfl
  | cons s ss ih =>
    rw [List.cons_append]
    by_cases h : s.message.id ∈ q.reserved
    · rw [accepted_cons_of_contains _ h, accepted_cons_of_contains _ h, ih, submitAll_cons,
        submit_of_contains h]
    · rw [accepted_cons _ h, accepted_cons _ h, ih, submitAll_cons]
      rfl

theorem Sound.submitAll (hq : q.Sound out) (ss : List Submission) :
    (q.submitAll ss).Sound out := by
  induction ss generalizing q with
  | nil => exact hq
  | cons s ss ih => exact ih (hq.append _ _ _)

theorem waiting_submitAll (ss : List Submission) :
    (q.submitAll ss).waiting.Perm (q.waiting ++ q.accepted ss) := by
  induction ss generalizing q with
  | nil => simp [submitAll, accepted]
  | cons s ss ih =>
    rw [submitAll_cons]
    by_cases h : s.message.id ∈ q.reserved
    · rw [accepted_cons_of_contains ss h, submit_of_contains h]
      exact ih
    · rw [accepted_cons ss h]
      refine ih.trans (((waiting_append h).append_right _).trans ?_)
      exact List.perm_middle.symm

theorem order_accepted (ss : List Submission) :
    (q.accepted ss).map QueueEntry.order =
      List.range' q.nextOrder (q.accepted ss).length := by
  induction ss generalizing q with
  | nil => rfl
  | cons s ss ih =>
    by_cases h : s.message.id ∈ q.reserved
    · rw [accepted_cons_of_contains ss h]
      exact ih
    · have hn : (q.submit s).nextOrder = q.nextOrder + 1 := nextOrder_append h
      rw [accepted_cons ss h, List.map_cons, ih, hn, List.length_cons, List.range'_succ]
      rfl

theorem le_order_of_accepted {ss : List Submission} {e : QueueEntry} (he : e ∈ q.accepted ss) :
    q.nextOrder ≤ e.order := by
  have hm := List.mem_map_of_mem (f := QueueEntry.order) he
  rw [order_accepted] at hm
  exact (List.mem_range'_1.mp hm).1

theorem Sound.queuedSince_nextOrder (hq : q.Sound out) : q.queuedSince q.nextOrder = [] := by
  refine List.filter_eq_nil_iff.mpr fun e he => ?_
  have := hq.numbered _ (List.mem_map_of_mem (List.mem_append_left out he))
  simpa using this

theorem queuedSince_submitAll (hq : q.Sound out) (ss : List Submission) :
    ((q.submitAll ss).queuedSince q.nextOrder).Perm (q.accepted ss) := by
  refine ((waiting_submitAll ss).filter _).trans (List.Perm.of_eq ?_)
  rw [List.filter_append]
  have hold : q.waiting.filter (q.nextOrder ≤ ·.order) = [] := hq.queuedSince_nextOrder
  have hnew : (q.accepted ss).filter (q.nextOrder ≤ ·.order) = q.accepted ss := by
    refine List.filter_eq_self.mpr fun e he => ?_
    simpa using le_order_of_accepted he
  rw [hold, hnew, List.nil_append]

/-- Submissions with ids that are neither reserved nor repeated are all accepted. -/
theorem accepted_of_fresh {ss : List Submission} (hids : (ss.map (·.message.id)).Nodup)
    (hnew : ∀ s ∈ ss, s.message.id ∉ q.reserved) :
    (q.accepted ss).map (fun e => (e.message, e.shipment)) =
      ss.map fun s => (s.message, s.shipment) := by
  induction ss generalizing q with
  | nil => rfl
  | cons s ss ih =>
    have hs := hnew s List.mem_cons_self
    obtain ⟨hfirst, hrest⟩ := List.nodup_cons.mp hids
    rw [accepted_cons ss hs, List.map_cons, ih hrest, List.map_cons]
    · rfl
    · intro t ht
      have hreserved : (q.submit s).reserved = s.message.id :: q.reserved := reserved_append hs
      rw [hreserved, List.mem_cons]
      rintro (heq | hmem)
      · exact hfirst (List.mem_map.mpr ⟨t, ht, heq⟩)
      · exact hnew t (List.mem_cons_of_mem s ht) hmem

theorem mem_accepted {ss : List Submission} {e : QueueEntry} (he : e ∈ q.accepted ss) :
    ∃ s ∈ ss, e.message = s.message ∧ e.shipment = s.shipment := by
  induction ss generalizing q with
  | nil => cases he
  | cons s ss ih =>
    simp only [accepted] at he
    split at he
    · rcases List.mem_cons.mp he with rfl | he
      · exact ⟨s, List.mem_cons_self, rfl, rfl⟩
      · obtain ⟨t, ht, h⟩ := ih he
        exact ⟨t, List.mem_cons_of_mem s ht, h⟩
    · obtain ⟨t, ht, h⟩ := ih he
      exact ⟨t, List.mem_cons_of_mem s ht, h⟩

/-- Submissions of one priority wait in the order in which they were made. -/
theorem queuedSince_eq_accepted (hq : q.Sound out) {p : Priority} {ss : List Submission}
    (hp : ∀ s ∈ ss, s.shipment.priority = p) :
    (q.submitAll ss).queuedSince q.nextOrder = q.accepted ss := by
  refine eq_of_perm_of_departing (queuedSince_submitAll hq ss) ?_ ?_
  · exact (hq.submitAll ss).departing.filter _
  · have hpriority (e : QueueEntry) (he : e ∈ q.accepted ss) : e.priority = p := by
      obtain ⟨s, hs, -, hship⟩ := mem_accepted he
      rw [QueueEntry.priority, hship, hp s hs]
    have horder : (q.accepted ss).Pairwise (·.order < ·.order) := by
      rw [← List.pairwise_map (f := QueueEntry.order), order_accepted]
      exact List.pairwise_lt_range'
    refine horder.imp_of_mem ?_
    intro a b ha hb hlt
    exact .inr ⟨(hpriority a ha).trans (hpriority b hb).symm, hlt⟩

end DeliveryQueue

end Courier
