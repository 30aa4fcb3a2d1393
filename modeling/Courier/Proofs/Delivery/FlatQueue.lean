import Courier.Proofs.Delivery.Reservations

/-!
# The delivery queue as a flat list

A flat queue keeps one list of waiting entries, in no particular order, beside the entries that
are handed out. Whatever is looked for, the whole list is searched. A delivery queue gives the
same answers to every sequence of requests in which only entries that are handed out are settled,
and nothing is handed out while everything is dropped.
-/

namespace Courier

structure FlatQueue where
  policy : RetryPolicy
  waiting : List QueueEntry
  handedOut : List QueueEntry
  nextOrder : Nat

inductive QueueRequest where
  | append (m : MessageRef) (s : Shipment) (now : Millis)
  | next (now : Millis)
  | complete (e : QueueEntry)
  | retry (e : QueueEntry) (now : Millis)
  | purge (now : Millis)
  | clear
  | size
  | contains (id : String)
  deriving DecidableEq, Repr

inductive QueueAnswer where
  | done
  | flag (b : Bool)
  | entry (e : Option QueueEntry)
  | outcome (o : RetryOutcome)
  | entries (es : List QueueEntry)
  | count (n : Nat)
  deriving DecidableEq, Repr

namespace FlatQueue

def new (policy : RetryPolicy) : FlatQueue :=
  ⟨policy, [], [], 0⟩

/-- The messages that wait or are handed out. -/
def ids (f : FlatQueue) : List String :=
  (f.waiting ++ f.handedOut).map QueueEntry.id

/-- The one among some entries that no other one precedes. -/
def first? (es : List QueueEntry) : Option QueueEntry :=
  es.find? fun e => es.all fun a => !decide (a.Precedes e)

/-- Some entries by falling priority and, within one priority, in the order of submission. -/
def inOrder (es : List QueueEntry) : List QueueEntry :=
  es.mergeSort fun a b => !decide (b.Precedes a)

def append (f : FlatQueue) (m : MessageRef) (s : Shipment) (now : Millis) : Bool × FlatQueue :=
  if m.id ∈ f.ids then (false, f)
  else
    (true, { f with
      waiting := ⟨s, m, f.nextOrder, 0, now, now⟩ :: f.waiting
      nextOrder := f.nextOrder + 1 })

def next (f : FlatQueue) (now : Millis) : Option QueueEntry × FlatQueue :=
  match first? (f.waiting.filter (·.notBefore ≤ now)) with
  | none => (none, f)
  | some e => (some e, { f with
      waiting := f.waiting.erase e
      handedOut := e :: f.handedOut })

def complete (f : FlatQueue) (e : QueueEntry) : FlatQueue :=
  { f with handedOut := f.handedOut.erase e }

def retry (f : FlatQueue) (e : QueueEntry) (now : Millis) : RetryOutcome × FlatQueue :=
  let failed := { e with attempts := e.attempts + 1 }
  if f.policy.maxRetries < failed.attempts then (.exhausted failed, f.complete e)
  else
    let later := { failed with notBefore := Millis.later now f.policy.retryDelay }
    (.requeued, { f.complete e with waiting := later :: f.waiting })

def purge (f : FlatQueue) (now : Millis) : List QueueEntry × FlatQueue :=
  let old (e : QueueEntry) : Bool := f.policy.expiry < Millis.since now e.enqueuedAt
  (inOrder (f.waiting.filter old), { f with waiting := f.waiting.filter (!old ·) })

def clear (f : FlatQueue) : Nat × FlatQueue :=
  (f.waiting.length, { f with waiting := [], handedOut := [] })

def answer (f : FlatQueue) : QueueRequest → QueueAnswer × FlatQueue
  | .append m s now => ((f.append m s now).map .flag id)
  | .next now => (f.next now).map .entry id
  | .complete e => (.done, f.complete e)
  | .retry e now => (f.retry e now).map .outcome id
  | .purge now => (f.purge now).map .entries id
  | .clear => f.clear.map .count id
  | .size => (.count f.waiting.length, f)
  | .contains id => (.flag (decide (id ∈ f.ids)), f)

def answers (f : FlatQueue) : List QueueRequest → List QueueAnswer
  | [] => []
  | r :: rest => (f.answer r).1 :: (f.answer r).2.answers rest

/-- Only what is handed out may be settled, and only a queue with nothing handed out cleared. -/
def Allows (f : FlatQueue) : QueueRequest → Prop
  | .complete e => e ∈ f.handedOut
  | .retry e _ => e ∈ f.handedOut
  | .clear => f.handedOut = []
  | _ => True

instance (f : FlatQueue) : (r : QueueRequest) → Decidable (f.Allows r)
  | .complete e => inferInstanceAs (Decidable (e ∈ f.handedOut))
  | .retry e _ => inferInstanceAs (Decidable (e ∈ f.handedOut))
  | .clear => inferInstanceAs (Decidable (f.handedOut = []))
  | .append .. | .next _ | .purge _ | .size | .contains _ => isTrue trivial

def AllowsAll (f : FlatQueue) : List QueueRequest → Prop
  | [] => True
  | r :: rest => f.Allows r ∧ (f.answer r).2.AllowsAll rest

instance : (f : FlatQueue) → (rs : List QueueRequest) → Decidable (f.AllowsAll rs)
  | _, [] => isTrue trivial
  | f, r :: rest =>
    have := instDecidableAllowsAll (f.answer r).2 rest
    inferInstanceAs (Decidable (f.Allows r ∧ (f.answer r).2.AllowsAll rest))

end FlatQueue

namespace DeliveryQueue

def answer (q : DeliveryQueue) : QueueRequest → QueueAnswer × DeliveryQueue
  | .append m s now => (q.append m s now).map .flag id
  | .next now =>
    match q.next now with
    | none => (.entry none, q)
    | some (e, q) => (.entry (some e), q)
  | .complete e => (.done, q.complete e)
  | .retry e now => (q.retry e now).map .outcome id
  | .purge now => (q.purge now).map .entries id
  | .clear => q.clear.map .count id
  | .size => (.count q.size, q)
  | .contains id => (.flag (q.contains id), q)

def answers (q : DeliveryQueue) : List QueueRequest → List QueueAnswer
  | [] => []
  | r :: rest => (q.answer r).1 :: (q.answer r).2.answers rest

end DeliveryQueue

namespace FlatQueue

/-! ### Searching the whole list -/

theorem first?_of_perm {es : List QueueEntry} {e : QueueEntry} {rest : List QueueEntry}
    (h : es.Perm (e :: rest)) (hord : (e :: rest).Pairwise QueueEntry.Precedes) :
    first? es = some e := by
  obtain ⟨hfirst, -⟩ := List.pairwise_cons.mp hord
  have hmem : e ∈ es := h.mem_iff.mpr List.mem_cons_self
  have hmin : ∀ a ∈ es, ¬a.Precedes e := by
    intro a ha
    rcases List.mem_cons.mp (h.mem_iff.mp ha) with rfl | ha
    · exact fun hp => hp.asymm hp
    · exact (hfirst a ha).asymm
  cases hf : first? es with
  | none =>
    have := List.find?_eq_none.mp hf e hmem
    simp only [List.all_eq_true, Bool.not_eq_true', decide_eq_false_iff_not] at this
    exact absurd hmin this
  | some a =>
    have ha := List.mem_of_find?_eq_some hf
    have hall := List.find?_some hf
    simp only [List.all_eq_true, Bool.not_eq_true', decide_eq_false_iff_not] at hall
    rcases List.mem_cons.mp (h.mem_iff.mp ha) with rfl | har
    · rfl
    · exact absurd (hfirst a har) (hall e hmem)

theorem exists_first {es : List QueueEntry} (h : es ≠ []) : ∃ e ∈ es, ∀ a ∈ es, ¬a.Precedes e := by
  induction es with
  | nil => exact absurd rfl h
  | cons b rest ih =>
    by_cases hrest : rest = []
    · subst hrest
      refine ⟨b, List.mem_cons_self, ?_⟩
      intro a ha
      obtain rfl := List.mem_singleton.mp ha
      exact fun hp => hp.asymm hp
    · obtain ⟨e, he, hall⟩ := ih hrest
      by_cases hb : b.Precedes e
      · refine ⟨b, List.mem_cons_self, ?_⟩
        intro a ha hab
        rcases List.mem_cons.mp ha with rfl | ha
        · exact hab.asymm hab
        · exact hall a ha (hab.trans hb)
      · refine ⟨e, List.mem_cons_of_mem b he, ?_⟩
        intro a ha
        rcases List.mem_cons.mp ha with rfl | ha
        · exact hb
        · exact hall a ha

theorem first?_eq_none {es : List QueueEntry} : first? es = none ↔ es = [] := by
  constructor
  · intro h
    by_cases hne : es = []
    · exact hne
    · obtain ⟨e, he, hall⟩ := exists_first hne
      have := List.find?_eq_none.mp h e he
      simp only [List.all_eq_true, Bool.not_eq_true', decide_eq_false_iff_not] at this
      exact absurd hall this
  · rintro rfl
    rfl

theorem next_eq_none {f : FlatQueue} {now : Millis} :
    (f.next now).1 = none ↔ ∀ e ∈ f.waiting, ¬e.notBefore ≤ now := by
  rw [next]
  cases h : first? (f.waiting.filter (·.notBefore ≤ now)) with
  | none => simpa using first?_eq_none.mp h
  | some e =>
    have he := List.mem_of_find?_eq_some h
    simp only [List.mem_filter, decide_eq_true_eq] at he
    simpa using ⟨e, he.1, he.2⟩

/-- What is handed out is due, and nothing that is due precedes it. -/
theorem next_eq_some {f : FlatQueue} {now : Millis} {e : QueueEntry} (h : (f.next now).1 = some e) :
    e ∈ f.waiting ∧ e.notBefore ≤ now ∧
      ∀ a ∈ f.waiting, a.notBefore ≤ now → ¬a.Precedes e := by
  rw [next] at h
  cases hf : first? (f.waiting.filter (·.notBefore ≤ now)) with
  | none => simp [hf] at h
  | some b =>
    simp only [hf, Option.some.injEq] at h
    subst h
    have hb := List.mem_of_find?_eq_some hf
    have hall := List.find?_some hf
    simp only [List.all_eq_true, Bool.not_eq_true', decide_eq_false_iff_not, List.mem_filter,
      decide_eq_true_eq] at hb hall
    exact ⟨hb.1, hb.2, fun a ha hdue => hall a ⟨ha, hdue⟩⟩

theorem inOrder_perm (es : List QueueEntry) : (inOrder es).Perm es :=
  List.mergeSort_perm es _

/-- Sorting gives the order of departure of entries that were submitted one by one. -/
theorem inOrder_departing {es : List QueueEntry} (h : (es.map QueueEntry.order).Nodup) :
    (inOrder es).Pairwise QueueEntry.Precedes := by
  have hsorted : (inOrder es).Pairwise fun a b => (!decide (b.Precedes a)) = true := by
    refine List.pairwise_mergeSort ?_ ?_ es
    · intro a b c hab hbc
      simp only [Bool.not_eq_true', decide_eq_false_iff_not] at *
      exact fun hca => (hca.cotrans b).elim hbc hab
    · intro a b
      by_cases hab : a.Precedes b
      · simp [hab.asymm]
      · simp [hab]
  have hne : (inOrder es).Pairwise fun a b => a.order ≠ b.order :=
    List.pairwise_map.mp (((inOrder_perm es).map QueueEntry.order).nodup_iff.mpr h)
  refine (hsorted.and hne).imp ?_
  rintro a b ⟨hab, hord⟩
  simp only [Bool.not_eq_true', decide_eq_false_iff_not] at hab
  exact (QueueEntry.precedes_or_precedes hord).resolve_right hab

/-! ### Simulation -/

/-- The queue holds what the flat queue holds, and is sound. -/
structure Represents (q : DeliveryQueue) (f : FlatQueue) : Prop where
  policy : q.policy = f.policy
  nextOrder : q.nextOrder = f.nextOrder
  waiting : q.waiting.Perm f.waiting
  sound : q.Sound f.handedOut

namespace Represents

variable {q : DeliveryQueue} {f : FlatQueue}

theorem new (policy : RetryPolicy) : Represents (.new policy) (.new policy) :=
  ⟨rfl, rfl, .refl _, .new policy⟩

theorem mem_reserved (h : Represents q f) {id : String} : id ∈ q.reserved ↔ id ∈ f.ids :=
  (h.sound.reserved.trans ((h.waiting.append_right f.handedOut).map QueueEntry.id)).mem_iff

theorem append (h : Represents q f) (m : MessageRef) (s : Shipment) (now : Millis) :
    (q.append m s now).1 = (f.append m s now).1 ∧
      Represents (q.append m s now).2 (f.append m s now).2 := by
  have hsound := h.sound.append m s now
  by_cases hm : m.id ∈ q.reserved
  · rw [DeliveryQueue.append_of_contains s now hm, FlatQueue.append, if_pos (h.mem_reserved.mp hm)]
    exact ⟨rfl, h⟩
  · rw [FlatQueue.append, if_neg (fun hf => hm (h.mem_reserved.mpr hf))]
    refine ⟨DeliveryQueue.append_fst.mpr hm, ?_, ?_, ?_, hsound⟩
    · rw [DeliveryQueue.append]
      split <;> exact h.policy
    · rw [DeliveryQueue.nextOrder_append hm, h.nextOrder]
    · refine (DeliveryQueue.waiting_append hm).trans ?_
      rw [DeliveryQueue.entry, h.nextOrder]
      exact h.waiting.cons _

theorem next (h : Represents q f) (now : Millis) :
    (q.answer (.next now)).1 = .entry (f.next now).1 ∧
      Represents (q.answer (.next now)).2 (f.next now).2 := by
  have hdue : (q.waiting.filter (·.isDue now)).Perm (f.waiting.filter (·.notBefore ≤ now)) :=
    h.waiting.filter _
  cases hn : q.next now with
  | none =>
    have hnone : q.waiting.filter (·.isDue now) = [] := by
      simpa using DeliveryQueue.next_eq_none.mp hn
    rw [hnone] at hdue
    have hf : f.next now = (none, f) := by simp [FlatQueue.next, hdue.nil_eq.symm, first?]
    rw [DeliveryQueue.answer, hn, hf]
    exact ⟨rfl, h⟩
  | some p =>
    obtain ⟨e, q'⟩ := p
    obtain ⟨before, after, hq, hq', he, hbefore⟩ := DeliveryQueue.next_eq_some hn
    have hfilter : q.waiting.filter (·.isDue now) = e :: after.filter (·.isDue now) := by
      have hnil : before.filter (·.isDue now) = [] := by simpa using hbefore
      rw [hq, List.filter_append, hnil, List.nil_append, List.filter_cons, if_pos he]
    have hfirst : first? (f.waiting.filter (·.notBefore ≤ now)) = some e := by
      refine first?_of_perm (hfilter ▸ hdue.symm :
        List.Perm _ (e :: after.filter (·.isDue now))) ?_
      exact hfilter ▸ h.sound.departing.filter _
    have hf : f.next now = (some e, { f with
        waiting := f.waiting.erase e
        handedOut := e :: f.handedOut }) := by
      rw [FlatQueue.next, hfirst]
    obtain ⟨hpolicy, -, hnext⟩ := DeliveryQueue.next_fields hn
    rw [DeliveryQueue.answer, hn, hf]
    refine ⟨rfl, hpolicy.trans h.policy, hnext.trans h.nextOrder, ?_, h.sound.next hn⟩
    have := ((DeliveryQueue.waiting_next hn).symm.trans h.waiting).erase e
    rwa [List.erase_cons_head] at this

theorem complete (h : Represents q f) {e : QueueEntry} (he : e ∈ f.handedOut) :
    Represents (q.complete e) (f.complete e) :=
  ⟨h.policy, h.nextOrder, h.waiting, h.sound.complete he⟩

theorem retry (h : Represents q f) {e : QueueEntry} (he : e ∈ f.handedOut) (now : Millis) :
    (q.retry e now).1 = (f.retry e now).1 ∧ Represents (q.retry e now).2 (f.retry e now).2 := by
  have hsound := h.sound.retry he now
  by_cases hs : q.policy.maxRetries < e.attempts + 1
  · have hf : f.retry e now = (.exhausted (DeliveryQueue.failedOnce e), f.complete e) :=
      if_pos (h.policy ▸ hs)
    rw [DeliveryQueue.retry_of_spent now hs, hf]
    exact ⟨rfl, h.complete he⟩
  · have hf : f.retry e now = (.requeued, { f.complete e with
        waiting := q.postponed e now :: f.waiting }) := by
      rw [DeliveryQueue.postponed, h.policy]
      exact if_neg (h.policy ▸ hs)
    have hw := DeliveryQueue.waiting_retry now hs
    rw [DeliveryQueue.retry_of_left now hs] at hw hsound ⊢
    rw [hf]
    exact ⟨rfl, h.policy, h.nextOrder, hw.trans (h.waiting.cons _), hsound⟩

theorem purge (h : Represents q f) (now : Millis) :
    (q.purge now).1 = (f.purge now).1 ∧ Represents (q.purge now).2 (f.purge now).2 := by
  have hexpired := h.waiting.filter (q.policy.isExpired · now)
  constructor
  · rw [DeliveryQueue.purge_fst]
    refine eq_of_perm_of_departing ?_ (h.sound.departing.filter _) (inOrder_departing ?_)
    · rw [h.policy] at hexpired ⊢
      exact hexpired.trans (inOrder_perm _).symm
    · have horders : (q.waiting.map QueueEntry.order).Nodup :=
        h.sound.orders.sublist ((List.sublist_append_left _ _).map _)
      have := (h.waiting.map QueueEntry.order).nodup_iff.mp horders
      exact this.sublist (List.filter_sublist.map _)
  · refine ⟨h.policy, h.nextOrder, ?_, h.sound.purge now⟩
    rw [DeliveryQueue.waiting_purge, h.policy]
    exact h.waiting.filter _

theorem answer (h : Represents q f) {r : QueueRequest} (hr : f.Allows r) :
    (q.answer r).1 = (f.answer r).1 ∧ Represents (q.answer r).2 (f.answer r).2 := by
  cases r with
  | append m s now => exact (h.append m s now).imp_left (congrArg QueueAnswer.flag)
  | next now => exact h.next now
  | complete e => exact ⟨rfl, h.complete hr⟩
  | retry e now => exact (h.retry hr now).imp_left (congrArg QueueAnswer.outcome)
  | purge now => exact (h.purge now).imp_left (congrArg QueueAnswer.entries)
  | clear =>
    refine ⟨congrArg QueueAnswer.count h.waiting.length_eq, ?_⟩
    exact ⟨h.policy, h.nextOrder, .refl _, .clear q⟩
  | size => exact ⟨congrArg QueueAnswer.count h.waiting.length_eq, h⟩
  | contains id =>
    refine ⟨congrArg QueueAnswer.flag ?_, h⟩
    rw [Bool.eq_iff_iff, DeliveryQueue.contains_iff, decide_eq_true_iff]
    exact h.mem_reserved

theorem answers (h : Represents q f) {rs : List QueueRequest} (hrs : f.AllowsAll rs) :
    q.answers rs = f.answers rs := by
  induction rs generalizing q f with
  | nil => rfl
  | cons r rest ih =>
    obtain ⟨hr, hrest⟩ := hrs
    obtain ⟨hanswer, hnext⟩ := h.answer hr
    rw [DeliveryQueue.answers, FlatQueue.answers, hanswer, ih hnext hrest]

end Represents

end FlatQueue

/-- A delivery queue answers every sequence of requests as the flat queue does. The flat queue
hands out an entry unless none is due, and then one that no other due entry precedes. -/
theorem DeliveryQueue.answers_eq_flat (policy : RetryPolicy) (rs : List QueueRequest)
    (h : (FlatQueue.new policy).AllowsAll rs) :
    (DeliveryQueue.new policy).answers rs = (FlatQueue.new policy).answers rs ∧
      ∀ (f : FlatQueue) (now : Millis),
        ((f.next now).1 = none ↔ ∀ e ∈ f.waiting, ¬e.notBefore ≤ now) ∧
        ∀ e, (f.next now).1 = some e → e ∈ f.waiting ∧ e.notBefore ≤ now ∧
          ∀ a ∈ f.waiting, a.notBefore ≤ now → ¬a.Precedes e :=
  ⟨(FlatQueue.Represents.new policy).answers h,
    fun _ _ => ⟨FlatQueue.next_eq_none, fun _ => FlatQueue.next_eq_some⟩⟩

/-- Of two messages the one of higher priority is handed out, put back, handed out again and given
up; its id is free then and queued anew. -/
def givenUpRequests : List QueueRequest :=
  let low : MessageRef := ⟨⟨"alice", "moky", .user⟩, ⟨"bob", "moky", .user⟩, 1⟩
  let high : MessageRef := ⟨⟨"alice", "moky", .user⟩, ⟨"bob", "moky", .user⟩, 2⟩
  let first : QueueEntry := ⟨⟨[1], 0, none⟩, low, 0, 0, 0, 0⟩
  let second : QueueEntry := ⟨⟨[2], 1, none⟩, high, 1, 0, 5, 5⟩
  [.append low ⟨[1], 0, none⟩ 0, .append high ⟨[2], 1, none⟩ 5, .append low ⟨[3], 1, none⟩ 6,
    .next 6, .retry second 6, .next 50, .complete first, .next 50, .next 106,
    .retry { second with attempts := 1, notBefore := 106 } 107, .append high ⟨[2], 0, none⟩ 110,
    .append low ⟨[1], 1, none⟩ 120, .contains high.id, .purge 1200, .clear, .size]

theorem answers_eq_flat_givenUp : (FlatQueue.new ⟨1, 100, 1000⟩).AllowsAll givenUpRequests ∧
    (DeliveryQueue.new ⟨1, 100, 1000⟩).answers givenUpRequests =
      (FlatQueue.new ⟨1, 100, 1000⟩).answers givenUpRequests := by
  have h : (FlatQueue.new ⟨1, 100, 1000⟩).AllowsAll givenUpRequests := by decide +kernel
  exact ⟨h, (DeliveryQueue.answers_eq_flat ⟨1, 100, 1000⟩ givenUpRequests h).1⟩

end Courier
