import Courier.Proofs.Delivery.Submissions
import Mathlib.Data.List.Forall2

/-!
# Places in a queue

An entry that is submitted comes to wait behind all those of at least its priority and in front of
the others. Where it stands among some of the entries depends on these alone, so two queues that
hold corresponding entries for somebody still do when corresponding ones are submitted for him,
and when others are submitted.
-/

namespace Courier

namespace QueueEntry

/-- An entry put among others that were submitted before it. -/
def placed (e : QueueEntry) (es : List QueueEntry) : List QueueEntry :=
  es.filter (e.priority ≤ ·.priority) ++ e :: es.filter fun a => !decide (e.priority ≤ a.priority)

variable {e e' : QueueEntry} {es es' : List QueueEntry}

theorem placed_perm (e : QueueEntry) (es : List QueueEntry) : (placed e es).Perm (e :: es) :=
  List.perm_middle.trans ((List.filter_append_perm _ es).cons e)

theorem departing_placed (hes : es.Pairwise Precedes) (he : ∀ a ∈ es, a.order < e.order) :
    (placed e es).Pairwise Precedes := by
  have hbefore (a : QueueEntry) (ha : a ∈ es.filter (e.priority ≤ ·.priority)) :
      a.Precedes e := by
    obtain ⟨hmem, hle⟩ := List.mem_filter.mp ha
    have hle : e.priority ≤ a.priority := of_decide_eq_true hle
    have := he a hmem
    unfold Precedes Priority at *
    omega
  have hafter (b : QueueEntry) (hb : b ∈ es.filter fun a => !decide (e.priority ≤ a.priority)) :
      e.Precedes b := by
    have hlt : ¬e.priority ≤ b.priority := by simpa using (List.mem_filter.mp hb).2
    exact .inl (Int.not_le.mp hlt)
  refine List.pairwise_append.mpr ⟨hes.filter _, ?_, ?_⟩
  · exact List.pairwise_cons.mpr ⟨hafter, hes.filter _⟩
  · intro a ha b hb
    rcases List.mem_cons.mp hb with rfl | hb
    · exact hbefore a ha
    · exact (hbefore a ha).trans (hafter b hb)

theorem forall₂_placed {R : QueueEntry → QueueEntry → Prop}
    (hR : ∀ {a b}, R a b → a.priority = b.priority) (he : R e e') (hes : List.Forall₂ R es es') :
    List.Forall₂ R (placed e es) (placed e' es') := by
  have hfilter {p p' : QueueEntry → Bool} (hp : ∀ {a b}, R a b → (p a = true ↔ p' b = true)) :
      List.Forall₂ R (es.filter p) (es'.filter p') :=
    List.rel_filter (fun _ _ hab => hp hab) hes
  apply List.rel_append
  · apply hfilter
    intro a b hab
    rw [hR hab, hR he]
  · apply List.Forall₂.cons he
    apply hfilter
    intro a b hab
    rw [hR hab, hR he]

end QueueEntry

namespace DeliveryQueue

variable {q : DeliveryQueue} {out : List QueueEntry} {s : Submission}

def entryOf (q : DeliveryQueue) (s : Submission) : QueueEntry :=
  q.entry s.message s.shipment s.now

theorem Sound.submit (hq : q.Sound out) (s : Submission) : (q.submit s).Sound out :=
  hq.append _ _ _

theorem waiting_submit (h : s.message.id ∉ q.reserved) :
    (q.submit s).waiting.Perm (q.entryOf s :: q.waiting) :=
  waiting_append h

section Watching

variable {p : QueueEntry → Bool}

theorem filter_submit (hq : q.Sound out) (h : s.message.id ∉ q.reserved)
    (hp : p (q.entryOf s) = true) :
    (q.submit s).waiting.filter p = (q.entryOf s).placed (q.waiting.filter p) := by
  have hold : ∀ a ∈ q.waiting.filter p, a.order < (q.entryOf s).order := by
    intro a ha
    have hmem := List.mem_append_left out (List.mem_filter.mp ha).1
    exact hq.numbered _ (List.mem_map_of_mem hmem)
  refine eq_of_perm_of_departing ?_ ?_ ?_
  · have hperm := (waiting_submit h).filter p
    rw [List.filter_cons_of_pos hp] at hperm
    exact hperm.trans (QueueEntry.placed_perm _ _).symm
  · exact (hq.submit s).departing.filter p
  · exact QueueEntry.departing_placed (hq.departing.filter p) hold

theorem filter_submit_of_not (hq : q.Sound out) (hp : ∀ e, e.message = s.message → p e = false) :
    (q.submit s).waiting.filter p = q.waiting.filter p := by
  by_cases h : s.message.id ∈ q.reserved
  · rw [submit_of_contains h]
  · have hperm := (waiting_submit h).filter p
    have hunseen : ¬p (q.entryOf s) = true := by
      rw [hp _ rfl]
      exact Bool.false_ne_true
    rw [List.filter_cons_of_neg hunseen] at hperm
    exact eq_of_perm_of_departing hperm ((hq.submit s).departing.filter p) (hq.departing.filter p)

end Watching

theorem mem_reserved_submit {id : String} :
    id ∈ (q.submit s).reserved ↔ id = s.message.id ∨ id ∈ q.reserved := by
  by_cases h : s.message.id ∈ q.reserved
  · rw [submit_of_contains h]
    constructor
    · exact .inr
    · rintro (rfl | hid)
      · exact h
      · exact hid
  · have hreserved : (q.submit s).reserved = s.message.id :: q.reserved := reserved_append h
    rw [hreserved, List.mem_cons]

theorem mem_reserved_submitAll {ss : List Submission} {id : String} :
    id ∈ (q.submitAll ss).reserved ↔ (∃ s ∈ ss, id = s.message.id) ∨ id ∈ q.reserved := by
  induction ss generalizing q with
  | nil => simp [submitAll]
  | cons s ss ih =>
    rw [submitAll_cons, ih, mem_reserved_submit]
    simp only [List.mem_cons, exists_eq_or_imp, or_assoc, or_left_comm]

theorem nextOrder_le_submit (q : DeliveryQueue) (s : Submission) :
    q.nextOrder ≤ (q.submit s).nextOrder := by
  by_cases h : s.message.id ∈ q.reserved
  · exact Nat.le_of_eq (congrArg nextOrder (submit_of_contains h)).symm
  · exact Nat.le_of_lt (Nat.lt_of_lt_of_eq (Nat.lt_succ_self _) (nextOrder_append h).symm)

theorem nextOrder_le_submitAll (q : DeliveryQueue) (ss : List Submission) :
    q.nextOrder ≤ (q.submitAll ss).nextOrder := by
  induction ss generalizing q with
  | nil => exact Nat.le_refl _
  | cons s ss ih => exact Nat.le_trans (q.nextOrder_le_submit s) (ih _)

theorem filter_submitAll_of_not {p : QueueEntry → Bool} {ss : List Submission} (hq : q.Sound out)
    (hp : ∀ s ∈ ss, ∀ e : QueueEntry, e.message = s.message → p e = false) :
    (q.submitAll ss).waiting.filter p = q.waiting.filter p := by
  induction ss generalizing q with
  | nil => rfl
  | cons s ss ih =>
    rw [submitAll_cons, ih (hq.submit s) fun t ht => hp t (List.mem_cons_of_mem s ht)]
    exact filter_submit_of_not hq (hp s List.mem_cons_self)

end DeliveryQueue

end Courier
