import Courier.Proofs.Delivery.Submissions
import Mathlib.Data.List.Nodup

/-!
# Retries

An entry whose push fails goes back to the queue with one more failure counted and with a time
before which it is not handed out again. The count is bounded by the retry policy, so that it can
be read off the pushes made so far: as many failures as an entry has pushes behind it, and one more
than there are retries once it is given up.
-/

namespace Courier

theorem Millis.le_later (t delay : Millis) : t ≤ later t delay := by
  rw [UInt64.le_iff_toNat_le, toNat_later]
  have ht := UInt64.le_iff_toNat_le.mp (le_latest t)
  omega

/-- A push, with the entry as it was handed out for it. -/
structure Shot where
  time : Millis
  entry : QueueEntry
  /-- Why the push failed; nothing if it was taken. -/
  failure? : Option String
  deriving DecidableEq, Repr

namespace Shot

/-- The pushes of the entry with this number. -/
def ofOrder (order : Nat) (shots : List Shot) : List Shot :=
  shots.filter (·.entry.order = order)

/-- The first one failed, and the second one was made after the delay. -/
def Spaced (p : RetryPolicy) (first second : Shot) : Prop :=
  first.failure?.isSome ∧ Millis.later first.time p.retryDelay ≤ second.time

theorem ofOrder_append (order : Nat) (shots later : List Shot) :
    ofOrder order (shots ++ later) = ofOrder order shots ++ ofOrder order later :=
  List.filter_append _ _

theorem ofOrder_self (s : Shot) : ofOrder s.entry.order [s] = [s] := by
  simp [ofOrder]

theorem ofOrder_of_ne {s : Shot} {order : Nat} (h : order ≠ s.entry.order) :
    ofOrder order [s] = [] := by
  simp [ofOrder, Ne.symm h]

end Shot

/-- How an entry left a queue for good. -/
inductive Exit where
  | sent (e : QueueEntry)
  /-- The last push failed for this reason, and no retry was left. -/
  | givenUp (e : QueueEntry) (reason : String)
  | expired (e : QueueEntry)
  deriving DecidableEq, Repr

namespace Exit

def entry : Exit → QueueEntry
  | sent e => e
  | givenUp e _ => e
  | expired e => e

def isExpired : Exit → Bool
  | expired _ => true
  | _ => false

/-- What the pushes of an entry were when it left in this way. -/
def Ends (p : RetryPolicy) (shots : List Shot) : Exit → Prop
  | sent _ => (∃ s ∈ shots, s.failure? = none) ∧ shots.length ≤ p.maxRetries.toNat + 1
  | givenUp e reason =>
    (∀ s ∈ shots, s.failure?.isSome) ∧
    shots.length = p.maxRetries.toNat + 1 ∧
    e.attempts.toNat = p.maxRetries.toNat + 1 ∧
    ∃ s, shots.getLast? = some s ∧ s.failure? = some reason
  | expired _ => shots.length ≤ p.maxRetries.toNat

theorem Ends.length_le {p : RetryPolicy} {shots : List Shot} {x : Exit} (h : x.Ends p shots) :
    shots.length ≤ p.maxRetries.toNat + 1 := by
  cases x with
  | sent e => exact h.2
  | givenUp e reason => exact Nat.le_of_eq h.2.1
  | expired e => exact Nat.le_succ_of_le h

end Exit

/-- What stays the same of an entry from its submission on. -/
def QueueEntry.ticket (e : QueueEntry) : Nat × MessageRef :=
  (e.order, e.message)

namespace DeliveryQueue

/-- The ways to send from a queue: one due entry is pushed and settled, or the expired ones
leave. -/
inductive Settles (q : DeliveryQueue) (now : Millis) :
    Option Shot → List Exit → DeliveryQueue → Prop where
  | sent {e : QueueEntry} {left : DeliveryQueue} (h : q.next now = some (e, left)) :
      Settles q now (some ⟨now, e, none⟩) [.sent e] (left.complete e)
  | postponed {e : QueueEntry} {left : DeliveryQueue} (reason : String)
      (h : q.next now = some (e, left)) (hleft : ¬q.policy.maxRetries < e.attempts + 1) :
      Settles q now (some ⟨now, e, some reason⟩) [] (left.retry e now).2
  | givenUp {e : QueueEntry} {left : DeliveryQueue} (reason : String)
      (h : q.next now = some (e, left)) (hspent : q.policy.maxRetries < e.attempts + 1) :
      Settles q now (some ⟨now, e, some reason⟩) [.givenUp (failedOnce e) reason]
        (left.complete e)
  | expired : Settles q now none ((q.purge now).1.map .expired) (q.purge now).2

namespace Settles

variable {q q' : DeliveryQueue} {now : Millis} {shot? : Option Shot} {exits : List Exit}

theorem fields (h : q.Settles now shot? exits q') :
    q'.policy = q.policy ∧ q'.nextOrder = q.nextOrder := by
  cases h with
  | sent hn =>
    obtain ⟨hpolicy, -, horder⟩ := next_fields hn
    exact ⟨hpolicy, horder⟩
  | postponed reason hn hleft =>
    obtain ⟨hpolicy, -, horder⟩ := next_fields hn
    rw [retry_of_left now (hpolicy.symm ▸ hleft)]
    exact ⟨hpolicy, horder⟩
  | givenUp reason hn hspent =>
    obtain ⟨hpolicy, -, horder⟩ := next_fields hn
    exact ⟨hpolicy, horder⟩
  | expired => exact ⟨rfl, rfl⟩

theorem sound (h : q.Settles now shot? exits q') (hq : q.Sound []) : q'.Sound [] := by
  cases h with
  | sent hn =>
    have hsound := (hq.next hn).complete (List.mem_singleton_self _)
    rwa [List.erase_cons_head] at hsound
  | postponed reason hn hleft =>
    have hsound := (hq.next hn).retry (List.mem_singleton_self _) now
    rwa [List.erase_cons_head] at hsound
  | givenUp reason hn hspent =>
    have hsound := (hq.next hn).complete (List.mem_singleton_self _)
    rwa [List.erase_cons_head] at hsound
  | expired => exact hq.purge now

/-- Every entry goes on waiting or leaves, under its number. -/
theorem tickets (h : q.Settles now shot? exits q') :
    (q.waiting.map QueueEntry.ticket).Perm
      ((q'.waiting ++ exits.map Exit.entry).map QueueEntry.ticket) := by
  cases h with
  | sent hn =>
    exact ((waiting_next hn).trans (List.perm_append_singleton _ _).symm).map _
  | @postponed e left reason hn hleft =>
    obtain ⟨hpolicy, -, -⟩ := next_fields hn
    have hwait := (waiting_retry now (hpolicy.symm ▸ hleft)).map QueueEntry.ticket
    rw [List.map_nil, List.append_nil]
    exact ((waiting_next hn).map QueueEntry.ticket).trans hwait.symm
  | @givenUp e left reason hn hspent =>
    have hwait := (waiting_next hn).map QueueEntry.ticket
    rw [List.map_append]
    exact hwait.trans (List.perm_append_singleton e.ticket _).symm
  | expired =>
    have hleft : ((q.purge now).1.map Exit.expired).map Exit.entry = (q.purge now).1 := by
      rw [List.map_map]
      exact List.map_id _
    rw [hleft, purge_fst, waiting_purge]
    apply List.Perm.map
    exact (List.filter_append_perm (q.policy.isExpired · now) q.waiting).symm.trans
      List.perm_append_comm

/-- The ids of the entries that left are free. -/
theorem released (h : q.Settles now shot? exits q') (hq : q.Sound []) {x : Exit}
    (hx : x ∈ exits) : x.entry.id ∉ q'.reserved := by
  have hids : (q.waiting.map QueueEntry.id).Nodup := by simpa using hq.ids
  have hperm := h.tickets.map fun ticket => ticket.2.id
  rw [List.map_map, List.map_map] at hperm
  have hapart := hperm.nodup_iff.mp hids
  rw [List.map_append, List.nodup_append] at hapart
  intro hreserved
  obtain ⟨e, he, heid⟩ := (h.sound hq).mem_reserved.mp hreserved
  rw [List.append_nil] at he
  exact hapart.2.2 _ (List.mem_map_of_mem he) _ (List.mem_map_of_mem (List.mem_map_of_mem hx)) heid

end Settles

/-- An entry waits with these pushes behind it. -/
structure Pending (p : RetryPolicy) (shots : List Shot) (e : QueueEntry) : Prop where
  failed : ∀ s ∈ shots, s.failure?.isSome
  count : shots.length = e.attempts.toNat
  left : e.attempts.toNat ≤ p.maxRetries.toNat
  later : ∀ s ∈ shots, Millis.later s.time p.retryDelay ≤ e.notBefore

namespace Pending

variable {p : RetryPolicy} {shots : List Shot} {e : QueueEntry} {now : Millis}
variable (h : Pending p shots e)
include h

/-- The next push of an entry that waits keeps its distance from all before it. -/
theorem spaced (hdue : e.isDue now) (failure? : Option String) {s : Shot} (hs : s ∈ shots) :
    s.Spaced p ⟨now, e, failure?⟩ := by
  have hdue : e.notBefore ≤ now := by simpa [QueueEntry.isDue] using hdue
  exact ⟨h.failed s hs, UInt64.le_trans (h.later s hs) hdue⟩

theorem failed_concat (reason : String) {s : Shot} (hs : s ∈ shots ++ [⟨now, e, some reason⟩]) :
    s.failure?.isSome := by
  rcases List.mem_append.mp hs with hs | hs
  · exact h.failed s hs
  · rw [List.mem_singleton.mp hs]
    rfl

/-- There is no overflow of the count, as the number of retries is less than the greatest one. -/
theorem attempts_succ (hmax : p.maxRetries.toNat + 1 < UInt32.size) :
    (e.attempts + 1).toNat = e.attempts.toNat + 1 := by
  have hleft := h.left
  rw [UInt32.toNat_add, UInt32.toNat_one]
  apply Nat.mod_eq_of_lt
  rw [UInt32.size] at hmax
  omega

theorem postponed {q : DeliveryQueue} (hmax : p.maxRetries.toNat + 1 < UInt32.size)
    (hpolicy : q.policy = p) (hdue : e.isDue now) (reason : String)
    (hleft : ¬q.policy.maxRetries < e.attempts + 1) :
    Pending p (shots ++ [⟨now, e, some reason⟩]) (q.postponed e now) := by
  have hcount : (q.postponed e now).attempts.toNat = e.attempts.toNat + 1 := h.attempts_succ hmax
  refine ⟨fun s hs => h.failed_concat reason hs, ?_, ?_, ?_⟩
  · rw [List.length_append, h.count, hcount]
    rfl
  · rw [hcount, ← h.attempts_succ hmax, ← hpolicy]
    exact UInt32.le_iff_toNat_le.mp (UInt32.not_lt.mp hleft)
  · intro s hs
    have hlater : Millis.later now p.retryDelay ≤ (q.postponed e now).notBefore := by
      rw [← hpolicy]
      exact UInt64.le_refl _
    rcases List.mem_append.mp hs with hs | hs
    · have hnow := (h.spaced hdue none hs).2
      exact UInt64.le_trans (UInt64.le_trans hnow (Millis.le_later now _)) hlater
    · rw [List.mem_singleton.mp hs]
      exact hlater

theorem givenUp (hmax : p.maxRetries.toNat + 1 < UInt32.size) (reason : String)
    (hspent : p.maxRetries < e.attempts + 1) :
    (Exit.givenUp (failedOnce e) reason).Ends p (shots ++ [⟨now, e, some reason⟩]) := by
  have hcount : (failedOnce e).attempts.toNat = e.attempts.toNat + 1 := h.attempts_succ hmax
  have hover := UInt32.lt_iff_toNat_lt.mp hspent
  have hleft := h.left
  rw [h.attempts_succ hmax] at hover
  refine ⟨fun s hs => h.failed_concat reason hs, ?_, ?_, ?_⟩
  · rw [List.length_append, h.count, List.length_singleton]
    omega
  · omega
  · exact ⟨_, List.getLast?_concat, rfl⟩

theorem sent : (Exit.sent e).Ends p (shots ++ [⟨now, e, none⟩]) := by
  have hleft := h.left
  refine ⟨⟨_, List.mem_append_right _ (List.mem_singleton_self _), rfl⟩, ?_⟩
  rw [List.length_append, h.count, List.length_singleton]
  omega

theorem expired : (Exit.expired e).Ends p shots :=
  Nat.le_trans (Nat.le_of_eq h.count) h.left

end Pending

/-! ### The invariant -/

/-- Of the entries that were accepted, with the pushes and the exits so far, each one waits or has
left, and its pushes say how. -/
structure Retried (p : RetryPolicy) (q : DeliveryQueue) (accepted : List QueueEntry)
    (shots : List Shot) (exits : List Exit) : Prop where
  sound : q.Sound []
  policy : q.policy = p
  numbers : (accepted.map QueueEntry.order).Nodup
  numbered : ∀ e ∈ accepted, e.order < q.nextOrder
  tickets : (accepted.map QueueEntry.ticket).Perm
    ((q.waiting ++ exits.map Exit.entry).map QueueEntry.ticket)
  known : ∀ s ∈ shots, s.entry.ticket ∈ accepted.map QueueEntry.ticket
  pending : ∀ e ∈ q.waiting, Pending p (Shot.ofOrder e.order shots) e
  ended : ∀ x ∈ exits, x.Ends p (Shot.ofOrder x.entry.order shots)
  spaced : ∀ order, (Shot.ofOrder order shots).Pairwise (Shot.Spaced p)

theorem attempts_of_accepted {q : DeliveryQueue} {ss : List Submission} {e : QueueEntry}
    (he : e ∈ q.accepted ss) : e.attempts = 0 := by
  induction ss generalizing q with
  | nil => cases he
  | cons s ss ih =>
    simp only [accepted] at he
    split at he
    · rcases List.mem_cons.mp he with rfl | he
      · rfl
      · exact ih he
    · exact ih he

theorem fields_submitAll (q : DeliveryQueue) (ss : List Submission) :
    (q.submitAll ss).policy = q.policy ∧ q.nextOrder ≤ (q.submitAll ss).nextOrder := by
  induction ss generalizing q with
  | nil => exact ⟨rfl, Nat.le_refl _⟩
  | cons s ss ih =>
    obtain ⟨hpolicy, hnext⟩ := ih (q.submit s)
    have hsubmit : (q.submit s).policy = q.policy ∧ q.nextOrder ≤ (q.submit s).nextOrder := by
      unfold submit append
      split
      · exact ⟨rfl, Nat.le_refl _⟩
      · exact ⟨rfl, Nat.le_succ _⟩
    exact ⟨hpolicy.trans hsubmit.1, Nat.le_trans hsubmit.2 hnext⟩

namespace Retried

variable {p : RetryPolicy} {q q' : DeliveryQueue} {accepted : List QueueEntry}
variable {shots : List Shot} {exits : List Exit}

theorem new (p : RetryPolicy) : Retried p (.new p) [] [] [] where
  sound := .new p
  policy := rfl
  numbers := .nil
  numbered _ he := absurd he List.not_mem_nil
  tickets := .refl _
  known _ hs := absurd hs List.not_mem_nil
  pending _ he := absurd he List.not_mem_nil
  ended _ hx := absurd hx List.not_mem_nil
  spaced _ := .nil

variable (h : Retried p q accepted shots exits)
include h

theorem ofOrder_of_le {order : Nat} (hle : q.nextOrder ≤ order) : Shot.ofOrder order shots = [] := by
  apply List.filter_eq_nil_iff.mpr
  intro s hs hsame
  obtain ⟨e, he, hticket⟩ := List.mem_map.mp (h.known s hs)
  have horder : e.order = s.entry.order := congrArg Prod.fst hticket
  have hlt := h.numbered e he
  have hsame : s.entry.order = order := by simpa using hsame
  omega

theorem tickets_submitAll (ss : List Submission) :
    ((accepted ++ (q.submitAll ss).queuedSince q.nextOrder).map QueueEntry.ticket).Perm
      (((q.submitAll ss).waiting ++ exits.map Exit.entry).map QueueEntry.ticket) := by
  have hnew := queuedSince_submitAll h.sound ss
  have hwaiting := waiting_submitAll (q := q) ss
  have hall := (h.tickets.append (hnew.map QueueEntry.ticket)).trans
    (List.Perm.of_eq List.map_append.symm)
  rw [List.map_append]
  refine hall.trans (List.Perm.map _ ?_)
  rw [List.append_assoc]
  refine List.Perm.trans ?_ (hwaiting.symm.append_right _)
  rw [List.append_assoc]
  exact List.perm_append_comm.append_left _

theorem submitAll (ss : List Submission) :
    Retried p (q.submitAll ss) (accepted ++ (q.submitAll ss).queuedSince q.nextOrder) shots
      exits := by
  have hnew := queuedSince_submitAll h.sound ss
  have hwaiting := waiting_submitAll (q := q) ss
  have hsound := h.sound.submitAll ss
  obtain ⟨hpolicy, hnext⟩ := fields_submitAll q ss
  refine ⟨hsound, hpolicy.trans h.policy, ?_, ?_, h.tickets_submitAll ss, ?_, ?_, h.ended,
    h.spaced⟩
  · rw [List.map_append, List.nodup_append]
    refine ⟨h.numbers, ?_, ?_⟩
    · apply (hnew.map QueueEntry.order).nodup_iff.mpr
      rw [order_accepted]
      exact List.nodup_range'
    · intro n hn m hm
      obtain ⟨a, ha, rfl⟩ := List.mem_map.mp hn
      obtain ⟨b, hb, rfl⟩ := List.mem_map.mp hm
      have hold := h.numbered a ha
      have hlate := le_order_of_accepted (hnew.mem_iff.mp hb)
      omega
  · intro e he
    rcases List.mem_append.mp he with he | he
    · exact Nat.lt_of_lt_of_le (h.numbered e he) hnext
    · apply hsound.numbered
      exact List.mem_map_of_mem (List.mem_append_left _ (List.mem_filter.mp he).1)
  · intro s hs
    rw [List.map_append]
    exact List.mem_append_left _ (h.known s hs)
  · intro e he
    rcases List.mem_append.mp (hwaiting.mem_iff.mp he) with he | he
    · exact h.pending e he
    · rw [h.ofOrder_of_le (le_order_of_accepted he)]
      refine ⟨fun _ hs => absurd hs List.not_mem_nil, ?_, ?_, fun _ hs => absurd hs List.not_mem_nil⟩
      · rw [attempts_of_accepted he]
        rfl
      · rw [attempts_of_accepted he]
        exact Nat.zero_le _

/-- No two entries that wait or have left share a number. -/
theorem orders : ((q.waiting ++ exits.map Exit.entry).map QueueEntry.order).Nodup := by
  have hperm := h.tickets.map Prod.fst
  rw [List.map_map, List.map_map] at hperm
  exact hperm.nodup_iff.mp h.numbers

theorem tickets_settle {now : Millis} {shot? : Option Shot} {new : List Exit}
    (hs : q.Settles now shot? new q') :
    (accepted.map QueueEntry.ticket).Perm
      ((q'.waiting ++ (exits ++ new).map Exit.entry).map QueueEntry.ticket) := by
  have hall := hs.tickets.append_right ((exits.map Exit.entry).map QueueEntry.ticket)
  rw [← List.map_append, ← List.map_append] at hall
  refine h.tickets.trans (hall.trans (List.Perm.map _ ?_))
  rw [List.append_assoc, List.map_append]
  exact List.perm_append_comm.append_left _

/-- A push concerns the entry that was handed out and no other one. -/
theorem pushed {now : Millis} {e : QueueEntry} {left : DeliveryQueue} {failure? : Option String}
    {new : List Exit} (hn : q.next now = some (e, left))
    (hs : q.Settles now (some ⟨now, e, failure?⟩) new q')
    (hpending : ∀ a ∈ q'.waiting, a ∈ left.waiting ∨ a.order = e.order ∧
      Pending p (Shot.ofOrder e.order shots ++ [⟨now, e, failure?⟩]) a)
    (hended : ∀ x ∈ new, x.entry.order = e.order ∧
      x.Ends p (Shot.ofOrder e.order shots ++ [⟨now, e, failure?⟩])) :
    Retried p q' accepted (shots ++ [⟨now, e, failure?⟩]) (exits ++ new) := by
  obtain ⟨hpolicy, hnext⟩ := hs.fields
  have hwaiting := waiting_next hn
  obtain ⟨-, -, -, -, hdue, -⟩ := next_eq_some hn
  have he : e ∈ q.waiting := hwaiting.mem_iff.mpr List.mem_cons_self
  have horders := ((hwaiting.append_right (exits.map Exit.entry)).map
    QueueEntry.order).nodup_iff.mp h.orders
  have hapart (a : QueueEntry) (ha : a ∈ left.waiting ++ exits.map Exit.entry) :
      a.order ≠ e.order := by
    intro heq
    exact (List.nodup_cons.mp horders).1 (heq ▸ List.mem_map_of_mem ha)
  have hself : Shot.ofOrder e.order (shots ++ [⟨now, e, failure?⟩]) =
      Shot.ofOrder e.order shots ++ [⟨now, e, failure?⟩] := by
    rw [Shot.ofOrder_append]
    exact congrArg _ (Shot.ofOrder_self ⟨now, e, failure?⟩)
  have hother {order : Nat} (hne : order ≠ e.order) :
      Shot.ofOrder order (shots ++ [⟨now, e, failure?⟩]) = Shot.ofOrder order shots := by
    rw [Shot.ofOrder_append, Shot.ofOrder_of_ne hne, List.append_nil]
  refine ⟨hs.sound h.sound, hpolicy.trans h.policy, h.numbers, ?_, h.tickets_settle hs, ?_, ?_, ?_,
    ?_⟩
  · rw [hnext]
    exact h.numbered
  · intro s hmem
    rcases List.mem_append.mp hmem with hmem | hmem
    · exact h.known s hmem
    · rw [List.mem_singleton.mp hmem]
      apply h.tickets.mem_iff.mpr
      exact List.mem_map_of_mem (List.mem_append_left _ he)
  · intro a ha
    rcases hpending a ha with ha | ⟨horder, hpend⟩
    · have hne := hapart a (List.mem_append_left _ ha)
      rw [hother hne]
      exact h.pending a (hwaiting.mem_iff.mpr (List.mem_cons_of_mem e ha))
    · rw [horder, hself]
      exact hpend
  · intro x hx
    rcases List.mem_append.mp hx with hx | hx
    · have hne := hapart x.entry (List.mem_append_right _ (List.mem_map_of_mem hx))
      rw [hother hne]
      exact h.ended x hx
    · obtain ⟨horder, hends⟩ := hended x hx
      rw [horder, hself]
      exact hends
  · intro order
    by_cases heq : order = e.order
    · rw [heq, hself, List.pairwise_append]
      refine ⟨h.spaced e.order, List.pairwise_singleton _ _, ?_⟩
      intro a ha b hb
      rw [List.mem_singleton.mp hb]
      exact (h.pending e he).spaced hdue failure? ha
    · rw [hother heq]
      exact h.spaced order

theorem settle (hmax : p.maxRetries.toNat + 1 < UInt32.size) {now : Millis} {shot? : Option Shot}
    {new : List Exit} (hs : q.Settles now shot? new q') :
    Retried p q' accepted (shots ++ shot?.toList) (exits ++ new) := by
  have handed {e : QueueEntry} {left : DeliveryQueue} (hn : q.next now = some (e, left)) :
      e.isDue now ∧ Pending p (Shot.ofOrder e.order shots) e := by
    obtain ⟨-, -, -, -, hdue, -⟩ := next_eq_some hn
    exact ⟨hdue, h.pending e ((waiting_next hn).mem_iff.mpr List.mem_cons_self)⟩
  cases hs with
  | sent hn =>
    obtain ⟨-, hpend⟩ := handed hn
    apply h.pushed hn (.sent hn)
    · intro a ha
      exact .inl ha
    · intro x hx
      rw [List.mem_singleton.mp hx]
      exact ⟨rfl, hpend.sent⟩
  | @postponed e left reason hn hleft =>
    obtain ⟨hdue, hpend⟩ := handed hn
    obtain ⟨hpolicy, -, -⟩ := next_fields hn
    apply h.pushed hn (.postponed reason hn hleft)
    · intro a ha
      rcases List.mem_cons.mp ((waiting_retry now (hpolicy.symm ▸ hleft)).mem_iff.mp ha) with
        rfl | ha
      · refine .inr ⟨rfl, ?_⟩
        exact hpend.postponed hmax (hpolicy.trans h.policy) hdue reason (hpolicy.symm ▸ hleft)
      · exact .inl ha
    · intro x hx
      cases hx
  | @givenUp e left reason hn hspent =>
    obtain ⟨-, hpend⟩ := handed hn
    apply h.pushed hn (.givenUp reason hn hspent)
    · intro a ha
      exact .inl ha
    · intro x hx
      rw [List.mem_singleton.mp hx]
      exact ⟨rfl, hpend.givenUp hmax reason (h.policy ▸ hspent)⟩
  | expired =>
    have hwaiting (a : QueueEntry) (ha : a ∈ (q.purge now).2.waiting) : a ∈ q.waiting := by
      rw [waiting_purge] at ha
      exact (List.mem_filter.mp ha).1
    rw [Option.toList_none, List.append_nil]
    refine ⟨h.sound.purge now, h.policy, h.numbers, h.numbered, h.tickets_settle .expired, h.known,
      fun a ha => h.pending a (hwaiting a ha), ?_, h.spaced⟩
    intro x hx
    rcases List.mem_append.mp hx with hx | hx
    · exact h.ended x hx
    · obtain ⟨e, he, rfl⟩ := List.mem_map.mp hx
      exact (h.pending e (List.mem_filter.mp he).1).expired

/-! ### One entry -/

/-- No two entries share a number, so at most one exit is that of a given one. -/
theorem exits_of_order (order : Nat) {x : Exit} (hx : x ∈ exits) (horder : x.entry.order = order) :
    exits.filter (·.entry.order = order) = [x] := by
  have hnodup := h.orders
  rw [List.map_append, List.map_map] at hnodup
  have hcount := List.nodup_iff_count_le_one.mp (List.nodup_append.mp hnodup).2.1 order
  rw [List.count, List.countP_map, List.countP_eq_length_filter] at hcount
  have hfilter : exits.filter ((· == order) ∘ QueueEntry.order ∘ Exit.entry) =
      exits.filter (·.entry.order = order) := rfl
  rw [hfilter] at hcount
  have hmem : x ∈ exits.filter (·.entry.order = order) := List.mem_filter.mpr ⟨hx, by simpa⟩
  cases hxs : exits.filter (·.entry.order = order) with
  | nil =>
    rw [hxs] at hmem
    cases hmem
  | cons y rest =>
    rw [hxs] at hmem hcount
    have hrest : rest = [] := List.length_eq_zero_iff.mp (by rw [List.length_cons] at hcount; omega)
    rw [hrest] at hmem ⊢
    rw [List.mem_singleton.mp hmem]

theorem exits_of_waiting {e : QueueEntry} (he : e ∈ q.waiting) :
    exits.filter (·.entry.order = e.order) = [] := by
  have hnodup := h.orders
  rw [List.map_append, List.nodup_append] at hnodup
  apply List.filter_eq_nil_iff.mpr
  intro x hx hsame
  have hsame : x.entry.order = e.order := by simpa using hsame
  exact hnodup.2.2 _ (List.mem_map_of_mem he) _
    (List.mem_map_of_mem (List.mem_map_of_mem hx)) hsame.symm

section Entry

variable {a : QueueEntry} (ha : a ∈ accepted)
include ha

/-- Everything under the number of an entry is about its message. -/
theorem message_eq {e : QueueEntry} (he : e.ticket ∈ accepted.map QueueEntry.ticket)
    (horder : e.order = a.order) : e.message = a.message := by
  obtain ⟨b, hb, hticket⟩ := List.mem_map.mp he
  obtain ⟨hnumber, hmessage⟩ := Prod.mk.inj hticket
  have hsame : b = a := List.inj_on_of_nodup_map h.numbers hb ha (hnumber.trans horder)
  rw [← hmessage, hsame]

/-- An entry that did not leave waits. -/
theorem waits_or_left : (∃ e ∈ q.waiting, e.order = a.order) ∨
    ∃ x ∈ exits, x.entry.order = a.order := by
  have hmem := h.tickets.mem_iff.mp (List.mem_map_of_mem ha)
  obtain ⟨e, he, hticket⟩ := List.mem_map.mp hmem
  have horder : e.order = a.order := congrArg Prod.fst hticket
  rcases List.mem_append.mp he with he | he
  · exact .inl ⟨e, he, horder⟩
  · obtain ⟨x, hx, rfl⟩ := List.mem_map.mp he
    exact .inr ⟨x, hx, horder⟩

theorem length_le : (Shot.ofOrder a.order shots).length ≤ p.maxRetries.toNat + 1 := by
  rcases h.waits_or_left ha with ⟨e, he, horder⟩ | ⟨x, hx, horder⟩
  · have hpend := h.pending e he
    rw [horder] at hpend
    rw [hpend.count]
    exact Nat.le_succ_of_le hpend.left
  · have hends := h.ended x hx
    rw [horder] at hends
    exact hends.length_le

theorem messages {s : Shot} (hs : s ∈ Shot.ofOrder a.order shots) :
    s.entry.message = a.message := by
  obtain ⟨hmem, horder⟩ := List.mem_filter.mp hs
  exact h.message_eq ha (h.known s hmem) (by simpa using horder)

/-- An entry whose pushes all failed, and that did not expire, is given up with the last push that
it may have, and waits until then. -/
theorem given_up (hfailed : ∀ s ∈ Shot.ofOrder a.order shots, s.failure?.isSome)
    (hkept : ∀ x ∈ exits, x.entry.order = a.order → x.isExpired = false) :
    if (Shot.ofOrder a.order shots).length = p.maxRetries.toNat + 1 then
      ∃ e reason last,
        exits.filter (·.entry.order = a.order) = [.givenUp e reason] ∧
        e.message = a.message ∧ e.attempts.toNat = p.maxRetries.toNat + 1 ∧
        (Shot.ofOrder a.order shots).getLast? = some last ∧ last.failure? = some reason
    else
      exits.filter (·.entry.order = a.order) = [] ∧
      ∃ e ∈ q.waiting, e.order = a.order ∧
        e.attempts.toNat = (Shot.ofOrder a.order shots).length := by
  rcases h.waits_or_left ha with ⟨e, he, horder⟩ | ⟨x, hx, horder⟩
  · have hpend := h.pending e he
    have hnone := h.exits_of_waiting he
    rw [horder] at hpend hnone
    have hfew : (Shot.ofOrder a.order shots).length ≠ p.maxRetries.toNat + 1 := by
      have hcount := hpend.count
      have hleft := hpend.left
      omega
    rw [if_neg hfew]
    exact ⟨hnone, e, he, horder, hpend.count.symm⟩
  · have hends := h.ended x hx
    rw [horder] at hends
    cases x with
    | sent e =>
      obtain ⟨⟨s, hs, htaken⟩, -⟩ := hends
      have hs := hfailed s hs
      rw [htaken] at hs
      cases hs
    | givenUp e reason =>
      obtain ⟨-, hlength, hattempts, last, hlast, hreason⟩ := hends
      have hticket : e.ticket ∈ accepted.map QueueEntry.ticket :=
        h.tickets.mem_iff.mpr (List.mem_map_of_mem
          (List.mem_append_right _ (List.mem_map_of_mem hx)))
      rw [if_pos hlength]
      exact ⟨e, reason, last, h.exits_of_order a.order hx horder, h.message_eq ha hticket horder,
        hattempts, hlast, hreason⟩
    | expired e => cases hkept _ hx horder

end Entry

end Retried

end DeliveryQueue

end Courier
