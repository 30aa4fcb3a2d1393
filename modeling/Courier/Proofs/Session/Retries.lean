import Courier.Proofs.Delivery.Retries
import Courier.Proofs.Session.Conservation

/-!
# Retries through a run

Whatever the transport answers and whatever else happens to the session, each accepted message is
pushed a bounded number of times, at a distance from each other, and if all of its pushes fail it is
reported as failed with the last of them.
-/

namespace Courier

def Push.failure? (p : Push) : Option String :=
  match p.2 with
  | .ok true => none
  | .ok false => some "transport refused shipment"
  | .error cause => some cause.message

def Push.shot (now : Millis) (p : Push) : Shot :=
  ⟨now, p.1, p.failure?⟩

def Exit.report : Exit → Report
  | .sent e => .sent e.message
  | .givenUp e reason => .failed e.message reason
  | .expired e => .failed e.message "expired"

def Report.isDelivery : Report → Bool
  | .sent _ => true
  | .failed _ _ => true
  | _ => false

namespace Watched

variable {τ σ : Type} [Transport τ]

def deliveries (w : Watched τ σ) : List Report :=
  w.reports.filter Report.isDelivery

/-- The entries that leave when an iteration comes to send. -/
def leaving (now : Millis) (w : Watched τ σ) : List Exit :=
  match w.sending? now with
  | none => (w.session.queue.purge now).1.map .expired
  | some p =>
    match p.failure? with
    | none => [.sent p.1]
    | some reason =>
      if w.session.queue.policy.maxRetries < p.1.attempts + 1 then
        [.givenUp (DeliveryQueue.failedOnce p.1) reason]
      else []

/-! ### What a step adds -/

def shots (o : Observer τ σ) (w : Watched τ σ) : SessionStep τ → List Shot
  | .call _ => []
  | .iterate now => ((w.pushed? o (.iterate now)).map (Push.shot now)).toList

def exits (o : Observer τ σ) (w : Watched τ σ) : SessionStep τ → List Exit
  | .call _ => []
  | .iterate now => if (w.prepare o now).1 then (w.prepare o now).2.leaving now else []

/-- The entries that were queued, known by their numbers. -/
def newcomers (o : Observer τ σ) (w : Watched τ σ) : SessionStep τ → List QueueEntry
  | .call c => (w.session.call c).queue.queuedSince w.session.queue.nextOrder
  | .iterate now => (w.prepare o now).2.session.queue.queuedSince w.session.queue.nextOrder

/-- What the steps of a run add one after the other. -/
def collect {α : Type} (o : Observer τ σ) (added : Watched τ σ → SessionStep τ → List α)
    (w : Watched τ σ) : List (SessionStep τ) → List α
  | [] => []
  | s :: steps => added w s ++ (w.step o s).collect o added steps

/-- The entries that are queued in a step are those of the messages that it accepts. -/
theorem accepted_step (o : Observer τ σ) {w : Watched τ σ}
    (hw : w.session.queue.Sound []) (s : SessionStep τ) :
    (w.accepted o s).Perm ((w.newcomers o s).map QueueEntry.message) := by
  cases s with
  | call c =>
    have hnew := DeliveryQueue.queuedSince_submitAll hw c.submission?.toList
    rw [accepted_call, newcomers, Session.queue_call]
    exact (hnew.map QueueEntry.message).symm
  | iterate now => exact .refl _

omit [Transport τ] in
theorem settles_purge (o : Observer τ σ) (now : Millis) (w : Watched τ σ) :
    w.session.queue.Settles now none ((w.session.queue.purge now).1.map .expired)
      (w.purge o now).session.queue ∧
    (w.purge o now).reports =
      w.reports ++ ((w.session.queue.purge now).1.map Exit.expired).map Exit.report := by
  obtain ⟨x, hx⟩ := failAll_eq o "expired"
    { w with session := { w.session with queue := (w.session.queue.purge now).2 } }
    (w.session.queue.purge now).1
  have hpurge : w.purge o now = ⟨{ w.session with queue := (w.session.queue.purge now).2 }, x,
    w.reports ++ (w.session.queue.purge now).1.map fun e => .failed e.message "expired"⟩ := hx
  rw [hpurge, List.map_map]
  exact ⟨.expired, rfl⟩

omit [Transport τ] in
/-- An entry whose push was not taken goes back to the queue it came from, or leaves. -/
theorem settles_retry (o : Observer τ σ) {now : Millis} {queue : DeliveryQueue} {e : QueueEntry}
    {w : Watched τ σ} (hnext : queue.next now = some (e, w.session.queue)) (reason : String) :
    let given : List Exit :=
      if queue.policy.maxRetries < e.attempts + 1 then
        [.givenUp (DeliveryQueue.failedOnce e) reason]
      else []
    queue.Settles now (some ⟨now, e, some reason⟩) given (w.retry o now e reason).session.queue ∧
    (w.retry o now e reason).reports = w.reports ++ given.map Exit.report := by
  obtain ⟨hpolicy, -, -⟩ := DeliveryQueue.next_fields hnext
  by_cases hspent : queue.policy.maxRetries < e.attempts + 1
  · have hspent' : w.session.queue.policy.maxRetries < e.attempts + 1 := hpolicy.symm ▸ hspent
    simp only [retry, DeliveryQueue.retry_of_spent now hspent', if_pos hspent]
    exact ⟨.givenUp reason hnext hspent, rfl⟩
  · have hleft : ¬w.session.queue.policy.maxRetries < e.attempts + 1 := hpolicy.symm ▸ hspent
    have hsettles := DeliveryQueue.Settles.postponed reason hnext hspent
    rw [DeliveryQueue.retry_of_left now hleft] at hsettles
    simp only [retry, DeliveryQueue.retry_of_left now hleft, if_neg hspent]
    exact ⟨hsettles, (List.append_nil _).symm⟩

/-- Sending is one of the ways to settle, and reports the exits. -/
theorem settles_send (o : Observer τ σ) (now : Millis) (w : Watched τ σ) :
    w.session.queue.Settles now ((w.sending? now).map (Push.shot now)) (w.leaving now)
      (w.send o now).2.session.queue ∧
    (w.send o now).2.reports = w.reports ++ (w.leaving now).map Exit.report := by
  unfold leaving sending? send
  split
  · cases hn : w.session.queue.next now with
    | none => exact settles_purge o now w
    | some taken =>
      obtain ⟨e, left⟩ := taken
      have hpush := Session.push_snd { w.session with queue := left } e
      simp only [Option.map_some, dispatch]
      generalize ({ w.session with queue := left } : Session τ).push e = pushed at hpush ⊢
      obtain ⟨answer, session⟩ := pushed
      have hqueue : session.queue = left := congrArg Session.queue hpush
      have hnext : w.session.queue.next now = some (e, session.queue) := hqueue.symm ▸ hn
      rcases answer with cause | taken
      · exact settles_retry o (w := { w with session := session }) hnext cause.message
      · cases taken with
        | false =>
          exact settles_retry o (w := { w with session := session }) hnext
            "transport refused shipment"
        | true => exact ⟨.sent hnext, rfl⟩
  · exact settles_purge o now w

section Runs

variable {o : Observer τ σ} (ho : o.OnlyCalls)
include ho

theorem deliveries_move (now : Millis) (w : Watched τ σ) :
    (w.move o now).deliveries = w.deliveries := by
  cases ht : w.session.evaluate? now with
  | none =>
    rw [move_of_none o ht]
  | some t =>
    obtain ⟨cs, x, h⟩ := move_eq ho ht
    rw [h]
    simp [deliveries, Report.isDelivery]

theorem deliveries_pump (w : Watched τ σ) : (w.pump o).2.deliveries = w.deliveries := by
  obtain ⟨cs, x, ps, h⟩ := pump_eq ho w
  rw [h]
  simp [deliveries, Report.isDelivery]

theorem deliveries_prepare (now : Millis) (w : Watched τ σ) :
    (w.prepare o now).2.deliveries = w.deliveries := by
  have hkept : KeptByPreparing o fun w w' => w'.deliveries = w.deliveries :=
    ⟨fun h h' => h'.trans h, fun _ => rfl, deliveries_move ho, deliveries_pump ho⟩
  exact hkept.prepare now w

/-- A step hands submissions to the queue and then, if it is an iteration that gets there,
settles. -/
theorem retried_step {p : RetryPolicy} (hmax : p.maxRetries.toNat + 1 < UInt32.size)
    {w : Watched τ σ} {accepted : List QueueEntry} {shots : List Shot} {exits : List Exit}
    (h : DeliveryQueue.Retried p w.session.queue accepted shots exits) (s : SessionStep τ) :
    DeliveryQueue.Retried p (w.step o s).session.queue (accepted ++ w.newcomers o s)
      (shots ++ w.shots o s) (exits ++ w.exits o s) := by
  cases s with
  | call c =>
    have hq := Session.queue_call w.session c
    have hsubmitted := h.submitAll c.submission?.toList
    rw [← hq] at hsubmitted
    simp only [Watched.shots, Watched.exits, List.append_nil]
    exact hsubmitted
  | iterate now =>
    obtain ⟨⟨ss, hq⟩, -, -⟩ := submits_prepare ho now w
    have hsubmitted := h.submitAll ss
    rw [← hq] at hsubmitted
    simp only [step, iterate_snd, newcomers, Watched.shots, Watched.exits, pushed?]
    split
    · exact hsubmitted.settle hmax (settles_send o now (w.prepare o now).2).1
    · simp only [Option.map_none, Option.toList_none, List.append_nil]
      exact hsubmitted

theorem deliveries_step (w : Watched τ σ) (s : SessionStep τ) :
    (w.step o s).deliveries = w.deliveries ++ (w.exits o s).map Exit.report := by
  cases s with
  | call c => exact (List.append_nil _).symm
  | iterate now =>
    have hprepare := deliveries_prepare ho now w
    simp only [step, iterate_snd, exits]
    split
    · obtain ⟨-, hreports⟩ := settles_send o now (w.prepare o now).2
      have hall : ((w.prepare o now).2.leaving now |>.map Exit.report).filter Report.isDelivery =
          ((w.prepare o now).2.leaving now).map Exit.report := by
        apply List.filter_eq_self.mpr
        intro r hr
        obtain ⟨x, -, rfl⟩ := List.mem_map.mp hr
        cases x <;> rfl
      rw [deliveries, hreports, List.filter_append, hall, ← hprepare]
      rfl
    · exact hprepare.trans (List.append_nil _).symm

theorem retried_run {p : RetryPolicy} (hmax : p.maxRetries.toNat + 1 < UInt32.size)
    {w : Watched τ σ} {accepted : List QueueEntry} {shots : List Shot} {exits : List Exit}
    (h : DeliveryQueue.Retried p w.session.queue accepted shots exits)
    (steps : List (SessionStep τ)) :
    DeliveryQueue.Retried p (w.run o steps).session.queue
      (accepted ++ w.collect o (newcomers o) steps) (shots ++ w.collect o (Watched.shots o) steps)
      (exits ++ w.collect o (Watched.exits o) steps) := by
  induction steps generalizing w accepted shots exits with
  | nil =>
    simp only [collect, List.append_nil]
    exact h
  | cons s steps ih =>
    have hrest := ih (retried_step ho hmax h s)
    simp only [List.append_assoc] at hrest
    exact hrest

theorem deliveries_run (w : Watched τ σ) (steps : List (SessionStep τ)) :
    (w.run o steps).deliveries =
      w.deliveries ++ (w.collect o (Watched.exits o) steps).map Exit.report := by
  induction steps generalizing w with
  | nil => exact (List.append_nil _).symm
  | cons s steps ih =>
    refine (ih (w.step o s)).trans ?_
    rw [deliveries_step ho, collect, List.map_append, List.append_assoc]

theorem accepted_run {p : RetryPolicy} (hmax : p.maxRetries.toNat + 1 < UInt32.size)
    {w : Watched τ σ} {accepted : List QueueEntry} {shots : List Shot} {exits : List Exit}
    (h : DeliveryQueue.Retried p w.session.queue accepted shots exits)
    (steps : List (SessionStep τ)) :
    (w.acceptedAll o steps).Perm
      ((w.collect o (newcomers o) steps).map QueueEntry.message) := by
  induction steps generalizing w accepted shots exits with
  | nil => exact .refl _
  | cons s steps ih =>
    rw [acceptedAll, collect, List.map_append]
    exact (accepted_step o h.sound s).append (ih (retried_step ho hmax h s))

/-- An entry that leaves frees its id by the end of the step. -/
theorem free_of_exit {w : Watched τ σ} (hw : w.session.queue.Sound []) {s : SessionStep τ} {x : Exit}
    (hx : x ∈ w.exits o s) {m : MessageRef} (hm : m.id = x.entry.id) (shipment : Shipment)
    (time : Millis) : ((w.step o s).session.enqueue m shipment time).1 = true := by
  cases s with
  | call c => cases hx
  | iterate now =>
    obtain ⟨⟨ss, hq⟩, -, -⟩ := submits_prepare ho now w
    have hsound : (w.prepare o now).2.session.queue.Sound [] := hq ▸ hw.submitAll ss
    apply DeliveryQueue.append_fst.mpr
    rw [hm]
    simp only [exits] at hx
    simp only [step, iterate_snd]
    split
    · rename_i hsends
      rw [if_pos hsends] at hx
      exact (settles_send o now (w.prepare o now).2).1.released hsound hx
    · rename_i hstays
      rw [if_neg hstays] at hx
      cases hx

/-- Through every run of a session, whatever its transport answers: a message that was accepted is
pushed at most once more than there are retries, and between a push and a later one of it there is a
failure and the delay. If all of its pushes fail and it does not expire, it leaves with the last
push that it may have, given up for the reason of that push, with all of them counted, and never
again; until then it waits. What is reported of deliveries is how entries leave, in their order, and
the id of one that left can be queued again at once. -/
theorem retries_bounded (station : Entity) (host : String) (port : UInt16) (transport : τ)
    (settings : Settings) (hmax : settings.maxRetries.toNat + 1 < UInt32.size) (now : Millis)
    (observer : σ) (steps : List (SessionStep τ)) :
    let w₀ := start station host port transport settings now observer
    let w := w₀.run o steps
    let limit := settings.maxRetries.toNat + 1
    let accepted := w₀.collect o (newcomers o) steps
    let exits := w₀.collect o (Watched.exits o) steps
    (w₀.acceptedAll o steps).Perm (accepted.map QueueEntry.message) ∧
    (∀ a ∈ accepted,
      let pushes := Shot.ofOrder a.order (w₀.collect o (Watched.shots o) steps)
      (∀ s ∈ pushes, s.entry.message = a.message) ∧
      pushes.length ≤ limit ∧
      pushes.Pairwise (Shot.Spaced settings.retryPolicy) ∧
      ((∀ s ∈ pushes, s.failure?.isSome) →
        (∀ x ∈ exits, x.entry.order = a.order → x.isExpired = false) →
        if pushes.length = limit then
          ∃ e reason last,
            exits.filter (·.entry.order = a.order) = [.givenUp e reason] ∧
            e.message = a.message ∧ e.attempts.toNat = limit ∧
            pushes.getLast? = some last ∧ last.failure? = some reason
        else
          exits.filter (·.entry.order = a.order) = [] ∧
          ∃ e ∈ w.session.queue.waiting, e.order = a.order ∧
            e.attempts.toNat = pushes.length)) ∧
    w.deliveries = exits.map Exit.report ∧
    ∀ s, ∀ x ∈ w.exits o s, ∀ m : MessageRef, m.id = x.entry.id → ∀ shipment time,
      ((w.step o s).session.enqueue m shipment time).1 = true := by
  intro w₀ w limit accepted exits
  have hstart : DeliveryQueue.Retried settings.retryPolicy w₀.session.queue [] [] [] := .new _
  have h := retried_run ho (p := settings.retryPolicy) hmax hstart steps
  simp only [List.nil_append] at h
  refine ⟨accepted_run ho (p := settings.retryPolicy) hmax hstart steps, ?_,
    deliveries_run ho w₀ steps, ?_⟩
  · intro a ha pushes
    exact ⟨fun s hs => h.messages ha hs, h.length_le ha, h.spaced a.order, h.given_up ha⟩
  · intro s x hx m hm shipment time
    exact free_of_exit ho h.sound hx hm shipment time

end Runs

/-- A message whose pushes are all refused, and another one whose second push is taken. -/
def refusedPushes (first second : MessageRef) : List (SessionStep Loopback) :=
  let submit (m : MessageRef) (now : Millis) : SessionStep Loopback :=
    .call (.enqueue ⟨m, ⟨[7], 0, none⟩, now⟩)
  let ready := Loopback.manual.changeStatus .ready
  [.call (.transport (ready.refuseNextPushes 3)), submit first 0, .iterate 1, submit second 2,
    .iterate 3, .iterate 4, .iterate 2001, .iterate 2003, submit first 2004]

theorem retries_bounded_refused :
    let first : MessageRef := ⟨⟨"alice", "moky", .user⟩, ⟨"bob", "moky", .user⟩, 1⟩
    let second : MessageRef := ⟨⟨"alice", "moky", .user⟩, ⟨"bob", "moky", .user⟩, 2⟩
    let settings := { Settings.standard "courier" with maxRetries := 1 }
    let w₀ : Watched Loopback Unit := start ⟨"gsp", "any", .station⟩ "127.0.0.1" 9394 .manual
      settings 0 ()
    let steps := refusedPushes first second
    settings.maxRetries.toNat + 1 < UInt32.size ∧
    (w₀.run .connecting steps).deliveries =
      [.failed first "transport refused shipment", .sent second] ∧
    ∃ e reason,
      (w₀.collect .connecting (Watched.exits .connecting) steps).filter (·.entry.order = 0) =
        [.givenUp e reason] ∧ e.message = first ∧ e.attempts.toNat = 2 := by
  intro first second settings w₀ steps
  have hmax : settings.maxRetries.toNat + 1 < UInt32.size := by decide
  have hdeliveries : ((w₀.collect .connecting (Watched.exits .connecting) steps).map Exit.report) =
      [.failed first "transport refused shipment", .sent second] := by decide +kernel
  have hstart : start ⟨"gsp", "any", .station⟩ "127.0.0.1" 9394 .manual settings 0 () = w₀ := rfl
  obtain ⟨-, hentry, hreports, -⟩ := retries_bounded (o := .connecting)
    Observer.onlyCalls_connecting ⟨"gsp", "any", .station⟩ "127.0.0.1" 9394 .manual settings hmax 0
    () steps
  rw [hstart] at hentry hreports
  obtain ⟨-, -, -, hspent⟩ := hentry ⟨⟨[7], 0, none⟩, first, 0, 0, 0, 0⟩ (by decide +kernel)
  dsimp only at hspent
  have hlength : (Shot.ofOrder 0 (w₀.collect .connecting (Watched.shots .connecting) steps)).length =
      settings.maxRetries.toNat + 1 := by decide +kernel
  rw [if_pos hlength] at hspent
  obtain ⟨e, reason, last, hexit, hmessage, hattempts, -⟩ :=
    hspent (by decide +kernel) (by decide +kernel)
  exact ⟨hmax, hreports.trans hdeliveries, e, reason, hexit, hmessage, hattempts⟩

end Watched

end Courier
