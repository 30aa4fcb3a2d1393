import Courier.Proofs.Session.Runs
import Courier.Transport.Loopback

/-!
# Conservation of messages

A message that a session accepts is reported as sent, reported as failed or still waiting, and it
is so once for each time it was accepted. The invariant of a run says this of the messages as a
whole, also at the moment at which an iteration holds an entry that is in no lane; that all ids in
the queue differ comes with the soundness of the queue.
-/

namespace Courier

def Report.sent? : Report → Option MessageRef
  | .sent m => some m
  | _ => none

def Report.failed? : Report → Option MessageRef
  | .failed m _ => some m
  | _ => none

/-- An entry with the answer of the transport to its push. -/
abbrev Push := QueueEntry × Except TransportError Bool

def Push.taken? (p : Push) : Option MessageRef :=
  match p.2 with
  | .ok true => some p.1.message
  | _ => none

namespace Watched

variable {τ σ : Type}

def sents (w : Watched τ σ) : List MessageRef :=
  w.reports.filterMap Report.sent?

def failures (w : Watched τ σ) : List MessageRef :=
  w.reports.filterMap Report.failed?

/-! ### Reports of deliveries -/

section Reports

variable (reason : String)

theorem sents_append (w : Watched τ σ) {s : Session τ} {x : σ} (rs : List Report) :
    (⟨s, x, w.reports ++ rs⟩ : Watched τ σ).sents = w.sents ++ rs.filterMap Report.sent? :=
  List.filterMap_append

theorem failures_append (w : Watched τ σ) {s : Session τ} {x : σ} (rs : List Report) :
    (⟨s, x, w.reports ++ rs⟩ : Watched τ σ).failures = w.failures ++ rs.filterMap Report.failed? :=
  List.filterMap_append

theorem filterMap_sent_failed (es : List QueueEntry) :
    (es.map fun e => Report.failed e.message reason).filterMap Report.sent? = [] := by
  simp [List.filterMap_map, Report.sent?, Function.comp_def]

theorem filterMap_failed_failed (es : List QueueEntry) :
    (es.map fun e => Report.failed e.message reason).filterMap Report.failed? =
      es.map QueueEntry.message := by
  simp [List.filterMap_map, Report.failed?, Function.comp_def]

end Reports

/-! ### The invariant -/

/-- With the entries `out` in the hands of an iteration, every accepted message is sent, failed,
waiting or in hand, and the sent ones are `sent`. -/
structure Balanced (w : Watched τ σ) (out : List QueueEntry) (accepted sent : List MessageRef) :
    Prop where
  sound : w.session.queue.Sound out
  sents : w.sents = sent
  balance : accepted.Perm
    (w.sents ++ w.failures ++ (w.session.queue.waiting ++ out).map QueueEntry.message)

namespace Balanced

variable {w w' : Watched τ σ} {out : List QueueEntry} {accepted sent : List MessageRef}

/-- Shipments that are submitted wait, and nothing is reported of them. -/
theorem submitAll (hw : w.Balanced out accepted sent) {ss : List Submission}
    (hq : w'.session.queue = w.session.queue.submitAll ss) (hs : w'.sents = w.sents)
    (hf : w'.failures = w.failures) :
    w'.Balanced out (accepted ++ (w.session.queue.accepted ss).map QueueEntry.message) sent := by
  refine ⟨hq ▸ hw.sound.submitAll ss, hs.trans hw.sents, ?_⟩
  have hwait := ((DeliveryQueue.waiting_submitAll (q := w.session.queue) ss).append_right out).map
    QueueEntry.message
  rw [hs, hf, hq]
  refine (hw.balance.append_right _).trans ?_
  rw [List.append_assoc]
  refine List.Perm.append_left _ (List.Perm.trans ?_ hwait.symm)
  simp only [List.map_append, List.append_assoc]
  exact List.Perm.append_left _ List.perm_append_comm

theorem complete {e : QueueEntry} (hw : w.Balanced [e] accepted sent)
    (hq : w'.session.queue = w.session.queue.complete e) (hs : w'.sents = w.sents ++ [e.message])
    (hf : w'.failures = w.failures) : w'.Balanced [] accepted (sent ++ [e.message]) := by
  have hsound := hw.sound.complete (List.mem_singleton_self e)
  rw [List.erase_cons_head] at hsound
  refine ⟨hq ▸ hsound, by rw [hs, hw.sents], hw.balance.trans ?_⟩
  rw [hs, hf, hq]
  simp only [List.map_append, List.map_cons, List.map_nil, List.append_assoc, List.append_nil,
    DeliveryQueue.complete]
  refine List.Perm.append_left _ ?_
  rw [← List.append_assoc]
  exact List.perm_append_comm

theorem giveUp {e : QueueEntry} (hw : w.Balanced [e] accepted sent)
    (hq : w'.session.queue = w.session.queue.complete e) (hs : w'.sents = w.sents)
    (hf : w'.failures = w.failures ++ [e.message]) : w'.Balanced [] accepted sent := by
  have hsound := hw.sound.complete (List.mem_singleton_self e)
  rw [List.erase_cons_head] at hsound
  refine ⟨hq ▸ hsound, hs.trans hw.sents, hw.balance.trans ?_⟩
  rw [hs, hf, hq]
  simp only [List.map_append, List.map_cons, List.map_nil, List.append_assoc, List.append_nil,
    DeliveryQueue.complete]
  exact List.Perm.append_left _ (List.Perm.append_left _ List.perm_append_comm)

/-- A push that was not taken puts the entry back or gives it up. -/
theorem retry {e : QueueEntry} (hw : w.Balanced [e] accepted sent) (o : Observer τ σ)
    (now : Millis) (reason : String) : (w.retry o now e reason).Balanced [] accepted sent := by
  by_cases h : w.session.queue.policy.maxRetries < e.attempts + 1
  · refine hw.giveUp (by simp [Watched.retry, DeliveryQueue.retry_of_spent now h, fail, report]) ?_ ?_
    · simp [Watched.retry, DeliveryQueue.retry_of_spent now h, fail, report, Watched.sents,
        Report.sent?]
    · simp [Watched.retry, DeliveryQueue.retry_of_spent now h, fail, report, failures,
        Report.failed?, DeliveryQueue.failedOnce]
  · have hsound := hw.sound.retry (List.mem_singleton_self e) now
    rw [List.erase_cons_head] at hsound
    have hr : w.retry o now e reason =
        { w with session := { w.session with queue := (w.session.queue.retry e now).2 } } := by
      simp [Watched.retry, DeliveryQueue.retry_of_left now h]
    have hwait := (DeliveryQueue.waiting_retry now h).map QueueEntry.message
    rw [hr]
    refine ⟨hsound, hw.sents, hw.balance.trans (List.Perm.append_left _ ?_)⟩
    rw [List.append_nil, List.map_append]
    exact List.perm_append_comm.trans hwait.symm

theorem purge (hw : w.Balanced [] accepted sent) (o : Observer τ σ) (now : Millis) :
    (w.purge o now).Balanced [] accepted sent := by
  obtain ⟨x, hx⟩ := failAll_eq o "expired"
    { w with session := { w.session with queue := (w.session.queue.purge now).2 } }
    (w.session.queue.purge now).1
  have hp : w.purge o now = ⟨{ w.session with queue := (w.session.queue.purge now).2 }, x,
    w.reports ++ (w.session.queue.purge now).1.map fun e => .failed e.message "expired"⟩ := hx
  have hsents : (w.purge o now).sents = w.sents := by
    rw [hp, sents_append, filterMap_sent_failed, List.append_nil]
  have hfailures : (w.purge o now).failures =
      w.failures ++ (w.session.queue.purge now).1.map QueueEntry.message := by
    rw [hp, failures_append, filterMap_failed_failed]
  refine ⟨?_, hsents.trans hw.sents, hw.balance.trans ?_⟩
  · rw [hp]
    exact hw.sound.purge now
  · rw [hsents, hfailures, hp]
    simp only [List.append_nil, List.append_assoc]
    refine List.Perm.append_left _ (List.Perm.append_left _ ?_)
    rw [← List.map_append, DeliveryQueue.purge_fst, DeliveryQueue.waiting_purge]
    exact ((List.filter_append_perm _ _).symm).map _

end Balanced

/-- Between the two moments nothing left the queue and nothing was reported of a delivery. -/
structure Submits (w w' : Watched τ σ) : Prop where
  queue : ∃ ss, w'.session.queue = w.session.queue.submitAll ss
  sents : w'.sents = w.sents
  failures : w'.failures = w.failures

theorem Submits.trans {w₁ w₂ w₃ : Watched τ σ} (h : w₁.Submits w₂) (h' : w₂.Submits w₃) :
    w₁.Submits w₃ := by
  obtain ⟨ss, hq⟩ := h.queue
  obtain ⟨ss', hq'⟩ := h'.queue
  refine ⟨⟨ss ++ ss', ?_⟩, h'.sents.trans h.sents, h'.failures.trans h.failures⟩
  rw [hq', hq, DeliveryQueue.submitAll_append]

/-! ### Steps and runs -/

variable [Transport τ]

/-- The messages that a step accepts. Within an iteration the observer may queue some, and they
are known by their numbers. -/
def accepted (o : Observer τ σ) (w : Watched τ σ) : SessionStep τ → List MessageRef
  | .call (.enqueue s) =>
    if (w.session.enqueue s.message s.shipment s.now).1 then [s.message] else []
  | .call _ => []
  | .iterate now =>
    ((w.prepare o now).2.session.queue.queuedSince w.session.queue.nextOrder).map
      QueueEntry.message

/-- The push that is made when an iteration comes to send. -/
def sending? (now : Millis) (w : Watched τ σ) : Option Push :=
  if w.session.isActive then
    (w.session.queue.next now).map fun (e, queue) =>
      (e, ({ w.session with queue := queue }.push e).1)
  else none

def pushed? (o : Observer τ σ) (w : Watched τ σ) : SessionStep τ → Option Push
  | .call _ => none
  | .iterate now => if (w.prepare o now).1 then (w.prepare o now).2.sending? now else none

def acceptedAll (o : Observer τ σ) (w : Watched τ σ) : List (SessionStep τ) → List MessageRef
  | [] => []
  | s :: steps => w.accepted o s ++ (w.step o s).acceptedAll o steps

def pushedAll (o : Observer τ σ) (w : Watched τ σ) : List (SessionStep τ) → List Push
  | [] => []
  | s :: steps => (w.pushed? o s).toList ++ (w.step o s).pushedAll o steps

theorem accepted_call (o : Observer τ σ) (w : Watched τ σ) (c : SessionCall τ) :
    w.accepted o (.call c) =
      (w.session.queue.accepted c.submission?.toList).map QueueEntry.message := by
  cases c with
  | enqueue s =>
    simp only [accepted, Session.enqueue, SessionCall.submission?, Option.toList_some,
      DeliveryQueue.accepted]
    by_cases h : (w.session.queue.append s.message s.shipment s.now).1
    · simp [h, DeliveryQueue.entry]
    · simp [h]
  | _ => rfl

theorem balanced_start (station : Entity) (host : String) (port : UInt16) (transport : τ)
    (settings : Settings) (now : Millis) (x : σ) :
    (start station host port transport settings now x).Balanced [] [] [] where
  sound := .new _
  sents := rfl
  balance := .refl _

theorem submits_foldStatuses (w : Watched τ σ) :
    w.Submits { w with session := w.session.foldStatuses } := by
  obtain ⟨activity, failed, cursor, h⟩ := w.session.foldStatuses_eq
  exact ⟨⟨[], by rw [h]; rfl⟩, rfl, rfl⟩

section Frames

variable {o : Observer τ σ} (ho : o.OnlyCalls)
include ho

theorem submits_move (now : Millis) (w : Watched τ σ) : w.Submits (w.move o now) := by
  cases ht : w.session.evaluate? now with
  | none =>
    rw [move_of_none o ht]
    exact ⟨⟨[], rfl⟩, rfl, rfl⟩
  | some t =>
    obtain ⟨cs, x, h⟩ := move_eq ho ht
    rw [h]
    refine ⟨⟨_, Session.queue_calls _ cs⟩, ?_, ?_⟩
    · simp [sents, Report.sent?]
    · simp [failures, Report.failed?]

theorem submits_pump (w : Watched τ σ) : w.Submits (w.pump o).2 := by
  obtain ⟨cs, x, ps, h⟩ := pump_eq ho w
  rw [h]
  refine ⟨⟨cs.filterMap SessionCall.submission?, ?_⟩, ?_, ?_⟩
  · rw [Session.queue_calls]
    simp only [Session.takePackets, Session.poll_snd]
  · rw [sents_append]
    simp [List.filterMap_map, Report.sent?, Function.comp_def]
  · rw [failures_append]
    simp [List.filterMap_map, Report.failed?, Function.comp_def]

theorem submits_prepare (now : Millis) (w : Watched τ σ) :
    w.Submits (w.prepare o now).2 := by
  have hkept : KeptByPreparing o (Submits : Watched τ σ → Watched τ σ → Prop) :=
    ⟨Submits.trans, submits_foldStatuses, submits_move ho, submits_pump ho⟩
  exact hkept.prepare now w

end Frames

/-- A dispatch settles the entry in hand, and reports it as sent just if the push was taken. -/
theorem Balanced.dispatch {w : Watched τ σ} {e : QueueEntry} {accepted sent : List MessageRef}
    (hw : w.Balanced [e] accepted sent) (o : Observer τ σ) (now : Millis) :
    (w.dispatch o now e).Balanced [] accepted
      (sent ++ [((e, (w.session.push e).1) : Push)].filterMap Push.taken?) := by
  have hqueue : (w.session.push e).2.queue = w.session.queue := by
    simp only [Session.push_snd]
  have hpushed : ({ w with session := (w.session.push e).2 } : Watched τ σ).Balanced [e]
      accepted sent := ⟨hqueue ▸ hw.sound, hw.sents, hqueue ▸ hw.balance⟩
  unfold Watched.dispatch
  generalize w.session.push e = pushed at hpushed ⊢
  obtain ⟨answer, session⟩ := pushed
  cases answer with
  | error cause => simpa [List.filterMap_cons, Push.taken?] using hpushed.retry o now cause.message
  | ok taken =>
    cases taken with
    | false =>
      simpa [List.filterMap_cons, Push.taken?] using
        hpushed.retry o now "transport refused shipment"
    | true =>
      refine hpushed.complete rfl ?_ ?_
      · exact List.filterMap_append
      · exact List.filterMap_append.trans (List.append_nil _)

theorem Balanced.send {w : Watched τ σ} {accepted sent : List MessageRef}
    (hw : w.Balanced [] accepted sent) (o : Observer τ σ) (now : Millis) :
    (w.send o now).2.Balanced [] accepted
      (sent ++ (w.sending? now).toList.filterMap Push.taken?) := by
  unfold Watched.send sending?
  split
  · cases hn : w.session.queue.next now with
    | none => simpa using hw.purge o now
    | some taken =>
      obtain ⟨e, queue⟩ := taken
      have hheld : ({ w with session := { w.session with queue := queue } } :
          Watched τ σ).Balanced [e] accepted sent := by
        refine ⟨hw.sound.next hn, hw.sents, hw.balance.trans (List.Perm.append_left _ ?_)⟩
        rw [List.append_nil, List.map_append]
        refine ((DeliveryQueue.waiting_next hn).map QueueEntry.message).trans ?_
        exact (List.perm_append_comm : ([e.message] ++ queue.waiting.map QueueEntry.message).Perm _)
      exact hheld.dispatch o now
  · simpa using hw.purge o now

section Runs

variable {o : Observer τ σ} (ho : o.OnlyCalls)
include ho

theorem Balanced.step {w : Watched τ σ} {accepted sent : List MessageRef}
    (hw : w.Balanced [] accepted sent) (s : SessionStep τ) :
    (w.step o s).Balanced [] (accepted ++ w.accepted o s)
      (sent ++ (w.pushed? o s).toList.filterMap Push.taken?) := by
  cases s with
  | call c =>
    have hcall : (w.step o (.call c)).Balanced [] _ sent :=
      hw.submitAll (Session.queue_call w.session c) rfl rfl
    rw [accepted_call]
    simpa [pushed?] using hcall
  | iterate now =>
    obtain ⟨⟨ss, hq⟩, hs, hf⟩ := submits_prepare ho now w
    have hprep := hw.submitAll hq hs hf
    have hperm : (accepted ++ w.accepted o (.iterate now)).Perm
        (accepted ++ (w.session.queue.accepted ss).map QueueEntry.message) := by
      refine List.Perm.append_left _ ?_
      simp only [Watched.accepted, hq]
      exact (DeliveryQueue.queuedSince_submitAll hw.sound ss).map _
    have hbal : (w.prepare o now).2.Balanced [] (accepted ++ w.accepted o (.iterate now)) sent :=
      ⟨hprep.sound, hprep.sents, hperm.trans hprep.balance⟩
    simp only [Watched.step, iterate_snd, pushed?]
    split
    · exact hbal.send o now
    · simpa using hbal

theorem Balanced.run {w : Watched τ σ} {accepted sent : List MessageRef}
    (hw : w.Balanced [] accepted sent) (steps : List (SessionStep τ)) :
    (w.run o steps).Balanced [] (accepted ++ w.acceptedAll o steps)
      (sent ++ (w.pushedAll o steps).filterMap Push.taken?) := by
  induction steps generalizing w accepted sent with
  | nil => simpa [Watched.run, acceptedAll, pushedAll] using hw
  | cons s steps ih =>
    have h := ih (hw.step ho s)
    rw [List.append_assoc, List.append_assoc, ← List.filterMap_append] at h
    exact h

/-- Through every run of a session, a message is accepted as often as it was reported as sent or
as failed, and once more while it waits; the reports of sent messages are those of the pushes that
were taken, in their order; and the reserved ids are those of the waiting entries. -/
theorem messages_conserved (station : Entity) (host : String) (port : UInt16) (transport : τ)
    (settings : Settings) (now : Millis) (x : σ) (steps : List (SessionStep τ)) :
    let w₀ := start station host port transport settings now x
    let w := w₀.run o steps
    (∀ id, ((w₀.acceptedAll o steps).map MessageRef.id).count id =
      (w.sents.map MessageRef.id).count id + (w.failures.map MessageRef.id).count id +
        if id ∈ w.session.queue.waiting.map QueueEntry.id then 1 else 0) ∧
    w.sents = (w₀.pushedAll o steps).filterMap Push.taken? ∧
    w.session.queue.reserved.Perm (w.session.queue.waiting.map QueueEntry.id) := by
  intro w₀ w
  have hw := (balanced_start station host port transport settings now x).run ho steps
  refine ⟨?_, hw.sents, by simpa using hw.sound.reserved⟩
  intro id
  have hids : (w.session.queue.waiting.map QueueEntry.id).Nodup := by simpa using hw.sound.ids
  have hcount := (hw.balance.map MessageRef.id).count_eq id
  simp only [List.nil_append, List.append_nil, List.map_append, List.count_append,
    List.map_map] at hcount
  rw [hcount]
  congr 1
  exact hids.count

end Runs

/-- One message, accepted three times: it is sent, expires once the connection is closed, and waits
at the end. -/
def resubmitted (m : MessageRef) : List (SessionStep Loopback) :=
  let submit (now : Millis) : SessionStep Loopback := .call (.enqueue ⟨m, ⟨[7], 0, none⟩, now⟩)
  [submit 0, .call (.setIdentity (some m.sender)), .iterate 1, submit 1, .iterate 2, submit 2,
    .call .close, .iterate 3, submit 3, .iterate 700000, submit 700000]

theorem messages_conserved_resubmitted :
    let m : MessageRef := ⟨⟨"alice", "moky", .user⟩, ⟨"bob", "moky", .user⟩, 1⟩
    let w₀ : Watched Loopback Unit := start ⟨"gsp", "any", .station⟩ "127.0.0.1" 9394 .auto
      (.standard "courier") 0 ()
    let w := w₀.run .connecting (resubmitted m)
    w.sents = [m] ∧ w.failures = [m] ∧
      ((w₀.acceptedAll .connecting (resubmitted m)).map MessageRef.id).count m.id = 1 + 1 + 1 := by
  intro m w₀ w
  have hsent : w.sents = [m] := by decide +kernel
  have hfailed : w.failures = [m] := by decide +kernel
  have hwaits : m.id ∈ w.session.queue.waiting.map QueueEntry.id := by decide +kernel
  have hcount := (messages_conserved (o := .connecting) Observer.onlyCalls_connecting
    ⟨"gsp", "any", .station⟩ "127.0.0.1" 9394 .auto (.standard "courier") 0 () (resubmitted m)).1
    m.id
  refine ⟨hsent, hfailed, hcount.trans ?_⟩
  rw [hsent, hfailed, if_pos hwaits]
  simp

end Watched

end Courier
