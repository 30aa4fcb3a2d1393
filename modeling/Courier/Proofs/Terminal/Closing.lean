import Courier.Proofs.Session.Conservation
import Courier.Proofs.Terminal.Identity

/-!
# Closed connections

To stop and to connect elsewhere closes the connection that there is. Its session stays behind with
a closed transport and an empty queue, and nothing that the terminal does later changes that. Books
are kept along a run, one tally for each connection: which messages its session accepted, which
were reported as sent or as failed, and what was dropped when it was closed.
-/

namespace Courier

/-- The messages that the session of one connection accepted, and those that were reported as sent
and as failed. -/
structure Tally where
  accepted : List MessageRef
  sent : List MessageRef
  failed : List MessageRef

namespace Tally

def add (x y : Tally) : Tally :=
  ⟨x.accepted ++ y.accepted, x.sent ++ y.sent, x.failed ++ y.failed⟩

/-- Each message was accepted as often as it was reported, and once more for each time that it is
among the others. -/
def Balances (x : Tally) (others : List MessageRef) : Prop :=
  x.accepted.Perm (x.sent ++ x.failed ++ others)

theorem balances_nil : Balances ⟨[], [], []⟩ [] := .nil

theorem Balances.add {x y : Tally} {old new : List MessageRef} (hx : x.Balances old)
    (hy : (old ++ y.accepted).Perm (y.sent ++ y.failed ++ new)) : (x.add y).Balances new := by
  refine List.perm_iff_count.mpr fun m => ?_
  have hbefore := List.Perm.count_eq hx m
  have hsince := hy.count_eq m
  simp only [Tally.add, List.count_append] at hbefore hsince ⊢
  omega

end Tally

structure Books where
  /-- The connections that were closed, oldest first, each with the messages that were dropped. -/
  closed : List (Tally × List MessageRef)
  current : Tally

namespace Books

def blank : Books := ⟨[], ⟨[], [], []⟩⟩

/-- The current connection is closed, and a blank tally is begun. -/
def close (b : Books) (dropped : List MessageRef) : Books :=
  ⟨b.closed ++ [(b.current, dropped)], ⟨[], [], []⟩⟩

end Books

namespace Session

structure IsClosed (s : Session Loopback) : Prop where
  transport : s.transport.closed = true
  waiting : s.queue.waiting = []
  reserved : s.queue.reserved = []

/-- The session is closed, and what waits in it is dropped. -/
def discard (s : Session Loopback) : Session Loopback :=
  close { s with queue := s.queue.clear.2 }

theorem isClosed_discard (s : Session Loopback) : s.discard.IsClosed := ⟨rfl, rfl, rfl⟩

def messages (s : Session Loopback) : List MessageRef :=
  s.queue.waiting.map QueueEntry.message

/-- Calls account for what they queue. -/
theorem balances_calls {s : Session Loopback} (hsound : s.queue.Sound [])
    (cs : List (SessionCall Loopback)) {x : Tally} (hx : x.Balances s.messages) :
    (x.add ⟨((s.calls cs).queue.queuedSince s.queue.nextOrder).map QueueEntry.message,
      [], []⟩).Balances (s.calls cs).messages := by
  rw [messages, queue_calls]
  obtain ⟨ss, hss⟩ : ∃ ss, ss = cs.filterMap SessionCall.submission? := ⟨_, rfl⟩
  rw [← hss]
  have haccepted := DeliveryQueue.queuedSince_submitAll hsound ss
  have hwaiting := (haccepted.append_left s.queue.waiting).trans
    (DeliveryQueue.waiting_submitAll ss).symm
  have hmessages := hwaiting.map QueueEntry.message
  rw [List.map_append] at hmessages
  exact hx.add hmessages

end Session

namespace Client

variable {c : Client Loopback}

/-- An iteration accounts for what it queues and for what leaves the queue. -/
theorem balances_iterate (hsound : c.session.queue.Sound []) {x : Tally}
    (hx : x.Balances c.session.messages) :
    (x.add ⟨(c.newcomers .iterate).map QueueEntry.message,
      (c.step .iterate).1.filterMap Report.sent?,
      (c.step .iterate).1.filterMap Report.failed?⟩).Balances
      (c.step .iterate).2.session.messages := by
  let w : Watched Loopback Desk := ⟨c.session, c.desk, []⟩
  have hbefore : w.Balanced [] c.session.messages [] := by
    refine ⟨hsound, rfl, .of_eq ?_⟩
    rw [List.append_nil]
    rfl
  have hafter := hbefore.step onlyCalls_observer (.iterate c.account.clock)
  have hbalance := hafter.balance
  rw [List.append_nil] at hbalance
  exact hx.add hbalance

end Client

/-- Whether a move leaves a transport closed that is closed. -/
def TerminalMove.KeepsClosed : TerminalMove → Prop
  | .transport f => ∀ x : Loopback, x.closed = true → (f x).closed = true
  | _ => True

theorem TerminalMove.IsOwn.keepsClosed {m : TerminalMove} (h : m.IsOwn) : m.KeepsClosed := by
  cases m with
  | transport f => exact absurd h id
  | _ => trivial

namespace Terminal

/-! ### What a move does -/

/-- The messages that wait in the session. -/
def waiting (t : Terminal) : List MessageRef :=
  t.session?.elim [] Session.messages

/-- The session that a move closes. -/
def closing? (t : Terminal) : TerminalMove → Option (Session Loopback)
  | .connect host port => if t.keeps host port then none else t.session?
  | .stop => t.session?
  | _ => none

/-- Whether a move makes a new transport. -/
def opens (t : Terminal) : TerminalMove → Bool
  | .connect host port => !t.keeps host port
  | _ => false

/-- How many transports are made in a run. -/
def opened (t : Terminal) : List TerminalMove → Nat
  | [] => 0
  | m :: ms => (t.opens m).toNat + (t.move m).opened ms

/-- The entries that a move adds to the queue. An iteration may send one of them at once. -/
def newcomers (t : Terminal) (m : TerminalMove) : List QueueEntry :=
  match t.iterating? m with
  | some c => c.newcomers .iterate
  | none =>
    match t.session?, (t.move m).session? with
    | some s, some s' => s'.queue.queuedSince s.queue.nextOrder
    | _, _ => []

/-- What the client is told in a move. -/
def reports (t : Terminal) (m : TerminalMove) : List Report :=
  (t.iterating? m).elim [] fun c => (c.step .iterate).1

def tally (t : Terminal) (m : TerminalMove) : Tally where
  accepted := (t.newcomers m).map QueueEntry.message
  sent := (t.reports m).filterMap Report.sent?
  failed := (t.reports m).filterMap Report.failed?

/-- The books after a move. -/
def note (t : Terminal) (b : Books) (m : TerminalMove) : Books :=
  let b := (t.closing? m).elim b fun s => b.close s.messages
  { b with current := b.current.add (t.tally m) }

/-- The books after a run. -/
def books (t : Terminal) (b : Books) : List TerminalMove → Books
  | [] => b
  | m :: ms => (t.move m).books (t.note b m) ms

theorem stop_past (t : Terminal) :
    t.stop.past = t.past ++ (t.session?.map Session.discard).toList := by
  obtain ⟨link, past, elapsed, factory⟩ := t
  cases link with
  | offline account => exact (List.append_nil past).symm
  | online k => rfl

theorem past_connect (t : Terminal) (host : String) (port : UInt16) :
    (t.connect host port).2.past =
      t.past ++ ((t.closing? (.connect host port)).map Session.discard).toList := by
  simp only [connect, closing?]
  by_cases hkeeps : t.keeps host port = true
  · have hkept := hkeeps
    rw [keeps] at hkept
    rw [if_pos hkept, if_pos hkeeps]
    exact (List.append_nil _).symm
  · have hleft := hkeeps
    rw [keeps] at hleft
    rw [if_neg hleft, if_neg hkeeps, ← stop_past]
    cases t.stop.factory host port <;> rfl

theorem updateConnection_fields (t : Terminal) (f : Connection → Connection) :
    (t.updateConnection f).past = t.past ∧ (t.updateConnection f).factory = t.factory ∧
      (t.updateConnection f).session?.isSome = t.session?.isSome := by
  obtain ⟨link, past, elapsed, factory⟩ := t
  cases link <;> exact ⟨rfl, rfl, rfl⟩

theorem modifyAccount_fields (t : Terminal) (f : Account → Account) :
    (t.modifyAccount f).past = t.past ∧ (t.modifyAccount f).factory = t.factory ∧
      (t.modifyAccount f).session?.isSome = t.session?.isSome := by
  obtain ⟨link, past, elapsed, factory⟩ := t
  cases link <;> exact ⟨rfl, rfl, rfl⟩

theorem modifyTransport_fields (t : Terminal) (f : Loopback → Loopback) :
    (t.modifyTransport f).factory = t.factory ∧
      (t.modifyTransport f).session?.isSome = t.session?.isSome := by
  obtain ⟨link, past, elapsed, factory⟩ := t
  cases link with
  | online k => exact ⟨rfl, rfl⟩
  | offline account =>
    simp only [modifyTransport]
    split <;> exact ⟨rfl, rfl⟩

/-- Most moves only update the connection. -/
inductive MoveCases (t : Terminal) : TerminalMove → Prop where
  | connect (host : String) (port : UInt16) : MoveCases t (.connect host port)
  | stop : MoveCases t .stop
  | skip (k : Nat) : MoveCases t (.skip k)
  | account (f : Account → Account) : MoveCases t (.account f)
  | transport (f : Loopback → Loopback) : MoveCases t (.transport f)
  | update {m : TerminalMove} (f : Connection → Connection) (hmove : t.move m = t.updateConnection f)
      (hopen : t.closing? m = none) (hopens : t.opens m = false) : MoveCases t m

theorem move_cases (t : Terminal) (m : TerminalMove) : t.MoveCases m := by
  cases m with
  | connect host port => exact .connect host port
  | stop => exact .stop
  | skip k => exact .skip k
  | account f => exact .account f
  | transport f => exact .transport f
  | login named => exact .update _ (t.login_snd named) rfl rfl
  | reset => exact .update _ t.resetSession_snd rfl rfl
  | _ => exact .update _ rfl rfl rfl

/-- A transport that changes on its own account may be that of the connection closed last. -/
theorem past_modifyTransport (t : Terminal) (f : Loopback → Loopback) :
    (t.modifyTransport f).past = t.past ∨
      ∃ ss s, t.past = ss ++ [s] ∧
        (t.modifyTransport f).past = ss ++ [{ s with transport := f s.transport }] := by
  obtain ⟨link, past, elapsed, factory⟩ := t
  cases link with
  | online k => exact .inl rfl
  | offline account =>
    simp only [modifyTransport]
    cases hlast : past.getLast? with
    | none => exact .inl rfl
    | some s =>
      right
      obtain ⟨ss, rfl⟩ := List.getLast?_eq_some_iff.mp hlast
      exact ⟨ss, s, rfl, by rw [List.dropLast_concat]⟩

/-- What is closed stays closed, and `s` alone joins it. -/
def Shelves (t t' : Terminal) (s : Option (Session Loopback)) : Prop :=
  ∃ past, t'.past = past ++ (s.map Session.discard).toList ∧ past.length = t.past.length ∧
    ((∀ s ∈ t.past, s.IsClosed) → ∀ s ∈ past, s.IsClosed)

theorem shelves_of_past {t t' : Terminal} (h : t'.past = t.past) : t.Shelves t' none :=
  ⟨t.past, h.trans (List.append_nil _).symm, rfl, id⟩

theorem shelves_modifyTransport (t : Terminal) {f : Loopback → Loopback}
    (h : ∀ x : Loopback, x.closed = true → (f x).closed = true) :
    t.Shelves (t.modifyTransport f) none := by
  rcases t.past_modifyTransport f with hpast | ⟨ss, s, hpast, hmoved⟩
  · exact shelves_of_past hpast
  · refine ⟨_, hmoved.trans (List.append_nil _).symm, by simp [hpast], ?_⟩
    intro hclosed s' hs'
    rw [hpast] at hclosed
    rcases List.mem_append.mp hs' with hs' | hs'
    · exact hclosed s' (List.mem_append_left _ hs')
    · obtain ⟨htransport, hwaiting, hreserved⟩ :=
        hclosed s (List.mem_append_right _ (List.mem_singleton_self s))
      rw [List.mem_singleton.mp hs']
      exact ⟨h _ htransport, hwaiting, hreserved⟩

theorem shelves_move (t : Terminal) {m : TerminalMove} (h : m.KeepsClosed) :
    t.Shelves (t.move m) (t.closing? m) := by
  cases t.move_cases m with
  | connect host port => exact ⟨t.past, t.past_connect host port, rfl, id⟩
  | stop => exact ⟨t.past, t.stop_past, rfl, id⟩
  | skip k => exact shelves_of_past rfl
  | account f => exact shelves_of_past (t.modifyAccount_fields f).1
  | transport f => exact t.shelves_modifyTransport h
  | update f hmove hopen hopens =>
    rw [hmove, hopen]
    exact shelves_of_past (t.updateConnection_fields f).1

/-! ### The session of the connection -/

section Sessions

variable {t : Terminal} {m : TerminalMove}

theorem session?_of_iterating? {c : Client Loopback} (hc : t.iterating? m = some c) :
    (t.move m).session? = some (c.step .iterate).2.session := by
  cases m with
  | connect host port =>
    rw [session?_connect, hc]
    simp only [iterating?] at hc
    split at hc
    · cases hc
    · rename_i hleft
      rw [if_neg hleft]
      rfl
  | iterate =>
    obtain ⟨k, hk, rfl⟩ := Option.map_eq_some_iff.mp hc
    obtain ⟨link, past, elapsed, factory⟩ := t
    cases link with
    | offline account => cases hk
    | online k' =>
      cases hk
      rfl
  | _ => cases hc

theorem session?_of_closing? {s : Session Loopback} (hs : t.closing? m = some s) :
    t.session? = some s := by
  cases m with
  | connect host port =>
    simp only [closing?] at hs
    split at hs
    · cases hs
    · exact hs
  | stop => exact hs
  | _ => cases hs

theorem offline_of_closing? {s : Session Loopback} (hs : t.closing? m = some s)
    (hrests : t.iterating? m = none) : (t.move m).session? = none := by
  cases m with
  | connect host port =>
    rw [session?_connect, hrests]
    simp only [closing?] at hs
    split at hs
    · cases hs
    · rename_i hleft
      rw [if_neg hleft]
      rfl
  | stop => exact t.stop_fields.2.2.2
  | _ => cases hs

/-- A move that neither lets the session iterate nor closes it leaves the terminal as connected as
it was. -/
theorem isSome_session?_move (hrests : t.iterating? m = none) (hopen : t.closing? m = none) :
    (t.move m).session?.isSome = t.session?.isSome := by
  cases t.move_cases m with
  | connect host port =>
    rw [session?_connect, hrests]
    simp only [closing?] at hopen
    split at hopen
    · rename_i hkept
      rw [if_pos hkept]
    · rename_i hleft
      rw [if_neg hleft, hopen]
      rfl
  | stop =>
    rw [move, t.stop_fields.2.2.2]
    exact congrArg Option.isSome hopen.symm
  | skip k => rfl
  | account f => exact (t.modifyAccount_fields f).2.2
  | transport f => exact (t.modifyTransport_fields f).2
  | update f hmove =>
    rw [hmove]
    exact (t.updateConnection_fields f).2.2

theorem continues_of_open {s' : Session Loopback} (hrests : t.iterating? m = none)
    (hs' : (t.move m).session? = some s') : t.Continues m s' := by
  rcases session?_move hs' with ⟨c, hc, -⟩ | hcontinues
  · cases hrests.symm.trans hc
  · exact hcontinues

end Sessions

/-! ### The books -/

theorem waiting_of_session? {t : Terminal} {s : Session Loopback} (h : t.session? = some s) :
    t.waiting = s.messages := by
  rw [waiting, h]
  rfl

/-- What still waits when a move has closed the session that it closes. -/
def remaining (t : Terminal) (m : TerminalMove) : List MessageRef :=
  (t.closing? m).elim t.waiting fun _ => []

section Tallies

variable {t : Terminal} {m : TerminalMove}

theorem tally_of_iterating? {c : Client Loopback} (hc : t.iterating? m = some c) : t.tally m =
    ⟨(c.newcomers .iterate).map QueueEntry.message, (c.step .iterate).1.filterMap Report.sent?,
      (c.step .iterate).1.filterMap Report.failed?⟩ := by
  simp only [tally, newcomers, reports, hc]
  rfl

/-- Outside the iterations nothing is reported. -/
theorem tally_of_continued {s s' : Session Loopback} (hrests : t.iterating? m = none)
    (hs : t.session? = some s) (hs' : (t.move m).session? = some s') : t.tally m =
      ⟨(s'.queue.queuedSince s.queue.nextOrder).map QueueEntry.message, [], []⟩ := by
  simp only [tally, newcomers, reports, hrests, hs, hs']
  rfl

theorem tally_of_offline (hrests : t.iterating? m = none) (hoffline : (t.move m).session? = none) :
    t.tally m = ⟨[], [], []⟩ := by
  simp only [tally, newcomers, reports, hrests, hoffline]
  cases t.session? <;> rfl

/-- A session begins with an empty queue, or iterates with what remained in it. -/
theorem messages_of_iterating? {c : Client Loopback} (hc : t.iterating? m = some c) :
    c.session.messages = t.remaining m := by
  cases m with
  | connect host port =>
    simp only [iterating?, remaining, closing?] at hc ⊢
    split at hc
    · cases hc
    · rename_i hleft
      obtain ⟨transport, -, rfl⟩ := Option.map_eq_some_iff.mp hc
      have hempty : (t.opening host port transport).session.messages = [] := by
        simp only [opening, Session.setIdentity, Session.messages]
        split <;> rfl
      rw [if_neg hleft, hempty]
      cases hs : t.session? with
      | none => simp [waiting, hs]
      | some s => rfl
  | iterate =>
    obtain ⟨k, hk, rfl⟩ := Option.map_eq_some_iff.mp hc
    exact (waiting_of_session? (session?_of_connection? hk)).symm
  | _ => cases hc

theorem remaining_of_offline (hrests : t.iterating? m = none)
    (hoffline : (t.move m).session? = none) : t.remaining m = [] := by
  unfold remaining
  cases hs : t.closing? m with
  | some s => rfl
  | none =>
    have honline := isSome_session?_move hrests hs
    rw [hoffline] at honline
    have hnone : t.session? = none :=
      Option.isNone_iff_eq_none.mp (Option.isSome_eq_false_iff.mp honline.symm)
    rw [waiting, hnone]
    rfl

/-- The tally of a move accounts for what waits after it. -/
theorem balances_tally (h : t.IsSteady) {x : Tally} (hx : x.Balances (t.remaining m)) :
    (x.add (t.tally m)).Balances (t.move m).waiting := by
  cases hc : t.iterating? m with
  | some c =>
    rw [tally_of_iterating? hc, waiting_of_session? (session?_of_iterating? hc)]
    refine Client.balances_iterate (iterating h hc).1.queue ?_
    rw [messages_of_iterating? hc]
    exact hx
  | none =>
    cases hs' : (t.move m).session? with
    | none =>
      rw [remaining_of_offline hc hs'] at hx
      rw [tally_of_offline hc hs', waiting, hs']
      exact hx.add .nil
    | some s' =>
      obtain ⟨s, cs, hs, -, rfl, -⟩ := continues_of_open hc hs'
      have hopen : t.closing? m = none := by
        cases hclosing : t.closing? m with
        | none => rfl
        | some closed => cases (offline_of_closing? hclosing hc).symm.trans hs'
      rw [remaining, hopen] at hx
      have hwaiting : x.Balances s.messages := (waiting_of_session? hs) ▸ hx
      rw [tally_of_continued hc hs hs', waiting_of_session? hs']
      exact Session.balances_calls (h s hs).queue cs hwaiting

end Tallies

/-- The books are in order if all connections of the past are closed for good and accounted for, and
the current one is accounted for. -/
structure Agrees (t : Terminal) (b : Books) : Prop where
  closed : ∀ s ∈ t.past, s.IsClosed
  length : b.closed.length = t.past.length
  dropped : ∀ x ∈ b.closed, x.1.Balances x.2
  current : b.current.Balances t.waiting

theorem agrees_blank {t : Terminal} (hpast : t.past = []) (hoffline : t.session? = none) :
    t.Agrees .blank where
  closed := by
    rw [hpast]
    exact fun _ hs => absurd hs List.not_mem_nil
  length := congrArg List.length hpast.symm
  dropped := fun _ hx => absurd hx List.not_mem_nil
  current := by
    rw [waiting, hoffline]
    exact Tally.balances_nil

theorem Agrees.move {t : Terminal} {b : Books} (hb : t.Agrees b) (h : t.IsSteady)
    {m : TerminalMove} (hm : m.KeepsClosed) : (t.move m).Agrees (t.note b m) := by
  obtain ⟨past, hpast, hlength, hclosed⟩ := t.shelves_move hm
  cases hs : t.closing? m with
  | none =>
    rw [hs] at hpast
    have hsame : (t.move m).past = past := hpast.trans (List.append_nil past)
    have hnote : t.note b m = { b with current := b.current.add (t.tally m) } := by
      rw [note, hs]
      rfl
    rw [hnote]
    refine ⟨?_, ?_, hb.dropped, balances_tally h ?_⟩
    · rw [hsame]
      exact hclosed hb.closed
    · rw [hsame, hlength]
      exact hb.length
    · rw [remaining, hs]
      exact hb.current
  | some s =>
    rw [hs] at hpast
    have hmore : (t.move m).past = past ++ [s.discard] := hpast
    have hnote : t.note b m =
        { b.close s.messages with current := (b.close s.messages).current.add (t.tally m) } := by
      rw [note, hs]
      rfl
    have hwaiting : t.waiting = s.messages := waiting_of_session? (session?_of_closing? hs)
    rw [hnote]
    refine ⟨?_, ?_, ?_, balances_tally h ?_⟩
    · rw [hmore]
      intro s' hs'
      rcases List.mem_append.mp hs' with hs' | hs'
      · exact hclosed hb.closed s' hs'
      · exact List.mem_singleton.mp hs' ▸ s.isClosed_discard
    · rw [hmore, Books.close]
      simp [hb.length, hlength]
    · intro x hx
      rcases List.mem_append.mp hx with hx | hx
      · exact hb.dropped x hx
      · rw [List.mem_singleton.mp hx, ← hwaiting]
        exact hb.current
    · rw [remaining, hs]
      exact Tally.balances_nil

theorem Agrees.run {t : Terminal} {b : Books} (hb : t.Agrees b) (h : t.IsSteady)
    {ms : List TerminalMove} (hms : ∀ m ∈ ms, m.KeepsClosed) :
    (t.run ms).Agrees (t.books b ms) := by
  induction ms generalizing t b with
  | nil => exact hb
  | cons m ms ih =>
    exact ih (hb.move h (hms m List.mem_cons_self)) (h.move m)
      fun m' hm' => hms m' (List.mem_cons_of_mem m hm')

/-! ### Transports made -/

/-- The factory of loopback transports never fails. -/
def AlwaysOpens (t : Terminal) : Prop :=
  t.factory = fun _ _ => .ok .auto

theorem factory_move (t : Terminal) (m : TerminalMove) : (t.move m).factory = t.factory := by
  cases t.move_cases m with
  | connect host port =>
    obtain ⟨-, hfactory, -⟩ := t.stop_fields
    simp only [move, connect]
    split
    · rfl
    · split <;> exact hfactory
  | stop => exact t.stop_fields.2.1
  | skip k => rfl
  | account f => exact (t.modifyAccount_fields f).2.1
  | transport f => exact (t.modifyTransport_fields f).1
  | update f hmove =>
    rw [hmove]
    exact (t.updateConnection_fields f).2.1

theorem AlwaysOpens.run {t : Terminal} (h : t.AlwaysOpens) (ms : List TerminalMove) :
    (t.run ms).AlwaysOpens := by
  induction ms generalizing t with
  | nil => exact h
  | cons m ms ih => exact ih ((t.factory_move m).trans h)

theorem created_eq (t : Terminal) : t.created = t.past.length + t.session?.isSome.toNat := by
  unfold created session?
  cases t.connection? <;> rfl

section Online

variable {t : Terminal} (h : t.AlwaysOpens)
include h

theorem isSome_session?_connect (host : String) (port : UInt16) :
    (t.move (.connect host port)).session?.isSome = true := by
  rw [session?_connect]
  split
  · rename_i hkept
    cases hs : t.session? with
    | none => simp [keeps, hs] at hkept
    | some s => rfl
  · rename_i hleft
    have hopened : (t.factory host port).toOption = some .auto := by
      rw [h]
      rfl
    simp only [iterating?, if_neg hleft, hopened]
    rfl

/-- Only to stop leaves a terminal without a connection. -/
theorem isSome_session?_of_ne_stop {m : TerminalMove} (hm : m ≠ .stop)
    (honline : t.session?.isSome = true) : (t.move m).session?.isSome = true := by
  cases hc : t.iterating? m with
  | some c =>
    rw [session?_of_iterating? hc]
    rfl
  | none =>
    cases hs : t.closing? m with
    | none => exact (isSome_session?_move hc hs).trans honline
    | some s =>
      cases m with
      | connect host port => exact isSome_session?_connect h host port
      | stop => exact absurd rfl hm
      | _ => cases hs

theorem created_move {m : TerminalMove} (hm : m.KeepsClosed) :
    (t.move m).created = t.created + (t.opens m).toNat := by
  obtain ⟨past, hpast, hlength, -⟩ := t.shelves_move hm
  rw [created_eq, created_eq, hpast, List.length_append, hlength]
  cases t.move_cases m with
  | connect host port =>
    rw [isSome_session?_connect h]
    simp only [closing?, opens]
    cases hkept : t.keeps host port with
    | false => cases t.session? <;> simp
    | true =>
      cases hs : t.session? with
      | none => simp [keeps, hs] at hkept
      | some s => simp
  | stop =>
    rw [move, t.stop_fields.2.2.2]
    cases hs : t.session? <;> simp [closing?, opens, hs]
  | skip k => rfl
  | account f =>
    rw [move, (t.modifyAccount_fields f).2.2]
    rfl
  | transport f =>
    rw [move, (t.modifyTransport_fields f).2]
    rfl
  | update f hmove hopen hopens =>
    rw [hmove, hopen, hopens, (t.updateConnection_fields f).2.2]
    rfl

theorem created_run {ms : List TerminalMove} (hms : ∀ m ∈ ms, m.KeepsClosed) :
    (t.run ms).created = t.created + t.opened ms := by
  induction ms generalizing t with
  | nil => rfl
  | cons m ms ih =>
    have hlater := ih ((t.factory_move m).trans h)
      fun m' hm' => hms m' (List.mem_cons_of_mem m hm')
    have hrun : (t.run (m :: ms)).created = ((t.move m).run ms).created := rfl
    rw [hrun, hlater, created_move h (hms m List.mem_cons_self), opened, Nat.add_assoc]

/-- While it does not stop, a connected terminal stays connected, and what was bound last stays
bound. -/
theorem identity?_of_unstopped (hsteady : t.IsSteady) {ms : List TerminalMove}
    (hms : TerminalMove.stop ∉ ms) (honline : t.session?.isSome = true) :
    (t.run ms).session?.isSome = true ∧
      (t.run ms).identity? = (t.lastBound? ms).or t.identity? := by
  induction ms generalizing t with
  | nil => exact ⟨honline, rfl⟩
  | cons m ms ih =>
    have hm : m ≠ .stop := fun heq => hms (heq ▸ List.mem_cons_self)
    have hafter := isSome_session?_of_ne_stop h hm honline
    obtain ⟨s', hs'⟩ := Option.isSome_iff_exists.mp hafter
    obtain ⟨hstill, hlater⟩ := ih ((t.factory_move m).trans h) (hsteady.move m)
      (fun hmem => hms (List.mem_cons_of_mem m hmem)) hafter
    refine ⟨hstill, hlater.trans ?_⟩
    rw [identity?_of_online hsteady hs', lastBound?, Option.or_assoc]

end Online

theorem connect_of_keeps {t : Terminal} {host : String} {port : UInt16}
    (h : t.keeps host port = true) : t.connect host port = (.ok true, t) := by
  rw [keeps] at h
  rw [connect]
  exact if_pos h

/-- Through every run of a terminal over loopback transports, whatever its station sends and its
connection suffers, the transports that were made are that of the connection and those of closed
sessions, and these are closed and nothing is left in their queues. Every message that a closed
session accepted was reported as sent, or as failed, or was dropped without a report, once for each
time it was accepted; of the present session, it was reported or waits. To connect to the station
whose session is active changes nothing, and until the terminal stops, its session has the identity
that the last login bound, however often it connects elsewhere. Whatever the terminal is asked to
do, one thing after the other, consists of such moves. -/
theorem one_live_connection (account : Account) (moves : List TerminalMove)
    (hmoves : ∀ m ∈ moves, m.KeepsClosed) :
    let fresh := Terminal.new account fun _ _ => .ok .auto
    let t := fresh.run moves
    let b := fresh.books .blank moves
    (fresh.opened moves = t.past.length + t.session?.isSome.toNat ∧ ∀ s ∈ t.past, s.IsClosed) ∧
    (b.closed.length = t.past.length ∧ (∀ x ∈ b.closed, x.1.Balances x.2) ∧
      b.current.Balances t.waiting) ∧
    (∀ host port, t.keeps host port = true → t.connect host port = (.ok true, t)) ∧
    (∀ later, .stop ∉ later → t.session?.isSome = true →
      (t.run later).session?.isSome = true ∧
        (t.run later).identity? = (t.lastBound? later).or t.identity?) ∧
    ∀ ops : List TerminalOperation, ∃ ms, (∀ m ∈ ms, m.IsOwn ∧ m.KeepsClosed) ∧
      t.run ms = ops.foldl perform t := by
  intro fresh t b
  have hopens : fresh.AlwaysOpens := rfl
  have hsteady : fresh.IsSteady := steady_new account _
  have hbooks : t.Agrees b := (agrees_blank rfl rfl).run hsteady hmoves
  have hcreated : t.created = 0 + fresh.opened moves := created_run hopens hmoves
  refine ⟨⟨?_, hbooks.closed⟩, ⟨hbooks.length, hbooks.dropped, hbooks.current⟩,
    fun host port => connect_of_keeps, ?_, ?_⟩
  · rw [← created_eq, hcreated, Nat.zero_add]
  · intro later hlater honline
    exact identity?_of_unstopped (hopens.run moves) (hsteady.run moves) hlater honline
  · intro ops
    obtain ⟨ms, hms, hrun⟩ := t.reaches_performAll ops
    exact ⟨ms, fun m hm => ⟨hms m hm, (hms m hm).keepsClosed⟩, hrun⟩

/-- Reports of presence to a station, more than it is sent. -/
def staying : List TerminalMove :=
  [.connect "127.0.0.1" 9394, .login none, .iterate, .iterate, .iterate,
    .call (.report .online) trivial, .call (.report .offline) trivial, .iterate]

/-- Another station, after an attempt to connect to the first one again. The connection breaks, and
this station too is left with messages that were not sent. -/
def leaving : List TerminalMove :=
  [.connect "127.0.0.1" 9394, .connect "127.0.0.1" 9395, .iterate, .call (.report .online) trivial,
    .transport Loopback.breakNextPush, .iterate]

theorem one_live_connection_leaving :
    let moves := staying ++ leaving ++ [.stop]
    let stayed := lone.run staying
    let t := lone.run moves
    let b := lone.books .blank moves
    (∀ m ∈ moves, m.KeepsClosed) ∧ t.past.length = 2 ∧ (∀ s ∈ t.past, s.IsClosed) ∧
      b.closed.map (fun x => (x.1.accepted.length, x.1.sent.length, x.2.length)) =
        [(3, 1, 2), (2, 0, 2)] ∧
      (∀ x ∈ b.closed, x.1.failed = [] ∧ x.1.Balances x.2) ∧
      stayed.connect "127.0.0.1" 9394 = (.ok true, stayed) ∧
      (stayed.run leaving).identity? = some ⟨"alice", "moky", .user⟩ := by
  intro moves stayed t b
  have hmoves : ∀ m ∈ moves, m.KeepsClosed := by
    simp [moves, staying, leaving, TerminalMove.KeepsClosed, Loopback.breakNextPush]
  have hstaying : ∀ m ∈ staying, m.KeepsClosed := fun m hm => hmoves m (by simp [moves, hm])
  have htwo : lone.opened moves = 2 := by decide +kernel
  have hoffline : t.session?.isSome = false := by decide +kernel
  have hcounts : b.closed.map (fun x => (x.1.accepted.length, x.1.sent.length, x.2.length)) =
      [(3, 1, 2), (2, 0, 2)] := by decide +kernel
  have hnone : ∀ x ∈ b.closed, x.1.failed = [] := by decide +kernel
  obtain ⟨⟨hmade, hclosed⟩, ⟨-, hdropped, -⟩, -⟩ := one_live_connection _ moves hmoves
  have hpast : 2 = t.past.length + t.session?.isSome.toNat := htwo.symm.trans hmade
  rw [hoffline] at hpast
  obtain ⟨-, -, hkept, hcarried, -⟩ := one_live_connection _ staying hstaying
  have honline : stayed.session?.isSome = true := by decide +kernel
  obtain ⟨-, hidentity⟩ := hcarried leaving (by simp [leaving]) honline
  have hbound : (stayed.lastBound? leaving).or stayed.identity? =
      some ⟨"alice", "moky", .user⟩ := by decide +kernel
  exact ⟨hmoves, hpast.symm, hclosed, hcounts, fun x hx => ⟨hnone x hx, hdropped x hx⟩,
    hkept _ _ (by decide +kernel), hidentity.trans hbound⟩

end Terminal

end Courier
