import Courier.Proofs.Client.Handshakes
import Courier.Proofs.Terminal.Runs

/-!
# Whom a first handshake speaks for

A first handshake is sent in the name of the user who is signed in when the session enters the
handshake. The identity that is bound to the session plays no part in it. That is the one which the
last login bound, carried over from connection to connection, so the two are the same just if that
login bound the user who is signed in now.
-/

namespace Courier

/-! ### Sessions with an identity -/

theorem Stage.detect?_default {stage : Stage} {seen : Snapshot} {now timeout : Millis}
    (hp : stage.phase = .default) {event : LifecycleEvent}
    (h : stage.detect? seen now timeout = some event) :
    event = .connectionLost ∨ seen.hasIdentity = true := by
  by_cases hb : seen.isBroken = true
  · simp only [detect?, hp, hb] at h
    exact .inl (Option.some.inj h).symm
  · by_cases hi : seen.hasIdentity = true
    · exact .inr hi
    · simp [detect?, hp, hb, hi] at h

/-- Whether a call leaves the session with an identity if it had one. -/
def SessionCall.KeepsIdentified {τ : Type} : SessionCall τ → Prop
  | .setIdentity identity => identity.isSome
  | _ => True

namespace Session

variable {τ : Type}

/-- Nothing is handed out, and without an identity the session did not get beyond the default
phase. -/
structure IsSteady (s : Session τ) : Prop where
  queue : s.queue.Sound []
  identified : s.identity = none → s.phase = .default ∨ s.phase = .error

variable [Transport τ]

theorem identity_call (s : Session τ) (c : SessionCall τ) : (s.call c).identity =
    match c with
    | .setIdentity identity => identity
    | _ => s.identity := by
  cases c with
  | setIdentity identity =>
    simp only [call, setIdentity]
    split
    · assumption
    · rfl
  | setKey key =>
    simp only [call, setKey]
    split <;> rfl
  | connect => simp only [call, connect_snd]
  | reset now =>
    simp only [call, reset_eq]
    by_cases h : s.phase = .error <;> simp [h, enter]
  | _ => rfl

theorem IsSteady.call {s : Session τ} (h : s.IsSteady) {c : SessionCall τ}
    (hc : c.KeepsIdentified) : (s.call c).IsSteady where
  queue := by
    rw [queue_call]
    exact h.queue.submitAll _
  identified := by
    intro hnone
    have hidentity : s.identity = none := by
      rw [identity_call] at hnone
      cases c with
      | setIdentity identity =>
        rw [show identity = none from hnone] at hc
        cases hc
      | _ => exact hnone
    have hstage := s.stage_call c
    cases hreset : s.reset? c with
    | none =>
      rw [hreset] at hstage
      rw [phase, ← stage, hstage]
      exact h.identified hidentity
    | some t =>
      obtain ⟨-, now, -, rfl⟩ := reset?_eq_some hreset
      rw [hreset] at hstage
      exact .inl (congrArg Stage.phase hstage)

theorem IsSteady.calls {s : Session τ} (h : s.IsSteady) {cs : List (SessionCall τ)}
    (hcs : ∀ c ∈ cs, c.KeepsIdentified) : (s.calls cs).IsSteady := by
  induction cs generalizing s with
  | nil => exact h
  | cons c cs ih =>
    exact ih (h.call (hcs c List.mem_cons_self)) fun c' hc' => hcs c' (List.mem_cons_of_mem c hc')

end Session

namespace Client

variable {τ : Type} [Transport τ]

/-- What a client does to its session by itself leaves the identity alone. -/
theorem calls_of_ordinary (c : Client τ) {call : ClientCall τ} (h : Ordinary call) :
    ∃ cs, (∀ sc ∈ cs, sc.KeepsIdentified) ∧ (c.call call).session = c.session.calls cs ∧
      (c.call call).session.identity = c.session.identity := by
  obtain ⟨cs, hcs, hsession⟩ := (c.acts_call h).session
  obtain ⟨-, hidentity, -⟩ := calls_of_routine c.session hcs
  refine ⟨cs, ?_, hsession, hsession ▸ hidentity⟩
  intro sc hsc
  have hroutine := hcs sc hsc
  cases sc with
  | setIdentity identity => cases hroutine
  | _ => trivial

theorem steady_iterate {c : Client τ} (h : c.session.IsSteady) :
    (c.step .iterate).2.session.IsSteady where
  queue := sound_step (s := .iterate) h.queue trivial
  identified := by
    obtain ⟨-, -, -, hidentity, -⟩ :=
      Watched.key_iterate c.account.clock ⟨c.session, c.desk, []⟩
    intro hafter
    have hnone : c.session.identity = none := hidentity.symm.trans hafter
    have hbefore := h.identified hnone
    have hstage := c.stage_step (s := .iterate) trivial
    rw [change?] at hstage
    cases ht : c.transition? with
    | none =>
      rw [ht] at hstage
      rw [Session.phase, ← Session.stage, hstage]
      exact hbefore
    | some t =>
      obtain ⟨hsource, herror, hdetect, hfollow, -⟩ := transition?_eq_some ht
      rw [ht] at hstage
      rw [hsource] at herror hdetect hfollow
      have hdefault : c.session.phase = .default := hbefore.resolve_right herror
      rcases Stage.detect?_default hdefault hdetect with hevent | hseen
      · right
        have hphase : c.session.stage.phase = .default := hdefault
        rw [hevent, hphase] at hfollow
        have htarget : t.target.phase = .error :=
          (congrArg Prod.fst (Option.some.inj hfollow)).symm
        exact (congrArg Stage.phase hstage).trans htarget
      · obtain ⟨activity, failed, cursor, hfolded⟩ := c.session.foldStatuses_eq
        rw [hfolded] at hseen
        have hsome : c.session.identity.isSome = true := hseen
        rw [hnone] at hsome
        cases hsome

theorem identity_iterate (c : Client τ) :
    (c.step .iterate).2.session.identity = c.session.identity := by
  obtain ⟨-, -, -, hidentity, -⟩ := Watched.key_iterate c.account.clock ⟨c.session, c.desk, []⟩
  exact hidentity

end Client

/-! ### Moves -/

namespace Terminal

/-- The identity that is bound to the session. -/
def identity? (t : Terminal) : Option Entity :=
  t.session?.bind Session.identity

/-- The identity that a move binds: a login binds the one it names, or else the signed-in user. -/
def binds? (t : Terminal) : TerminalMove → Option Entity
  | .login named => t.connection?.bind fun c => named.or (c.client.account.user.map LocalUser.id)
  | _ => none

/-- The identity that was bound last in a run. -/
def lastBound? (t : Terminal) : List TerminalMove → Option Entity
  | [] => none
  | m :: ms => ((t.move m).lastBound? ms).or (t.binds? m)

/-- The client of a connection that is opened now. -/
def opening (t : Terminal) (host : String) (port : UInt16) (transport : Loopback) :
    Client Loopback :=
  let s := Session.new .anyStation host port transport t.account.settings t.account.clock
  ⟨(s.setIdentity t.identity?).2, .new t.account⟩

/-- Whether the terminal is connected to that station and its session is active. -/
def keeps (t : Terminal) (host : String) (port : UInt16) : Bool :=
  t.session?.any fun s => s.host = host && s.port = port && s.isActive

/-- The client whose session iterates in a move. -/
def iterating? (t : Terminal) : TerminalMove → Option (Client Loopback)
  | .connect host port =>
    if t.keeps host port then none
    else (t.factory host port).toOption.map (t.opening host port)
  | .iterate => t.connection?.map Connection.client
  | _ => none

theorem stop_fields (t : Terminal) : t.stop.account = t.account ∧ t.stop.factory = t.factory ∧
    t.stop.elapsed = t.elapsed ∧ t.stop.session? = none := by
  obtain ⟨link, past, elapsed, factory⟩ := t
  cases link <;> exact ⟨rfl, rfl, rfl, rfl⟩

theorem session?_connect (t : Terminal) (host : String) (port : UInt16) :
    (t.move (.connect host port)).session? =
      if t.keeps host port then t.session?
      else (t.iterating? (.connect host port)).map fun c => (c.step .iterate).2.session := by
  obtain ⟨haccount, hfactory, helapsed, hstopped⟩ := t.stop_fields
  simp only [move, connect, iterating?]
  by_cases hkeeps : t.keeps host port = true
  · have hkept := hkeeps
    rw [keeps] at hkept
    rw [if_pos hkept, if_pos hkeeps]
  · have hleft := hkeeps
    rw [keeps] at hleft
    rw [if_neg hleft, if_neg hkeeps, if_neg hkeeps, hfactory]
    cases t.factory host port with
    | error e => exact hstopped
    | ok transport =>
      dsimp only
      rw [haccount, helapsed]
      rfl

section Sessions

variable {t : Terminal} {s' : Session Loopback}

theorem session?_of_connection? {k : Connection} (h : t.connection? = some k) :
    t.session? = some k.client.session := by
  rw [session?, h]
  rfl

theorem session?_updateConnection {f : Connection → Connection}
    (h : (t.updateConnection f).session? = some s') :
    ∃ k, t.connection? = some k ∧ (f k).client.session = s' := by
  obtain ⟨link, past, elapsed, factory⟩ := t
  cases link with
  | offline account => cases h
  | online k => exact ⟨k, rfl, Option.some.inj h⟩

theorem session?_updateClient {f : Client Loopback → Client Loopback}
    (h : (t.updateClient f).session? = some s') :
    ∃ k, t.connection? = some k ∧ (f k.client).session = s' :=
  session?_updateConnection (f := fun k => { k with client := f k.client }) h

theorem session?_modifyTransport {f : Loopback → Loopback}
    (h : (t.modifyTransport f).session? = some s') :
    ∃ k, t.connection? = some k ∧
      k.client.session.call (.transport (f k.client.session.transport)) = s' := by
  obtain ⟨link, past, elapsed, factory⟩ := t
  cases link with
  | offline account =>
    simp only [modifyTransport] at h
    split at h <;> cases h
  | online k => exact ⟨k, rfl, Option.some.inj h⟩

theorem session?_modifyAccount (t : Terminal) (f : Account → Account) :
    (t.modifyAccount f).session? = t.session? := by
  obtain ⟨link, past, elapsed, factory⟩ := t
  cases link <;> rfl

theorem resetSession_snd (t : Terminal) :
    t.resetSession.2 = t.updateSession (·.call (.reset t.account.clock)) := by
  obtain ⟨link, past, elapsed, factory⟩ := t
  cases link with
  | offline account => rfl
  | online k =>
    simp only [resetSession, updateSession, updateClient, Session.call]
    split <;> rename_i heq
    · rw [heq]
    · rw [heq]

theorem login_snd (t : Terminal) (named : Option Entity) : (t.login named).2 =
    t.updateClient fun c =>
      match named.or (c.account.user.map LocalUser.id) with
      | none => c
      | some e => { c with session := c.session.call (.setIdentity (some e)) } := by
  rw [login, act_snd]
  congr 1
  funext c
  rw [Client.doing_eq, Client.attempt_bind]
  cases named with
  | some e => rfl
  | none =>
    rw [Client.senderOr, Client.attempt_bind, Client.attempt_currentUser]
    cases c.account.user <;> rfl

/-- The session goes on through calls that leave it with an identity, which is the one that the move
binds if it binds any. -/
def Continues (t : Terminal) (m : TerminalMove) (s' : Session Loopback) : Prop :=
  ∃ s cs, t.session? = some s ∧ (∀ c ∈ cs, SessionCall.KeepsIdentified c) ∧
    s' = s.calls cs ∧ s'.identity = (t.binds? m).or s.identity

theorem continues_of_call {m : TerminalMove} {k : Connection} {c : SessionCall Loopback}
    (hk : t.connection? = some k) (hc : c.KeepsIdentified) (hs' : k.client.session.call c = s')
    (hidentity : s'.identity = (t.binds? m).or k.client.session.identity) : t.Continues m s' := by
  refine ⟨k.client.session, [c], session?_of_connection? hk, ?_, hs'.symm, hidentity⟩
  intro c' hc'
  rw [List.mem_singleton.mp hc']
  exact hc

theorem continues_of_same {m : TerminalMove} (hs' : t.session? = some s')
    (hbinds : t.binds? m = none) : t.Continues m s' := by
  refine ⟨s', [], hs', fun _ hc => absurd hc List.not_mem_nil, rfl, ?_⟩
  rw [hbinds]
  rfl

/-- What the client does by itself binds nothing. -/
theorem continues_of_ordinary {m : TerminalMove} {k : Connection} {call : ClientCall Loopback}
    (hk : t.connection? = some k) (hcall : Client.Ordinary call)
    (hs' : (k.client.call call).session = s') (hbinds : t.binds? m = none) :
    t.Continues m s' := by
  obtain ⟨cs, hcs, hcalls, hidentity⟩ := k.client.calls_of_ordinary hcall
  refine ⟨k.client.session, cs, session?_of_connection? hk, hcs, hs'.symm.trans hcalls, ?_⟩
  rw [hbinds]
  exact hs' ▸ hidentity

/-- A move lets the session iterate, or lets it continue. -/
theorem session?_move {m : TerminalMove} (h : (t.move m).session? = some s') :
    (∃ c, t.iterating? m = some c ∧ t.binds? m = none ∧ s' = (c.step .iterate).2.session) ∨
      t.Continues m s' := by
  cases m with
  | connect host port =>
    rw [session?_connect] at h
    split at h
    · exact .inr (continues_of_same h rfl)
    · obtain ⟨c, hc, hs'⟩ := Option.map_eq_some_iff.mp h
      exact .inl ⟨c, hc, rfl, hs'.symm⟩
  | login named =>
    right
    rw [move, login_snd] at h
    obtain ⟨k, hk, hs'⟩ := session?_updateClient h
    have hbinds : t.binds? (.login named) =
        named.or (k.client.account.user.map LocalUser.id) := by
      rw [binds?, hk]
      rfl
    split at hs'
    · rename_i hnobody
      exact continues_of_same (hs' ▸ session?_of_connection? hk) (hbinds.trans hnobody)
    · rename_i e hbound
      refine continues_of_call hk (c := .setIdentity (some e)) rfl hs' ?_
      rw [hbinds, hbound, ← hs']
      exact Session.identity_call _ _
  | stop =>
    rw [move, t.stop_fields.2.2.2] at h
    cases h
  | reset =>
    right
    rw [move, resetSession_snd] at h
    obtain ⟨k, hk, hs'⟩ := session?_updateClient h
    refine continues_of_call hk (c := .reset t.account.clock) trivial hs' ?_
    rw [← hs']
    exact Session.identity_call _ (.reset t.account.clock)
  | pause =>
    obtain ⟨k, hk, hs'⟩ := session?_updateClient h
    exact .inr (continues_of_call hk (c := .pause) trivial hs' (hs' ▸ rfl))
  | resume =>
    obtain ⟨k, hk, hs'⟩ := session?_updateClient h
    exact .inr (continues_of_call hk (c := .resume) trivial hs' (hs' ▸ rfl))
  | call c hc =>
    obtain ⟨k, hk, hs'⟩ := session?_updateClient h
    exact .inr (continues_of_ordinary hk hc hs' rfl)
  | iterate =>
    obtain ⟨k, hk, hs'⟩ := session?_updateConnection h
    refine .inl ⟨k.client, ?_, rfl, hs'.symm⟩
    rw [iterating?, hk]
    rfl
  | keepOnline =>
    right
    obtain ⟨k, hk, hs'⟩ := session?_updateConnection h
    simp only [Connection.keepOnline] at hs'
    split at hs'
    · exact continues_of_same (hs' ▸ session?_of_connection? hk) rfl
    · have hordinary : Client.Ordinary (.keepOnline : ClientCall Loopback) := trivial
      exact continues_of_ordinary hk hordinary hs' rfl
  | skip k => exact .inr (continues_of_same h rfl)
  | account f =>
    rw [move, session?_modifyAccount] at h
    exact .inr (continues_of_same h rfl)
  | transport f =>
    obtain ⟨k, hk, hs'⟩ := session?_modifyTransport h
    right
    exact continues_of_call hk (c := .transport (f k.client.session.transport)) trivial hs'
      (hs' ▸ rfl)

end Sessions

/-! ### Runs -/

/-- The session of the connection, if there is one, is steady. -/
def IsSteady (t : Terminal) : Prop :=
  ∀ s, t.session? = some s → s.IsSteady

theorem steady_opening (t : Terminal) (host : String) (port : UInt16) (transport : Loopback) :
    (t.opening host port transport).session.IsSteady := by
  constructor
  · simp only [opening, Session.setIdentity]
    split <;> exact .new t.account.settings.retryPolicy
  · intro _
    left
    simp only [opening, Session.setIdentity]
    split <;> rfl

theorem identity_opening (t : Terminal) (host : String) (port : UInt16) (transport : Loopback) :
    (t.opening host port transport).session.identity = t.identity? := by
  simp only [opening, Session.setIdentity]
  split
  · assumption
  · rfl

/-- The session that iterates in a move is the one of the connection or a new one, to which the
identity was carried over. -/
theorem iterating {t : Terminal} (h : t.IsSteady) {m : TerminalMove} {c : Client Loopback}
    (hc : t.iterating? m = some c) :
    c.session.IsSteady ∧ c.session.identity = t.identity? := by
  cases m with
  | connect host port =>
    simp only [iterating?] at hc
    split at hc
    · cases hc
    · obtain ⟨transport, -, rfl⟩ := Option.map_eq_some_iff.mp hc
      exact ⟨t.steady_opening host port transport, t.identity_opening host port transport⟩
  | iterate =>
    obtain ⟨k, hk, rfl⟩ := Option.map_eq_some_iff.mp hc
    have hsession := session?_of_connection? hk
    refine ⟨h _ hsession, ?_⟩
    rw [identity?, hsession]
    rfl
  | _ => cases hc

theorem IsSteady.move {t : Terminal} (h : t.IsSteady) (m : TerminalMove) : (t.move m).IsSteady := by
  intro s' hs'
  rcases session?_move hs' with ⟨c, hc, -, rfl⟩ | ⟨s, cs, hs, hcs, rfl, -⟩
  · exact Client.steady_iterate (iterating h hc).1
  · exact (h s hs).calls hcs

theorem IsSteady.run {t : Terminal} (h : t.IsSteady) (ms : List TerminalMove) :
    (t.run ms).IsSteady := by
  induction ms generalizing t with
  | nil => exact h
  | cons m ms ih => exact ih (h.move m)

theorem identity?_of_session? {t : Terminal} {s : Session Loopback} (h : t.session? = some s) :
    t.identity? = s.identity := by
  rw [identity?, h]
  rfl

/-- A move that leaves a connection binds an identity or carries the one over that was bound. -/
theorem identity?_of_online {t : Terminal} (h : t.IsSteady) {m : TerminalMove}
    {s' : Session Loopback} (hs' : (t.move m).session? = some s') :
    (t.move m).identity? = (t.binds? m).or t.identity? := by
  rw [identity?_of_session? hs']
  rcases session?_move hs' with ⟨c, hc, hbinds, rfl⟩ | ⟨s, cs, hs, -, -, hcalls⟩
  · rw [c.identity_iterate, (iterating h hc).2, hbinds]
    rfl
  · rw [hcalls, identity?_of_session? hs]

/-- A move binds an identity, or carries the one over that was bound, or leaves no connection. -/
theorem identity?_move {t : Terminal} (h : t.IsSteady) (m : TerminalMove) :
    (t.move m).identity? = none ∨ (t.move m).identity? = (t.binds? m).or t.identity? := by
  cases hs' : (t.move m).session? with
  | none =>
    left
    rw [identity?, hs']
    rfl
  | some s' => exact .inr (identity?_of_online h hs')

theorem identity?_run {t : Terminal} (h : t.IsSteady) (ms : List TerminalMove) :
    (t.run ms).identity? = none ∨
      (t.run ms).identity? = (t.lastBound? ms).or t.identity? := by
  induction ms generalizing t with
  | nil => exact .inr rfl
  | cons m ms ih =>
    rcases ih (h.move m) with hnone | hlater
    · exact .inl hnone
    · have hrun : (t.run (m :: ms)).identity? =
          ((t.move m).lastBound? ms).or (t.move m).identity? := hlater
      rw [hrun, lastBound?]
      -- What a later move bound counts more than what this one did.
      cases (t.move m).lastBound? ms with
      | some e => exact .inr rfl
      | none => exact identity?_move h m

theorem steady_new (account : Account)
    (factory : String → UInt16 → Except TransportError Loopback) :
    (Terminal.new account factory).IsSteady := by
  intro s hs
  cases hs

/-- A session that enters the handshake has an identity, the one that was bound last. -/
theorem identity_of_entering {fresh : Terminal} (h : fresh.IsSteady) (hnew : fresh.identity? = none)
    {moves : List TerminalMove} {m : TerminalMove} {c : Client Loopback}
    (hc : (fresh.run moves).iterating? m = some c) (henters : c.Enters) :
    ∃ e, c.session.identity = some e ∧ fresh.lastBound? moves = some e := by
  obtain ⟨hsteady, hidentity⟩ := iterating (h.run moves) hc
  obtain ⟨u, hu, hphase⟩ := Client.enters_iff.mp henters
  have hconnected := Client.connected_of_entering hu hphase
  cases hbound : c.session.identity with
  | none =>
    rcases hsteady.identified hbound with hdefault | herror
    · cases hconnected.symm.trans hdefault
    · cases hconnected.symm.trans herror
  | some e =>
    have ht : (fresh.run moves).identity? = some e := hidentity.symm.trans hbound
    refine ⟨e, rfl, ?_⟩
    rcases identity?_run h moves with hnone | hlast
    · cases hnone.symm.trans ht
    · rw [ht, hnew, Option.or_none] at hlast
      exact hlast.symm

/-- In every run of a terminal, whenever a session enters the handshake, it queues exactly one first
handshake, sent by the user who is signed in at that moment and with the card and the visa of that
user, and none if nobody is signed in. The session has an identity then, the one that the last login
bound, whatever resets and reconnections came in between. So the handshake speaks for the bound
identity just if that login bound the user who is signed in now. -/
theorem handshakes_from_user (account : Account)
    (factory : String → UInt16 → Except TransportError Loopback) (moves : List TerminalMove)
    (m : TerminalMove) :
    let fresh := Terminal.new account factory
    ∀ c, (fresh.run moves).iterating? m = some c → c.Enters →
      c.Greets ∧
      (c.account.user = none → ∀ e ∈ c.newcomers .iterate, e.IsPlain c.account.codec) ∧
      (∃ e, c.session.identity = some e ∧ fresh.lastBound? moves = some e) ∧
      ∀ user, c.account.user = some user →
        (c.greeting user).sender = user.id ∧ (c.greeting user).card = some user.card ∧
          (c.greeting user).visa = some user.visa ∧
          (c.session.identity = some (c.greeting user).sender ↔
            fresh.lastBound? moves = some user.id) := by
  intro fresh c hc henters
  have hfresh : fresh.IsSteady := steady_new account factory
  have hsound := (iterating (hfresh.run moves) hc).1.queue
  have hbound := identity_of_entering hfresh rfl hc henters
  refine ⟨henters.greets hsound, Client.plain_of_nobody hsound, hbound, ?_⟩
  intro user _
  obtain ⟨e, hidentity, hlast⟩ := hbound
  rw [hidentity, hlast]
  exact ⟨rfl, rfl, rfl, Iff.rfl⟩

def lone : Terminal :=
  .new (Client.Query.signedIn Client.Query.signedOut).account fun _ _ => .ok .auto

/-- A login as the signed-in user, and then a connection to another station. -/
def carriedOver : List TerminalMove :=
  [.connect "127.0.0.1" 9394, .login none, .iterate, .connect "127.0.0.1" 9395, .iterate]

/-- A login as somebody else. -/
def estranged : List TerminalMove :=
  [.connect "127.0.0.1" 9394, .login (some ⟨"bob", "moky", .user⟩), .iterate, .iterate]

theorem handshakes_from_user_carriedOver :
    let alice : Entity := ⟨"alice", "moky", .user⟩
    ∃ c, (lone.run carriedOver).iterating? .iterate = some c ∧ c.Enters ∧ c.Greets ∧
      c.session.identity = some alice ∧
      ∃ user, c.account.user = some user ∧ (c.greeting user).sender = alice := by
  intro alice
  obtain ⟨c, hc⟩ : ∃ c, (lone.run carriedOver).iterating? .iterate = some c :=
    Option.isSome_iff_exists.mp (by decide +kernel)
  have hentering : ((lone.run carriedOver).iterating? .iterate).all
      (fun c => decide (c.Enters ∧ c.account.user.map LocalUser.id = some alice)) = true := by
    decide +kernel
  rw [hc] at hentering
  obtain ⟨henters, huser⟩ := of_decide_eq_true hentering
  obtain ⟨user, huser, hid⟩ := Option.map_eq_some_iff.mp huser
  obtain ⟨hgreets, -, -, hsender⟩ := handshakes_from_user _ _ carriedOver .iterate c hc henters
  obtain ⟨hsender, -, -, hagree⟩ := hsender user huser
  have hbound : lone.lastBound? carriedOver = some alice := by decide +kernel
  have hidentity := hagree.mpr (hid ▸ hbound)
  rw [hsender.trans hid] at hidentity
  exact ⟨c, hc, henters, hgreets, hidentity, user, huser, hsender.trans hid⟩

/-- Who logs in as somebody else still greets the station in the own name. -/
theorem not_every_handshake_from_identity :
    ¬ ∀ (account : Account) (factory : String → UInt16 → Except TransportError Loopback)
        (moves : List TerminalMove) (m : TerminalMove) (c : Client Loopback),
      ((Terminal.new account factory).run moves).iterating? m = some c → c.Enters →
      ∀ e ∈ c.newcomers .iterate,
        (∃ greeting : Message, greeting.IsGreeting ∧
          c.account.codec.Packs greeting e.message e.shipment) →
        c.session.identity = some e.message.sender := by
  intro h
  obtain ⟨c, hc⟩ : ∃ c, (lone.run estranged).iterating? .iterate = some c :=
    Option.isSome_iff_exists.mp (by decide +kernel)
  have hall : ((lone.run estranged).iterating? .iterate).all (fun c => decide (c.Enters ∧
      c.account.user.isSome ∧ ∀ user ∈ c.account.user,
        c.session.identity ≠ some user.id ∧
        (c.account.codec.encode (c.greeting user)).toOption.isSome ∧
        (c.greeting user).ref.id ∉ c.session.queue.reserved)) = true := by
    decide +kernel
  rw [hc] at hall
  obtain ⟨henters, hsigned, huser⟩ := of_decide_eq_true hall
  obtain ⟨user, hsome⟩ := Option.isSome_iff_exists.mp hsigned
  obtain ⟨hother, hencoded, hfree⟩ := huser user hsome
  obtain ⟨b, hb⟩ : ∃ b, c.account.codec.encode (c.greeting user) = .ok b := by
    cases hencode : c.account.codec.encode (c.greeting user) with
    | ok b => exact ⟨b, rfl⟩
    | error cause =>
      rw [hencode] at hencoded
      cases hencoded
  have hsteady := (iterating ((steady_new _ _).run estranged) hc).1
  obtain ⟨hgreeting, others, -, hnewcomers⟩ := henters.greets hsteady.queue user b hsome hb hfree
  have hmem := hnewcomers.mem_iff.mpr List.mem_cons_self
  exact hother (h _ _ estranged .iterate c hc henters _ hmem ⟨_, hgreeting, rfl, hb⟩)

end Terminal

end Courier
