import Courier.Proofs.Client.Throttling
import Courier.Proofs.Session.Contacts

/-!
# How a client conducts its session

Whatever a client does and reads, it treats its session in a few ways only: it queues messages that
it has packed, takes session keys that were handed over to it, and connects. Every message but a
first handshake goes without a card. An iteration adds what the transport tells, and what it
delivers.
-/

namespace Courier

/-- The message was packed into the shipment and is known by the reference. -/
def Codec.Packs (codec : Codec) (m : Message) (ref : MessageRef) (shipment : Shipment) : Prop :=
  ref = m.ref ∧ codec.encode m = .ok shipment.payload

/-- A message without a card was packed and submitted. -/
def Submission.IsPlain (codec : Codec) (s : Submission) : Prop :=
  ∃ m, m.card = none ∧ codec.Packs m s.message s.shipment

/-- The session key that a payload hands over. -/
def Codec.sessionKey? (codec : Codec) (payload : Bytes) : Option String :=
  match codec.decode payload with
  | .error _ => none
  | .ok m => m.content.command?.bind Command.sessionKey?

/-- One of the payloads hands over the key. -/
def Codec.Opens (codec : Codec) (payloads : List Bytes) (k : String) : Prop :=
  ∃ payload ∈ payloads, codec.sessionKey? payload = some k

def Report.payload? : Report → Option Bytes
  | .received payload => some payload
  | _ => none

/-- The payload that a call gives to the client to read. -/
def ClientCall.payload? {τ : Type} : ClientCall τ → Option Bytes
  | .receive payload => some payload
  | _ => none

theorem Session.station_call {τ : Type} [Transport τ] (s : Session τ) (c : SessionCall τ) :
    (s.call c).station = s.station := by
  cases c with
  | setIdentity identity =>
    simp only [call, setIdentity]
    split <;> rfl
  | setKey key =>
    simp only [call, setKey]
    split <;> rfl
  | connect => simp only [call, connect_snd]
  | reset now =>
    simp only [call, reset_eq]
    by_cases h : s.phase = .error <;> simp [h, enter]
  | _ => rfl

theorem Session.calls_enqueue {τ : Type} [Transport τ] (s : Session τ) (ss : List Submission) :
    s.calls (ss.map .enqueue) = { s with queue := s.queue.submitAll ss } := by
  induction ss generalizing s with
  | nil => rfl
  | cons m ss ih => exact ih (s.call (.enqueue m))

namespace Client

variable {τ : Type}

def Plain (c : Client τ) (s : Submission) : Prop :=
  s.IsPlain c.account.codec ∧ s.now = c.account.clock

/-- What a client may do to its session; the keys that it takes are among those of `K`. -/
def Routine (K : String → Prop) (c : Client τ) : SessionCall τ → Prop
  | .enqueue s => c.Plain s
  | .setKey (some k) => K k
  | .connect => True
  | _ => False

theorem Routine.mono {K L : String → Prop} {c : Client τ} {call : SessionCall τ}
    (h : c.Routine K call) (hKL : ∀ k, K k → L k) : c.Routine L call := by
  cases call with
  | setKey key =>
    cases key with
    | none => exact h
    | some k => exact hKL k h
  | _ => exact h

/-- A key that is handed over is handed over whoever reads it. -/
theorem sessionKey?_codec {c : Client τ} {payload : Bytes} {k : String}
    (h : c.sessionKey? payload = some k) : c.account.codec.sessionKey? payload = some k := by
  unfold sessionKey? at h
  unfold Codec.sessionKey?
  cases hm : c.account.codec.decode payload with
  | error e =>
    rw [hm] at h
    cases h
  | ok m =>
    rw [hm] at h
    obtain ⟨command, hcommand, h⟩ := Option.bind_eq_some_iff.mp h
    split at h
    · exact Option.bind_eq_some_iff.mpr ⟨command, hcommand, h⟩
    · cases h

theorem identity_of_routine [Transport τ] {K : String → Prop} {c : Client τ} (s : Session τ)
    {call : SessionCall τ} (h : c.Routine K call) : (s.call call).identity = s.identity := by
  cases call with
  | enqueue m => rfl
  | setKey key =>
    simp only [Session.call, Session.setKey]
    split <;> rfl
  | connect => simp only [Session.call, Session.connect_snd]
  | _ => cases h

theorem machine_of_routine [Transport τ] {K : String → Prop} {c : Client τ} (s : Session τ)
    {call : SessionCall τ} (h : c.Routine K call) : (s.call call).machine = s.machine := by
  rw [Session.machine_call]
  cases call with
  | enqueue m => rfl
  | setKey key => rfl
  | connect => rfl
  | _ => cases h

theorem key_of_routine [Transport τ] {K : String → Prop} {c : Client τ} (s : Session τ)
    {call : SessionCall τ} (h : c.Routine K call) :
    (s.call call).key = s.key ∨ ∃ k, K k ∧ (s.call call).key = some k := by
  cases call with
  | enqueue m => exact .inl rfl
  | setKey key =>
    cases key with
    | none => cases h
    | some k =>
      simp only [Session.call, Session.setKey]
      split
      · exact .inl rfl
      · exact .inr ⟨k, h, rfl⟩
  | connect => exact .inl (by simp only [Session.call, Session.connect_snd])
  | _ => cases h

theorem calls_of_routine [Transport τ] {K : String → Prop} {c : Client τ} (s : Session τ)
    {cs : List (SessionCall τ)} (h : ∀ call ∈ cs, c.Routine K call) :
    (s.calls cs).station = s.station ∧ (s.calls cs).identity = s.identity ∧
      (s.calls cs).machine = s.machine ∧
      ((s.calls cs).key = s.key ∨ ∃ k, K k ∧ (s.calls cs).key = some k) := by
  induction cs generalizing s with
  | nil => exact ⟨rfl, rfl, rfl, .inl rfl⟩
  | cons call cs ih =>
    have hcall := h call List.mem_cons_self
    obtain ⟨hstation, hidentity, hmachine, hkey⟩ :=
      ih (s.call call) fun c hc => h c (List.mem_cons_of_mem call hc)
    refine ⟨hstation.trans (s.station_call call), hidentity.trans (identity_of_routine s hcall),
      hmachine.trans (machine_of_routine s hcall), ?_⟩
    rcases hkey with hsame | htaken
    · rw [Session.calls, List.foldl_cons, ← Session.calls, hsame]
      exact key_of_routine s hcall
    · exact .inr htaken

/-- What nothing that a client does by itself changes. -/
structure SameOffice (c c' : Client τ) : Prop where
  codec : c'.account.codec = c.account.codec
  clock : c'.account.clock = c.account.clock
  user : c'.account.user = c.account.user

theorem SameOffice.trans {a b c : Client τ} (h : a.SameOffice b) (h' : b.SameOffice c) :
    a.SameOffice c :=
  ⟨h'.codec.trans h.codec, h'.clock.trans h.clock, h'.user.trans h.user⟩

theorem SameOffice.plain {c c' : Client τ} (h : c.SameOffice c') {s : Submission}
    (hs : c'.Plain s) : c.Plain s := by
  unfold Plain at hs ⊢
  rwa [h.codec, h.clock] at hs

theorem SameOffice.routine {K : String → Prop} {c c' : Client τ} (h : c.SameOffice c')
    {call : SessionCall τ} (hcall : c'.Routine K call) : c.Routine K call := by
  cases call with
  | enqueue s => exact h.plain hcall
  | setKey key =>
    cases key with
    | none => exact hcall
    | some k => exact hcall
  | _ => exact hcall

/-- Between the two moments the client did to its session what it may do. -/
structure Acts [Transport τ] (K : String → Prop) (c c' : Client τ) : Prop where
  office : c.SameOffice c'
  session : ∃ cs, (∀ call ∈ cs, c.Routine K call) ∧ c'.session = c.session.calls cs

section Acts

variable [Transport τ] {K : String → Prop}

theorem acts_of_session {c c' : Client τ} (hoffice : c.SameOffice c')
    (hsession : c'.session = c.session) : Acts K c c' :=
  ⟨hoffice, [], nofun, hsession⟩

theorem composes_acts : Composes (Acts K : Client τ → Client τ → Prop) where
  refl c := acts_of_session ⟨rfl, rfl, rfl⟩ rfl
  trans := by
    rintro a b c ⟨h, cs, hcs, hb⟩ ⟨h', cs', hcs', hc⟩
    refine ⟨h.trans h', cs ++ cs', ?_, ?_⟩
    · intro call hcall
      rcases List.mem_append.mp hcall with hcall | hcall
      · exact hcs call hcall
      · exact h.routine (hcs' call hcall)
    · rw [hc, hb, Session.calls, Session.calls, Session.calls, List.foldl_append]

theorem Acts.machine {c c' : Client τ} (h : Acts K c c') :
    c'.session.machine = c.session.machine := by
  obtain ⟨-, cs, hcs, hsession⟩ := h
  rw [hsession]
  exact (calls_of_routine c.session hcs).2.2.1

theorem acts_setKey {k : String} (hk : K k) (c : Client τ) :
    Acts K c { c with session := (c.session.setKey (some k)).2 } := by
  refine ⟨⟨rfl, rfl, rfl⟩, [.setKey (some k)], ?_, rfl⟩
  intro call hcall
  rw [List.mem_singleton.mp hcall]
  exact hk

theorem acts_submitted (c : Client τ) {m : Message} {b : Bytes} (hcard : m.card = none)
    (hb : c.account.codec.encode m = .ok b) (priority : Priority) :
    Acts K c (c.submitted ⟨m, b⟩ priority) := by
  obtain ⟨haccount, -, hsession⟩ := c.submitted_fields ⟨m, b⟩ priority
  have hcalls := c.session.calls_enqueue [(⟨m, b⟩ : Letter).submission priority c.account.clock]
  refine ⟨⟨by rw [haccount], by rw [haccount], by rw [haccount]⟩, _, ?_, hsession.trans hcalls.symm⟩
  intro call hcall
  rw [List.map_singleton, List.mem_singleton] at hcall
  rw [hcall]
  exact ⟨⟨m, hcard, rfl, hb⟩, rfl⟩

theorem keptByReading_acts : KeptByReading (Acts K : Client τ → Client τ → Prop) where
  toComposes := composes_acts
  newContent _ _ := acts_of_session ⟨rfl, rfl, rfl⟩ rfl
  requestQuery _ _ := acts_of_session ⟨rfl, rfl, rfl⟩ rfl
  sendInstant _ priority hcard := Keeps.sendInstant composes_acts fun c _ hb =>
    acts_submitted c hcard hb priority
  seen _ _ _ := acts_of_session ⟨rfl, rfl, rfl⟩ rfl
  card _ _ _ := acts_of_session ⟨rfl, rfl, rfl⟩ rfl
  history _ _ _ := acts_of_session ⟨rfl, rfl, rfl⟩ rfl
  roster _ _ := Keeps.saveMembers composes_acts fun _ => acts_of_session ⟨rfl, rfl, rfl⟩ rfl

/-- A client takes no other key than the one that a packet hands over. -/
theorem acts_receive (c : Client τ) (payload : Bytes) :
    Acts (fun k => c.sessionKey? payload = some k) c (doing (receive payload) c) :=
  keptByReading_acts.receive_of (fun _ hk => acts_setKey hk) fun _ _ _ =>
    acts_of_session ⟨rfl, rfl, rfl⟩ rfl

theorem acts_markOnline : Keeps (Acts K) (markOnline : Action τ MessengerError Unit) :=
  fun _ => acts_of_session ⟨rfl, rfl, rfl⟩ rfl

theorem acts_handshakeSuccess : Keeps (Acts K) (handshakeSuccess : Action τ MessengerError Unit) :=
  Keeps.bind composes_acts keptByReading_acts.broadcastDocument fun _ => acts_markOnline

theorem acts_perform {effect : Effect} (h : effect ≠ .sendHandshake) :
    Keeps (Acts K) (perform effect : Action τ MessengerError Unit) := by
  cases effect with
  | none => exact composes_acts.refl
  | connect =>
    intro c
    rw [← doing_eq, doing_connect]
    refine ⟨⟨rfl, rfl, rfl⟩, [.connect], ?_, rfl⟩
    intro call hcall
    rw [List.mem_singleton.mp hcall]
    trivial
  | sendHandshake => exact absurd rfl h
  | broadcastDocuments => exact acts_handshakeSuccess
  | resetFreshness => exact fun _ => acts_of_session ⟨rfl, rfl, rfl⟩ rfl

end Acts

/-! ### Calls -/

/-- A call in which the client does something, other than opening a handshake. -/
def Ordinary : ClientCall τ → Prop
  | .handshake none => False
  | .post m _ => m.card = none
  | .signIn _ | .session _ | .reconnect _ _ | .wait _ => False
  | _ => True

theorem acts_call [Transport τ] (c : Client τ) {call : ClientCall τ} (h : Ordinary call) :
    Acts (c.account.codec.Opens call.payload?.toList) c (c.call call) := by
  have hkept (K : String → Prop) := keptByReading_acts (τ := τ) (K := K)
  cases call with
  | request key => exact (hkept _).requestQuery key c
  | ask q => exact (hkept _).inquiring.ask q c
  | send sender receiver content priority => exact (hkept _).sendContent _ _ _ _ c
  | post m priority => exact (hkept _).sendInstant m priority h c
  | groupSend group content => exact (hkept _).send group content c
  | groupQuery group => exact (hkept _).query group c
  | groupChange group change => exact (hkept _).change (hkept _).roster group change c
  | receive payload =>
    obtain ⟨hoffice, cs, hcs, hsession⟩ := c.acts_receive payload
    refine ⟨hoffice, cs, fun call hcall => ?_, hsession⟩
    exact (hcs call hcall).mono fun k hk =>
      ⟨payload, List.mem_singleton_self payload, sessionKey?_codec hk⟩
  | handshake key =>
    cases key with
    | none => cases h
    | some key => exact (hkept _).restart key c
  | handshakeSuccess => exact acts_handshakeSuccess c
  | broadcastDocument => exact (hkept _).broadcastDocument c
  | broadcastLogin agent => exact (hkept _).broadcastLogin agent c
  | report title => exact (hkept _).report title c
  | keepOnline =>
    have hR := (hkept (c.account.codec.Opens [])).toComposes
    refine Keeps.bind hR (Keeps.currentUser hR) (fun user => ?_) c
    dsimp only
    split
    · exact Keeps.bind hR ((hkept _).report _) fun _ => acts_markOnline
    · refine Keeps.bind hR (Keeps.get hR) fun c => ?_
      exact Keeps.bind hR ((hkept _).broadcastLogin _) fun _ => acts_markOnline
  | draw => exact acts_of_session ⟨rfl, rfl, rfl⟩ rfl
  | observe key time => exact acts_of_session ⟨rfl, rfl, rfl⟩ rfl
  | learn f => exact acts_of_session ⟨rfl, rfl, rfl⟩ rfl
  | register tag handler => exact acts_of_session ⟨rfl, rfl, rfl⟩ rfl
  | reduceMemory => exact acts_of_session ⟨rfl, rfl, rfl⟩ rfl
  | _ => cases h

/-! ### First handshakes -/

/-- The first handshake of a user, as the client makes it now. -/
def greeting (c : Client τ) (user : LocalUser) : Message :=
  let content := c.nextContent (.command (.handshake .start none))
  { Message.new user.id c.session.station (content.inGroup .everyStation) with
    card := some user.card, visa := some user.visa }

/-- What the client submits when it opens a handshake. -/
def opening (c : Client τ) : List Submission :=
  match c.account.user with
  | none => []
  | some user =>
    match c.account.codec.encode (c.greeting user) with
    | .error _ => []
    | .ok b =>
      [(⟨c.greeting user, b⟩ : Letter).submission .handshake c.account.clock]

theorem opening_of_same {c c' : Client τ} (haccount : c'.account = c.account)
    (hstation : c'.session.station = c.session.station) : c'.opening = c.opening := by
  unfold opening greeting nextContent
  rw [haccount, hstation]

theorem doing_handshake (c : Client τ) :
    c.SameOffice (doing (handshake none) c) ∧
      (doing (handshake none) c).session =
        { c.session with queue := c.session.queue.submitAll c.opening } := by
  unfold opening
  rw [doing_eq, handshake, attempt_bind, attempt_currentUser]
  cases hu : c.account.user with
  | none => exact ⟨⟨rfl, rfl, rfl⟩, rfl⟩
  | some user =>
    dsimp only
    rw [attempt_bind, attempt_get]
    dsimp only
    rw [attempt_bind, attempt_newContent]
    dsimp only
    have hgreeting : { Message.new user.id c.session.station
        ((c.nextContent (.command (.handshake .start none))).inGroup .everyStation) with
        card := some user.card, visa := some user.visa } = c.greeting user := rfl
    have hcodec : c.draw.account.codec = c.account.codec := rfl
    rw [hgreeting, attempt_bind, attempt_sendInstant, hcodec]
    cases hb : c.account.codec.encode (c.greeting user) with
    | error e => exact ⟨⟨rfl, rfl, rfl⟩, rfl⟩
    | ok b =>
      obtain ⟨haccount, -, hsession⟩ := c.draw.submitted_fields ⟨c.greeting user, b⟩ .handshake
      dsimp only [attempt_pure]
      exact ⟨⟨by rw [haccount]; rfl, by rw [haccount]; rfl, by rw [haccount]; rfl⟩, hsession⟩

theorem onlyCalls_observer [Transport τ] : (observer : Observer τ Desk).OnlyCalls where
  moved t s x := by
    by_cases h : t.effect = .sendHandshake
    · refine ⟨(opening ⟨s, x⟩).map .enqueue, ?_⟩
      rw [Session.calls_enqueue]
      simp only [observer, onPair, h, perform]
      exact (doing_handshake ⟨s, x⟩).2
    · obtain ⟨cs, -, hcs⟩ := (acts_perform h (K := fun _ => True) ⟨s, x⟩).session
      exact ⟨cs, hcs⟩
  received p s x := by
    obtain ⟨cs, -, hcs⟩ := (acts_receive ⟨s, x⟩ p.payload).session
    exact ⟨cs, hcs⟩

end Client

/-! ### Iterations -/

namespace Watched

variable {τ : Type}

/-- Between two moments of an iteration before it sends, `first` was submitted and then messages
without a card, and the keys that were taken are among those of `K`. -/
structure Conducts (K : String → Prop) (first : List Submission) (w w' : Watched τ Desk) :
    Prop where
  office : w.client.SameOffice w'.client
  station : w'.session.station = w.session.station
  identity : w'.session.identity = w.session.identity
  queue : ∃ ss, (∀ s ∈ ss, w.client.Plain s) ∧
    w'.session.queue = (w.session.queue.submitAll first).submitAll ss
  key : w'.session.key = w.session.key ∨ ∃ k, K k ∧ w'.session.key = some k

namespace Conducts

variable {K : String → Prop} {first : List Submission} {w₁ w₂ w₃ : Watched τ Desk}

theorem trans (h : Conducts K first w₁ w₂) (h' : Conducts K [] w₂ w₃) :
    Conducts K first w₁ w₃ where
  office := h.office.trans h'.office
  station := h'.station.trans h.station
  identity := h'.identity.trans h.identity
  queue := by
    obtain ⟨ss, hss, hq⟩ := h.queue
    obtain ⟨ts, hts, hq'⟩ := h'.queue
    refine ⟨ss ++ ts, ?_, ?_⟩
    · intro s hs
      rcases List.mem_append.mp hs with hs | hs
      · exact hss s hs
      · exact h.office.plain (hts s hs)
    · rw [hq', hq, DeliveryQueue.submitAll_append]
      rfl
  key := by
    rcases h'.key with hsame | htaken
    · rw [hsame]
      exact h.key
    · exact .inr htaken

theorem mono {L : String → Prop} (h : Conducts K first w₁ w₂) (hKL : ∀ k, K k → L k) :
    Conducts L first w₁ w₂ :=
  ⟨h.office, h.station, h.identity, h.queue,
    h.key.imp_right fun ⟨k, hk, htaken⟩ => ⟨k, hKL k hk, htaken⟩⟩

/-- What is the same in both is not told apart. -/
theorem of_fields (haccount : w₂.observer.account = w₁.observer.account)
    (hstation : w₂.session.station = w₁.session.station)
    (hidentity : w₂.session.identity = w₁.session.identity)
    (hqueue : w₂.session.queue = w₁.session.queue) (hkey : w₂.session.key = w₁.session.key) :
    Conducts K [] w₁ w₂ where
  office := ⟨congrArg Account.codec haccount, congrArg Account.clock haccount,
    congrArg Account.user haccount⟩
  station := hstation
  identity := hidentity
  queue := ⟨[], nofun, hqueue⟩
  key := .inl hkey

variable [Transport τ]

theorem of_acts (h : Client.Acts K w₁.client w₂.client) : Conducts K [] w₁ w₂ := by
  obtain ⟨hoffice, cs, hcs, hsession⟩ := h
  have hw : w₂.session = w₁.session.calls cs := hsession
  obtain ⟨hstation, hidentity, -, hkey⟩ := Client.calls_of_routine w₁.session hcs
  refine ⟨hoffice, hw ▸ hstation, hw ▸ hidentity,
    ⟨cs.filterMap SessionCall.submission?, ?_, ?_⟩, hw ▸ hkey⟩
  · intro s hs
    obtain ⟨call, hcall, hsubmission⟩ := List.mem_filterMap.mp hs
    have hroutine := hcs call hcall
    cases call with
    | enqueue m => exact Option.some.inj hsubmission ▸ hroutine
    | _ => cases hsubmission
  · exact (congrArg Session.queue hsession).trans (Session.queue_calls _ cs)

end Conducts

variable [Transport τ] {K : String → Prop}

/-- To apply statuses is not to do anything yet. -/
theorem Conducts.of_folded {first : List Submission} {w w' : Watched τ Desk}
    (h : Conducts K first { w with session := w.session.foldStatuses } w') :
    Conducts K first w w' := by
  obtain ⟨activity, failed, cursor, hfolded⟩ := w.session.foldStatuses_eq
  rw [hfolded] at h
  exact ⟨⟨h.office.codec, h.office.clock, h.office.user⟩, h.station, h.identity, h.queue, h.key⟩

theorem conducts_receive (w : Watched τ Desk) (p : Packet) :
    w.Conducts (w.observer.account.codec.Opens [p.payload]) []
      (w.receive Client.observer p) := by
  have hacts : Client.Acts (fun k => w.client.sessionKey? p.payload = some k) w.client
      (w.receive Client.observer p).client := w.client.acts_receive p.payload
  exact (Conducts.of_acts hacts).mono fun k hk =>
    ⟨p.payload, List.mem_singleton_self _, Client.sessionKey?_codec hk⟩

theorem conducts_receiveAll (w : Watched τ Desk) (ps : List Packet) :
    w.Conducts (w.observer.account.codec.Opens (ps.map Packet.payload)) []
      (ps.foldl (receive Client.observer) w) := by
  induction ps generalizing w with
  | nil => exact .of_fields rfl rfl rfl rfl rfl
  | cons p ps ih =>
    have hreceive := w.conducts_receive p
    have hcodec : (w.receive Client.observer p).observer.account.codec =
        w.observer.account.codec := hreceive.office.codec
    have hrest := ih (w.receive Client.observer p)
    rw [hcodec] at hrest
    refine (hreceive.mono ?_).trans (hrest.mono ?_)
    · rintro k ⟨payload, hpayload, hk⟩
      rw [List.mem_singleton.mp hpayload] at hk
      exact ⟨p.payload, List.mem_cons_self, hk⟩
    · rintro k ⟨payload, hpayload, hk⟩
      exact ⟨payload, List.mem_cons_of_mem _ hpayload, hk⟩

/-- The payloads that were handed out. -/
def heard (w : Watched τ Desk) : List Bytes :=
  w.reports.filterMap Report.payload?

theorem conducts_pump (w : Watched τ Desk) : ∃ payloads,
    (w.pump Client.observer).2.heard = w.heard ++ payloads ∧
      w.Conducts (w.observer.account.codec.Opens payloads) [] (w.pump Client.observer).2 := by
  obtain ⟨packets, hpackets⟩ : ∃ ps, ps = w.session.poll.2.takePackets.1 := ⟨_, rfl⟩
  have hpump : (w.pump Client.observer).2 = packets.foldl (receive Client.observer)
      { w with session := w.session.poll.2.takePackets.2 } := by
    rw [hpackets]
    rfl
  have hpolled : w.Conducts (w.observer.account.codec.Opens (packets.map Packet.payload)) []
      { w with session := w.session.poll.2.takePackets.2 } := by
    rw [Session.poll_snd]
    exact .of_fields rfl rfl rfl rfl rfl
  obtain ⟨cs, x, hreceived⟩ := receiveAll_eq Client.onlyCalls_observer
    { w with session := w.session.poll.2.takePackets.2 } packets
  refine ⟨packets.map Packet.payload, ?_, ?_⟩
  · rw [hpump, hreceived, heard, List.filterMap_append, List.filterMap_map]
    exact congrArg (w.heard ++ ·) (congrFun List.filterMap_eq_map packets)
  · rw [hpump]
    exact hpolled.trans
      (conducts_receiveAll { w with session := w.session.poll.2.takePackets.2 } packets)

/-- What is submitted first when an iteration makes its move. -/
def openings (now : Millis) (w : Watched τ Desk) : List Submission :=
  match w.session.evaluate? now with
  | none => []
  | some t => if t.effect = .sendHandshake then w.client.opening else []

theorem move_client {now : Millis} {w : Watched τ Desk} {t : Transition}
    (ht : w.session.evaluate? now = some t) :
    (w.move Client.observer now).client =
      Client.doing (Client.perform t.effect) ⟨w.session.enter t.target, w.observer⟩ := by
  simp only [move, ht, report, Session.commit_of_evaluate ht, act]
  rfl

theorem conducts_move (now : Millis) (w : Watched τ Desk) :
    w.Conducts K (w.openings now) (w.move Client.observer now) := by
  unfold openings
  cases ht : w.session.evaluate? now with
  | none =>
    rw [move_of_none _ ht]
    exact .of_fields rfl rfl rfl rfl rfl
  | some t =>
    let entered : Watched τ Desk := { w with session := w.session.enter t.target }
    have hentered : w.Conducts K [] entered := .of_fields rfl rfl rfl rfl rfl
    have hmove := move_client ht
    dsimp only
    by_cases heffect : t.effect = .sendHandshake
    · obtain ⟨hoffice, hsession⟩ := Client.doing_handshake entered.client
      rw [heffect] at hmove
      have hopening : entered.client.opening = w.client.opening :=
        Client.opening_of_same rfl rfl
      have hw : (w.move Client.observer now).session = { entered.session with
          queue := w.session.queue.submitAll w.client.opening } :=
        (congrArg Client.session hmove).trans (hopening ▸ hsession)
      rw [if_pos heffect]
      refine ⟨?_, ?_, ?_, ⟨[], nofun, ?_⟩, ?_⟩
      · rw [hmove]
        exact ⟨hoffice.codec, hoffice.clock, hoffice.user⟩
      · exact (congrArg Session.station hw).trans rfl
      · exact (congrArg Session.identity hw).trans rfl
      · exact congrArg Session.queue hw
      · exact .inl ((congrArg Session.key hw).trans rfl)
    · rw [if_neg heffect]
      refine hentered.trans (.of_acts ?_)
      rw [hmove]
      exact Client.acts_perform heffect _

theorem stage_move {now : Millis} {w : Watched τ Desk} {t : Transition}
    (ht : w.session.evaluate? now = some t) :
    (w.move Client.observer now).session.stage = t.target := by
  have hmove := move_client ht
  have hmachine : (w.move Client.observer now).session.machine =
      (w.session.enter t.target).machine := by
    change (w.move Client.observer now).client.session.machine = _
    rw [hmove]
    by_cases heffect : t.effect = .sendHandshake
    · rw [heffect]
      obtain ⟨-, hsession⟩ := Client.doing_handshake ⟨w.session.enter t.target, w.observer⟩
      exact (congrArg Session.machine hsession).trans rfl
    · exact (Client.acts_perform heffect (K := fun _ => True) _).machine
  rw [Session.stage, hmachine]
  rfl

/-- The client never resets its own session. -/
theorem stage_iterate (now : Millis) (w : Watched τ Desk) :
    (w.iterate Client.observer now).2.session.stage =
      ((w.session.foldStatuses.evaluate? now).map Transition.target).getD w.session.stage := by
  have hfold := (rests_foldStatuses w).stage
  by_cases hp : w.session.foldStatuses.isPaused
  · rw [Session.evaluate?_of_paused hp]
    simp only [iterate, hp, if_true]
    exact hfold
  · have hrest := (rests_move_iterate Client.onlyCalls_observer now hp).stage
    cases ht : w.session.foldStatuses.evaluate? now with
    | none =>
      rw [move_of_none _ ht] at hrest
      exact hrest.trans hfold
    | some t => exact hrest.trans (stage_move ht)

/-- Sending leaves the office alone. -/
theorem account_send (now : Millis) (w : Watched τ Desk) :
    (w.send Client.observer now).2.observer.account = w.observer.account :=
  observer_send (P := fun desk : Desk => desk.account = w.observer.account) (fun _ _ h => h)
    (fun _ _ _ h => h) now rfl

theorem heard_send (o : Observer τ Desk) (now : Millis) (w : Watched τ Desk) :
    (w.send o now).2.heard = w.heard := by
  obtain ⟨-, hreports⟩ := settles_send o now w
  have hnone : ((w.leaving now).map Exit.report).filterMap Report.payload? = [] := by
    refine List.filterMap_eq_nil_iff.mpr fun r hr => ?_
    obtain ⟨x, -, rfl⟩ := List.mem_map.mp hr
    cases x <;> rfl
  rw [heard, hreports, List.filterMap_append, hnone, List.append_nil, heard]

theorem heard_move (now : Millis) (w : Watched τ Desk) :
    (w.move Client.observer now).heard = w.heard := by
  cases ht : w.session.evaluate? now with
  | none => rw [move_of_none _ ht]
  | some t =>
    obtain ⟨cs, x, h⟩ := move_eq Client.onlyCalls_observer ht
    rw [h, heard, List.filterMap_append]
    exact List.append_nil _

/-- Until it sends, an iteration hands out some packets, takes no other keys than theirs, and
submits the first handshake if it enters the handshake. -/
theorem conducts_prepare (now : Millis) (w : Watched τ Desk) : ∃ payloads,
    (w.prepare Client.observer now).2.heard = w.heard ++ payloads ∧
      w.Conducts (w.observer.account.codec.Opens payloads)
        (openings now { w with session := w.session.foldStatuses })
        (w.prepare Client.observer now).2 := by
  unfold prepare
  dsimp only
  split
  · rename_i hpaused
    refine ⟨[], (List.append_nil _).symm, .of_folded ?_⟩
    rw [openings, Session.evaluate?_of_paused hpaused]
    exact .of_fields rfl rfl rfl rfl rfl
  · have hmove (K : String → Prop) := conducts_move (K := K) now
      { w with session := w.session.foldStatuses }
    have hheard := heard_move now { w with session := w.session.foldStatuses }
    split
    · exact ⟨[], hheard.trans (List.append_nil _).symm, .of_folded (hmove _)⟩
    · obtain ⟨payloads, hpayloads, hpump⟩ := conducts_pump
        (({ w with session := w.session.foldStatuses } : Watched τ Desk).move Client.observer now)
      have hcodec : (move Client.observer now
          { w with session := w.session.foldStatuses }).observer.account.codec =
          w.observer.account.codec := (hmove fun _ => True).office.codec
      rw [hcodec] at hpump
      exact ⟨payloads, by rw [hpayloads, hheard]; rfl, .of_folded ((hmove _).trans hpump)⟩

/-- A whole iteration takes no other keys than those of the packets that it hands out. -/
theorem key_iterate (now : Millis) (w : Watched τ Desk) : ∃ payloads,
    (w.iterate Client.observer now).2.heard = w.heard ++ payloads ∧
      w.client.SameOffice (w.iterate Client.observer now).2.client ∧
      (w.iterate Client.observer now).2.session.identity = w.session.identity ∧
      ((w.iterate Client.observer now).2.session.key = w.session.key ∨
        ∃ k, w.observer.account.codec.Opens payloads k ∧
          (w.iterate Client.observer now).2.session.key = some k) := by
  obtain ⟨payloads, hheard, hprepare⟩ := conducts_prepare now w
  refine ⟨payloads, ?_⟩
  rw [iterate_snd]
  split
  · obtain ⟨queue, hsession⟩ := session_send Client.observer now (w.prepare Client.observer now).2
    have haccount := account_send now (w.prepare Client.observer now).2
    rw [hsession, heard_send, hheard]
    exact ⟨rfl, hprepare.office.trans ⟨congrArg Account.codec haccount,
      congrArg Account.clock haccount, congrArg Account.user haccount⟩,
      hprepare.identity, hprepare.key⟩
  · exact ⟨hheard, hprepare.office, hprepare.identity, hprepare.key⟩

end Watched

namespace Client

variable {τ : Type} [Transport τ]

theorem post_fields (c : Client τ) (m : Message) (priority : Priority) :
    (c.call (.post m priority)).account = c.account ∧
      ∃ queue, (c.call (.post m priority)).session = { c.session with queue := queue } := by
  rw [call, doing_eq, attempt_sendInstant]
  cases c.account.codec.encode m with
  | error e => exact ⟨rfl, c.session.queue, rfl⟩
  | ok b =>
    obtain ⟨haccount, -, hsession⟩ := c.submitted_fields ⟨m, b⟩ priority
    exact ⟨haccount, _, hsession⟩

theorem codec_step (c : Client τ) (s : ClientStep τ) :
    (c.step s).2.account.codec = c.account.codec := by
  cases s with
  | iterate =>
    obtain ⟨payloads, -, hoffice, -⟩ :=
      Watched.key_iterate c.account.clock ⟨c.session, c.desk, []⟩
    exact hoffice.codec
  | call call =>
    by_cases h : Ordinary call
    · exact (c.acts_call h).office.codec
    · cases call with
      | handshake key =>
        cases key with
        | none => exact c.doing_handshake.1.codec
        | some key => exact absurd trivial h
      | post m priority =>
        exact congrArg Account.codec (c.post_fields m priority).1
      | _ => first | rfl | exact absurd trivial h

end Client

end Courier
