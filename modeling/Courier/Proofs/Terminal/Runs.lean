import Courier.Proofs.Client.Conduct
import Courier.Terminal

/-!
# Runs of a terminal

What a terminal does is made of moves, each of which touches the connection once. An iteration of
the session and a refreshment of the presence are moves of their own, so a run of moves may let
them happen at any time; the terminal itself lets them happen when they are due. Waiting and going
to and coming from the background are runs of several moves.
-/

namespace Courier

inductive TerminalMove where
  | connect (host : String) (port : UInt16)
  | login (named : Option Entity)
  | stop
  | reset
  | pause
  | resume
  /-- The client of the connection does something, other than opening a handshake. -/
  | call (c : ClientCall Loopback) (h : Client.Ordinary c)
  | iterate
  | keepOnline
  | skip (k : Nat)
  /-- The account changes on its own account: somebody signs in or out, the clock goes on. -/
  | account (f : Account → Account)
  /-- The transport changes on its own account. -/
  | transport (f : Loopback → Loopback)

/-- Whether a terminal makes such a move by itself. -/
def TerminalMove.IsOwn : TerminalMove → Prop
  | .account _ | .transport _ => False
  | _ => True

/-- What a terminal is asked to do. -/
inductive TerminalOperation where
  | connect (host : String) (port : UInt16)
  | login (identity : Option Entity)
  | stop
  | resetSession
  | enterBackground
  | enterForeground
  | send (sender : Option Entity) (receiver : Entity) (content : Content) (priority : Priority)
  | invite (group : Entity) (named : List Entity)
  | expel (group : Entity) (named : List Entity)
  | quit (group : Entity)
  | query (group : Entity)
  | groupSend (group : Entity) (content : Content)
  | reduceMemory
  | wait (n : Nat)
  | settle (n : Nat)

namespace Terminal

def updateConnection (f : Connection → Connection) (t : Terminal) : Terminal :=
  match t.link with
  | .offline _ => t
  | .online c => { t with link := .online (f c) }

def updateSession (f : Session Loopback → Session Loopback) (t : Terminal) : Terminal :=
  t.updateClient fun c => { c with session := f c.session }

def move (t : Terminal) : TerminalMove → Terminal
  | .connect host port => (t.connect host port).2
  | .login named => (t.login named).2
  | .stop => t.stop
  | .reset => t.resetSession.2
  | .pause => t.updateSession Session.pause
  | .resume => t.updateSession Session.resume
  | .call c _ => t.updateClient (·.call c)
  | .iterate => t.updateConnection (·.iterate t.elapsed)
  | .keepOnline => t.updateConnection (·.keepOnline t.elapsed)
  | .skip k => t.skip k
  | .account f => t.modifyAccount f
  | .transport f => t.modifyTransport f

def run (t : Terminal) (ms : List TerminalMove) : Terminal :=
  ms.foldl move t

def perform (t : Terminal) : TerminalOperation → Terminal
  | .connect host port => (t.connect host port).2
  | .login identity => (t.login identity).2
  | .stop => t.stop
  | .resetSession => t.resetSession.2
  | .enterBackground => t.enterBackground.2
  | .enterForeground => t.enterForeground.2
  | .send sender receiver content priority => (t.send sender receiver content priority).2
  | .invite group named => (t.invite group named).2
  | .expel group named => (t.expel group named).2
  | .quit group => (t.quit group).2
  | .query group => (t.query group).2
  | .groupSend group content => (t.groupSend group content).2
  | .reduceMemory => t.reduceMemory.2
  | .wait n => t.wait n
  | .settle n => t.settle n

/-- Some moves of its own lead from one terminal to the other. -/
def Reaches (t t' : Terminal) : Prop :=
  ∃ ms, (∀ m ∈ ms, TerminalMove.IsOwn m) ∧ t.run ms = t'

theorem Reaches.refl (t : Terminal) : t.Reaches t :=
  ⟨[], fun _ hm => absurd hm List.not_mem_nil, rfl⟩

theorem Reaches.trans {t₁ t₂ t₃ : Terminal} (h : t₁.Reaches t₂) (h' : t₂.Reaches t₃) :
    t₁.Reaches t₃ := by
  obtain ⟨ms, hms, rfl⟩ := h
  obtain ⟨ns, hns, rfl⟩ := h'
  refine ⟨ms ++ ns, ?_, List.foldl_append⟩
  intro m hm
  exact (List.mem_append.mp hm).elim (hms m) (hns m)

theorem reaches_move (t : Terminal) (m : TerminalMove) (h : m.IsOwn) : t.Reaches (t.move m) := by
  refine ⟨[m], ?_, rfl⟩
  intro m' hm'
  exact List.mem_singleton.mp hm' ▸ h

/-! ### What the terminal does -/

theorem act_snd {ε α : Type} (wrap : ε → TerminalError) (action : Action Loopback ε α)
    (t : Terminal) : (t.act wrap action).2 = t.updateClient (Client.doing action) := by
  unfold act updateClient
  cases t.link <;> rfl

/-- What the client does at the request of the terminal is a move. -/
theorem reaches_act {ε α : Type} (wrap : ε → TerminalError) (action : Action Loopback ε α)
    {c : ClientCall Loopback} (hordinary : Client.Ordinary c)
    (haction : ∀ client : Client Loopback, Client.doing action client = client.call c)
    (t : Terminal) : t.Reaches (t.act wrap action).2 := by
  have hmove : (t.act wrap action).2 = t.move (.call c hordinary) := by
    rw [act_snd]
    exact congrArg (updateClient · t) (funext haction)
  rw [hmove]
  exact t.reaches_move _ trivial

theorem reaches_reduceMemory (t : Terminal) : t.Reaches t.reduceMemory.2 := by
  have hmove : t.reduceMemory.2 = t.move (.call .reduceMemory trivial) := by
    unfold reduceMemory move updateClient
    cases t.link <;> rfl
  rw [hmove]
  exact t.reaches_move _ trivial

theorem reaches_report (t : Terminal) (title : ReportTitle) :
    t.Reaches (t.act .messenger (Client.report title)).2 :=
  reaches_act (c := .report title) _ _ trivial (fun _ => rfl) t

theorem reaches_rouse (t : Terminal) : t.Reaches t.rouse := by
  obtain ⟨link, past, elapsed, factory⟩ := t
  cases link with
  | offline account => exact .refl _
  | online c =>
    obtain ⟨refreshed, hrefreshed⟩ : ∃ refreshed,
        refreshed = if c.presenceAt ≤ elapsed then c.keepOnline elapsed else c := ⟨_, rfl⟩
    have hpresence : Reaches ⟨.online c, past, elapsed, factory⟩
        ⟨.online refreshed, past, elapsed, factory⟩ := by
      rw [hrefreshed]
      split
      · exact reaches_move _ .keepOnline trivial
      · exact .refl _
    refine hpresence.trans ?_
    simp only [rouse, Connection.wake, ← hrefreshed]
    split
    · exact reaches_move _ .iterate trivial
    · exact .refl _

theorem reaches_wait (t : Terminal) (n : Nat) : t.Reaches (t.wait n) := by
  induction n generalizing t with
  | zero =>
    rw [wait_zero]
    exact .refl t
  | succ n ih =>
    rw [wait_succ]
    exact t.reaches_rouse.trans ((reaches_move _ (.skip 1) trivial).trans (ih t.tick))

theorem reaches_enterBackground (t : Terminal) : t.Reaches t.enterBackground.2 := by
  unfold enterBackground
  dsimp only
  split
  · exact .refl t
  · split
    · have hreported := t.reaches_report .offline
      split
      · rename_i heq
        rwa [heq] at hreported
      · rename_i t' heq
        rw [heq] at hreported
        have hwaited := hreported.trans (t'.reaches_wait t'.reportDelay)
        exact hwaited.trans ((reaches_move _ .pause trivial).trans (reaches_rouse _))
    · exact reaches_move t .pause trivial

theorem reaches_enterForeground (t : Terminal) : t.Reaches t.enterForeground.2 := by
  unfold enterForeground
  dsimp only
  split
  · exact .refl t
  · have hresumed : t.Reaches (t.updateSession Session.resume) :=
      reaches_move t .resume trivial
    have hwaited := hresumed.trans (reaches_wait _ (t.updateSession Session.resume).reportDelay)
    refine hwaited.trans ?_
    split
    · exact (reaches_report _ .online).trans (reaches_rouse _)
    · exact reaches_rouse _

/-- Whatever a terminal is asked to do, it does in moves of its own. -/
theorem reaches_perform (t : Terminal) (op : TerminalOperation) : t.Reaches (t.perform op) := by
  cases op with
  | connect host port => exact t.reaches_move (.connect host port) trivial
  | login identity => exact t.reaches_move (.login identity) trivial
  | stop => exact t.reaches_move .stop trivial
  | resetSession => exact t.reaches_move .reset trivial
  | enterBackground => exact t.reaches_enterBackground
  | enterForeground => exact t.reaches_enterForeground
  | send sender receiver content priority =>
    exact reaches_act (c := .send sender receiver content priority) _ _ trivial (fun _ => rfl) t
  | invite group named =>
    exact reaches_act (c := .groupChange group (.invite named)) _ _ trivial (fun _ => rfl) t
  | expel group named =>
    exact reaches_act (c := .groupChange group (.expel named)) _ _ trivial (fun _ => rfl) t
  | quit group => exact reaches_act (c := .groupChange group .quit) _ _ trivial (fun _ => rfl) t
  | query group => exact reaches_act (c := .groupQuery group) _ _ trivial (fun _ => rfl) t
  | groupSend group content =>
    exact reaches_act (c := .groupSend group content) _ _ trivial (fun _ => rfl) t
  | reduceMemory => exact t.reaches_reduceMemory
  | wait n => exact t.reaches_wait n
  | settle n => exact (t.reaches_wait n).trans (reaches_rouse _)

theorem reaches_performAll (t : Terminal) (ops : List TerminalOperation) :
    t.Reaches (ops.foldl perform t) := by
  induction ops generalizing t with
  | nil => exact .refl t
  | cons op ops ih => exact (t.reaches_perform op).trans (ih (t.perform op))

end Terminal

end Courier
