import Courier.Proofs.Client.Primitives
import Courier.Proofs.Client.Sending

/-!
# What reading is made of

To read a packet is to record what it tells and to send answers. A relation that the records keep,
and that everything sent keeps, is kept by whatever is read; one that a membership change does not
keep is still kept by every other packet.
-/

namespace Courier

/-- The session key that a command hands over. -/
def Command.sessionKey? : Command → Option String
  | .handshake .success key => key
  | _ => none

/-- The documents that a command hands over, those of somebody else left out. -/
def Command.filings : Command → List Document
  | .document did _ docs _ => docs.filter (·.did = did)
  | _ => []

namespace Client

/-- The session key that a payload hands over to a client whose handlers let it. -/
def sessionKey? {τ : Type} (c : Client τ) (payload : Bytes) : Option String :=
  match c.account.codec.decode payload with
  | .error _ => none
  | .ok m => m.content.command?.bind fun command =>
    match c.desk.handlers.get? command.tag with
    | some .standard => command.sessionKey?
    | _ => none

/-- The documents that a payload hands over to a client whose handlers let it. -/
def filings {τ : Type} (c : Client τ) (payload : Bytes) : List Document :=
  match c.account.codec.decode payload with
  | .error _ => []
  | .ok m => m.content.command?.elim [] fun command =>
    match c.desk.handlers.get? command.tag with
    | some .standard => command.filings
    | _ => []

variable {τ : Type} {R : Client τ → Client τ → Prop}

/-! ### Packets -/

section Packets

variable {c : Client τ} {payload : Bytes}

theorem doing_receive_of_error {e : CodecError}
    (h : c.account.codec.decode payload = .error e) : doing (receive payload) c = c := by
  rw [doing_eq, receive, attempt_bind, attempt_get]
  dsimp only
  rw [h]
  rfl

theorem doing_receive_of_text {m : Message}
    (hm : c.account.codec.decode payload = .ok m) (htext : m.content.command? = none) :
    doing (receive payload) c = c := by
  rw [doing_eq, receive, attempt_bind, attempt_get]
  dsimp only
  rw [hm]
  dsimp only
  rw [htext]
  rfl

/-- A packet with a command is read by letting its handler answer. -/
theorem doing_receive {m : Message} {command : Command}
    (hm : c.account.codec.decode payload = .ok m) (hcommand : m.content.command? = some command) :
    doing (receive payload) c =
      (attempt (dispatch c.desk.handlers m command >>= sendBack m.sender) c).2 := by
  rw [doing_eq, receive, attempt_bind, attempt_get]
  dsimp only
  rw [hm]
  dsimp only
  rw [hcommand]

end Packets

/-! ### What reading is made of -/

/-- A relation that holds of each of the steps that reading anything but a membership change, a
session key or a document consists of. -/
structure KeptByHandling (R : Client τ → Client τ → Prop) : Prop extends KeptBySending R where
  seen : ∀ did time, Keeps R (observe ⟨did, .document⟩ time : Action τ MessengerError Bool)
  card : ∀ c id card, R c (c.modifyDirectory (·.saveCard id card))

/-- A relation that holds of each of the steps that reading anything but a session key or a document
consists of. -/
structure KeptByReading (R : Client τ → Client τ → Prop) : Prop extends KeptByHandling R where
  history : ∀ group m, Keeps R (acceptHistory group m : Action τ MessengerError Bool)
  roster : ∀ {ε : Type} group members, Keeps R (saveMembers group members : Action τ ε Bool)

namespace KeptByHandling

variable (h : KeptByHandling R)
include h

theorem handleHandshake {title : HandshakeTitle} {key : Option String}
    (hkey : ∀ k, (Command.handshake title key).sessionKey? = some k →
      ∀ c, R c { c with session := (c.session.setKey (some k)).2 }) :
    Keeps R (handleHandshake title key : Action τ MessengerError Unit) := by
  unfold Client.handleHandshake
  split
  · exact h.restart _
  · exact hkey _ rfl
  · exact Keeps.pure h.toComposes _

theorem saveCard (id : Entity) (card : Option Card) :
    Keeps R (saveCard id card : Action τ MessengerError Unit) := by
  cases card with
  | none => exact Keeps.pure h.toComposes _
  | some card =>
    intro c
    exact h.card c id card

theorem saveDocuments {did : Entity} {docs : List Document}
    (hfiled : ∀ doc ∈ docs, doc.did = did →
      ∀ c, R c (c.modifyDirectory fun d => (d.saveDocument doc).2)) :
    Keeps R (saveDocuments did docs : Action τ MessengerError Unit) := by
  induction docs with
  | nil => exact Keeps.pure h.toComposes _
  | cons doc rest ih =>
    obtain ⟨hdoc, hrest⟩ := List.forall_mem_cons.mp hfiled
    unfold Client.saveDocuments
    dsimp only
    split
    · refine Keeps.bind h.toComposes (h.seen did _) fun _ => ?_
      exact Keeps.bind h.toComposes (hdoc ‹_›) fun _ => ih hrest
    · exact ih hrest

theorem handleQuery (group : Entity) (m : Message) :
    Keeps R (handleQuery group m : Action τ MessengerError (List Content)) := by
  refine Keeps.bind h.toComposes (Keeps.directory h.toComposes) fun d => ?_
  dsimp only
  split
  · refine Keeps.bind h.toComposes (h.inquiring.queryMembers group) fun _ => ?_
    exact Keeps.pure h.toComposes _
  · split
    · exact Keeps.bind h.toComposes (h.newContent _) fun _ => Keeps.pure h.toComposes _
    · exact Keeps.bind h.toComposes (h.newContent _) fun _ => Keeps.pure h.toComposes _

theorem handleStandard (m : Message) {command : Command} (hcommand : command.membership? = none)
    (hkey : ∀ k, command.sessionKey? = some k →
      ∀ c, R c { c with session := (c.session.setKey (some k)).2 })
    (hfiled : ∀ doc ∈ command.filings,
      ∀ c, R c (c.modifyDirectory fun d => (d.saveDocument doc).2)) :
    Keeps R (handleStandard m command : Action τ MessengerError (List Content)) := by
  have hdone : Keeps R (pure [] : Action τ MessengerError (List Content)) :=
    Keeps.pure h.toComposes _
  cases command with
  | handshake title key => exact Keeps.bind h.toComposes (h.handleHandshake hkey) fun _ => hdone
  | login did agent station =>
    have hseen := Keeps.bind h.toComposes (h.seen did m.content.time) fun _ =>
      Keeps.pure (ε := MessengerError) h.toComposes ()
    exact Keeps.bind h.toComposes hseen fun _ => hdone
  | report title => exact hdone
  | receipt text origin => exact hdone
  | card did card => exact Keeps.bind h.toComposes (h.saveCard did card) fun _ => hdone
  | document did card docs held =>
    refine Keeps.bind h.toComposes (h.saveCard did card) fun _ => ?_
    refine Keeps.bind h.toComposes (h.saveDocuments fun doc hdoc hdid => ?_) fun _ => hdone
    exact hfiled doc (List.mem_filter.mpr ⟨hdoc, decide_eq_true hdid⟩)
  | group command =>
    cases command with
    | query group held => exact h.handleQuery group m
    | invite group named => cases hcommand
    | expel group named => cases hcommand
    | quit group => cases hcommand

theorem sendBack (receiver : Entity) (contents : List Content) :
    Keeps R (sendBack receiver contents : Action τ MessengerError Nat) := by
  induction contents with
  | nil => exact Keeps.pure h.toComposes _
  | cons content rest ih =>
    refine Keeps.bind h.toComposes (h.sendContent _ _ _ _) fun queued => ?_
    exact Keeps.bind h.toComposes ih fun more => Keeps.pure h.toComposes _

/-- Whatever handlers there are, only the one of the protocol does more than to answer. -/
theorem dispatch {m : Message} {command : Command} {handlers : Handlers}
    (hstandard : handlers.get? command.tag = some .standard →
      Keeps R (Client.handleStandard m command : Action τ MessengerError (List Content))) :
    Keeps R (dispatch handlers m command) := by
  unfold Client.dispatch
  split
  · exact Keeps.pure h.toComposes _
  · exact hstandard ‹_›
  · exact Keeps.pure h.toComposes _
  · exact Keeps.throw h.toComposes _

end KeptByHandling

namespace KeptByReading

variable (h : KeptByReading R)
include h

theorem handleInvite (group : Entity) (named : List Entity) (m : Message) :
    Keeps R (handleInvite group named m : Action τ MessengerError Unit) := by
  refine Keeps.bind h.toComposes (Keeps.directory h.toComposes) fun d => ?_
  dsimp only
  split
  · refine Keeps.bind h.toComposes (h.history group m) fun accepted => ?_
    split
    · split
      · exact Keeps.bind h.toComposes (h.roster group _) fun _ => Keeps.pure h.toComposes _
      · exact Keeps.pure h.toComposes _
    · exact Keeps.pure h.toComposes _
  · exact Keeps.pure h.toComposes _

theorem handleExpel (group : Entity) (named : List Entity) (m : Message) :
    Keeps R (handleExpel group named m : Action τ MessengerError Unit) := by
  refine Keeps.bind h.toComposes (Keeps.directory h.toComposes) fun d => ?_
  dsimp only
  split
  · refine Keeps.bind h.toComposes (h.history group m) fun accepted => ?_
    split
    · split
      · exact Keeps.bind h.toComposes (h.roster group _) fun _ => Keeps.pure h.toComposes _
      · exact Keeps.pure h.toComposes _
    · exact Keeps.pure h.toComposes _
  · exact Keeps.pure h.toComposes _

theorem handleQuit (group : Entity) (m : Message) :
    Keeps R (handleQuit group m : Action τ MessengerError Unit) := by
  refine Keeps.bind h.toComposes (Keeps.directory h.toComposes) fun d => ?_
  dsimp only
  split
  · refine Keeps.bind h.toComposes (h.history group m) fun accepted => ?_
    split
    · exact Keeps.bind h.toComposes (h.roster group _) fun _ => Keeps.pure h.toComposes _
    · exact Keeps.pure h.toComposes _
  · exact Keeps.pure h.toComposes _

theorem handleStandard (m : Message) {command : Command}
    (hkey : ∀ k, command.sessionKey? = some k →
      ∀ c, R c { c with session := (c.session.setKey (some k)).2 })
    (hfiled : ∀ doc ∈ command.filings,
      ∀ c, R c (c.modifyDirectory fun d => (d.saveDocument doc).2)) :
    Keeps R (handleStandard m command : Action τ MessengerError (List Content)) := by
  have hdone : Keeps R (pure [] : Action τ MessengerError (List Content)) :=
    Keeps.pure h.toComposes _
  cases hcommand : command.membership? with
  | none => exact h.toKeptByHandling.handleStandard m hcommand hkey hfiled
  | some change =>
    cases command with
    | group command =>
      cases command with
      | invite group named =>
        exact Keeps.bind h.toComposes (h.handleInvite group named m) fun _ => hdone
      | expel group named =>
        exact Keeps.bind h.toComposes (h.handleExpel group named m) fun _ => hdone
      | quit group => exact Keeps.bind h.toComposes (h.handleQuit group m) fun _ => hdone
      | query group held => cases hcommand
    | _ => cases hcommand

/-- The session key or the documents that a packet hands over have to be accounted for. -/
theorem receive_of {c : Client τ} {payload : Bytes}
    (hkey : ∀ k, c.sessionKey? payload = some k →
      ∀ c, R c { c with session := (c.session.setKey (some k)).2 })
    (hfiled : ∀ doc ∈ c.filings payload,
      ∀ c, R c (c.modifyDirectory fun d => (d.saveDocument doc).2)) :
    R c (doing (receive payload) c) := by
  unfold Client.sessionKey? at hkey
  unfold Client.filings at hfiled
  cases hm : c.account.codec.decode payload with
  | error e =>
    rw [doing_receive_of_error hm]
    exact h.refl c
  | ok m =>
    rw [hm] at hkey hfiled
    cases hcommand : m.content.command? with
    | none =>
      rw [doing_receive_of_text hm hcommand]
      exact h.refl c
    | some command =>
      rw [doing_receive hm hcommand]
      refine Keeps.bind h.toComposes (h.dispatch fun hhandler => ?_)
        (fun contents => h.sendBack _ contents) c
      refine h.handleStandard m (fun k hk => hkey k ?_) fun doc hdoc => hfiled doc ?_
      · simp only [hcommand, Option.bind_some, hhandler, hk]
      · simpa only [hcommand, Option.elim_some, hhandler] using hdoc

theorem receive (hkey : ∀ c k, R c { c with session := (c.session.setKey (some k)).2 })
    (hfiled : ∀ c doc, R c (c.modifyDirectory fun d => (d.saveDocument doc).2))
    (payload : Bytes) : Keeps R (receive payload : Action τ MessengerError Nat) :=
  fun _ => h.receive_of (fun k _ c => hkey c k) fun doc _ c => hfiled c doc

end KeptByReading

/-- A session key is taken, whoever hands it over, and nothing else is done. -/
theorem receive_sessionKey {c : Client τ} {payload : Bytes} {k : String}
    (h : c.sessionKey? payload = some k) :
    doing (receive payload) c = { c with session := (c.session.setKey (some k)).2 } := by
  unfold sessionKey? at h
  cases hm : c.account.codec.decode payload with
  | error e =>
    rw [hm] at h
    cases h
  | ok m =>
    rw [hm] at h
    obtain ⟨command, hcommand, h⟩ := Option.bind_eq_some_iff.mp h
    split at h
    · rename_i hhandler
      obtain rfl : command = .handshake .success (some k) := by
        unfold Command.sessionKey? at h
        split at h
        · rw [h]
        · cases h
      rw [doing_receive hm hcommand, dispatch, hhandler]
      rfl
    · cases h

end Client

end Courier
