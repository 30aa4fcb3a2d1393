import Courier.Proofs.Group.Histories
import Courier.Proofs.Group.Onlooker

/-!
# Rosters and outsiders

Whatever somebody without a part in a group sends to a client, what the client sends him does not
depend on the roster of the group. His commands for the group are passed over, his question for its
roster is refused, and what he asks of other groups is answered from what is known of those.
-/

namespace Courier

namespace Client

variable {τ : Type}

/-! ### Rules -/

theorem ShutOut.not_permits {c : Client τ} {who group : Entity} (h : ShutOut who group c)
    {command : GroupCommand} (hg : command.group = group) : ¬c.Permits who command := by
  subst hg
  have hadmin := Bool.eq_false_iff.mp h.unentitled
  cases command with
  | invite g named =>
    rintro (hnil | hlisted | hentitled)
    · exact h.known hnil
    · exact h.unlisted hlisted
    · exact hadmin hentitled
  | expel g named => exact hadmin
  | quit g => exact fun hquit => h.unlisted hquit.2
  | query g held => exact id

/-! ### Answers -/

theorem attempt_sendContent_single {receiver : Entity} (hreceiver : receiver.isGroup = false)
    (content : Content) (priority : Priority) (c : Client τ) :
    attempt (sendContent none receiver content priority) c =
      match c.account.user with
      | none => (.error .missingIdentity, c)
      | some user => attempt (sendInstant (Message.new user.id receiver content) priority) c := by
  rw [sendContent, sendContentBy, attempt_bind, attempt_senderOr_none, hreceiver]
  cases c.account.user <;> rfl

/-- Somebody is told the roster of a group when he asks for it. -/
def Tellable (c : Client τ) (group who : Entity) : Bool :=
  (c.account.directory.members group).contains who ||
    (c.account.directory.assistants group).contains who

theorem ShutOut.not_tellable {c : Client τ} {who group : Entity} (h : ShutOut who group c) :
    c.Tellable group who = false := by
  obtain ⟨-, hassistant⟩ := Bool.or_eq_false_iff.mp h.unentitled
  rw [Tellable, hassistant, Bool.or_false]
  exact Bool.eq_false_iff.mpr fun hmem => h.unlisted (List.contains_iff_mem.mp hmem)

section Query

variable {c : Client τ} {group : Entity} {m : Message}

theorem attempt_handleQuery_of_unknown (h : c.account.directory.members group = []) :
    attempt (handleQuery group m) c =
      attempt (queryMembers group >>= fun _ => pure []) c := by
  rw [handleQuery, attempt_bind, attempt_directory]
  dsimp only
  rw [h, if_pos List.isEmpty_nil]

theorem attempt_handleQuery_of_known (h : c.account.directory.members group ≠ []) :
    attempt (handleQuery group m) c =
      if c.Tellable group m.sender = true then
        (.ok [(c.nextContent (.command (.group (.invite group
          (c.account.directory.members group))))).inGroup group], c.draw)
      else
        (.ok [c.nextContent (.command (.receipt "Permission denied" (some m.content.serial)))],
          c.draw) := by
  rw [handleQuery, attempt_bind, attempt_directory]
  dsimp only
  rw [List.isEmpty_eq_false_iff.mpr h, if_neg Bool.false_ne_true, Tellable]
  split <;> rfl

end Query

namespace Onlooker

variable {c c₁ c₂ : Client τ} {last : Nat} {who group : Entity} (o : Onlooker c last who)
variable (h : Abreast c last who group c₁ c₂)
include o h

/-- A content that is made next goes back to him in both runs, or in neither. -/
theorem sendNext (body : Body) (g : Option Entity) :
    Paired (Abreast c last who group) Whatever
      (attempt (sendBack who [{ c₁.nextContent body with group := g }]) c₁.draw)
      (attempt (sendBack who [{ c₂.nextContent body with group := g }]) c₂.draw) := by
  refine Paired.bind (V := Whatever) ?_ fun _ h => .ok h trivial
  rw [attempt_sendContent_single o.single, attempt_sendContent_single o.single]
  cases hu : c₁.account.user with
  | none =>
    have hdraw : c₁.draw.account.user = none := hu
    have hdraw' : c₂.draw.account.user = none := h.fields.1.trans hu
    rw [hdraw, hdraw']
    exact .error (o.draw h)
  | some user =>
    have hdraw : c₁.draw.account.user = some user := hu
    have hdraw' : c₂.draw.account.user = some user := h.fields.1.trans hu
    rw [hdraw, hdraw']
    exact o.sendDrawn h (h.alike_next user.id who body g) rfl rfl .normal

/-- So does what a handler has ready for him. -/
theorem sendReady {contents : List Content}
    (hready : ∀ content ∈ contents, c.HasReady content.serial) :
    Paired (Abreast c last who group) Whatever (attempt (sendBack who contents) c₁)
      (attempt (sendBack who contents) c₂) := by
  induction contents generalizing c₁ c₂ with
  | nil => exact .ok h trivial
  | cons content rest ih =>
    refine Paired.bind (V := Whatever) ?_ fun _ h => ?_
    · have hcodec := h.left.fields.2.2.1
      have hcodec' := h.right.fields.2.2.1
      rw [attempt_sendContent_single o.single, attempt_sendContent_single o.single, h.fields.1]
      cases c₁.account.user with
      | none => exact .error h
      | some user =>
        dsimp only
        rw [attempt_sendInstant, attempt_sendInstant, hcodec, hcodec']
        cases hb : c.account.codec.encode (Message.new user.id who content) with
        | error e => exact .error h
        | ok b => exact .ok (h.ready (hready content List.mem_cons_self) hb .normal) trivial
    · refine (ih h fun x hx => hready x (List.mem_cons_of_mem content hx)).bind fun _ h => ?_
      exact .ok h trivial

theorem answerQuery {m : Message} (hsender : m.sender = who) (g : Entity) :
    Abreast c last who group (attempt (handleQuery g m >>= sendBack m.sender) c₁).2
      (attempt (handleQuery g m >>= sendBack m.sender) c₂).2 := by
  by_cases hknown : c₁.account.directory.members g = []
  · have hknown' : c₂.account.directory.members g = [] := by
      rw [← List.isEmpty_iff, h.isEmpty_members g, hknown]
      rfl
    rw [attempt_bind, attempt_bind, attempt_handleQuery_of_unknown hknown,
      attempt_handleQuery_of_unknown hknown', ← attempt_bind, ← attempt_bind]
    refine Paired.clients (V := Whatever) ?_
    -- Whoever else is asked meanwhile, there is no answer yet.
    refine Paired.bind (V := fun x y => x = [] ∧ y = []) ?_ ?_
    · refine (o.queryMembers h g).bind fun _ h => ?_
      exact .ok h ⟨rfl, rfl⟩
    · rintro _ _ c₃ c₄ ⟨rfl, rfl⟩ h
      exact .ok h trivial
  · have hknown' : c₂.account.directory.members g ≠ [] := by
      rw [← List.isEmpty_eq_false_iff, h.isEmpty_members g, List.isEmpty_eq_false_iff]
      exact hknown
    rw [attempt_bind, attempt_bind, attempt_handleQuery_of_known hknown,
      attempt_handleQuery_of_known hknown', hsender]
    by_cases hg : g = group
    · rw [hg, h.shut.not_tellable, h.shut'.not_tellable, if_neg Bool.false_ne_true,
        if_neg Bool.false_ne_true]
      exact (o.sendNext h _ none).clients
    · have htellable : c₂.Tellable g who = c₁.Tellable g who := by
        rw [Tellable, ← h.same.members hg, ← h.same.assistants g, Tellable]
      rw [htellable, ← h.same.members hg]
      cases c₁.Tellable g who with
      | true => exact (o.sendNext h _ (some g)).clients
      | false => exact (o.sendNext h _ none).clients

theorem restart (key : String) :
    Abreast c last who group (attempt (handshake (some key)) c₁).2
      (attempt (handshake (some key)) c₂).2 := by
  unfold handshake
  rw [attempt_bind, attempt_bind, attempt_currentUser, attempt_currentUser, h.fields.1]
  cases hu : c₁.account.user with
  | none => exact h
  | some user =>
    dsimp only
    rw [attempt_bind, attempt_bind, attempt_get, attempt_get]
    dsimp only
    rw [attempt_bind, attempt_bind, attempt_newContent, attempt_newContent, h.left.station,
      h.right.station]
    dsimp only
    refine Paired.clients (V := Whatever) ?_
    refine Paired.bind (V := Whatever) ?_ fun _ h => .ok h trivial
    exact o.sendDrawn h (h.alike_next user.id c.session.station _ none) rfl rfl .handshake

end Onlooker

/-! ### What he tells -/

namespace Abreast

variable {c c₁ c₂ : Client τ} {last : Nat} {who group : Entity}
variable (h : Abreast c last who group c₁ c₂)
include h

/-- Somebody who is shut out of the group changes no roster of it, and any other in both runs. -/
theorem take {m : Message} (hsender : m.sender = who) (command : GroupCommand) :
    Abreast c last who group (attempt (take m command) c₁).2 (attempt (take m command) c₂).2 := by
  by_cases hg : command.group = group
  · have hforbids : ¬c₁.Permits m.sender command := by
      rw [hsender]
      exact h.shut.not_permits hg
    have hforbids' : ¬c₂.Permits m.sender command := by
      rw [hsender]
      exact h.shut'.not_permits hg
    rw [take_of_not_permits hforbids, take_of_not_permits hforbids']
    exact h
  · have hmembers := h.same.members hg
    have hpermits : c₁.Permits m.sender command ↔ c₂.Permits m.sender command :=
      permits_congr hmembers (h.same.isAdmin _ _)
    have hlatest : c₂.latest? command.group = c₁.latest? command.group := by
      rw [latest?, ← h.same.recent, latest?]
    by_cases hp : c₁.Permits m.sender command
    · by_cases hbefore : c₁.Before command.group m.content.time
      · have hbefore' : c₂.Before command.group m.content.time := by
          rwa [Before, hlatest]
        rw [take_of_permits hp, take_of_permits (hpermits.mp hp),
          attempt_carryOut_of_before hbefore, attempt_carryOut_of_before hbefore', afterwards,
          afterwards, ← hmembers, h.fields.2.2.2.2]
        have hnoted := h.observe ⟨command.group, .history⟩ m.content.time
        split
        · exact hnoted.saveMembers hg _
        · exact hnoted
      · obtain ⟨t, ht, hle⟩ : ∃ t, c₁.latest? command.group = some t ∧ m.content.time ≤ t := by
          simpa [Before] using hbefore
        rw [take_late ht hle, take_late (hlatest.trans ht) hle]
        exact h
    · rw [take_of_not_permits hp, take_of_not_permits (mt hpermits.mpr hp)]
      exact h

theorem handleCard (id : Entity) (card : Option Card) :
    Abreast c last who group (attempt (Client.saveCard id card) c₁).2
      (attempt (Client.saveCard id card) c₂).2 := by
  cases card with
  | none => exact h
  | some card => exact h.saveCard id card

theorem handleDocuments (did : Entity) (docs : List Document) :
    Abreast c last who group (attempt (saveDocuments did docs) c₁).2
      (attempt (saveDocuments did docs) c₂).2 := by
  induction docs generalizing c₁ c₂ with
  | nil => exact h
  | cons doc rest ih =>
    unfold saveDocuments
    dsimp only
    split
    · exact ih ((h.observe ⟨did, .document⟩ doc.time).saveDocument doc)
    · exact ih h

end Abreast

/-! ### Packets -/

namespace Onlooker

variable {c c₁ c₂ : Client τ} {last : Nat} {who group : Entity} (o : Onlooker c last who)
variable (h : Abreast c last who group c₁ c₂)
include o h

theorem handleHandshake (title : HandshakeTitle) (key : Option String) :
    Abreast c last who group (attempt (handleHandshake title key) c₁).2
      (attempt (handleHandshake title key) c₂).2 := by
  unfold Client.handleHandshake
  split
  · exact o.restart h _
  · exact h.setKey _
  · exact h

theorem handleStandard {m : Message} (hsender : m.sender = who) (command : Command) :
    Abreast c last who group (attempt (handleStandard m command >>= sendBack m.sender) c₁).2
      (attempt (handleStandard m command >>= sendBack m.sender) c₂).2 := by
  have hunanswered (a : Action τ MessengerError Unit)
      (ha : Abreast c last who group (attempt a c₁).2 (attempt a c₂).2) :
      Abreast c last who group
        (attempt ((a >>= fun _ => Pure.pure []) >>= sendBack m.sender) c₁).2
        (attempt ((a >>= fun _ => Pure.pure []) >>= sendBack m.sender) c₂).2 := by
    rw [attempt_unanswered, attempt_unanswered]
    exact ha
  cases command with
  | handshake title key => exact hunanswered _ (o.handleHandshake h title key)
  | login did agent station => exact hunanswered _ (h.observe ⟨did, .document⟩ m.content.time)
  | report title => exact h
  | receipt text origin => exact h
  | card did card => exact hunanswered _ (h.handleCard did card)
  | document did card docs held =>
    have hassoc : Client.handleStandard m (.document did card docs held) =
        (saveCard did card >>= fun _ => saveDocuments did docs) >>= fun _ =>
          (Pure.pure [] : Action τ MessengerError (List Content)) := (bind_assoc _ _ _).symm
    rw [hassoc]
    apply hunanswered
    cases card with
    | none => exact h.handleDocuments did docs
    | some card => exact (h.saveCard did card).handleDocuments did docs
  | group command =>
    cases command with
    | query g held => exact o.answerQuery h hsender g
    | invite g named => exact hunanswered _ (h.take hsender (.invite g named))
    | expel g named => exact hunanswered _ (h.take hsender (.expel g named))
    | quit g => exact hunanswered _ (h.take hsender (.quit g))

theorem dispatch {m : Message} (hsender : m.sender = who) (command : Command) :
    Abreast c last who group
      (attempt (dispatch c.desk.handlers m command >>= sendBack m.sender) c₁).2
      (attempt (dispatch c.desk.handlers m command >>= sendBack m.sender) c₂).2 := by
  unfold Client.dispatch
  split
  · exact h
  · exact o.handleStandard h hsender command
  · rename_i contents hcontents
    rw [hsender]
    refine (o.sendReady h fun content hcontent => ?_).clients
    exact ⟨_, contents, hcontents, content, hcontent, rfl⟩
  · exact h

/-- A packet from somebody who is shut out leaves the runs abreast. -/
theorem receive {payload : Bytes}
    (hsender : ∀ m, c.account.codec.decode payload = .ok m → m.sender = who) :
    Abreast c last who group (doing (receive payload) c₁) (doing (receive payload) c₂) := by
  have hcodec := h.left.fields.2.2.1
  have hcodec' := h.right.fields.2.2.1
  cases hm : c.account.codec.decode payload with
  | error e =>
    rw [doing_receive_of_error (hcodec ▸ hm), doing_receive_of_error (hcodec' ▸ hm)]
    exact h
  | ok m =>
    cases hcommand : m.content.command? with
    | none =>
      rw [doing_receive_of_text (hcodec ▸ hm) hcommand,
        doing_receive_of_text (hcodec' ▸ hm) hcommand]
      exact h
    | some command =>
      rw [doing_receive (hcodec ▸ hm) hcommand, doing_receive (hcodec' ▸ hm) hcommand,
        h.left.handlers, h.right.handlers]
      exact o.dispatch h (hsender m hm) command

theorem readAll {payloads : List Bytes}
    (hsender : ∀ p ∈ payloads, ∀ m, c.account.codec.decode p = .ok m → m.sender = who) :
    Abreast c last who group (c₁.readAll payloads) (c₂.readAll payloads) := by
  induction payloads generalizing c₁ c₂ with
  | nil => exact h
  | cons p ps ih =>
    have hp := o.receive h (hsender p List.mem_cons_self)
    exact ih hp fun q hq => hsender q (List.mem_cons_of_mem p hq)

end Onlooker

/-! ### Rosters that are not told -/

/-- The same client with other rosters at hand. -/
def withRosters (c : Client τ) (rosters : Table Entity (List Entity)) : Client τ :=
  c.modifyDirectory fun d => { d with rosters := rosters }

/-- Two clients that know different rosters of a group send the same to somebody who is in neither
and has no say in the group, whatever he sends them. -/
theorem rosters_hidden {c : Client τ} {out : List QueueEntry} {group who : Entity}
    {rosters : Table Entity (List Entity)} {payloads : List Bytes} {last : Nat}
    (hq : c.session.queue.Sound out) (hwho : who.kind = .user ∨ who.kind = .bot)
    (hputs : c.account.codec.PutsQuestions) (hblind : c.account.codec.SerialBlind)
    (hrosters : ∀ g, g ≠ group → c.account.directory.rosters.get? g = rosters.get? g)
    (hshut : ShutOut who group c) (hshut' : ShutOut who group (c.withRosters rosters))
    (hsender : ∀ p ∈ payloads, ∀ m, c.account.codec.decode p = .ok m → m.sender = who)
    (hfresh : c.FreshUpTo last) (hlast : (c.readAll payloads).account.drawn ≤ last)
    (hlast' : ((c.withRosters rosters).readAll payloads).account.drawn ≤ last) :
    List.Forall₂ (QueueEntry.Alike c.account.codec) (queuedFor c (c.readAll payloads) who)
      (queuedFor (c.withRosters rosters) ((c.withRosters rosters).readAll payloads) who) := by
  have o : Onlooker c last who := by
    refine ⟨?_, ?_, hputs, hblind, hfresh⟩
    · rcases hwho with hkind | hkind <;> rw [Entity.isGroup, hkind] <;> rfl
    · rintro rfl
      rcases hwho with hkind | hkind <;> cases hkind
  have honward : Onward c c := .refl hq
  have hstart : Abreast c last who group c (c.withRosters rosters) := by
    refine ⟨honward, honward.learns ⟨rfl, rfl, rfl, _, _, rfl⟩, ?_, hshut, hshut', fun _ _ => ?_⟩
    · exact ⟨rfl, rfl, rfl, rfl, hrosters, rfl, rfl, fun _ _ => rfl⟩
    · exact .start hq
  have hlevel := (o.readAll hstart hsender).level hlast hlast'
  rw [queuedFor_eq, queuedFor_eq]
  exact hlevel.entries

end Client

/-! ### A roster that an assistant cannot make out -/

namespace Group

open Client

def club : Entity := ⟨"club", "moky", .group⟩

def dave : Entity := ⟨"dave", "moky", .user⟩

/-- Alice has no roster of the club, which the team and erin assist, and the key of dave alone. -/
def clubless (codec : Codec) (roster : List Entity) : Client Loopback :=
  (knowing codec alice (some roster)).modifyDirectory fun d =>
    ((d.setAssistants club [team, erin]).saveDocument
      ⟨dave, .visa, 5, Properties.empty.insert "key" (.text "ek") trivial⟩).2

/-- Erin asks alice for a roster. -/
def erinAsks (group : Entity) : Bytes :=
  let content := Content.new 5 (.command (.group (.query group none))) 900
  (Codec.json.encode (Message.new erin alice content)).toOption.getD []

def otherRosters : Table Entity (List Entity) := Table.empty.insert team [bob]

theorem shutOut_clubless (codec : Codec) : ShutOut erin team (clubless codec [dave]) := by
  have hdirectory : (clubless codec [dave]).account.directory =
      (clubless Codec.json [dave]).account.directory := rfl
  refine ShutOut.of_directory (c := clubless Codec.json [dave]) ?_ hdirectory
  exact ⟨by decide +kernel, by decide +kernel, by decide +kernel⟩

theorem shutOut_otherRosters (codec : Codec) :
    ShutOut erin team ((clubless codec [dave]).withRosters otherRosters) := by
  have hdirectory : ((clubless codec [dave]).withRosters otherRosters).account.directory =
      ((clubless Codec.json [dave]).withRosters otherRosters).account.directory := rfl
  refine ShutOut.of_directory (c := (clubless Codec.json [dave]).withRosters otherRosters) ?_
    hdirectory
  exact ⟨by decide +kernel, by decide +kernel, by decide +kernel⟩

theorem get?_otherRosters (codec : Codec) {g : Entity} (hg : g ≠ team) :
    (clubless codec [dave]).account.directory.rosters.get? g = otherRosters.get? g := by
  have hold : (clubless codec [dave]).account.directory.rosters.get? g = none :=
    (Table.get?_insert Table.empty team g [dave]).trans (if_neg hg)
  have hnew : otherRosters.get? g = none :=
    (Table.get?_insert Table.empty team g [bob]).trans (if_neg hg)
  rw [hold, hnew]

theorem freshUpTo_clubless (codec : Codec) : (clubless codec [dave]).FreshUpTo 5 where
  distinct := by
    have hserials : ∀ j < 5, ∀ i < j, 1 + i.toUInt64 ≠ 1 + j.toUInt64 := by decide
    exact fun i j _ hij hj => hserials j hj i hij
  unused := fun _ _ _ _ _ h => nomatch h
  unready := fun _ _ _ => not_hasReady_of_standard rfl _

theorem sender_erinAsks {p : Bytes} (hp : p ∈ [erinAsks club, erinAsks team]) {m : Message}
    (hm : Codec.json.decode p = .ok m) : m.sender = erin := by
  have hall : ∀ p ∈ [erinAsks club, erinAsks team],
      (Codec.json.decode p).toOption.map Message.sender = some erin := by decide +kernel
  have hsender := hall p hp
  rw [hm] at hsender
  exact Option.some.inj hsender

/-- Erin is asked for the roster of the club herself, and refused that of the team. The question to
the team costs alice another serial number if she has no key of its member. -/
theorem rosters_hidden_asked :
    let c := clubless Codec.json [dave]
    let c' := c.withRosters otherRosters
    let asked := [erinAsks club, erinAsks team]
    (queuedFor c (c.readAll asked) erin).map (·.message.serial) = [2, 3] ∧
    (queuedFor c' (c'.readAll asked) erin).map (·.message.serial) = [3, 4] ∧
    List.Forall₂ (QueueEntry.Alike Codec.json) (queuedFor c (c.readAll asked) erin)
      (queuedFor c' (c'.readAll asked) erin) := by
  intro c c' asked
  have hserials : (queuedFor c (c.readAll asked) erin).map (·.message.serial) = [2, 3] := by
    decide +kernel
  have hserials' : (queuedFor c' (c'.readAll asked) erin).map (·.message.serial) = [3, 4] := by
    decide +kernel
  have hlast : (c.readAll asked).account.drawn ≤ 5 := by decide +kernel
  have hlast' : (c'.readAll asked).account.drawn ≤ 5 := by decide +kernel
  refine ⟨hserials, hserials', ?_⟩
  exact rosters_hidden (c := c) (.new _) (.inl rfl) Codec.putsQuestions_json
    Codec.serialBlind_json (fun _ => get?_otherRosters _) (shutOut_clubless _)
    (shutOut_otherRosters _) (fun _ hp _ => sender_erinAsks hp) (freshUpTo_clubless _) hlast hlast'

/-- A client whose codec refuses to ask for documents does not go on to ask erin if it has to ask
for those of the member of the team. -/
theorem not_every_roster_hidden :
    ¬ ∀ (c : Client Loopback) (group who : Entity) (rosters : Table Entity (List Entity))
      (payloads : List Bytes) (last : Nat), c.session.queue.Sound [] →
      (who.kind = .user ∨ who.kind = .bot) →
      (∀ g, g ≠ group → c.account.directory.rosters.get? g = rosters.get? g) →
      ShutOut who group c → ShutOut who group (c.withRosters rosters) →
      (∀ p ∈ payloads, ∀ m, c.account.codec.decode p = .ok m → m.sender = who) →
      c.FreshUpTo last → (c.readAll payloads).account.drawn ≤ last →
      ((c.withRosters rosters).readAll payloads).account.drawn ≤ last →
      List.Forall₂ (QueueEntry.Alike c.account.codec) (queuedFor c (c.readAll payloads) who)
        (queuedFor (c.withRosters rosters) ((c.withRosters rosters).readAll payloads) who) := by
  intro h
  have halike := h (clubless (Codec.json.refusing ["document"]) [dave]) team erin otherRosters
    [erinAsks club] 5 (.new _) (.inl rfl) (fun _ => get?_otherRosters _) (shutOut_clubless _)
    (shutOut_otherRosters _) (fun p hp _ => sender_erinAsks (List.mem_cons.mpr
      (.inl (List.mem_singleton.mp hp)))) (freshUpTo_clubless _) (by decide +kernel)
    (by decide +kernel)
  have hlength := halike.length_eq
  revert hlength
  decide +kernel

end Group

end Courier
