import Courier.Proofs.Client.Questions
import Courier.Proofs.Group.Owner
import Courier.Proofs.Group.Secrecy

/-!
# Asking for a roster

Whoever has missed invitations asks the assistants of the group. An assistant that knows the roster
answers a member, or another assistant, with one invitation of everyone in it; and as an admin's
invitation it is heeded, if it is not outdated, by whoever asked. Those on either roster are then on
his.
-/

namespace Courier

/-- The group whose roster a payload asks for. -/
def Codec.question? (codec : Codec) (payload : Bytes) : Option Entity :=
  match codec.decode payload with
  | .error _ => none
  | .ok m =>
    match m.content.command? with
    | some (.group (.query group _)) => some group
    | _ => none

theorem Codec.question?_eq_some {codec : Codec} {payload : Bytes} {m : Message} {group : Entity}
    (hm : codec.decode payload = .ok m) (h : codec.question? payload = some group) :
    ∃ held, m.content.command? = some (.group (.query group held)) := by
  unfold question? at h
  rw [hm] at h
  dsimp only at h
  split at h
  · rename_i g held hcommand
    obtain rfl := Option.some.inj h
    exact ⟨held, hcommand⟩
  · cases h

namespace Client

variable {τ : Type} {c c' p : Client τ} {user bot : LocalUser} {group : Entity}
  {roster : List Entity} {out : List QueueEntry}

/-! ### What is asked -/

/-- Whatever was queued meanwhile is read as a message of the user. -/
theorem Inquires.queued {reader : Codec} {e : QueueEntry} {who : Entity}
    (h : Inquires user c c') (hu : c.account.user = some user) (hq : c.session.queue.Sound out)
    (hconveys : c.account.codec.Conveys reader) (he : e ∈ queuedFor c c' who) :
    ∃ m, reader.decode e.shipment.payload = .ok m ∧ m.sender = user.id := by
  obtain ⟨ls, hsent, hplain⟩ := h hu
  have hsince := (List.mem_filter.mp he).1
  rw [hsent.session] at hsince
  have haccepted := (DeliveryQueue.queuedSince_submitAll hq _).mem_iff.mp hsince
  obtain ⟨s, hs, -, hshipment⟩ := DeliveryQueue.mem_accepted haccepted
  obtain ⟨l, hl, rfl⟩ := List.mem_map.mp hs
  obtain ⟨hsender, hdocuments⟩ := hplain l hl
  obtain ⟨b, hb, hread⟩ := hconveys l.message hdocuments
  have hpayload : e.shipment.payload = b := by
    rw [hshipment]
    exact Except.ok.inj ((hsent.encoded l hl).symm.trans hb)
  exact ⟨l.message, hpayload ▸ hread, hsender⟩

/-! ### What is answered -/

/-- The bot is signed in, knows the roster of a group and may tell it to somebody, with a serial
number that is not in use. -/
structure CanTell (p : Client τ) (bot : LocalUser) (group who : Entity) (roster : List Entity) :
    Prop where
  user : p.account.user = some bot
  handles : p.Handles (.query group none)
  knows : p.account.directory.members? group = some roster
  listed : who ∈ roster ∨ who ∈ p.account.directory.assistants group
  unused : MessageRef.id ⟨bot.id, who, p.account.serials p.account.drawn⟩ ∉
    p.session.queue.reserved

/-- The invitation of everyone on a roster that a client sends next. -/
def invitation (p : Client τ) (bot who group : Entity) (roster : List Entity) : Message :=
  Message.new bot who ((p.nextContent (.command (.group (.invite group roster)))).inGroup group)

theorem CanTell.doing_receive {payload b : Bytes} {m : Message} {held : Option Millis}
    (h : p.CanTell bot group m.sender roster) (hsingle : m.sender.isGroup = false)
    (hm : p.account.codec.decode payload = .ok m)
    (hcommand : m.content.command? = some (.group (.query group held)))
    (hb : p.account.codec.encode (p.invitation bot.id m.sender group roster) = .ok b) :
    doing (receive payload) p =
      p.draw.submitted ⟨p.invitation bot.id m.sender group roster, b⟩ .normal := by
  have hmembers : p.account.directory.members group = roster :=
    Directory.members_of_members? h.knows
  have hknown : p.account.directory.members group ≠ [] := by
    rw [hmembers]
    exact fun hnil => Directory.members?_ne_nil (hnil ▸ h.knows)
  have htellable : p.Tellable group m.sender = true := by
    rw [Tellable, hmembers, Bool.or_eq_true, List.contains_iff_mem, List.contains_iff_mem]
    exact h.listed
  have hhandler : p.desk.handlers.get? (Command.group (.query group held)).tag = some .standard :=
    h.handles
  have hanswer : attempt (handleQuery group m) p = _ := attempt_handleQuery_of_known hknown
  have hdraw : p.draw.account.user = some bot := h.user
  rw [Client.doing_receive hm hcommand, dispatch, hhandler]
  dsimp only
  rw [handleStandard, attempt_bind, hanswer, if_pos htellable, hmembers]
  dsimp only
  rw [sendBack, attempt_bind, attempt_sendContent_single hsingle, hdraw]
  dsimp only
  rw [attempt_sendInstant]
  have hb' : p.draw.account.codec.encode (p.invitation bot.id m.sender group roster) = .ok b := hb
  rw [← invitation, hb']
  rfl

/-- The answer is the one entry that is queued. -/
theorem queuedSince_of_letter {l : Letter} (h : Sent p c' [l]) (hq : p.session.queue.Sound out)
    (hunused : l.message.ref.id ∉ p.session.queue.reserved) :
    ∃ reply, c'.session.queue.queuedSince p.session.queue.nextOrder = [reply] ∧
      reply.message = l.message.ref ∧ reply.shipment.payload = l.payload := by
  have hnormal : ∀ s ∈ [l.submission .normal p.account.clock], s.shipment.priority = .normal := by
    intro s hs
    rw [List.mem_singleton.mp hs]
    rfl
  refine ⟨p.session.queue.entry l.message.ref (l.submission .normal p.account.clock).shipment
    p.account.clock, ?_, rfl, rfl⟩
  rw [h.session]
  exact (DeliveryQueue.queuedSince_eq_accepted hq hnormal).trans
    (DeliveryQueue.accepted_cons [] hunused)

/-! ### What the answer does -/

/-- An invitation by an assistant that is as new as `time` will be heeded and stored. -/
structure Open (c : Client τ) (group bot : Entity) (time : Millis) : Prop where
  handles : c.Handles (.invite group [])
  writable : c.account.rostersWritable = true
  assisted : bot ∈ c.account.directory.assistants group
  before : c.Before group time

theorem Open.mem_receive {payload : Bytes} {time : Millis} {sender who : Entity}
    (h : c.Open group sender time) (hroster : roster ≠ [])
    (hchange : c.account.codec.change? payload = some ⟨sender, time, .invite group roster⟩) :
    who ∈ (doing (receive payload) c).account.directory.members group ↔
      who ∈ c.account.directory.members group ∨ who ∈ roster := by
  have hadmin : c.account.directory.isAdmin group sender = true :=
    Directory.isAdmin_iff.mpr (.inr h.assisted)
  have haccepts : c.Accepts payload ⟨sender, time, .invite group roster⟩ :=
    ⟨hchange, h.handles, .inr (.inr hadmin), h.before⟩
  have hsome : joined (c.account.directory.members group) roster ≠ [] := by
    obtain ⟨e, he⟩ := List.exists_mem_of_ne_nil _ hroster
    exact List.ne_nil_of_mem (mem_joined.mpr (.inr he))
  have hreads : who ∈ (doing (receive payload) c).account.directory.members group ↔ _ :=
    (haccepts.took h.writable).reads who
  have hjoined : c.afterwards sender (.invite group roster) =
      joined (c.account.directory.members group) roster := rfl
  rw [hreads, hjoined, mem_joined]
  simp [hsome]

/-- Whoever asks the assistants of a group for its roster gets one invitation of everyone on it from
each that knows it and may tell, and by reading it adds them to his own roster. -/
theorem roster_query_heals {out' : List QueueEntry} {e : QueueEntry}
    (hq : c.session.queue.Sound out) (hq' : p.session.queue.Sound out')
    (hu : c.account.user = some user) (hsingle : user.id.isGroup = false)
    (hasked : c.account.codec.Conveys p.account.codec)
    (hanswered : p.account.codec.Conveys c.account.codec)
    (he : e ∈ queuedFor c (doing (queryMembers group) c) bot.id)
    (hquestion : p.account.codec.question? e.shipment.payload = some group)
    (htells : p.CanTell bot group user.id roster) :
    ∃ reply, (doing (receive e.shipment.payload) p).session.queue.queuedSince
        p.session.queue.nextOrder = [reply] ∧
      reply.message.receiver = user.id ∧
      c.account.codec.change? reply.shipment.payload =
        some ⟨bot.id, p.account.clock, .invite group roster⟩ ∧
      ∀ later : Client τ, later.account.codec = c.account.codec →
        later.Open group bot.id p.account.clock →
        let healed := (doing (receive reply.shipment.payload) later).account.directory.members group
        (∀ who, who ∈ healed ↔ who ∈ later.account.directory.members group ∨ who ∈ roster) ∧
        ((∀ who ∈ later.account.directory.members group, who ∈ roster) →
          ∀ who, who ∈ healed ↔ who ∈ roster) := by
  obtain ⟨m, hm, hsender⟩ := Inquires.queued (inquiring_inquires.queryMembers group c) hu hq hasked he
  obtain ⟨held, hcommand⟩ := Codec.question?_eq_some hm hquestion
  rw [← hsender] at htells hsingle ⊢
  let answer := p.invitation bot.id m.sender group roster
  obtain ⟨b, hb, hread⟩ := hanswered answer rfl
  have hletter : Sent p (doing (receive e.shipment.payload) p) [⟨answer, b⟩] := by
    rw [htells.doing_receive hsingle hm hcommand hb]
    exact (Sent.refl p.draw).letter rfl hb
  obtain ⟨reply, hqueued, href, hpayload⟩ := queuedSince_of_letter hletter hq' htells.unused
  have hchange : c.account.codec.change? reply.shipment.payload =
      some ⟨bot.id, p.account.clock, .invite group roster⟩ := by
    rw [hpayload, Codec.change?, hread]
    rfl
  have hroster : roster ≠ [] := fun hnil => Directory.members?_ne_nil (hnil ▸ htells.knows)
  refine ⟨reply, hqueued, by rw [href]; rfl, hchange, fun later hcodec hopen => ?_⟩
  intro healed
  have hunion (who : Entity) :
      who ∈ healed ↔ who ∈ later.account.directory.members group ∨ who ∈ roster :=
    hopen.mem_receive hroster (hcodec ▸ hchange)
  refine ⟨hunion, fun hpart who => ?_⟩
  rw [hunion]
  exact ⟨fun hmem => hmem.elim (hpart who) id, .inr⟩

end Client

/-! ### Bob has missed his own invitation -/

namespace Group

open Client

/-- Bob knows who owns and who assists the team, and nothing else of it. -/
def uninformed : Client Loopback :=
  (knowing Codec.json bob none).modifyDirectory (·.setAssistants team [dora])

/-- Dora, who assists the team, knows who is on it. -/
def informed : Client Loopback :=
  (knowing Codec.json dora (some [bob, alice, carol])).modifyDirectory (·.setAssistants team [dora])

theorem canTell_informed :
    informed.CanTell ⟨dora, ⟨"key", none⟩, Document.new dora .visa 1⟩ team bob
      [alice, bob, carol] where
  user := rfl
  handles := rfl
  knows := by decide +kernel
  listed := .inl (by decide)
  unused := fun h => nomatch h

theorem open_asked : (doing (queryMembers team) uninformed).Open team dora 1000 where
  handles := by
    rw [Handles, doing_eq, (sameGroups_of_asks (inquiring_asks.queryMembers team uninformed)).handlers]
    rfl
  writable := by decide +kernel
  assisted := by decide +kernel
  before := by
    have hnone : (doing (queryMembers team) uninformed).latest? team = none := by decide +kernel
    intro t ht
    cases hnone.symm.trans ht

theorem roster_query_heals_missed :
    let asked := doing (queryMembers team) uninformed
    asked.account.directory.members team = [alice] ∧
    ∃ e ∈ queuedFor uninformed asked dora, Codec.json.question? e.shipment.payload = some team ∧
      ∃ reply, (doing (receive e.shipment.payload) informed).session.queue.queuedSince 0 = [reply] ∧
        ∀ who, who ∈ (doing (receive reply.shipment.payload) asked).account.directory.members team ↔
          who ∈ [alice, bob, carol] := by
  intro asked
  have hmembers : asked.account.directory.members team = [alice] := by decide +kernel
  obtain ⟨e, he⟩ : ∃ e, queuedFor uninformed asked dora = [e] :=
    List.length_eq_one_iff.mp (by decide +kernel)
  have hquestion : Codec.json.question? e.shipment.payload = some team := by
    have hall : ∀ e ∈ queuedFor uninformed asked dora,
        Codec.json.question? e.shipment.payload = some team := by decide +kernel
    exact hall e (he ▸ List.mem_singleton_self e)
  have hmem : e ∈ queuedFor uninformed asked dora := he ▸ List.mem_singleton_self e
  obtain ⟨reply, hqueued, -, -, hlater⟩ := roster_query_heals (c := uninformed) (p := informed)
    (.new _) (.new _) rfl rfl Codec.conveys_json Codec.conveys_json hmem hquestion canTell_informed
  have hpart : ∀ who ∈ asked.account.directory.members team, who ∈ [alice, bob, carol] := by
    rw [hmembers]
    decide
  have hcodec : asked.account.codec = Codec.json :=
    (sameGroups_of_asks (inquiring_asks.queryMembers team uninformed)).codec
  exact ⟨hmembers, e, hmem, hquestion, reply, hqueued, (hlater asked hcodec open_asked).2 hpart⟩

end Group

end Courier
