import Courier.Envelope
import Courier.Proofs.Json.Readers

/-!
# Envelopes read back

Every record of the message model is read back from its printed form, from entities up to whole
messages, as long as the free members hold no non-integer numbers and nothing nests too deep.
-/

namespace Courier

def Command.documents : Command → List Document
  | .document _ _ docs _ => docs
  | _ => []

def Body.documents : Body → List Document
  | .text _ => []
  | .command c => c.documents

/-- The documents that travel in a message. -/
def Message.documents (m : Message) : List Document :=
  m.visa.toList ++ m.content.body.documents

/-- No free member of the document holds a non-integer number. -/
def Document.Whole (doc : Document) : Prop :=
  Json.FieldsWhole doc.properties.fields

theorem Message.whole_visa {m : Message} (h : ∀ doc ∈ m.documents, doc.Whole) :
    ∀ doc ∈ m.visa, doc.Whole :=
  fun doc hdoc => h doc (List.mem_append_left _ (Option.mem_toList.mpr hdoc))

theorem Message.whole_listed {m : Message} (h : ∀ doc ∈ m.documents, doc.Whole) :
    ∀ doc ∈ m.content.body.documents, doc.Whole :=
  fun doc hdoc => h doc (List.mem_append_right _ hdoc)

namespace Envelope

open Json Json.Reader

/-! ### Entities, cards and documents -/

theorem undoes_entityKind (k : EntityKind) : Undoes entityKind EntityKind.form k := by
  intro d _
  cases k <;> exact bare_text d _

theorem undoes_entity (e : Entity) : Undoes entity Entity.form e := by
  intro d hd
  obtain ⟨d, hd', hrecord⟩ := record_object ["name", "address", "kind"] 3 hd rfl (by decide)
  have hname := need_printed hd' "name" (undoes_text e.name) rfl
  have haddress := need_printed hd' "address" (undoes_text e.address) rfl
  have hkind := need_printed hd' "kind" (undoes_entityKind e.kind) rfl
  simp [entity, Entity.form, hrecord, hname, haddress, hkind]

theorem undoes_entities (es : List Entity) :
    Undoes (list entity) (fun es => .array (es.map Entity.form)) es :=
  undoes_list fun e _ => undoes_entity e

theorem undoes_maybeText (o : Option String) : Undoes (optional text) (.optional .text) o :=
  undoes_optional (fun s _ => undoes_text s) fun _ _ => nofun

theorem undoes_maybeWord (o : Option UInt64) : Undoes (optional word64) (.optional .word) o :=
  undoes_optional (fun n _ => undoes_word64 n) fun _ _ => nofun

theorem undoes_card (c : Card) : Undoes card Card.form c := by
  intro d hd
  obtain ⟨d, hd', hrecord⟩ := record_object ["public_key", "seed"] 2 hd rfl (by decide)
  have hkey := need_printed hd' "public_key" (undoes_text c.publicKey) rfl
  have hseed := maybe_printed hd' "seed" (undoes_maybeText c.seed) rfl
  simp [card, Card.form, hrecord, hkey, hseed]

theorem undoes_maybeCard (o : Option Card) : Undoes (optional card) (.optional Card.form) o :=
  undoes_optional (fun c _ => undoes_card c) fun _ _ => nofun

theorem undoes_documentKind (k : DocumentKind) : Undoes documentKind DocumentKind.form k := by
  intro d _
  cases k <;> exact bare_text d _

theorem undoes_properties {p : Properties} (h : FieldsWhole p.fields) :
    Undoes properties (fun p => .object p.fields) p := by
  intro d hd
  obtain ⟨d, rfl, hd'⟩ := depth_object_le hd
  have hcanonical := p.canonical
  rw [Canonical] at hcanonical
  have hfields : Tree.fields? d (fieldTrees p.fields) [] = some p.fields :=
    fields?_fieldTrees d [] hcanonical.1 hcanonical.2 h hd'
  rw [tree, properties, enter?, Option.bind_some]
  split
  · rename_i fs hfs
    obtain rfl := Option.some.inj (hfs.symm.trans hfields)
    rfl
  · rename_i hnone
    cases hnone.symm.trans hfields

theorem undoes_document {doc : Document} (h : doc.Whole) : Undoes document Document.form doc := by
  intro d hd
  obtain ⟨d, hd', hrecord⟩ := record_object ["did", "doc_type", "time", "properties"] 3 hd rfl
    (by decide)
  have hdid := need_printed hd' "did" (undoes_entity doc.did) rfl
  have hkind := need_printed hd' "doc_type" (undoes_documentKind doc.kind) rfl
  have htime := need_printed hd' "time" (undoes_word64 doc.time) rfl
  have hproperties := need_printed hd' "properties" (undoes_properties h) rfl
  rw [Document.form]
  generalize printed d _ = m at hrecord hdid hkind htime hproperties
  obtain ⟨t, hlookup, ht⟩ := Option.bind_eq_some_iff.mp hproperties
  simp [document, hrecord, hdid, hkind, htime, hlookup, ht]

/-! ### Commands -/

theorem undoes_handshakeTitle (t : HandshakeTitle) :
    Undoes handshakeTitle HandshakeTitle.form t := by
  intro d _
  cases t <;> exact bare_text d _

theorem undoes_reportTitle (t : ReportTitle) : Undoes reportTitle ReportTitle.form t := by
  intro d _
  cases t <;> exact bare_text d _

theorem undoes_stationInfo (s : StationInfo) : Undoes stationInfo StationInfo.form s := by
  intro d hd
  obtain ⟨d, hd', hrecord⟩ := record_object ["did", "host", "port"] 3 hd rfl (by decide)
  have hdid := need_printed hd' "did" (undoes_entity s.did) rfl
  have hhost := need_printed hd' "host" (undoes_text s.host) rfl
  have hport := need_printed hd' "port" (undoes_word16 s.port) rfl
  simp [stationInfo, StationInfo.form, hrecord, hdid, hhost, hport]

/-- What invitations and expulsions have attached to them. -/
theorem record_roster {d : Nat} {g : Entity} {ms : List Entity}
    (hd : (object [("group", g.form), ("members", .array (ms.map Entity.form))]).depth ≤ d) :
    ∃ m, record ["group", "members"] 2 d
        (object [("group", g.form), ("members", .array (ms.map Entity.form))]).tree = some m ∧
      m.need "group" entity = some g ∧ m.need "members" (list entity) = some ms := by
  obtain ⟨d, hd', hrecord⟩ := record_object ["group", "members"] 2 hd rfl (by decide)
  exact ⟨_, hrecord, need_printed hd' "group" (undoes_entity g) rfl,
    need_printed hd' "members" (undoes_entities ms) rfl⟩

theorem undoes_groupCommand (c : GroupCommand) : Undoes groupCommand GroupCommand.form c := by
  intro d hd
  cases c with
  | invite g ms =>
    obtain ⟨d, hd, hchoice⟩ := choice_object hd
    obtain ⟨m, hrecord, hgroup, hmembers⟩ := record_roster hd
    simp [groupCommand, GroupCommand.form, hchoice, hrecord, hgroup, hmembers]
  | expel g ms =>
    obtain ⟨d, hd, hchoice⟩ := choice_object hd
    obtain ⟨m, hrecord, hgroup, hmembers⟩ := record_roster hd
    simp [groupCommand, GroupCommand.form, hchoice, hrecord, hgroup, hmembers]
  | quit g =>
    obtain ⟨d, hd, hchoice⟩ := choice_object hd
    obtain ⟨d, hd', hrecord⟩ := record_object ["group"] 1 hd rfl (by decide)
    have hgroup := need_printed hd' "group" (undoes_entity g) rfl
    simp [groupCommand, GroupCommand.form, hchoice, hrecord, hgroup]
  | query g t =>
    obtain ⟨d, hd, hchoice⟩ := choice_object hd
    obtain ⟨d, hd', hrecord⟩ := record_object ["group", "last_time"] 2 hd rfl (by decide)
    have hgroup := need_printed hd' "group" (undoes_entity g) rfl
    have htime := maybe_printed hd' "last_time" (undoes_maybeWord t) rfl
    simp [groupCommand, GroupCommand.form, hchoice, hrecord, hgroup, htime]

theorem undoes_command {c : Command} (h : ∀ doc ∈ c.documents, doc.Whole) :
    Undoes command Command.form c := by
  intro d hd
  cases c with
  | handshake title session =>
    obtain ⟨d, hd, hchoice⟩ := choice_object hd
    obtain ⟨d, hd', hrecord⟩ := record_object ["title", "session"] 2 hd rfl (by decide)
    have htitle := need_printed hd' "title" (undoes_handshakeTitle title) rfl
    have hsession := maybe_printed hd' "session" (undoes_maybeText session) rfl
    simp [command, Command.form, hchoice, hrecord, htitle, hsession]
  | login did agent station =>
    have hinfo : Undoes (optional stationInfo) (.optional StationInfo.form) station :=
      undoes_optional (fun s _ => undoes_stationInfo s) fun _ _ => nofun
    obtain ⟨d, hd, hchoice⟩ := choice_object hd
    obtain ⟨d, hd', hrecord⟩ := record_object ["did", "agent", "station"] 3 hd rfl (by decide)
    have hdid := need_printed hd' "did" (undoes_entity did) rfl
    have hagent := maybe_printed hd' "agent" (undoes_maybeText agent) rfl
    have hstation := maybe_printed hd' "station" hinfo rfl
    simp [command, Command.form, hchoice, hrecord, hdid, hagent, hstation]
  | report title =>
    obtain ⟨d, hd, hchoice⟩ := choice_object hd
    obtain ⟨d, hd', hrecord⟩ := record_object ["title"] 1 hd rfl (by decide)
    have htitle := need_printed hd' "title" (undoes_reportTitle title) rfl
    simp [command, Command.form, hchoice, hrecord, htitle]
  | card did c =>
    obtain ⟨d, hd, hchoice⟩ := choice_object hd
    obtain ⟨d, hd', hrecord⟩ := record_object ["did", "meta"] 2 hd rfl (by decide)
    have hdid := need_printed hd' "did" (undoes_entity did) rfl
    have hcard := maybe_printed hd' "meta" (undoes_maybeCard c) rfl
    simp [command, Command.form, hchoice, hrecord, hdid, hcard]
  | document did c docs held =>
    have hwhole : Undoes (list document) (fun docs => .array (docs.map Document.form)) docs :=
      undoes_list fun doc hdoc => undoes_document (h doc hdoc)
    obtain ⟨d, hd, hchoice⟩ := choice_object hd
    obtain ⟨d, hd', hrecord⟩ := record_object ["did", "meta", "documents", "last_time"] 4 hd rfl
      (by decide)
    have hdid := need_printed hd' "did" (undoes_entity did) rfl
    have hcard := maybe_printed hd' "meta" (undoes_maybeCard c) rfl
    have hdocs := need_printed hd' "documents" hwhole rfl
    have hheld := maybe_printed hd' "last_time" (undoes_maybeWord held) rfl
    simp [command, Command.form, hchoice, hrecord, hdid, hcard, hdocs, hheld]
  | receipt s origin =>
    obtain ⟨d, hd, hchoice⟩ := choice_object hd
    obtain ⟨d, hd', hrecord⟩ := record_object ["text", "origin_sn"] 2 hd rfl (by decide)
    have htext := need_printed hd' "text" (undoes_text s) rfl
    have horigin := maybe_printed hd' "origin_sn" (undoes_maybeWord origin) rfl
    simp [command, Command.form, hchoice, hrecord, htext, horigin]
  | group g =>
    obtain ⟨d, hd, hchoice⟩ := choice_object hd
    have hgroup := undoes_groupCommand g d hd
    simp [command, Command.form, hchoice, hgroup]

/-! ### Messages -/

theorem undoes_body {b : Body} (h : ∀ doc ∈ b.documents, doc.Whole) :
    Undoes body Body.form b := by
  intro d hd
  cases b with
  | text s =>
    obtain ⟨d, hd, hchoice⟩ := choice_object hd
    obtain ⟨d, hd', hrecord⟩ := record_object ["text"] 1 hd rfl (by decide)
    have htext := need_printed hd' "text" (undoes_text s) rfl
    simp [body, Body.form, hchoice, hrecord, htext]
  | command c =>
    obtain ⟨d, hd, hchoice⟩ := choice_object hd
    have hcommand := undoes_command h d hd
    simp [body, Body.form, hchoice, hcommand]

theorem undoes_content {c : Content} (h : ∀ doc ∈ c.body.documents, doc.Whole) :
    Undoes content Content.form c := by
  intro d hd
  have hentity : Undoes (optional entity) (.optional Entity.form) c.group :=
    undoes_optional (fun e _ => undoes_entity e) fun _ _ => nofun
  obtain ⟨d, hd', hrecord⟩ := record_object ["sn", "time", "group", "body"] 4 hd rfl (by decide)
  have hserial := need_printed hd' "sn" (undoes_word64 c.serial) rfl
  have htime := need_printed hd' "time" (undoes_word64 c.time) rfl
  have hgroup := maybe_printed hd' "group" hentity rfl
  have hbody := need_printed hd' "body" (undoes_body h) rfl
  simp [content, Content.form, hrecord, hserial, htime, hgroup, hbody]

theorem undoes_message {m : Message} (h : ∀ doc ∈ m.documents, doc.Whole) :
    Undoes message Message.form m := by
  intro d hd
  have hvisa : Undoes (optional document) (.optional Document.form) m.visa :=
    undoes_optional (fun doc hdoc => undoes_document (Message.whole_visa h doc hdoc))
      fun _ _ => nofun
  obtain ⟨d, hd', hrecord⟩ := record_object
    ["sender", "receiver", "time", "content", "meta", "visa"] 6 hd rfl (by decide)
  have hsender := need_printed hd' "sender" (undoes_entity m.sender) rfl
  have hreceiver := need_printed hd' "receiver" (undoes_entity m.receiver) rfl
  have htime := need_printed hd' "time" (undoes_word64 m.time) rfl
  have hcontent := need_printed hd' "content" (undoes_content (Message.whole_listed h)) rfl
  have hcard := maybe_printed hd' "meta" (undoes_maybeCard m.card) rfl
  have hvisa := maybe_printed hd' "visa" hvisa rfl
  simp [message, Message.form, hrecord, hsender, hreceiver, htime, hcontent, hcard, hvisa]

/-! ### Forms without non-integer numbers -/

theorem whole_optional {α : Type} {form : α → Json} {o : Option α} (h : ∀ a ∈ o, (form a).Whole) :
    (Json.optional form o).Whole := by
  cases o with
  | none => trivial
  | some a => exact h a rfl

theorem itemsWhole_map {α : Type} {form : α → Json} {as : List α} (h : ∀ a ∈ as, (form a).Whole) :
    ItemsWhole (as.map form) := by
  induction as with
  | nil => trivial
  | cons a as ih =>
    exact ⟨h a List.mem_cons_self, ih fun b hb => h b (List.mem_cons_of_mem a hb)⟩

theorem whole_entity (e : Entity) : e.form.Whole := by
  obtain ⟨name, address, kind⟩ := e
  cases kind <;> exact ⟨trivial, trivial, trivial, trivial⟩

theorem whole_maybeText (o : Option String) : (Json.optional .text o).Whole :=
  whole_optional fun _ _ => trivial

theorem whole_maybeWord (o : Option UInt64) : (Json.optional .word o).Whole :=
  whole_optional fun _ _ => trivial

theorem whole_maybeCard (o : Option Card) : (Json.optional Card.form o).Whole :=
  whole_optional fun c _ => ⟨trivial, whole_maybeText c.seed, trivial⟩

theorem whole_document {doc : Document} (h : doc.Whole) : doc.form.Whole := by
  obtain ⟨did, kind, time, properties⟩ := doc
  cases kind <;> exact ⟨whole_entity did, trivial, trivial, h, trivial⟩

theorem whole_groupCommand (c : GroupCommand) : c.form.Whole := by
  have hall (es : List Entity) : ItemsWhole (es.map Entity.form) :=
    itemsWhole_map fun e _ => whole_entity e
  cases c with
  | invite g ms => exact ⟨⟨whole_entity g, hall ms, trivial⟩, trivial⟩
  | expel g ms => exact ⟨⟨whole_entity g, hall ms, trivial⟩, trivial⟩
  | quit g => exact ⟨⟨whole_entity g, trivial⟩, trivial⟩
  | query g t => exact ⟨⟨whole_entity g, whole_maybeWord t, trivial⟩, trivial⟩

theorem whole_command {c : Command} (h : ∀ doc ∈ c.documents, doc.Whole) : c.form.Whole := by
  cases c with
  | handshake title session =>
    cases title <;> exact ⟨⟨trivial, whole_maybeText session, trivial⟩, trivial⟩
  | login did agent station =>
    have hstation : (Json.optional StationInfo.form station).Whole :=
      whole_optional fun s _ => ⟨whole_entity s.did, trivial, trivial, trivial⟩
    exact ⟨⟨whole_entity did, whole_maybeText agent, hstation, trivial⟩, trivial⟩
  | report title => cases title <;> exact ⟨⟨trivial, trivial⟩, trivial⟩
  | card did c => exact ⟨⟨whole_entity did, whole_maybeCard c, trivial⟩, trivial⟩
  | document did c docs held =>
    have hdocs : ItemsWhole (docs.map Document.form) :=
      itemsWhole_map fun doc hdoc => whole_document (h doc hdoc)
    exact ⟨⟨whole_entity did, whole_maybeCard c, hdocs, whole_maybeWord held, trivial⟩, trivial⟩
  | receipt s origin => exact ⟨⟨trivial, whole_maybeWord origin, trivial⟩, trivial⟩
  | group g => exact ⟨whole_groupCommand g, trivial⟩

theorem whole_body {b : Body} (h : ∀ doc ∈ b.documents, doc.Whole) : b.form.Whole := by
  cases b with
  | text s => exact ⟨⟨trivial, trivial⟩, trivial⟩
  | command c => exact ⟨whole_command h, trivial⟩

end Envelope

/-! ### The round trip -/

open Envelope

theorem Message.whole_form {m : Message} (h : ∀ doc ∈ m.documents, doc.Whole) : m.form.Whole := by
  have hgroup : (Json.optional Entity.form m.content.group).Whole :=
    whole_optional fun e _ => whole_entity e
  have hvisa : (Json.optional Document.form m.visa).Whole :=
    whole_optional fun doc hdoc => whole_document (whole_visa h doc hdoc)
  exact ⟨whole_entity m.sender, whole_entity m.receiver, trivial,
    ⟨trivial, trivial, hgroup, whole_body (whole_listed h), trivial⟩, whole_maybeCard m.card, hvisa,
    trivial⟩

theorem Envelope.decode_encode {m : Message} (hw : ∀ doc ∈ m.documents, doc.Whole)
    (hd : m.form.depth ≤ greatestDepth) : decode (encode m) = .ok m := by
  have htree : Json.Tree.ofBytes? (encode m) = some m.form.tree :=
    Json.Tree.ofBytes?_object (Message.whole_form hw)
  have hread : message greatestDepth m.form.tree = some m := undoes_message hw _ hd
  have hfull : (encode m).isEmpty = false := rfl
  rw [decode, hfull, htree, Option.bind_some, hread]
  rfl

namespace Message

end Message

end Courier
