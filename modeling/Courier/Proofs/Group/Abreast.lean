import Courier.Proofs.Client.Onward
import Courier.Proofs.Directory.Documents
import Courier.Proofs.Group.Hearing

/-!
# Two clients abreast

Two runs of a client that differ in what they know of one group, seen by somebody who has no part
in the group. What is queued for him differs in serial numbers only, as long as the runs send the
same to him, whatever either of them sends past him.
-/

namespace Courier

/-- The same message but for its serial number. -/
def Message.Alike (m m' : Message) : Prop :=
  m' = { m with content := { m.content with serial := m'.content.serial } }

theorem Message.Alike.symm {m m' : Message} (h : m.Alike m') : m'.Alike m := by
  unfold Alike at *
  rw [h]

theorem Message.Alike.ref {m m' : Message} (h : m.Alike m') :
    m'.ref.sender = m.ref.sender ∧ m'.ref.receiver = m.ref.receiver := by
  rw [h]
  exact ⟨rfl, rfl⟩

/-- Whether a message can be written does not depend on its serial number. -/
def Codec.SerialBlind (codec : Codec) : Prop :=
  ∀ {m m' : Message}, m.Alike m' → ∀ {b}, codec.encode m = .ok b → ∃ b', codec.encode m' = .ok b'

theorem Codec.serialBlind_json : Codec.json.SerialBlind :=
  fun {_ m'} _ _ _ => ⟨Envelope.encode m', rfl⟩

/-- Entries that hold the same but for the serial number of their message. -/
structure QueueEntry.Alike (codec : Codec) (e e' : QueueEntry) : Prop where
  messages : ∃ m m' : Message, m.Alike m' ∧ e.message = m.ref ∧ e'.message = m'.ref ∧
    codec.encode m = .ok e.shipment.payload ∧ codec.encode m' = .ok e'.shipment.payload
  priority : e.priority = e'.priority
  attempts : e.attempts = e'.attempts
  enqueuedAt : e.enqueuedAt = e'.enqueuedAt
  notBefore : e.notBefore = e'.notBefore

namespace QueueEntry

variable {codec : Codec} {e e' : QueueEntry}

theorem Alike.symm (h : e.Alike codec e') : e'.Alike codec e := by
  obtain ⟨m, m', halike, he, he', hencode, hencode'⟩ := h.messages
  exact ⟨⟨m', m, halike.symm, he', he, hencode', hencode⟩, h.priority.symm, h.attempts.symm,
    h.enqueuedAt.symm, h.notBefore.symm⟩

theorem Alike.receiver (h : e.Alike codec e') : e'.message.receiver = e.message.receiver := by
  obtain ⟨m, m', halike, he, he', -⟩ := h.messages
  rw [he, he']
  exact halike.ref.2

/-- The entry waits for somebody, and was not queued before `start`. -/
def isFor (start : Nat) (who : Entity) (e : QueueEntry) : Bool :=
  decide (e.message.receiver = who) && decide (start ≤ e.order)

end QueueEntry

namespace Client

variable {τ : Type} {c c₁ c₂ : Client τ} {last : Nat} {who group : Entity}

theorem queuedFor_eq (c c₁ : Client τ) (who : Entity) : queuedFor c c₁ who =
    c₁.session.queue.waiting.filter (QueueEntry.isFor c.session.queue.nextOrder who) :=
  List.filter_filter

/-! ### Queues -/

/-- Since `c`, the same but for serial numbers was queued for somebody, and the same messages that
handlers had ready. -/
structure Level (c : Client τ) (who : Entity) (q q' : DeliveryQueue) : Prop where
  entries : List.Forall₂ (QueueEntry.Alike c.account.codec)
    (q.waiting.filter (QueueEntry.isFor c.session.queue.nextOrder who))
    (q'.waiting.filter (QueueEntry.isFor c.session.queue.nextOrder who))
  ready : ∀ ref : MessageRef, c.HasReady ref.serial → (ref.id ∈ q.reserved ↔ ref.id ∈ q'.reserved)

namespace Level

variable {q q' : DeliveryQueue} {out out' : List QueueEntry} {s s' : Submission}

theorem start (hq : c.session.queue.Sound out) :
    Level c who c.session.queue c.session.queue := by
  refine ⟨?_, fun _ _ => Iff.rfl⟩
  have hnone : queuedFor c c who = [] := by
    rw [queuedFor, hq.queuedSince_nextOrder]
    rfl
  rw [← queuedFor_eq, hnone]
  exact .nil

theorem symm (h : Level c who q q') : Level c who q' q where
  entries := h.entries.flip.imp fun _ _ hab => hab.symm
  ready := fun ref href => (h.ready ref href).symm

theorem submitAll_left {ss : List Submission} (hq : q.Sound out)
    (hss : ∀ s ∈ ss, s.message.receiver ≠ who ∧ ¬c.HasReady s.message.serial)
    (h : Level c who q q') : Level c who (q.submitAll ss) q' := by
  refine ⟨?_, fun ref href => Iff.trans ?_ (h.ready ref href)⟩
  · rw [DeliveryQueue.filter_submitAll_of_not hq]
    · exact h.entries
    · intro s hs e he
      have hreceiver := (hss s hs).1
      simp [QueueEntry.isFor, he, hreceiver]
  · rw [DeliveryQueue.mem_reserved_submitAll]
    constructor
    · rintro (⟨s, hs, hid⟩ | hold)
      · exact absurd (MessageRef.serial_of_id hid ▸ href) (hss s hs).2
      · exact hold
    · exact .inr

/-- What both queues accept takes the same place in both. -/
theorem entries_submit (hq : q.Sound out) (hq' : q'.Sound out')
    (hid : s.message.id ∉ q.reserved) (hid' : s'.message.id ∉ q'.reserved)
    (horder : c.session.queue.nextOrder ≤ q.nextOrder)
    (horder' : c.session.queue.nextOrder ≤ q'.nextOrder)
    (halike : (q.entryOf s).Alike c.account.codec (q'.entryOf s')) (h : Level c who q q') :
    List.Forall₂ (QueueEntry.Alike c.account.codec)
      ((q.submit s).waiting.filter (QueueEntry.isFor c.session.queue.nextOrder who))
      ((q'.submit s').waiting.filter (QueueEntry.isFor c.session.queue.nextOrder who)) := by
  have hreceiver : s'.message.receiver = s.message.receiver := halike.receiver
  by_cases hwho : s.message.receiver = who
  · have hfor : QueueEntry.isFor c.session.queue.nextOrder who (q.entryOf s) = true :=
      Bool.and_eq_true_iff.mpr ⟨decide_eq_true hwho, decide_eq_true horder⟩
    have hfor' : QueueEntry.isFor c.session.queue.nextOrder who (q'.entryOf s') = true :=
      Bool.and_eq_true_iff.mpr ⟨decide_eq_true (hreceiver.trans hwho), decide_eq_true horder'⟩
    rw [DeliveryQueue.filter_submit hq hid hfor, DeliveryQueue.filter_submit hq' hid' hfor']
    exact QueueEntry.forall₂_placed QueueEntry.Alike.priority halike h.entries
  · rw [DeliveryQueue.filter_submit_of_not hq, DeliveryQueue.filter_submit_of_not hq']
    · exact h.entries
    · intro e he
      simp [QueueEntry.isFor, he, hreceiver, hwho]
    · intro e he
      simp [QueueEntry.isFor, he, hwho]

theorem submit (hq : q.Sound out) (hq' : q'.Sound out')
    (hid : s.message.id ∉ q.reserved) (hid' : s'.message.id ∉ q'.reserved)
    (horder : c.session.queue.nextOrder ≤ q.nextOrder)
    (horder' : c.session.queue.nextOrder ≤ q'.nextOrder)
    (hready : ¬c.HasReady s.message.serial) (hready' : ¬c.HasReady s'.message.serial)
    (halike : (q.entryOf s).Alike c.account.codec (q'.entryOf s')) (h : Level c who q q') :
    Level c who (q.submit s) (q'.submit s') := by
  refine ⟨h.entries_submit hq hq' hid hid' horder horder' halike, fun ref href => ?_⟩
  have hne : ref.id ≠ s.message.id := fun hid => hready (MessageRef.serial_of_id hid ▸ href)
  have hne' : ref.id ≠ s'.message.id := fun hid => hready' (MessageRef.serial_of_id hid ▸ href)
  rw [DeliveryQueue.mem_reserved_submit, DeliveryQueue.mem_reserved_submit, or_iff_right hne,
    or_iff_right hne']
  exact h.ready ref href

/-- What a handler has ready is accepted by both queues or by neither. -/
theorem submit_ready (hq : q.Sound out) (hq' : q'.Sound out')
    (horder : c.session.queue.nextOrder ≤ q.nextOrder)
    (horder' : c.session.queue.nextOrder ≤ q'.nextOrder)
    (hready : c.HasReady s.message.serial)
    (halike : (q.entryOf s).Alike c.account.codec (q'.entryOf s)) (h : Level c who q q') :
    Level c who (q.submit s) (q'.submit s) := by
  by_cases hid : s.message.id ∈ q.reserved
  · have hid' := (h.ready _ hready).mp hid
    rw [DeliveryQueue.submit_of_contains hid, DeliveryQueue.submit_of_contains hid']
    exact h
  · have hid' : s.message.id ∉ q'.reserved := fun hin => hid ((h.ready _ hready).mpr hin)
    refine ⟨h.entries_submit hq hq' hid hid' horder horder' halike, fun ref href => ?_⟩
    rw [DeliveryQueue.mem_reserved_submit, DeliveryQueue.mem_reserved_submit, h.ready ref href]

end Level

/-! ### Clients -/

/-- Everything that is known is the same but for the roster of one group, and for questions for
documents that cool down. -/
structure SameBut (group : Entity) (c₁ c₂ : Client τ) : Prop where
  cards : c₁.account.directory.cards = c₂.account.directory.cards
  records : c₁.account.directory.records = c₂.account.directory.records
  helpers : c₁.account.directory.helpers = c₂.account.directory.helpers
  owners : c₁.account.directory.owners = c₂.account.directory.owners
  rosters : ∀ g, g ≠ group →
    c₁.account.directory.rosters.get? g = c₂.account.directory.rosters.get? g
  recent : c₁.account.freshness.recent = c₂.account.freshness.recent
  period : c₁.account.freshness.cooldowns.period = c₂.account.freshness.cooldowns.period
  ends : ∀ key, key.kind ≠ .document → c₁.coolsUntil? key = c₂.coolsUntil? key

/-- The group has a known roster, and somebody is not in it and has no say in the group. -/
structure ShutOut (who group : Entity) (c : Client τ) : Prop where
  known : c.account.directory.members group ≠ []
  unlisted : who ∉ c.account.directory.members group
  unentitled : c.account.directory.isAdmin group who = false

theorem SameBut.symm (h : SameBut group c₁ c₂) : SameBut group c₂ c₁ where
  cards := h.cards.symm
  records := h.records.symm
  helpers := h.helpers.symm
  owners := h.owners.symm
  rosters := fun g hg => (h.rosters g hg).symm
  recent := h.recent.symm
  period := h.period.symm
  ends := fun key hkey => (h.ends key hkey).symm

theorem SameBut.members (h : SameBut group c₁ c₂) {g : Entity} (hg : g ≠ group) :
    c₁.account.directory.members g = c₂.account.directory.members g := by
  unfold Directory.members Directory.members? Directory.owner?
  rw [h.rosters g hg, h.owners]

theorem SameBut.assistants (h : SameBut group c₁ c₂) (g : Entity) :
    c₁.account.directory.assistants g = c₂.account.directory.assistants g := by
  unfold Directory.assistants Directory.assistants?
  rw [h.helpers]

theorem SameBut.isAdmin (h : SameBut group c₁ c₂) (g e : Entity) :
    c₁.account.directory.isAdmin g e = c₂.account.directory.isAdmin g e := by
  rw [Directory.isAdmin, Directory.owner?, h.owners, h.assistants, Directory.isAdmin,
    Directory.owner?]

/-- Between the two moments nothing was learned, and at most questions for documents started to cool
down. -/
structure Steady (c c' : Client τ) : Prop where
  directory : c'.account.directory = c.account.directory
  recent : c'.account.freshness.recent = c.account.freshness.recent
  period : c'.account.freshness.cooldowns.period = c.account.freshness.cooldowns.period
  ends : ∀ key, key.kind ≠ .document → c'.coolsUntil? key = c.coolsUntil? key

theorem Steady.refl (c : Client τ) : Steady c c := ⟨rfl, rfl, rfl, fun _ _ => rfl⟩

theorem Steady.of_account {c c' : Client τ}
    (hdirectory : c'.account.directory = c.account.directory)
    (hfreshness : c'.account.freshness = c.account.freshness) : Steady c c' where
  directory := hdirectory
  recent := by rw [hfreshness]
  period := by rw [hfreshness]
  ends := fun key _ => by rw [coolsUntil?, hfreshness, coolsUntil?]

theorem Aside.steady {c c' : Client τ} (h : Aside who c c') : Steady c c' := by
  obtain ⟨⟨ls, hsent, -⟩, hperiod, hends⟩ := h
  obtain ⟨cooldowns, haccount⟩ := hsent.account
  exact ⟨by rw [haccount], by rw [haccount], hperiod, hends⟩

theorem SameBut.steady {c₃ c₄ : Client τ} (h : SameBut group c₁ c₂) (hs : Steady c₁ c₃)
    (hs' : Steady c₂ c₄) : SameBut group c₃ c₄ where
  cards := by rw [hs.directory, hs'.directory, h.cards]
  records := by rw [hs.directory, hs'.directory, h.records]
  helpers := by rw [hs.directory, hs'.directory, h.helpers]
  owners := by rw [hs.directory, hs'.directory, h.owners]
  rosters := by
    rw [hs.directory, hs'.directory]
    exact h.rosters
  recent := by rw [hs.recent, hs'.recent, h.recent]
  period := by rw [hs.period, hs'.period, h.period]
  ends := fun key hkey => by rw [hs.ends key hkey, hs'.ends key hkey, h.ends key hkey]

theorem ShutOut.of_tables {c c' : Client τ} (h : ShutOut who group c)
    (hroster : c'.account.directory.rosters.get? group = c.account.directory.rosters.get? group)
    (howners : c'.account.directory.owners = c.account.directory.owners)
    (hhelpers : c'.account.directory.helpers = c.account.directory.helpers) :
    ShutOut who group c' := by
  have howner : c'.account.directory.owner? group = c.account.directory.owner? group := by
    rw [Directory.owner?, howners, Directory.owner?]
  have hmembers : c'.account.directory.members group = c.account.directory.members group := by
    rw [Directory.members, Directory.members?, hroster, howner, Directory.members,
      Directory.members?]
  have hassistants :
      c'.account.directory.assistants group = c.account.directory.assistants group := by
    rw [Directory.assistants, Directory.assistants?, hhelpers, Directory.assistants,
      Directory.assistants?]
  refine ⟨hmembers ▸ h.known, hmembers ▸ h.unlisted, ?_⟩
  rw [Directory.isAdmin, howner, hassistants]
  exact h.unentitled

theorem ShutOut.of_directory {c c' : Client τ} (h : ShutOut who group c)
    (hdirectory : c'.account.directory = c.account.directory) : ShutOut who group c' :=
  h.of_tables (by rw [hdirectory]) (by rw [hdirectory]) (by rw [hdirectory])

/-- Two runs that began with `c`, which knows the roster of the group or another one, and in which
somebody was sent the same. -/
structure Abreast (c : Client τ) (last : Nat) (who group : Entity) (c₁ c₂ : Client τ) : Prop where
  left : Onward c c₁
  right : Onward c c₂
  same : SameBut group c₁ c₂
  shut : ShutOut who group c₁
  shut' : ShutOut who group c₂
  level : c₁.account.drawn ≤ last → c₂.account.drawn ≤ last →
    Level c who c₁.session.queue c₂.session.queue

namespace Abreast

theorem symm (h : Abreast c last who group c₁ c₂) : Abreast c last who group c₂ c₁ where
  left := h.right
  right := h.left
  same := h.same.symm
  shut := h.shut'
  shut' := h.shut
  level := fun hlast hlast' => (h.level hlast' hlast).symm

theorem fields (h : Abreast c last who group c₁ c₂) :
    c₂.account.user = c₁.account.user ∧ c₂.account.clock = c₁.account.clock ∧
    c₂.account.codec = c₁.account.codec ∧ c₂.account.serials = c₁.account.serials ∧
    c₂.account.rostersWritable = c₁.account.rostersWritable := by
  obtain ⟨huser, hclock, hcodec, hserials, hwritable⟩ := h.left.fields
  obtain ⟨huser', hclock', hcodec', hserials', hwritable'⟩ := h.right.fields
  exact ⟨huser'.trans huser.symm, hclock'.trans hclock.symm, hcodec'.trans hcodec.symm,
    hserials'.trans hserials.symm, hwritable'.trans hwritable.symm⟩

theorem learns (h : Abreast c last who group c₁ c₂) {c₃ c₄ : Client τ} (hl : Learns c₁ c₃)
    (hl' : Learns c₂ c₄) (hsame : SameBut group c₃ c₄) (hshut : ShutOut who group c₃)
    (hshut' : ShutOut who group c₄) : Abreast c last who group c₃ c₄ where
  left := h.left.learns hl
  right := h.right.learns hl'
  same := hsame
  shut := hshut
  shut' := hshut'
  level := by
    rw [hl.drawn, hl'.drawn, hl.queue, hl'.queue]
    exact h.level

theorem steady (h : Abreast c last who group c₁ c₂) {c₃ c₄ : Client τ} (hleft : Onward c c₃)
    (hright : Onward c c₄) (hsteady : Steady c₁ c₃) (hsteady' : Steady c₂ c₄)
    (hlevel : c₃.account.drawn ≤ last → c₄.account.drawn ≤ last →
      Level c who c₃.session.queue c₄.session.queue) : Abreast c last who group c₃ c₄ where
  left := hleft
  right := hright
  same := h.same.steady hsteady hsteady'
  shut := h.shut.of_directory hsteady.directory
  shut' := h.shut'.of_directory hsteady'.directory
  level := hlevel

/-! ### What is sent -/

/-- What one of the runs sends past somebody leaves them abreast. -/
theorem aside_left (hfresh : c.FreshUpTo last) (h : Abreast c last who group c₁ c₂)
    {c₃ : Client τ} (haside : Aside who c₁ c₃) : Abreast c last who group c₃ c₂ := by
  have hsteady : Steady c₁ c₃ := haside.steady
  obtain ⟨⟨ls, hsent, hls⟩, -, -⟩ := haside
  refine h.steady (h.left.sent hsent) h.right hsteady (.refl c₂) fun hlast hlast' => ?_
  obtain ⟨out, hsound⟩ := h.left.sound
  rw [hsent.session]
  apply (h.level (Nat.le_trans hsent.drawn hlast) hlast').submitAll_left hsound
  intro s hs
  constructor
  · obtain ⟨l, hl, rfl⟩ := List.mem_map.mp hs
    exact hls l hl
  · exact hfresh.unready_of_drew hlast (h.left.drew_of_sent hsent hs)

theorem aside_right (hfresh : c.FreshUpTo last) (h : Abreast c last who group c₁ c₂)
    {c₃ : Client τ} (haside : Aside who c₂ c₃) : Abreast c last who group c₁ c₃ :=
  (h.symm.aside_left hfresh haside).symm

theorem aside (hfresh : c.FreshUpTo last) (h : Abreast c last who group c₁ c₂) {c₃ c₄ : Client τ}
    (haside : Aside who c₁ c₃) (haside' : Aside who c₂ c₄) : Abreast c last who group c₃ c₄ :=
  (h.aside_left hfresh haside).aside_right hfresh haside'

theorem alike_entryOf {codec : Codec} {l₁ l₂ : Letter} (halike : l₁.message.Alike l₂.message)
    (hencoded : codec.encode l₁.message = .ok l₁.payload)
    (hencoded' : codec.encode l₂.message = .ok l₂.payload) (q q' : DeliveryQueue)
    (priority : Priority) (time : Millis) :
    (q.entryOf (l₁.submission priority time)).Alike codec
      (q'.entryOf (l₂.submission priority time)) :=
  ⟨⟨l₁.message, l₂.message, halike, rfl, rfl, hencoded, hencoded'⟩, rfl, rfl, rfl, rfl⟩

/-- Both runs draw a serial number and submit a letter with it. -/
theorem letter (hfresh : c.FreshUpTo last) (h : Abreast c last who group c₁ c₂) {l₁ l₂ : Letter}
    (halike : l₁.message.Alike l₂.message)
    (hserial : l₁.message.content.serial = c₁.account.serials c₁.account.drawn)
    (hserial' : l₂.message.content.serial = c₂.account.serials c₂.account.drawn)
    (hencoded : c.account.codec.encode l₁.message = .ok l₁.payload)
    (hencoded' : c.account.codec.encode l₂.message = .ok l₂.payload) (priority : Priority) :
    Abreast c last who group (c₁.draw.submitted l₁ priority) (c₂.draw.submitted l₂ priority) := by
  obtain ⟨haccount, -, hsession⟩ := c₁.draw.submitted_fields l₁ priority
  obtain ⟨haccount', -, hsession'⟩ := c₂.draw.submitted_fields l₂ priority
  have hdrew : Drew c c₁.draw l₁.message.content.serial := hserial ▸ h.left.drew_next
  have hdrew' : Drew c c₂.draw l₂.message.content.serial := hserial' ▸ h.right.drew_next
  have hclock : c₂.draw.account.clock = c₁.draw.account.clock := h.fields.2.1
  apply h.steady (h.left.draw.submitted (.inr hdrew) priority)
    (h.right.draw.submitted (.inr hdrew') priority)
  · exact .of_account (by rw [haccount]; rfl) (by rw [haccount]; rfl)
  · exact .of_account (by rw [haccount']; rfl) (by rw [haccount']; rfl)
  · rw [haccount, haccount', hsession, hsession']
    intro hlast hlast'
    have hlt : c₁.account.drawn < last := hlast
    have hlt' : c₂.account.drawn < last := hlast'
    obtain ⟨out, hsound⟩ := h.left.sound
    obtain ⟨out', hsound'⟩ := h.right.sound
    apply (h.level (Nat.le_of_lt hlt) (Nat.le_of_lt hlt')).submit hsound hsound'
    · exact hfresh.unused_next h.left hlt hserial
    · exact hfresh.unused_next h.right hlt' hserial'
    · exact h.left.nextOrder
    · exact h.right.nextOrder
    · exact hfresh.unready_of_drew hlast hdrew
    · exact hfresh.unready_of_drew hlast' hdrew'
    · rw [hclock]
      exact alike_entryOf halike hencoded hencoded' _ _ _ _

/-- Both runs submit what a handler had ready. -/
theorem ready (h : Abreast c last who group c₁ c₂) {l : Letter}
    (hready : c.HasReady l.message.content.serial)
    (hencoded : c.account.codec.encode l.message = .ok l.payload) (priority : Priority) :
    Abreast c last who group (c₁.submitted l priority) (c₂.submitted l priority) := by
  obtain ⟨haccount, -, hsession⟩ := c₁.submitted_fields l priority
  obtain ⟨haccount', -, hsession'⟩ := c₂.submitted_fields l priority
  apply h.steady (h.left.submitted (.inl hready) priority)
    (h.right.submitted (.inl hready) priority)
  · exact .of_account (by rw [haccount]) (by rw [haccount])
  · exact .of_account (by rw [haccount']) (by rw [haccount'])
  · rw [haccount, haccount', hsession, hsession', h.fields.2.1]
    intro hlast hlast'
    obtain ⟨out, hsound⟩ := h.left.sound
    obtain ⟨out', hsound'⟩ := h.right.sound
    apply (h.level hlast hlast').submit_ready hsound hsound' h.left.nextOrder h.right.nextOrder
      hready
    exact alike_entryOf rfl hencoded hencoded _ _ _ _

/-! ### What is learned -/

theorem setKey (h : Abreast c last who group c₁ c₂) (key : Option String) :
    Abreast c last who group { c₁ with session := (c₁.session.setKey key).2 }
      { c₂ with session := (c₂.session.setKey key).2 } := by
  have hlearns (c' : Client τ) : Learns c' { c' with session := (c'.session.setKey key).2 } := by
    unfold Session.setKey
    split <;> exact ⟨rfl, rfl, rfl, _, _, rfl⟩
  exact h.learns (hlearns c₁) (hlearns c₂)
    (h.same.steady (.of_account rfl rfl) (.of_account rfl rfl))
    (h.shut.of_directory rfl) (h.shut'.of_directory rfl)

theorem observe (h : Abreast c last who group c₁ c₂) (key : FreshnessKey) (time : Millis) :
    Abreast c last who group
      (c₁.modifyAccount fun a => { a with freshness := (a.freshness.observe key time).2 })
      (c₂.modifyAccount fun a => { a with freshness := (a.freshness.observe key time).2 }) := by
  refine h.learns ⟨rfl, rfl, rfl, _, _, rfl⟩ ⟨rfl, rfl, rfl, _, _, rfl⟩ ?_
    (h.shut.of_directory rfl) (h.shut'.of_directory rfl)
  refine ⟨h.same.cards, h.same.records, h.same.helpers, h.same.owners, h.same.rosters, ?_,
    h.same.period, h.same.ends⟩
  exact congrArg (fun r : Recency FreshnessKey => (r.observe key time).2) h.same.recent

theorem saveCard (h : Abreast c last who group c₁ c₂) (id : Entity) (card : Card) :
    Abreast c last who group (c₁.modifyDirectory (·.saveCard id card))
      (c₂.modifyDirectory (·.saveCard id card)) := by
  refine h.learns ⟨rfl, rfl, rfl, _, _, rfl⟩ ⟨rfl, rfl, rfl, _, _, rfl⟩ ?_
    (h.shut.of_tables rfl rfl rfl) (h.shut'.of_tables rfl rfl rfl)
  refine ⟨?_, h.same.records, h.same.helpers, h.same.owners, h.same.rosters, h.same.recent,
    h.same.period, h.same.ends⟩
  exact congrArg (fun cards : Table Entity Card => cards.insert id card) h.same.cards

theorem saveDocument (h : Abreast c last who group c₁ c₂) (doc : Document) :
    Abreast c last who group (c₁.modifyDirectory fun d => (d.saveDocument doc).2)
      (c₂.modifyDirectory fun d => (d.saveDocument doc).2) := by
  simp only [Directory.saveDocument_eq]
  refine h.learns ⟨rfl, rfl, rfl, _, _, rfl⟩ ⟨rfl, rfl, rfl, _, _, rfl⟩ ?_
    (h.shut.of_tables rfl rfl rfl) (h.shut'.of_tables rfl rfl rfl)
  exact ⟨h.same.cards, congrArg doc.savedIn h.same.records, h.same.helpers, h.same.owners,
    h.same.rosters, h.same.recent, h.same.period, h.same.ends⟩

theorem saveMembers (h : Abreast c last who group c₁ c₂) {g : Entity} (hg : g ≠ group)
    (roster : List Entity) :
    Abreast c last who group (c₁.modifyDirectory (·.saveMembers g roster))
      (c₂.modifyDirectory (·.saveMembers g roster)) := by
  have hother (c' : Client τ) :
      (c'.modifyDirectory (·.saveMembers g roster)).account.directory.rosters.get? group =
        c'.account.directory.rosters.get? group :=
    (Table.get?_insert _ _ _ _).trans (if_neg hg.symm)
  refine h.learns ⟨rfl, rfl, rfl, _, _, rfl⟩ ⟨rfl, rfl, rfl, _, _, rfl⟩ ?_
    (h.shut.of_tables (hother c₁) rfl rfl) (h.shut'.of_tables (hother c₂) rfl rfl)
  refine ⟨h.same.cards, h.same.records, h.same.helpers, h.same.owners, fun k hk => ?_,
    h.same.recent, h.same.period, h.same.ends⟩
  have hinsert (t : Table Entity (List Entity)) := Table.get?_insert t g k roster
  have hold := congrArg (if k = g then some roster else ·) (h.same.rosters k hk)
  exact (hinsert _).trans (hold.trans (hinsert _).symm)

end Abreast

end Client

end Courier
