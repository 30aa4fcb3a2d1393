import Courier.Proofs.Delivery.MessageIds
import Courier.Proofs.Group.Receiving
import Courier.Proofs.Group.Telling

/-!
# What a party hears

The packets that an operation queues for one party, and the membership changes that these packets
ask for. With serial numbers that are not in use every letter of the operation is queued.
-/

namespace Courier

/-- The reader makes out the membership changes that the writer packed. -/
def Codec.Understands (reader writer : Codec) : Prop :=
  ∀ m b, writer.encode m = .ok b → reader.change? b = m.change?

/-- Writes only what it reads back as the same membership change. -/
def Codec.careful (codec : Codec) : Codec where
  encode m :=
    match codec.encode m with
    | .error e => .error e
    | .ok payload =>
      if codec.change? payload = m.change? then .ok payload
      else .error (.malformed "cannot be read back")
  decode := codec.decode

namespace Client

variable {τ : Type}

/-- The serial numbers drawn between the two moments are distinct and not in use. -/
structure FreshSerials (c c' : Client τ) : Prop where
  distinct : ∀ i j, c.account.drawn ≤ i → i < j → j < c'.account.drawn →
    c.account.serials i ≠ c.account.serials j
  unused : ∀ i, c.account.drawn ≤ i → i < c'.account.drawn → ∀ sender receiver,
    MessageRef.id ⟨sender, receiver, c.account.serials i⟩ ∉ c.session.queue.reserved

/-- What was queued for a party between the two moments, in queue order. -/
def queuedFor (c c' : Client τ) (who : Entity) : List QueueEntry :=
  (c'.session.queue.queuedSince c.session.queue.nextOrder).filter (·.message.receiver = who)

def packetsFor (c c' : Client τ) (who : Entity) : List Bytes :=
  (queuedFor c c' who).map (·.shipment.payload)

section Queued

variable {c c' : Client τ} {ls : List Letter}

theorem Sent.nodup_serials (h : Sent c c' ls) (hfresh : FreshSerials c c') :
    (ls.map (·.message.content.serial)).Nodup := by
  obtain ⟨ns, hnd, hns, hserials⟩ := h.serials
  rw [hserials, List.Nodup, List.pairwise_map]
  refine hnd.imp_of_mem ?_
  intro i j hi hj hne heq
  rcases Nat.lt_or_gt_of_ne hne with hlt | hlt
  · exact hfresh.distinct i j (hns i hi).1 hlt (hns j hj).2 heq
  · exact hfresh.distinct j i (hns j hj).1 hlt (hns i hi).2 heq.symm

theorem Sent.nodup_ids (h : Sent c c' ls) (hfresh : FreshSerials c c') :
    (ls.map (·.message.ref.id)).Nodup := by
  have hserials := h.nodup_serials hfresh
  rw [List.Nodup, List.pairwise_map] at hserials ⊢
  exact hserials.imp fun hne hid => hne (MessageRef.serial_of_id hid)

theorem Sent.unused (h : Sent c c' ls) (hfresh : FreshSerials c c') {l : Letter} (hl : l ∈ ls) :
    l.message.ref.id ∉ c.session.queue.reserved := by
  obtain ⟨ns, -, hns, hserials⟩ := h.serials
  have hmem : l.message.content.serial ∈ ns.map c.account.serials :=
    hserials ▸ List.mem_map_of_mem hl
  obtain ⟨i, hi, hserial⟩ := List.mem_map.mp hmem
  have hunused := hfresh.unused i (hns i hi).1 (hns i hi).2 l.message.sender l.message.receiver
  rw [hserial] at hunused
  exact hunused

/-- Every letter is queued, and those for one party in the order in which they were sent. -/
theorem Sent.packets {out : List QueueEntry} (h : Sent c c' ls)
    (hq : c.session.queue.Sound out) (hfresh : FreshSerials c c') (who : Entity) :
    packetsFor c c' who = (ls.filter (·.message.receiver = who)).map (·.payload) := by
  let ss := ls.map (·.submission .normal c.account.clock)
  let both (e : QueueEntry) : MessageRef × Shipment := (e.message, e.shipment)
  have hsince : c'.session.queue.queuedSince c.session.queue.nextOrder =
      c.session.queue.accepted ss := by
    rw [h.session]
    have hnormal : ∀ s ∈ ss, s.shipment.priority = .normal := by
      intro s hs
      obtain ⟨l, -, rfl⟩ := List.mem_map.mp hs
      rfl
    exact DeliveryQueue.queuedSince_eq_accepted hq hnormal
  have haccepted : (c.session.queue.accepted ss).map both =
      ls.map fun l => (l.message.ref, ⟨l.payload, .normal, some l.message.ref.id⟩) := by
    have hids : (ss.map (·.message.id)).Nodup := by
      have hnodup := h.nodup_ids hfresh
      rwa [List.map_map]
    refine (DeliveryQueue.accepted_of_fresh hids fun s hs => ?_).trans List.map_map
    obtain ⟨l, hl, rfl⟩ := List.mem_map.mp hs
    exact h.unused hfresh hl
  calc packetsFor c c' who
      = (((c.session.queue.accepted ss).filter ((fun m => m.1.receiver = who) ∘ both)).map
          both).map (·.2.payload) := by
        rw [packetsFor, queuedFor, hsince, List.map_map]
        rfl
    _ = (((c.session.queue.accepted ss).map both).filter (·.1.receiver = who)).map
          (·.2.payload) := by
        rw [List.filter_map]
    _ = (ls.filter (·.message.receiver = who)).map (·.payload) := by
        rw [haccepted, List.filter_map, List.map_map]
        rfl

end Queued

/-! ### Changes that are heard -/

/-- The packets queued for a party between the two moments ask for these changes. -/
def Hears (who : Entity) (changes : List MembershipChange) (c c' : Client τ) : Prop :=
  ∃ ls : List Letter, packetsFor c c' who = ls.map (·.payload) ∧
    (∀ l ∈ ls, c.account.codec.encode l.message = .ok l.payload) ∧
    ls.filterMap Letter.change? = changes

variable {c c' : Client τ} {who user : Entity} {changes : List MembershipChange}

theorem Hears.queued {ch : MembershipChange} (h : Hears who changes c c') (hch : ch ∈ changes) :
    ∃ e ∈ queuedFor c c' who, ∃ m, c.account.codec.encode m = .ok e.shipment.payload ∧
      m.change? = some ch := by
  obtain ⟨ls, hpackets, hencoded, rfl⟩ := h
  obtain ⟨l, hl, hchange⟩ := List.mem_filterMap.mp hch
  have hpayload : l.payload ∈ packetsFor c c' who := hpackets ▸ List.mem_map_of_mem hl
  obtain ⟨e, he, heq⟩ := List.mem_map.mp hpayload
  exact ⟨e, he, l.message, heq ▸ hencoded l hl, hchange⟩

end Client

/-! ### What is heard of each operation -/

namespace Group

open Client

variable {τ : Type} {group who : Entity}

section Rounds

variable {owner : Entity} {bots members added : List Entity}

end Rounds

section Carried

variable {user : Entity} {rounds : List Round} {roster : List Entity} {c c' : Client τ}

theorem Carried.directory (h : Carried user group rounds roster c c') :
    c'.account.directory = c.account.directory.saveMembers group roster := by
  obtain ⟨c₁, ⟨ls, hsent, -⟩, rfl⟩ := h
  rw [← hsent.fields.2.2.2]
  rfl

theorem Carried.reads (h : Carried user group rounds roster c c') :
    c'.account.directory.Reads group roster := by
  rw [h.directory]
  exact Directory.reads_saveMembers _ _ _

theorem Carried.owner (h : Carried user group rounds roster c c') :
    c'.account.directory.owner? group = c.account.directory.owner? group := by
  rw [h.directory]
  rfl

end Carried

end Group

end Courier
