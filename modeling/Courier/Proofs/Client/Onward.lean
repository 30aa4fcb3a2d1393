import Courier.Proofs.Client.Aside
import Courier.Proofs.Delivery.MessageIds
import Courier.Proofs.Delivery.Placing

/-!
# Onward in a run

A client that reads keeps its user, its clock and its handlers, and what it queues has a serial
number that it drew since, or one of a content that a handler had ready. If the serial numbers are
fresh, the next one that it draws is therefore not in use.
-/

namespace Courier.Client

variable {τ : Type}

/-- A handler answers with a content of this serial number. -/
def HasReady (c : Client τ) (serial : Serial) : Prop :=
  ∃ tag contents, c.desk.handlers.get? tag = some (.answer contents) ∧
    ∃ content ∈ contents, content.serial = serial

theorem eq_standard_of_get? {tag : String} {a : Handler} (h : Handlers.standard.get? tag = some a) :
    a = .standard := by
  have hinsert (tags : List String) (hs : Handlers)
      (hstandard : ∀ tag a, hs.get? tag = some a → a = .standard) :
      ∀ tag a, (tags.foldl (fun hs tag => hs.insert tag .standard) hs).get? tag = some a →
        a = .standard := by
    induction tags generalizing hs with
    | nil => exact hstandard
    | cons t tags ih =>
      refine ih (hs.insert t .standard) fun k b hb => ?_
      rw [Table.get?_insert] at hb
      split at hb
      · exact (Option.some.inj hb).symm
      · exact hstandard k b hb
  refine hinsert Handlers.tags .empty (fun k b hb => ?_) tag a h
  rw [Table.get?_empty] at hb
  cases hb

/-- The handlers of the protocol have nothing ready. -/
theorem not_hasReady_of_standard {c : Client τ} (h : c.desk.handlers = .standard)
    (serial : Serial) : ¬c.HasReady serial := by
  rintro ⟨tag, contents, hanswer, -⟩
  rw [h] at hanswer
  cases eq_standard_of_get? hanswer

/-- The serial numbers up to the one at `last` are distinct, not in use, and not those of contents
that a handler has ready. -/
structure FreshUpTo (c : Client τ) (last : Nat) : Prop where
  distinct : ∀ i j, c.account.drawn ≤ i → i < j → j < last →
    c.account.serials i ≠ c.account.serials j
  unused : ∀ i, c.account.drawn ≤ i → i < last → ∀ sender receiver,
    MessageRef.id ⟨sender, receiver, c.account.serials i⟩ ∉ c.session.queue.reserved
  unready : ∀ i, c.account.drawn ≤ i → i < last → ¬c.HasReady (c.account.serials i)

/-- The serial number was drawn between the two moments. -/
def Drew (c c' : Client τ) (serial : Serial) : Prop :=
  ∃ n, c.account.drawn ≤ n ∧ n < c'.account.drawn ∧ serial = c.account.serials n

/-- At most what is known changed between the two moments. -/
structure Learns (c c' : Client τ) : Prop where
  station : c'.session.station = c.session.station
  queue : c'.session.queue = c.session.queue
  handlers : c'.desk.handlers = c.desk.handlers
  account : ∃ directory freshness, c'.account = { c.account with
    directory := directory
    freshness := freshness }

theorem Learns.drawn {c c' : Client τ} (h : Learns c c') :
    c'.account.drawn = c.account.drawn := by
  obtain ⟨directory, freshness, haccount⟩ := h.account
  rw [haccount]

/-- The later client reads on where the earlier one began. -/
structure Onward (c c' : Client τ) : Prop where
  station : c'.session.station = c.session.station
  handlers : c'.desk.handlers = c.desk.handlers
  account : ∃ directory freshness, c'.account = { c.account with
    directory := directory
    freshness := freshness
    drawn := c'.account.drawn }
  drawn : c.account.drawn ≤ c'.account.drawn
  sound : ∃ out, c'.session.queue.Sound out
  nextOrder : c.session.queue.nextOrder ≤ c'.session.queue.nextOrder
  reserved : ∀ ref : MessageRef, ref.id ∈ c'.session.queue.reserved →
    ref.id ∈ c.session.queue.reserved ∨ c.HasReady ref.serial ∨ Drew c c' ref.serial

namespace Onward

variable {c c₁ c₂ : Client τ}

theorem refl {out : List QueueEntry} (h : c.session.queue.Sound out) : Onward c c where
  station := rfl
  handlers := rfl
  account := ⟨_, _, rfl⟩
  drawn := Nat.le_refl _
  sound := ⟨out, h⟩
  nextOrder := Nat.le_refl _
  reserved := fun _ h => .inl h

theorem fields (h : Onward c c₁) :
    c₁.account.user = c.account.user ∧ c₁.account.clock = c.account.clock ∧
    c₁.account.codec = c.account.codec ∧ c₁.account.serials = c.account.serials ∧
    c₁.account.rostersWritable = c.account.rostersWritable := by
  obtain ⟨directory, freshness, haccount⟩ := h.account
  rw [haccount]
  exact ⟨rfl, rfl, rfl, rfl, rfl⟩

theorem drew_next (h : Onward c c₁) : Drew c c₁.draw (c₁.account.serials c₁.account.drawn) :=
  ⟨c₁.account.drawn, h.drawn, Nat.lt_succ_self _, by rw [h.fields.2.2.2.1]⟩

/-- Submissions lead on if their serial numbers were drawn on the way, or were ready. -/
theorem submitAll (h : Onward c c₁) (ss : List Submission)
    (hstation : c₂.session.station = c₁.session.station)
    (hhandlers : c₂.desk.handlers = c₁.desk.handlers)
    (haccount : ∃ directory freshness, c₂.account = { c₁.account with
      directory := directory
      freshness := freshness
      drawn := c₂.account.drawn })
    (hdrawn : c₁.account.drawn ≤ c₂.account.drawn)
    (hqueue : c₂.session.queue = c₁.session.queue.submitAll ss)
    (hss : ∀ s ∈ ss, c.HasReady s.message.serial ∨ Drew c c₂ s.message.serial) :
    Onward c c₂ := by
  obtain ⟨directory, freshness, ha⟩ := h.account
  obtain ⟨directory', freshness', ha'⟩ := haccount
  obtain ⟨out, hsound⟩ := h.sound
  refine ⟨hstation.trans h.station, hhandlers.trans h.handlers, ⟨directory', freshness', ?_⟩,
    Nat.le_trans h.drawn hdrawn, ⟨out, ?_⟩, ?_, ?_⟩
  · rw [ha', ha]
  · exact hqueue ▸ hsound.submitAll ss
  · rw [hqueue]
    exact Nat.le_trans h.nextOrder (DeliveryQueue.nextOrder_le_submitAll _ ss)
  · intro ref href
    rw [hqueue, DeliveryQueue.mem_reserved_submitAll] at href
    rcases href with ⟨s, hs, hid⟩ | hold
    · rw [MessageRef.serial_of_id hid]
      exact .inr (hss s hs)
    · refine (h.reserved ref hold).imp_right fun hnew => hnew.imp_right ?_
      rintro ⟨n, hle, hlt, hserial⟩
      exact ⟨n, hle, Nat.lt_of_lt_of_le hlt hdrawn, hserial⟩

theorem learns (h : Onward c c₁) (hl : Learns c₁ c₂) : Onward c c₂ := by
  obtain ⟨directory, freshness, ha⟩ := hl.account
  have hdrawn := hl.drawn
  refine h.submitAll [] hl.station hl.handlers ⟨directory, freshness, ?_⟩
    (Nat.le_of_eq hdrawn.symm) hl.queue fun _ h => nomatch h
  rw [hdrawn, ha]

theorem draw (h : Onward c c₁) : Onward c c₁.draw :=
  h.submitAll [] rfl rfl ⟨_, _, rfl⟩ (Nat.le_succ _) rfl fun _ h => nomatch h

theorem submitted (h : Onward c c₁) {l : Letter}
    (hserial : c.HasReady l.message.content.serial ∨ Drew c c₁ l.message.content.serial)
    (priority : Priority) : Onward c (c₁.submitted l priority) := by
  obtain ⟨haccount, hhandlers, hsession⟩ := c₁.submitted_fields l priority
  refine h.submitAll [l.submission priority c₁.account.clock] ?_ hhandlers ?_ ?_ ?_ ?_
  · rw [hsession]
  · exact ⟨c₁.account.directory, c₁.account.freshness, by rw [haccount]⟩
  · exact Nat.le_of_eq (congrArg Account.drawn haccount).symm
  · rw [hsession]
    rfl
  · intro s hs
    rw [List.mem_singleton.mp hs, Drew, haccount]
    exact hserial

/-- The submissions of letters that were sent, each with a serial number that was drawn. -/
theorem drew_of_sent (h : Onward c c₁) {ls : List Letter} (hsent : Sent c₁ c₂ ls) {s : Submission}
    (hs : s ∈ ls.map (·.submission .normal c₁.account.clock)) : Drew c c₂ s.message.serial := by
  obtain ⟨l, hl, rfl⟩ := List.mem_map.mp hs
  obtain ⟨ns, -, hns, hserials⟩ := hsent.serials
  have hmem : l.message.content.serial ∈ ns.map c₁.account.serials :=
    hserials ▸ List.mem_map_of_mem hl
  obtain ⟨n, hn, hserial⟩ := List.mem_map.mp hmem
  refine ⟨n, Nat.le_trans h.drawn (hns n hn).1, (hns n hn).2, ?_⟩
  rw [← h.fields.2.2.2.1]
  exact hserial.symm

theorem sent (h : Onward c c₁) {ls : List Letter} (hsent : Sent c₁ c₂ ls) : Onward c c₂ := by
  obtain ⟨cooldowns, haccount⟩ := hsent.account
  refine h.submitAll (ls.map (·.submission .normal c₁.account.clock)) ?_ hsent.handlers
    ⟨c₁.account.directory, { c₁.account.freshness with cooldowns := cooldowns }, ?_⟩ hsent.drawn ?_
    fun s hs => .inr (h.drew_of_sent hsent hs)
  · rw [hsent.session]
  · exact haccount
  · rw [hsent.session]

end Onward

variable {c c₁ : Client τ} {last : Nat} {serial : Serial}

theorem FreshUpTo.unready_of_drew (hfresh : c.FreshUpTo last) (hlast : c₁.account.drawn ≤ last)
    (h : Drew c c₁ serial) : ¬c.HasReady serial := by
  obtain ⟨n, hle, hlt, rfl⟩ := h
  exact hfresh.unready n hle (Nat.lt_of_lt_of_le hlt hlast)

/-- The serial number that is drawn next is not in use. -/
theorem FreshUpTo.unused_next (hfresh : c.FreshUpTo last) (h : Onward c c₁)
    (hlast : c₁.account.drawn < last) {ref : MessageRef}
    (hserial : ref.serial = c₁.account.serials c₁.account.drawn) :
    ref.id ∉ c₁.session.queue.reserved := by
  obtain ⟨sender, receiver, serial⟩ := ref
  obtain rfl : serial = c.account.serials c₁.account.drawn := by
    rw [← h.fields.2.2.2.1]
    exact hserial
  intro hreserved
  rcases h.reserved _ hreserved with hold | hready | ⟨n, hle, hlt, heq⟩
  · exact hfresh.unused _ h.drawn hlast sender receiver hold
  · exact hfresh.unready _ h.drawn hlast hready
  · exact hfresh.distinct n _ hle hlt hlast heq.symm

end Courier.Client
