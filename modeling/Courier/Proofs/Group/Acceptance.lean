import Courier.Proofs.Group.Agreement

/-!
# Changes that peers accept

An operation checks whom it is about, and the handlers of its command check who sent it. Peers that
know the same of a group as the sender permit what it told them exactly if the sender may make the
change. Nothing keeps a client from making another one: it then has a roster of its own.
-/

namespace Courier.Group

open Client

variable {τ τ' : Type}

/-- A client that understands another one and knows the same of a group. -/
structure Alike (c : Client τ) (group : Entity) (p : Client τ') : Prop where
  handlers : p.HandlesAll
  understands : p.account.codec.Understands c.account.codec
  owner : p.account.directory.owner? group = c.account.directory.owner? group
  assistants : ∀ e, e ∈ p.account.directory.assistants group ↔
    e ∈ c.account.directory.assistants group
  roster : SameRoster group p c

section

variable {c c' : Client τ} {p : Client τ'} {group : Entity}

theorem Alike.isAdmin (h : Alike c group p) (e : Entity) :
    p.account.directory.isAdmin group e = c.account.directory.isAdmin group e :=
  Directory.isAdmin_congr h.owner h.assistants e

theorem Alike.members_eq_nil (h : Alike c group p) :
    p.account.directory.members group = [] ↔ c.account.directory.members group = [] := by
  rw [List.eq_nil_iff_forall_not_mem, List.eq_nil_iff_forall_not_mem]
  exact forall_congr' fun e => not_congr (h.roster e)

theorem Alike.permits (h : Alike c group p) (sender : Entity) {command : GroupCommand}
    (hgroup : command.group = group) : p.Permits sender command ↔ c.Permits sender command := by
  cases command with
  | invite g named =>
    obtain rfl : g = group := hgroup
    rw [Permits, Heeds, h.members_eq_nil, h.roster sender, h.isAdmin, Permits, Heeds]
  | expel g named =>
    obtain rfl : g = group := hgroup
    rw [Permits, h.isAdmin, Permits]
  | quit g =>
    obtain rfl : g = group := hgroup
    rw [Permits, h.isAdmin, h.roster, Permits]
  | query g held => exact Iff.rfl

/-- Whatever change was queued in the rounds is one that they told. -/
theorem Carried.told {user : Entity} {rounds : List Round} {roster : List Entity}
    {out : List QueueEntry} {reader : Codec} {e : QueueEntry} {ch : MembershipChange}
    (h : Carried user group rounds roster c c') (hq : c.session.queue.Sound out)
    (hreader : reader.Understands c.account.codec)
    (he : e ∈ c'.session.queue.queuedSince c.session.queue.nextOrder)
    (hch : reader.change? e.shipment.payload = some ch) :
    ch.sender = user ∧ ch.time = c.account.clock ∧
      ∃ r ∈ rounds, r.command.membership? = some ch.command := by
  obtain ⟨c₁, ⟨ls, hsent, honly, -⟩, rfl⟩ := h
  have he : e ∈ c₁.session.queue.queuedSince c.session.queue.nextOrder := he
  rw [hsent.session] at he
  have haccepted := (DeliveryQueue.queuedSince_submitAll hq _).mem_iff.mp he
  obtain ⟨s, hs, -, hshipment⟩ := DeliveryQueue.mem_accepted haccepted
  obtain ⟨l, hl, rfl⟩ := List.mem_map.mp hs
  have hread : reader.change? l.payload = l.change? :=
    hreader l.message l.payload (hsent.encoded l hl)
  rw [hshipment] at hch
  exact honly l hl ch (hread.symm.trans hch)

end

/-- Bob is neither the owner of the team nor one of its assistants. -/
def plain : Client Loopback :=
  knowing Codec.json.careful bob (some [alice, bob, carol])

end Courier.Group
