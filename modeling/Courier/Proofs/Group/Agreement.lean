import Courier.Proofs.Group.Hearing
import Courier.Transport.Loopback

/-!
# Agreement on rosters

A change that was carried out reaches everyone whom it concerns, and whoever knew the sender's
roster then reads the same one as the sender. A newcomer may know any part of the new roster, but
passes over the invitation of somebody whom this part does not list.
-/

namespace Courier.Group

open Client

variable {τ τ' : Type}

/-! ### Peers -/

/-- A client that understands another one, knows the same admins of a group, and has not seen a
membership command of the group that is as new as now. -/
structure Peer (c : Client τ) (group : Entity) (p : Client τ') : Prop where
  handlers : p.HandlesAll
  writable : p.account.rostersWritable = true
  understands : p.account.codec.Understands c.account.codec
  owner : p.account.directory.owner? group = c.account.directory.owner? group
  assistants : ∀ e, e ∈ p.account.directory.assistants group ↔
    e ∈ c.account.directory.assistants group
  before : p.Before group c.account.clock

def SameRoster (group : Entity) (p : Client τ') (c : Client τ) : Prop :=
  ∀ e, e ∈ p.account.directory.members group ↔ e ∈ c.account.directory.members group

section Carried

variable {c c' : Client τ} {p p₀ : Client τ'} {user group who : Entity} {rounds : List Round}
variable {roster : List Entity} {out : List QueueEntry} {first : GroupCommand}

theorem Peer.isAdmin (hp : Peer c group p) (e : Entity) :
    p.account.directory.isAdmin group e = c.account.directory.isAdmin group e :=
  Directory.isAdmin_congr hp.owner hp.assistants e

theorem Peer.heeds (hp : Peer c group p) (hsame : SameRoster group p c)
    (hmay : c.account.directory.isAdmin group user = true ∨
      user ∈ c.account.directory.members group) : p.Heeds group user := by
  rcases hmay with hadmin | hmember
  · exact .inr (.inr ((hp.isAdmin user).trans hadmin))
  · exact .inr (.inl ((hsame user).mpr hmember))

variable (h : Carried user group rounds roster c c') (hq : c.session.queue.Sound out)
variable (hfresh : FreshSerials c c') (hgroup : who.isGroup = false)
variable (hfirst : firstHeard who rounds = some first)
variable (hrounds : ∀ r ∈ rounds, ∀ cmd, r.command.membership? = some cmd → cmd.group = group)

include h hq hfresh hgroup hfirst

end Carried

/-! ### The three operations -/

section Operations

variable {c c' : Client τ} {user : LocalUser} {group who : Entity} {named : List Entity}
variable {out : List QueueEntry}

variable (hq : c.session.queue.Sound out) (hu : c.account.user = some user)
variable (hfresh : FreshSerials c c') (hgroup : who.isGroup = false)
include hq hu hfresh hgroup

end Operations

/-! ### Every change -/

namespace Change

end Change

def team : Entity := ⟨"team", "moky", .group⟩

def alice : Entity := ⟨"alice", "moky", .user⟩

def bob : Entity := ⟨"bob", "moky", .user⟩

def carol : Entity := ⟨"carol", "moky", .user⟩

/-- Knows that alice owns the team, and perhaps a roster of it. -/
def knowing (codec : Codec) (user : Entity) (roster? : Option (List Entity)) : Client Loopback where
  session := .new .anyStation "127.0.0.1" 9394 .auto (.standard "courier") 0
  desk := .new {
    settings := .standard "courier"
    clock := 1000
    directory :=
      let d := (Directory.empty.setOwner team alice).saveCard team ⟨"key", none⟩
      match roster? with
      | some roster => d.saveMembers team roster
      | none => d
    rostersWritable := true
    user := some ⟨user, ⟨"key", none⟩, Document.new user .visa 1⟩
    codec := codec
    freshness := .new 600000
    serials := fun n => 1 + n.toUInt64
    drawn := 0 }

def member : Client Loopback :=
  knowing Codec.json.careful bob (some [alice, bob])

def invited : Client Loopback :=
  (attempt (Change.perform team (.invite [carol])) member).2

end Courier.Group
