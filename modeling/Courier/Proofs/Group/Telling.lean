import Courier.Proofs.Group.Plans

/-!
# Who is told what

A group operation goes through rounds of sending one command to some parties. Whatever a party is
told in later rounds has the same time as what it is told first, so only the first counts for it.
-/

namespace Courier

/-- The membership change that a party hears of first. -/
def firstHeard (who : Entity) (rounds : List Round) : Option GroupCommand :=
  rounds.findSome? fun r => if who ∈ r.receivers then r.command.membership? else none

theorem firstHeard_append (who : Entity) (rounds rounds' : List Round) :
    firstHeard who (rounds ++ rounds') = (firstHeard who rounds).or (firstHeard who rounds') :=
  List.findSome?_append

def changesFor (who : Entity) (ls : List Letter) : List MembershipChange :=
  (ls.filter (·.message.receiver = who)).filterMap Letter.change?

theorem changesFor_append (who : Entity) (ls ls' : List Letter) :
    changesFor who (ls ++ ls') = changesFor who ls ++ changesFor who ls' := by
  simp [changesFor]

namespace Client

variable {τ : Type}

/-- Between the two moments the rounds took place, and no other membership change was told. -/
def Announced (user : Entity) (rounds : List Round) (c c' : Client τ) : Prop :=
  ∃ ls, Sent c c' ls ∧
    (∀ l ∈ ls, ∀ ch, l.change? = some ch → ch.sender = user ∧ ch.time = c.account.clock ∧
      ∃ r ∈ rounds, r.command.membership? = some ch.command) ∧
    ∀ who, who.isGroup = false →
      (changesFor who ls).head? = (firstHeard who rounds).map (⟨user, c.account.clock, ·⟩)

theorem Announced.trans {user : Entity} {rounds rounds' : List Round} {a b c : Client τ}
    (h : Announced user rounds a b) (h' : Announced user rounds' b c) :
    Announced user (rounds ++ rounds') a c := by
  obtain ⟨ls, hsent, honly, hfirst⟩ := h
  obtain ⟨ls', hsent', honly', hfirst'⟩ := h'
  have hclock := hsent.fields.2.1
  refine ⟨ls ++ ls', hsent.trans hsent', ?_, ?_⟩
  · intro l hl ch hch
    rcases List.mem_append.mp hl with hl | hl
    · obtain ⟨hs, ht, r, hr, hcmd⟩ := honly l hl ch hch
      exact ⟨hs, ht, r, List.mem_append_left _ hr, hcmd⟩
    · obtain ⟨hs, ht, r, hr, hcmd⟩ := honly' l hl ch hch
      exact ⟨hs, ht.trans hclock, r, List.mem_append_right _ hr, hcmd⟩
  · intro who hwho
    rw [changesFor_append, List.head?_append, hfirst who hwho, hfirst' who hwho, hclock,
      firstHeard_append]
    cases firstHeard who rounds <;> rfl

end Client

/-! ### Plans that were carried out -/

namespace Group

open Client

variable {τ : Type} {user : LocalUser} {group : Entity} {c c' : Client τ}

/-- The rounds took place, and then the roster was stored. -/
def Carried (user group : Entity) (rounds : List Round) (roster : List Entity) (c c' : Client τ) :
    Prop :=
  ∃ c₁, Announced user rounds c c₁ ∧ c' = c₁.modifyDirectory (·.saveMembers group roster)

end Group

end Courier
