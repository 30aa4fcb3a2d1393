import Courier.Proofs.Group.Operations

/-!
# What a group operation stores

An operation stores the roster of its plan when everything was sent, and otherwise leaves the
directory as it was.
-/

namespace Courier.Group

open Client

variable {τ : Type}

def SameDirectory (c c' : Client τ) : Prop :=
  c'.account.directory = c.account.directory

theorem composes_sameDirectory : Composes (SameDirectory : Client τ → Client τ → Prop) where
  refl _ := rfl
  trans h h' := h'.trans h

theorem keptBySending_sameDirectory :
    KeptBySending (SameDirectory : Client τ → Client τ → Prop) where
  toComposes := composes_sameDirectory
  newContent _ _ := rfl
  requestQuery _ _ := rfl
  sendInstant m priority _ := Keeps.sendInstant composes_sameDirectory fun c b _ =>
    congrArg Account.directory (c.submitted_fields ⟨m, b⟩ priority).1

theorem run_directory (plan : Plan) (group : Entity) (c : Client τ) :
    let r := attempt (plan.run group) c
    (r.1 = .ok true ∧ r.2.account.directory = c.account.directory.saveMembers group plan.roster) ∨
      r.1 ≠ .ok true ∧ r.2.account.directory = c.account.directory := by
  intro r
  have hsame := keptBySending_sameDirectory.sendRounds group plan.rounds c
  have hr : r = attempt (plan.run group) c := rfl
  rw [Plan.run, attempt_bind] at hr
  -- Whatever stops the rounds, the roster is stored behind them.
  rcases hrounds : attempt (sendRounds group plan.rounds) c with ⟨e | _, c₁⟩
  · rw [hrounds] at hr hsame
    exact .inr ⟨by simp [hr], hr ▸ hsame⟩
  · rw [hrounds] at hr hsame
    dsimp only at hr
    rw [saveMembers, attempt_bind, attempt_get] at hr
    have hsame : c₁.account.directory = c.account.directory := hsame
    dsimp only at hr
    split at hr
    · refine .inl ⟨hr ▸ rfl, ?_⟩
      rw [hr, ← hsame]
      rfl
    · exact .inr ⟨by simp [hr], hr ▸ hsame⟩

theorem perform_directory (change : Change) (group : Entity) (c : Client τ) :
    let r := attempt (change.perform group) c
    (r.1 = .ok true ∧ ∃ plan, change.Plans c.account.directory c.account.user group plan ∧
        r.2.account.directory = c.account.directory.saveMembers group plan.roster) ∨
      r.1 ≠ .ok true ∧ r.2.account.directory = c.account.directory := by
  intro r
  rcases perform_comesTo change group c with ⟨plan, hplan, hrun⟩ | ⟨hidle, ls, hsent, -⟩
  · have hr : r = attempt (plan.run group) c := hrun
    rw [hr]
    exact (run_directory plan group c).imp_left fun h => ⟨h.1, plan, hplan, h.2⟩
  · exact .inr ⟨hidle, hsent.fields.2.2.2⟩

end Courier.Group
