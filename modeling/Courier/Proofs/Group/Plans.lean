import Courier.Group
import Courier.Proofs.Client.Cooldowns

/-!
# What a group operation comes to

An operation that is not put off or refused has a plan: rounds of sending one command to some
parties, and a roster that is stored when all of them are through. The plan follows from what the
client knows before.
-/

namespace Courier

/-- A command and those to whom it is sent. -/
structure Round where
  command : Command
  receivers : List Entity

namespace Group

open Client

variable {τ : Type}

/-! ### Plans -/

def inviteRounds (group : Entity) (bundle : Command) (bots members added : List Entity) :
    List Round :=
  let whole : Command := .group (.invite group (members ++ added))
  let news : Command := .group (.invite group added)
  if members.length ≤ 2 then [⟨bundle, bots⟩, ⟨whole, bots⟩, ⟨whole, members ++ added⟩]
  else [⟨bundle, added⟩, ⟨news, bots⟩, ⟨news, members⟩, ⟨whole, added⟩]

def leaveRounds (command : Command) (bots members : List Entity) (owner : Entity) : List Round :=
  if members.contains owner then [⟨command, bots⟩, ⟨command, members⟩]
  else [⟨command, bots⟩, ⟨command, members⟩, ⟨command, [owner]⟩]

structure Plan where
  rounds : List Round
  roster : List Entity

def sendRounds (group : Entity) : List Round → Action τ GroupError Unit
  | [] => return
  | r :: rounds => do
    sendToAll group r.command r.receivers
    sendRounds group rounds

def Plan.run (group : Entity) (plan : Plan) : Action τ GroupError Bool := do
  sendRounds group plan.rounds
  saveMembers group plan.roster

inductive Change where
  | invite (named : List Entity)
  | expel (named : List Entity)
  | quit

namespace Change

def perform (group : Entity) : Change → Action τ GroupError Bool
  | invite named => Group.invite group named
  | expel named => Group.expel group named
  | quit => Group.quit group

/-- The plan is what a change comes to for a user. -/
def Plans (d : Directory) (user : Option LocalUser) (group : Entity) (plan : Plan) : Change → Prop
  | invite named => ∃ bundle members, bundle.membership? = none ∧
      d.members? group = some members ∧ newcomers members named ≠ [] ∧
      plan = ⟨inviteRounds group bundle (d.assistants group) members (newcomers members named),
        members ++ newcomers members named⟩
  | expel named => ∃ owner members, d.owner? group = some owner ∧
      d.members? group = some members ∧ owner ∉ named ∧
      (∀ bot ∈ d.assistants group, bot ∉ named) ∧
      (without members named).length ≠ members.length ∧
      plan = ⟨leaveRounds (.group (.expel group named)) (d.assistants group) members owner,
        without members named⟩
  | quit => ∃ self owner members, user = some self ∧ d.owner? group = some owner ∧
      d.members? group = some members ∧ owner ≠ self.id ∧ self.id ∉ d.assistants group ∧
      plan = ⟨leaveRounds (.group (.quit group)) (d.assistants group)
        (without members [self.id]) owner, without members [self.id]⟩

end Change

/-! ### What becomes of an operation -/

/-- All that can become of a change: it is forbidden, or there is nobody to make it, or it changes
nothing, or what has to be known first is asked for, or it has a plan. -/
inductive Course (c : Client τ) (group : Entity) (change : Change) :
    Except GroupError Bool × Client τ → Prop
  | forbidden {e : GroupError} : e.isViolation = true → Course c group change (.error e, c)
  | nobody : c.account.user = none →
      Course c group change (.error (.messenger .missingIdentity), c)
  | pointless : Course c group change (.ok false, c)
  | waits (q : Query) : Course c group change
      (attempt (messaging q.ask >>= fun _ => (pure false : Action τ GroupError Bool)) c)
  | planned {plan : Plan} : change.Plans c.account.directory c.account.user group plan →
      Course c group change (attempt (plan.run group) c)

section

variable {group : Entity} {change : Change} {c : Client τ}

theorem course_ensureGroup {k : Unit → Action τ GroupError Bool}
    (h : Course c group change (attempt (k ()) c)) :
    Course c group change (attempt (ensureGroup group >>= k) c) := by
  rw [attempt_bind, ensureGroup]
  by_cases hgroup : (group.isGroup && !group.isBroadcast) = true
  · rw [if_pos hgroup]
    exact h
  · rw [if_neg hgroup]
    exact .forbidden rfl

end

theorem run_leaveRounds (group owner : Entity) (command : Command)
    (bots members roster : List Entity) :
    (Plan.run group ⟨leaveRounds command bots members owner, roster⟩ : Action τ GroupError Bool) =
      (do
        sendToAll group command bots
        sendToAll group command members
        tellOwner group command owner members
        saveMembers group roster) := by
  unfold Plan.run leaveRounds tellOwner
  split <;> simp only [sendRounds, bind_assoc, pure_bind]

theorem invite_course (group : Entity) (named : List Entity) (c : Client τ) :
    Course c group (.invite named) (attempt (invite group named) c) := by
  refine course_ensureGroup ?_
  rw [attempt_bind, attempt_directory]
  dsimp only
  cases c.account.directory.card? group with
  | none => exact .waits (.card group)
  | some card =>
    cases hmembers : c.account.directory.members? group with
    | none => exact .waits (.members group)
    | some members =>
      dsimp only
      split
      · exact .pointless
      · rename_i hadded
        have hbundle : (bundle c.account.directory group card).membership? = none := by
          unfold bundle
          split <;> rfl
        have hplan : (Change.invite named).Plans c.account.directory c.account.user group
            ⟨inviteRounds group (bundle c.account.directory group card)
              (c.account.directory.assistants group) members (newcomers members named),
              members ++ newcomers members named⟩ :=
          ⟨_, members, hbundle, hmembers, by simpa using hadded, rfl⟩
        refine (congrArg (Course c group (.invite named)) ?_).mpr (.planned hplan)
        unfold Plan.run inviteRounds
        split <;> simp only [sendRounds, bind_assoc, pure_bind]

theorem expel_course (group : Entity) (named : List Entity) (c : Client τ) :
    Course c group (.expel named) (attempt (expel group named) c) := by
  refine course_ensureGroup ?_
  rw [attempt_bind, attempt_directory]
  dsimp only
  cases hbot : named.find? (c.account.directory.assistants group).contains with
  | some bot => exact .forbidden rfl
  | none =>
    cases hfilter : (c.account.directory.owner? group).filter named.contains with
    | some owner => exact .forbidden rfl
    | none =>
      cases howner : c.account.directory.owner? group with
      | none => exact .waits (.members group)
      | some owner =>
        cases hmembers : c.account.directory.members? group with
        | none => exact .waits (.members group)
        | some members =>
          dsimp only
          split
          · exact .pointless
          · rename_i hlength
            have hnamed : owner ∉ named := by
              rw [howner] at hfilter
              simpa using hfilter
            have hbots : ∀ bot ∈ c.account.directory.assistants group, bot ∉ named := by
              intro bot hmem hnamed
              have := List.find?_eq_none.mp hbot bot hnamed
              simp [hmem] at this
            rw [← run_leaveRounds]
            exact .planned ⟨owner, members, howner, hmembers, hnamed, hbots, hlength, rfl⟩

theorem quit_course (group : Entity) (c : Client τ) :
    Course c group .quit (attempt (quit group) c) := by
  refine course_ensureGroup ?_
  rw [attempt_bind, attempt_messaging, attempt_currentUser]
  cases huser : c.account.user with
  | none => exact .nobody huser
  | some self =>
    dsimp only
    rw [attempt_bind, attempt_directory]
    dsimp only
    split
    · exact .forbidden rfl
    · rename_i hbots
      split
      · exact .forbidden rfl
      · rename_i hself
        cases howner : c.account.directory.owner? group with
        | none => exact .waits (.members group)
        | some owner =>
          cases hmembers : c.account.directory.members? group with
          | none => exact .waits (.members group)
          | some members =>
            have hother : owner ≠ self.id := fun heq => hself (howner.trans (congrArg some heq))
            dsimp only
            rw [← run_leaveRounds]
            exact .planned ⟨self, owner, members, huser, howner, hmembers, hother,
              by simpa using hbots, rfl⟩

theorem perform_course (change : Change) (group : Entity) (c : Client τ) :
    Course c group change (attempt (change.perform group) c) := by
  cases change with
  | invite named => exact invite_course group named c
  | expel named => exact expel_course group named c
  | quit => exact quit_course group c

/-! ### Operations without a plan -/

/-- Nothing was done, but missing records may have been asked for. -/
def Idle (c : Client τ) (r : Except GroupError Bool × Client τ) : Prop :=
  r.1 ≠ .ok true ∧ Asks c r.2

def ComesTo (c : Client τ) (group : Entity) (P : Plan → Prop)
    (r : Except GroupError Bool × Client τ) : Prop :=
  (∃ plan, P plan ∧ r = attempt (plan.run group) c) ∨ Idle c r

theorem idle_asking (q : Query) (c : Client τ) :
    Idle c (attempt (messaging q.ask >>= fun _ => (pure false : Action τ GroupError Bool)) c) := by
  have hasks : Asks c (attempt (messaging q.ask) c).2 := (inquiring_asks.ask q).messaging c
  rw [attempt_bind]
  rcases hr : attempt (messaging q.ask) c with ⟨e | x, c'⟩
  · rw [hr] at hasks
    exact ⟨nofun, hasks⟩
  · rw [hr] at hasks
    exact ⟨nofun, hasks⟩

theorem perform_comesTo (change : Change) (group : Entity) (c : Client τ) :
    ComesTo c group (change.Plans c.account.directory c.account.user group)
      (attempt (change.perform group) c) := by
  have hcourse := perform_course change group c
  generalize attempt (change.perform group) c = r at hcourse ⊢
  cases hcourse with
  | forbidden he => exact .inr ⟨nofun, composes_asks.refl c⟩
  | nobody hu => exact .inr ⟨nofun, composes_asks.refl c⟩
  | pointless => exact .inr ⟨nofun, composes_asks.refl c⟩
  | waits q => exact .inr (idle_asking q c)
  | planned hplan => exact .inl ⟨_, hplan, rfl⟩

end Group

end Courier
