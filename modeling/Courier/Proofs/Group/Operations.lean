import Courier.Proofs.Group.Plans

/-!
# What group operations are made of

A group operation sends, asks for what is missing and stores a roster. A relation that all of this
keeps is kept by the operation, also by one that fails half way.
-/

namespace Courier.Client.KeptBySending

open Courier.Group

variable {τ : Type} {R : Client τ → Client τ → Prop} (h : KeptBySending R)
include h

theorem ensureGroup (group : Entity) : Keeps R (ensureGroup group : Action τ GroupError Unit) := by
  unfold Group.ensureGroup
  split
  · exact Keeps.pure h.toComposes _
  · exact Keeps.throw h.toComposes _

theorem sendToAll (group : Entity) (command : Command) (receivers : List Entity) :
    Keeps R (sendToAll group command receivers : Action τ GroupError Unit) := by
  induction receivers with
  | nil => exact Keeps.pure h.toComposes _
  | cons receiver rest ih =>
    refine Keeps.bind h.toComposes (h.newContent _) fun content => ?_
    exact Keeps.bind h.toComposes (h.sendContent _ _ _ _).messaging fun _ => ih

theorem deferred (group : Entity) : Keeps R (deferred group : Action τ GroupError Bool) :=
  Keeps.bind h.toComposes (h.inquiring.queryMembers group).messaging fun _ =>
    Keeps.pure h.toComposes _

theorem sendToFirst (content : Content) (bots : List Entity) :
    Keeps R (sendToFirst content bots : Action τ GroupError Bool) := by
  induction bots with
  | nil => exact Keeps.pure h.toComposes _
  | cons bot rest ih =>
    refine Keeps.bind h.toComposes (h.sendContent _ _ _ _).messaging fun taken => ?_
    cases taken with
    | none => exact ih
    | some m => exact Keeps.pure h.toComposes _

theorem send (group : Entity) (content : Content) :
    Keeps R (Group.send group content : Action τ GroupError Bool) := by
  refine Keeps.bind h.toComposes (h.ensureGroup group) fun _ => ?_
  refine Keeps.bind h.toComposes (Keeps.directory h.toComposes) fun d => ?_
  dsimp only
  split
  · exact h.deferred group
  · exact h.sendToFirst _ _

theorem query (group : Entity) : Keeps R (Group.query group : Action τ GroupError Bool) :=
  Keeps.bind h.toComposes (h.ensureGroup group) fun _ => (h.inquiring.queryMembers group).messaging

theorem sendRounds (group : Entity) (rounds : List Round) :
    Keeps R (sendRounds group rounds : Action τ GroupError Unit) := by
  induction rounds with
  | nil => exact Keeps.pure h.toComposes _
  | cons r rounds ih =>
    exact Keeps.bind h.toComposes (h.sendToAll group r.command r.receivers) fun _ => ih

theorem change (hroster : ∀ group members,
      Keeps R (saveMembers group members : Action τ GroupError Bool))
    (group : Entity) (change : Change) :
    Keeps R (change.perform group : Action τ GroupError Bool) := by
  intro c
  have hR := h.toComposes
  have hcourse := perform_course change group c
  generalize attempt (change.perform group) c = r at hcourse ⊢
  cases hcourse with
  | forbidden he => exact hR.refl c
  | nobody hu => exact hR.refl c
  | pointless => exact hR.refl c
  | waits q => exact Keeps.bind hR (h.inquiring.ask q).messaging (fun _ => Keeps.pure hR _) c
  | planned hplan => exact Keeps.bind hR (h.sendRounds group _) (fun _ => hroster group _) c

end Courier.Client.KeptBySending
