import Courier.Client.Inbound

/-!
# Actions

How an action of a client ends and what it leaves behind, step by step, and relations between the
clients before and after that hold of an action because they hold of its parts.
-/

namespace Courier.Client

variable {τ ε : Type} {α β : Type}

/-- How an action ends, and the client afterwards. -/
def attempt (a : Action τ ε α) (c : Client τ) : Except ε α × Client τ :=
  a.run.run c

theorem doing_eq (a : Action τ ε α) (c : Client τ) : doing a c = (attempt a c).2 := rfl

section Steps

variable (c : Client τ)

@[simp] theorem attempt_pure (x : α) : attempt (pure x : Action τ ε α) c = (.ok x, c) := rfl

@[simp] theorem attempt_throw (e : ε) : attempt (throw e : Action τ ε α) c = (.error e, c) := rfl

@[simp] theorem attempt_get : attempt (get : Action τ ε (Client τ)) c = (.ok c, c) := rfl

@[simp] theorem attempt_set (c' : Client τ) :
    attempt (set c' : Action τ ε PUnit) c = (.ok ⟨⟩, c') := rfl

@[simp] theorem attempt_modify (f : Client τ → Client τ) :
    attempt (modify f : Action τ ε PUnit) c = (.ok ⟨⟩, f c) := rfl

@[simp] theorem attempt_bind (a : Action τ ε α) (f : α → Action τ ε β) :
    attempt (a >>= f) c =
      match attempt a c with
      | (.ok x, c') => attempt (f x) c'
      | (.error e, c') => (.error e, c') := by
  simp only [attempt, ExceptT.run_bind, StateT.run_bind]
  change (match (a.run.run c).1 with
    | .ok x => (f x).run
    | .error e => pure (.error e)).run (a.run.run c).2 = _
  rcases a.run.run c with ⟨_ | x, c'⟩ <;> rfl

@[simp] theorem attempt_map (f : α → β) (a : Action τ ε α) :
    attempt (f <$> a) c =
      match attempt a c with
      | (.ok x, c') => (.ok (f x), c')
      | (.error e, c') => (.error e, c') := by
  rw [map_eq_pure_bind, attempt_bind]
  rfl

@[simp] theorem attempt_messaging (a : Action τ MessengerError α) :
    attempt (messaging a) c =
      match attempt a c with
      | (.ok x, c') => (.ok x, c')
      | (.error e, c') => (.error (.messenger e), c') := by
  change (((a.run.run c).1.mapError GroupError.messenger, (a.run.run c).2) :
    Except GroupError α × Client τ) = _
  unfold attempt
  rcases a.run.run c with ⟨_ | x, c'⟩ <;> rfl

@[simp] theorem attempt_directory :
    attempt (directory : Action τ ε Directory) c = (.ok c.account.directory, c) := rfl

end Steps

theorem attempt_bind_ok {a : Action τ ε α} {f : α → Action τ ε β} {c c' : Client τ} {y : β}
    (h : attempt (a >>= f) c = (.ok y, c')) :
    ∃ x c₁, attempt a c = (.ok x, c₁) ∧ attempt (f x) c₁ = (.ok y, c') := by
  rw [attempt_bind] at h
  rcases ha : attempt a c with ⟨e | x, c₁⟩
  · rw [ha] at h
    cases h
  · rw [ha] at h
    exact ⟨x, c₁, rfl, h⟩

theorem attempt_messaging_ok {a : Action τ MessengerError α} {c c' : Client τ} {x : α}
    (h : attempt (messaging a) c = (.ok x, c')) : attempt a c = (.ok x, c') := by
  rw [attempt_messaging] at h
  rcases ha : attempt a c with ⟨e | y, c₁⟩
  · rw [ha] at h
    cases h
  · rw [ha] at h
    cases h
    rfl

theorem attempt_eq_of_toOption {a : Action τ ε α} {c : Client τ} {x : α}
    (h : (attempt a c).1.toOption = some x) : attempt a c = (.ok x, (attempt a c).2) := by
  generalize attempt a c = r at h ⊢
  rcases r with ⟨_ | y, c'⟩
  · cases h
  · cases h
    rfl

/-! ### Relations that actions keep -/

/-- A relation that holds of doing nothing, and of two things done in turn if it holds of each. -/
structure Composes (R : Client τ → Client τ → Prop) : Prop where
  refl : ∀ c, R c c
  trans : ∀ {a b c}, R a b → R b c → R a c

/-- The action leads to related clients, however it ends. -/
def Keeps (R : Client τ → Client τ → Prop) (a : Action τ ε α) : Prop :=
  ∀ c, R c (attempt a c).2

namespace Keeps

variable {R : Client τ → Client τ → Prop} (hR : Composes R)

theorem mono {S : Client τ → Client τ → Prop} {a : Action τ ε α} (ha : Keeps R a)
    (h : ∀ {c c'}, R c c' → S c c') : Keeps S a :=
  fun c => h (ha c)

include hR

theorem pure (x : α) : Keeps R (Pure.pure x : Action τ ε α) := hR.refl

theorem throw (e : ε) : Keeps R (MonadExcept.throw e : Action τ ε α) := hR.refl

theorem get : Keeps R (MonadState.get : Action τ ε (Client τ)) := hR.refl

theorem bind {a : Action τ ε α} {f : α → Action τ ε β} (ha : Keeps R a)
    (hf : ∀ x, Keeps R (f x)) : Keeps R (a >>= f) := by
  intro c
  have h := ha c
  rw [attempt_bind]
  rcases hc : attempt a c with ⟨e | x, c₁⟩
  · rwa [hc] at h
  · rw [hc] at h
    exact hR.trans h (hf x c₁)

theorem directory : Keeps R (Client.directory : Action τ ε Directory) := hR.refl

theorem currentUser : Keeps R (Client.currentUser : Action τ MessengerError LocalUser) := by
  intro c
  unfold Client.currentUser
  rw [attempt_bind, attempt_get]
  dsimp only
  cases c.account.user with
  | none => exact hR.refl c
  | some user => exact hR.refl c

theorem saveMembers {group : Entity} {members : List Entity}
    (h : ∀ c, R c (c.modifyDirectory (·.saveMembers group members))) :
    Keeps R (Client.saveMembers group members : Action τ ε Bool) := by
  intro c
  rw [Client.saveMembers, attempt_bind, attempt_get]
  dsimp only
  split
  · exact h c
  · exact hR.refl c

omit hR in
theorem messaging {a : Action τ MessengerError α} (ha : Keeps R a) :
    Keeps R (Client.messaging a) := by
  intro c
  have h := ha c
  rw [attempt_messaging]
  rcases hc : attempt a c with ⟨e | x, c₁⟩
  · rwa [hc] at h
  · rwa [hc] at h

end Keeps

end Courier.Client
