import Courier.Proofs.Client.Cooldowns
import Courier.Proofs.Client.Handling

/-!
# The ledger of cooldowns

Two things happen to the cooldowns of a client: a query is granted, which starts its own, and a
session fails, which ends all of them. The ledger lists both between two moments. It accounts for
every cooldown at the end, and as long as nothing fails it grants no query a second time before its
cooldown is over.
-/

namespace Courier.Client

variable {τ ε : Type}

inductive CooldownEvent where
  /-- A query was granted, at this time. -/
  | granted (key : FreshnessKey) (time : Millis)
  /-- A session went into the error phase. -/
  | failed (t : Transition)
  deriving DecidableEq

namespace CooldownEvent

def breakdown? : CooldownEvent → Option Transition
  | granted _ _ => none
  | failed t => some t

end CooldownEvent

def period (c : Client τ) : Millis :=
  c.account.freshness.cooldowns.period

def resetCooldowns (c : Client τ) : Client τ :=
  c.modifyAccount fun a => { a with freshness := a.freshness.resetCooldowns }

/-- Time may have gone by, and no cooldown was touched. -/
structure Rests (c c' : Client τ) : Prop where
  clock : c.account.clock ≤ c'.account.clock
  cooldowns : c'.account.freshness.cooldowns = c.account.freshness.cooldowns

/-- The events are what happened to the cooldowns between the two moments. -/
inductive Ledger : Client τ → List CooldownEvent → Client τ → Prop where
  | nil (c : Client τ) : Ledger c [] c
  | rest {c c₁ c' : Client τ} {es : List CooldownEvent} (h : c.Rests c₁) (l : Ledger c₁ es c') :
      Ledger c es c'
  | grant {c c' : Client τ} {key : FreshnessKey} {es : List CooldownEvent} (h : ¬c.Cooling key)
      (l : Ledger (c.arm key) es c') : Ledger c (.granted key c.account.clock :: es) c'
  | fail {c c' : Client τ} {t : Transition} {es : List CooldownEvent}
      (h : t.target.phase = .error) (l : Ledger c.resetCooldowns es c') :
      Ledger c (.failed t :: es) c'

theorem le_of_not_cooling {c : Client τ} {key : FreshnessKey} {u : Millis} (h : ¬c.Cooling key)
    (hu : c.coolsUntil? key = some u) : u ≤ c.account.clock := by
  apply UInt64.not_lt.mp
  intro hlt
  exact h (cooling_iff.mpr ⟨u, hu, hlt⟩)

theorem Rests.coolsUntil? {c c' : Client τ} (h : c.Rests c') (key : FreshnessKey) :
    c'.coolsUntil? key = c.coolsUntil? key := by
  rw [Client.coolsUntil?, h.cooldowns, Client.coolsUntil?]

namespace Ledger

variable {c c₁ c' : Client τ} {es es' : List CooldownEvent} {key : FreshnessKey}

theorem append (l : Ledger c es c₁) (l' : Ledger c₁ es' c') : Ledger c (es ++ es') c' := by
  induction l with
  | nil => exact l'
  | rest h _ ih => exact .rest h (ih l')
  | grant h _ ih => exact .grant h (ih l')
  | fail h _ ih => exact .fail h (ih l')

/-- A cooldown that runs, or is over, is over when the same query is granted next. -/
theorem le_of_granted (l : Ledger c es c') {u t : Millis} {between after : List CooldownEvent}
    (hu : c.coolsUntil? key = some u ∨ u ≤ c.account.clock)
    (hes : es = between ++ .granted key t :: after) (hbetween : ∀ f, .failed f ∉ between) :
    u ≤ t := by
  induction l generalizing between with
  | nil => simp at hes
  | rest h _ ih =>
    apply ih _ hes hbetween
    rcases hu with hu | hu
    · exact .inl ((h.coolsUntil? key).trans hu)
    · exact .inr (UInt64.le_trans hu h.clock)
  | @grant c c' k es hk _ ih =>
    have hover (heq : k = key) : u ≤ c.account.clock := by
      rcases hu with hu | hu
      · exact le_of_not_cooling (heq ▸ hk) hu
      · exact hu
    cases between with
    | nil =>
      obtain ⟨hevent, -⟩ := List.cons.inj hes
      obtain ⟨heq, htime⟩ := CooldownEvent.granted.inj hevent
      exact htime ▸ hover heq
    | cons e between =>
      obtain ⟨-, hrest⟩ := List.cons.inj hes
      refine ih ?_ hrest fun f hf => hbetween f (List.mem_cons_of_mem e hf)
      by_cases heq : k = key
      · exact .inr (hover heq)
      · rcases hu with hu | hu
        · exact .inl (((coolsUntil?_arm c k key).trans (if_neg (Ne.symm heq))).trans hu)
        · exact .inr hu
  | fail _ _ ih =>
    cases between with
    | nil =>
      obtain ⟨hevent, -⟩ := List.cons.inj hes
      cases hevent
    | cons e between =>
      obtain ⟨hevent, -⟩ := List.cons.inj hes
      rw [← hevent] at hbetween
      exact absurd List.mem_cons_self (hbetween _)

/-- Unless a failure comes between them, two grants of one query are a cooldown apart. -/
theorem spaced (l : Ledger c es c') {t₁ t₂ : Millis} {before between after : List CooldownEvent}
    (hes : es = before ++ .granted key t₁ :: (between ++ .granted key t₂ :: after))
    (hbetween : ∀ f, .failed f ∉ between) : Millis.later t₁ c.period ≤ t₂ := by
  induction l generalizing before with
  | nil => simp at hes
  | rest h _ ih =>
    have hperiod := congrArg Cooldowns.period h.cooldowns
    have hlater := ih hes
    rwa [period, hperiod] at hlater
  | @grant c c' k es hk l ih =>
    cases before with
    | nil =>
      obtain ⟨hevent, hrest⟩ := List.cons.inj hes
      obtain ⟨rfl, rfl⟩ := CooldownEvent.granted.inj hevent
      apply l.le_of_granted _ hrest hbetween
      exact .inl ((coolsUntil?_arm c k k).trans (if_pos rfl))
    | cons e before =>
      obtain ⟨-, hrest⟩ := List.cons.inj hes
      exact ih hrest
  | fail _ _ ih =>
    cases before with
    | nil =>
      obtain ⟨hevent, -⟩ := List.cons.inj hes
      cases hevent
    | cons e before =>
      obtain ⟨-, hrest⟩ := List.cons.inj hes
      exact ih hrest

end Ledger

/-! ### Everything but a failure -/

end Courier.Client
