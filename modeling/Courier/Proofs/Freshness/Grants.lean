import Courier.Freshness
import Mathlib.Data.List.Induction

/-!
# Which requests are granted

Of every key only the end of one cooldown is recorded. A forced request overwrites it and a clearing
wipes it out, and still it tells all that matters of the history: as long as the clock does not go
back, the last grant of a key has the latest end. So a request is refused just if some grant since
the last clearing is younger than the period, and whatever was refused might as well not have been
asked.
-/

namespace Courier

theorem Millis.later_le_later {s t : Millis} (h : s ≤ t) (delay : Millis) :
    later s delay ≤ later t delay := by
  rw [UInt64.le_iff_toNat_le] at h ⊢
  rw [toNat_later, toNat_later]
  omega

inductive CooldownCall (κ : Type) where
  | request (key : κ) (now : Millis) (force : Bool)
  | clear

namespace CooldownCall

variable {κ : Type}

def time? : CooldownCall κ → Option Millis
  | request _ now _ => some now
  | clear => none

/-- No request is made at an earlier time than one before it. -/
def Orderly (calls : List (CooldownCall κ)) : Prop :=
  (calls.filterMap time?).Pairwise (· ≤ ·)

instance (calls : List (CooldownCall κ)) : Decidable (Orderly calls) :=
  inferInstanceAs (Decidable (List.Pairwise _ _))

theorem Orderly.of_append {before after : List (CooldownCall κ)} (h : Orderly (before ++ after)) :
    Orderly before := by
  rw [Orderly, List.filterMap_append] at h
  exact (List.pairwise_append.mp h).1

theorem Orderly.le_last {calls : List (CooldownCall κ)} {key k : κ} {now time : Millis}
    {force f : Bool} (h : Orderly (calls ++ [request k now force]))
    (hmem : request key time f ∈ calls) : time ≤ now := by
  rw [Orderly, List.filterMap_append] at h
  obtain ⟨-, -, hlast⟩ := List.pairwise_append.mp h
  exact hlast time (List.mem_filterMap.mpr ⟨_, hmem, rfl⟩) now List.mem_cons_self

end CooldownCall

namespace Cooldowns

variable {κ : Type} [DecidableEq κ]

def call (c : Cooldowns κ) : CooldownCall κ → Cooldowns κ
  | .request key now force => (c.request key now force).2
  | .clear => c.clear

def calls (c : Cooldowns κ) (cs : List (CooldownCall κ)) : Cooldowns κ :=
  cs.foldl call c

/-- A request for the key was granted at this time, and nothing was cleared since. -/
def Granted (c : Cooldowns κ) (cs : List (CooldownCall κ)) (key : κ) (time : Millis) : Prop :=
  ∃ before force after, cs = before ++ .request key time force :: after ∧
    ((c.calls before).request key time force).1 = true ∧ .clear ∉ after

/-! ### One call -/

def endsAt? (c : Cooldowns κ) (key : κ) : Option Millis :=
  c.ends.get? key

section Steps

variable {c : Cooldowns κ} {key : κ} {now : Millis}

theorem isCooling_iff : c.isCooling key now = true ↔ ∃ u, c.endsAt? key = some u ∧ now < u := by
  simp [isCooling, endsAt?, Option.any_eq_true]

theorem request_fst (force : Bool) :
    (c.request key now force).1 = true ↔ force = true ∨ ¬c.isCooling key now = true := by
  unfold request
  cases force <;> cases c.isCooling key now <;> simp

theorem period_call (call : CooldownCall κ) : (c.call call).period = c.period := by
  cases call with
  | request k now force =>
    rw [Cooldowns.call, request]
    split <;> rfl
  | clear => rfl

theorem period_calls (cs : List (CooldownCall κ)) : (c.calls cs).period = c.period := by
  induction cs generalizing c with
  | nil => rfl
  | cons call cs ih => exact ih.trans (period_call call)

/-- Only a request for the key that is granted starts a cooldown. -/
theorem endsAt?_request (k : κ) (force : Bool) : (c.call (.request k now force)).endsAt? key =
    if key = k ∧ (c.request k now force).1 = true then some (Millis.later now c.period)
    else c.endsAt? key := by
  rw [call, request]
  split
  · exact (if_neg fun h => Bool.false_ne_true h.2).symm
  · rw [endsAt?, Table.get?_insert]
    simp only [and_true]
    rfl

end Steps

theorem calls_append (c : Cooldowns κ) (before after : List (CooldownCall κ)) :
    c.calls (before ++ after) = (c.calls before).calls after :=
  List.foldl_append

/-! ### The end of a cooldown and the grants -/

section Grants

variable {c : Cooldowns κ} {cs : List (CooldownCall κ)} {key : κ} {time : Millis}

theorem granted_concat {call : CooldownCall κ} : c.Granted (cs ++ [call]) key time ↔
    (∃ force, call = .request key time force ∧
      ((c.calls cs).request key time force).1 = true) ∨
    call ≠ .clear ∧ c.Granted cs key time := by
  constructor
  · rintro ⟨before, force, after, hcs, hgranted, hclear⟩
    rcases List.eq_nil_or_concat after with rfl | ⟨after, last, rfl⟩
    · obtain ⟨rfl, hlast⟩ := List.append_inj' hcs rfl
      exact .inl ⟨force, (List.cons.inj hlast).1, hgranted⟩
    · have hsplit : cs ++ [call] = (before ++ .request key time force :: after) ++ [last] := by
        simpa using hcs
      obtain ⟨rfl, hlast⟩ := List.append_inj' hsplit rfl
      obtain rfl : call = last := (List.cons.inj hlast).1
      refine .inr ⟨?_, before, force, after, rfl, hgranted, ?_⟩
      · rintro rfl
        exact hclear (by simp)
      · exact fun hmem => hclear (by simp [hmem])
  · rintro (⟨force, rfl, hgranted⟩ | ⟨hcall, before, force, after, rfl, hgranted, hclear⟩)
    · exact ⟨cs, force, [], rfl, hgranted, List.not_mem_nil⟩
    · refine ⟨before, force, after ++ [call], by simp, hgranted, ?_⟩
      intro hmem
      rcases List.mem_append.mp hmem with hmem | hmem
      · exact hclear hmem
      · exact hcall (List.mem_singleton.mp hmem).symm

theorem Granted.mem (h : c.Granted cs key time) : ∃ force, .request key time force ∈ cs := by
  obtain ⟨before, force, after, rfl, -, -⟩ := h
  exact ⟨force, List.mem_append_right _ List.mem_cons_self⟩

/-- What is recorded of a key is the end of a cooldown, and no later one has started. -/
structure Tells (c : Cooldowns κ) (cs : List (CooldownCall κ)) (key : κ) : Prop where
  granted : ∀ u, (c.calls cs).endsAt? key = some u →
    ∃ g, c.Granted cs key g ∧ u = Millis.later g c.period
  latest : ∀ g, c.Granted cs key g →
    ∃ u, (c.calls cs).endsAt? key = some u ∧ Millis.later g c.period ≤ u

theorem Tells.call (h : c.Tells cs key) {call : CooldownCall κ}
    (horder : CooldownCall.Orderly (cs ++ [call])) : c.Tells (cs ++ [call]) key := by
  have hlast : c.calls (cs ++ [call]) = (c.calls cs).call call := c.calls_append cs [call]
  cases call with
  | clear =>
    refine ⟨fun u hu => ?_, fun g hg => ?_⟩
    · rw [hlast] at hu
      cases hu
    · rcases granted_concat.mp hg with ⟨force, hcall, -⟩ | ⟨hcall, -⟩
      · cases hcall
      · exact absurd rfl hcall
  | request k now force =>
    have hrequest : CooldownCall.request k now force ≠ .clear := nofun
    have hends : ((c.calls cs).call (.request k now force)).endsAt? key =
        if key = k ∧ ((c.calls cs).request k now force).1 = true
          then some (Millis.later now (c.calls cs).period) else (c.calls cs).endsAt? key :=
      endsAt?_request k force
    rw [← hlast, period_calls] at hends
    by_cases hnew : key = k ∧ ((c.calls cs).request k now force).1 = true
    · rw [if_pos hnew] at hends
      obtain ⟨rfl, hanswer⟩ := hnew
      refine ⟨fun u hu => ?_, fun g hg => ⟨_, hends, ?_⟩⟩
      · exact ⟨now, granted_concat.mpr (.inl ⟨force, rfl, hanswer⟩),
          Option.some.inj (hu.symm.trans hends)⟩
      · rcases granted_concat.mp hg with ⟨f, hcall, -⟩ | ⟨-, hg⟩
        · obtain ⟨-, rfl, -⟩ := CooldownCall.request.inj hcall
          exact UInt64.le_refl _
        · -- The clock did not go back, so this grant ends no earlier than the one it replaces.
          obtain ⟨f, hmem⟩ := hg.mem
          exact Millis.later_le_later (horder.le_last hmem) _
    · rw [if_neg hnew] at hends
      have hsame (g : Millis) :
          c.Granted (cs ++ [.request k now force]) key g ↔ c.Granted cs key g := by
        rw [granted_concat]
        constructor
        · rintro (⟨f, hcall, hanswer⟩ | ⟨-, hg⟩)
          · obtain ⟨rfl, rfl, rfl⟩ := CooldownCall.request.inj hcall
            exact absurd ⟨rfl, hanswer⟩ hnew
          · exact hg
        · exact fun hg => .inr ⟨hrequest, hg⟩
      refine ⟨fun u hu => ?_, fun g hg => ?_⟩
      · obtain ⟨g, hg, hu⟩ := h.granted u (hends.symm.trans hu)
        exact ⟨g, (hsame g).mpr hg, hu⟩
      · rw [hends]
        exact h.latest g ((hsame g).mp hg)

theorem tells_calls (period : Millis) (key : κ) (h : CooldownCall.Orderly cs) :
    (new period).Tells cs key := by
  induction cs using List.reverseRecOn with
  | nil =>
    refine ⟨nofun, fun g hg => ?_⟩
    obtain ⟨force, hmem⟩ := hg.mem
    cases hmem
  | append_singleton cs call ih => exact (ih h.of_append).call h

theorem isCooling_calls (period : Millis) (key : κ) (now : Millis) (h : CooldownCall.Orderly cs) :
    ((new period).calls cs).isCooling key now = true ↔
      ∃ g, (new period).Granted cs key g ∧ now < Millis.later g period := by
  have htells := tells_calls period key h
  rw [isCooling_iff]
  constructor
  · rintro ⟨u, hu, hlt⟩
    obtain ⟨g, hg, rfl⟩ := htells.granted u hu
    exact ⟨g, hg, hlt⟩
  · rintro ⟨g, hg, hlt⟩
    obtain ⟨u, hu, hle⟩ := htells.latest g hg
    exact ⟨u, hu, UInt64.lt_of_lt_of_le hlt hle⟩

end Grants

/-! ### Calls without influence -/

/-- The cooldowns cannot be told apart by requests for the key. -/
structure Alike (key : κ) (c c' : Cooldowns κ) : Prop where
  period : c'.period = c.period
  ends : c'.endsAt? key = c.endsAt? key

/-- A call of which the key takes no notice: a request that is refused or for another key. -/
def Idle (c : Cooldowns κ) (key : κ) : CooldownCall κ → Prop
  | .request k now force => k = key → (c.request k now force).1 = false
  | .clear => False

/-- The second list is what is left of the first, in which some calls were idle. -/
inductive Spared (key : κ) :
    Cooldowns κ → List (CooldownCall κ) → List (CooldownCall κ) → Prop where
  | nil (c : Cooldowns κ) : Spared key c [] []
  | keep {c : Cooldowns κ} {cs left : List (CooldownCall κ)} (call : CooldownCall κ)
      (rest : Spared key (c.call call) cs left) : Spared key c (call :: cs) (call :: left)
  | spare {c : Cooldowns κ} {cs left : List (CooldownCall κ)} {call : CooldownCall κ}
      (h : c.Idle key call) (rest : Spared key (c.call call) cs left) :
      Spared key c (call :: cs) left

section Alike

variable {c c' : Cooldowns κ} {key : κ}

theorem Alike.request_fst (h : Alike key c c') (now : Millis) (force : Bool) :
    (c'.request key now force).1 = (c.request key now force).1 := by
  rw [Bool.eq_iff_iff, Cooldowns.request_fst, Cooldowns.request_fst, isCooling_iff, isCooling_iff,
    h.ends]

theorem Alike.call (h : Alike key c c') (call : CooldownCall κ) :
    Alike key (c.call call) (c'.call call) := by
  refine ⟨by rw [period_call, period_call, h.period], ?_⟩
  cases call with
  | clear => rfl
  | request k now force =>
    rw [endsAt?_request, endsAt?_request, h.period, h.ends]
    by_cases hk : key = k
    · rw [← hk, h.request_fst]
    · rw [if_neg fun hnew => hk hnew.1, if_neg fun hnew => hk hnew.1]

theorem Idle.alike {call : CooldownCall κ} (h : c.Idle key call) : Alike key c (c.call call) := by
  refine ⟨period_call call, ?_⟩
  cases call with
  | clear => exact h.elim
  | request k now force =>
    rw [endsAt?_request]
    refine if_neg ?_
    rintro ⟨rfl, hanswer⟩
    cases hanswer.symm.trans (h rfl)

theorem Spared.alike {cs left : List (CooldownCall κ)} (hleft : Spared key c cs left)
    (h : Alike key c c') : Alike key (c.calls cs) (c'.calls left) := by
  induction hleft generalizing c' with
  | nil c => exact h
  | keep call _ ih => exact ih (h.call call)
  | spare hidle _ ih =>
    have hsame := hidle.alike
    exact ih ⟨h.period.trans hsame.period.symm, h.ends.trans hsame.ends.symm⟩

end Alike

/-! ### Many callers at once -/

/-- A request for any key, made before a cooldown is over that starts at the given time. -/
def InWindow (start period : Millis) : CooldownCall κ → Prop
  | .request _ now _ => start ≤ now ∧ now < Millis.later start period
  | .clear => False

instance (start period : Millis) :
    DecidablePred (InWindow start period : CooldownCall κ → Prop)
  | .request _ _ _ => inferInstanceAs (Decidable (_ ∧ _))
  | .clear => inferInstanceAs (Decidable False)

/-- The key is cooling at least up to the time. -/
def CoolsTo (c : Cooldowns κ) (key : κ) (time : Millis) : Prop :=
  ∃ u, c.endsAt? key = some u ∧ time ≤ u

section Window

variable {c : Cooldowns κ} {key : κ} {start : Millis}

theorem CoolsTo.refused {now time : Millis} (h : c.CoolsTo key time) (hnow : now < time) :
    (c.request key now false).1 = false := by
  obtain ⟨u, hu, hle⟩ := h
  have hcooling := isCooling_iff.mpr ⟨u, hu, UInt64.lt_of_lt_of_le hnow hle⟩
  simp [request, hcooling]

theorem coolsTo_of_granted {now : Millis} {force : Bool}
    (h : (c.request key now force).1 = true) (hstart : start ≤ now) :
    (c.call (.request key now force)).CoolsTo key (Millis.later start c.period) := by
  refine ⟨_, (endsAt?_request key force).trans (if_pos ⟨rfl, h⟩), ?_⟩
  exact Millis.later_le_later hstart c.period

theorem CoolsTo.call (h : c.CoolsTo key (Millis.later start c.period)) {call : CooldownCall κ}
    (hcall : InWindow start c.period call) :
    (c.call call).CoolsTo key (Millis.later start c.period) := by
  cases call with
  | clear => exact hcall.elim
  | request k now force =>
    by_cases hnew : key = k ∧ (c.request k now force).1 = true
    · obtain ⟨rfl, hanswer⟩ := hnew
      exact coolsTo_of_granted hanswer hcall.1
    · obtain ⟨u, hu, hle⟩ := h
      exact ⟨u, (endsAt?_request k force).trans ((if_neg hnew).trans hu), hle⟩

theorem CoolsTo.calls {window : List (CooldownCall κ)}
    (h : c.CoolsTo key (Millis.later start c.period))
    (hwindow : ∀ x ∈ window, InWindow start c.period x) :
    (c.calls window).CoolsTo key (Millis.later start c.period) := by
  induction window generalizing c with
  | nil => exact h
  | cons x window ih =>
    have hnext := h.call (hwindow x List.mem_cons_self)
    rw [← period_call (c := c) x] at hnext hwindow ⊢
    exact ih hnext fun y hy => hwindow y (List.mem_cons_of_mem x hy)

end Window

/-- If the clock does not go back, a request is granted just if it is forced or the key was not
granted, since the last clearing, less than a period ago. Requests that were refused and requests
for other keys may be left out of the history. Of the requests that come before a cooldown is over
which starts with the first of them, or earlier, only those that are forced are granted after the
first, in whatever order they come. -/
theorem granted_iff_none_recent (period : Millis) (cs : List (CooldownCall κ)) (key : κ) :
    (∀ now force, CooldownCall.Orderly (cs ++ [.request key now force]) →
      ((((new period).calls cs).request key now force).1 = true ↔
        force = true ∨ ¬∃ g, (new period).Granted cs key g ∧ now < Millis.later g period)) ∧
    (∀ left, Spared key (new period) cs left → ∀ now force,
      (((new period).calls left).request key now force).1 =
        (((new period).calls cs).request key now force).1) ∧
    ∀ start first force window, start ≤ first →
      (((new period).calls cs).request key first force).1 = true →
      (∀ x ∈ window, InWindow start period x) →
      ∀ before now after, window = before ++ .request key now false :: after →
        (((new period).calls (cs ++ .request key first force :: before)).request key now false).1 =
          false := by
  refine ⟨fun now force h => ?_, fun left h now force => ?_, ?_⟩
  · rw [request_fst, isCooling_calls period key now h.of_append]
  · exact (h.alike ⟨rfl, rfl⟩).request_fst now force
  · rintro start first force window hstart hfirst hwindow before now after rfl
    have hperiod := period_calls (c := new period) cs
    have hcools := coolsTo_of_granted hfirst hstart
    have hbefore : ∀ x ∈ before,
        InWindow start (((new period).calls cs).call (.request key first force)).period x := by
      rw [period_call, hperiod]
      exact fun x hx => hwindow x (List.mem_append_left _ hx)
    rw [← period_call (.request key first force)] at hcools
    have hnow := (hwindow (.request key now false) (by simp)).2
    rw [calls_append]
    apply (hcools.calls hbefore).refused
    rw [period_call, hperiod]
    exact hnow

/-! ### A history with everything in it -/

def bobsCard : FreshnessKey := ⟨⟨"bob", "moky", .user⟩, .card⟩

def carolsCard : FreshnessKey := ⟨⟨"carol", "moky", .user⟩, .card⟩

/-- With a period of 100, the second request is refused. The last one is granted although a cooldown
was running that a forced request had started, because everything was cleared. -/
def asked : List (CooldownCall FreshnessKey) :=
  [.request bobsCard 0 false, .request bobsCard 99 false, .request carolsCard 99 false,
    .request bobsCard 100 false, .request bobsCard 150 true, .clear, .request bobsCard 160 false]

/-- What of it matters to bob's card. -/
def heeded : List (CooldownCall FreshnessKey) :=
  [.request bobsCard 0 false, .request bobsCard 100 false, .request bobsCard 150 true, .clear,
    .request bobsCard 160 false]

theorem spared_asked : Spared bobsCard (new 100) asked heeded := by
  refine .keep _ (.spare ?_ (.spare ?_ (.keep _ (.keep _ (.keep _ (.keep _ (.nil _)))))))
  · exact fun _ => rfl
  · exact fun hcarol => absurd hcarol (by decide)

/-- Three callers that come when the cooldown of the last request is over, two of them late. -/
def callers : List (CooldownCall FreshnessKey) :=
  [.request carolsCard 265 true, .request bobsCard 270 false, .request bobsCard 262 false]

theorem granted_iff_none_recent_asked :
    CooldownCall.Orderly (asked ++ [.request bobsCard 259 false]) ∧
    (((new 100).calls asked).request bobsCard 259 false).1 = false ∧
    (∃ g, (new 100).Granted asked bobsCard g ∧ 259 < Millis.later g 100) ∧
    (((new 100).calls heeded).request bobsCard 259 false).1 = false ∧
    (((new 100).calls asked).request bobsCard 261 false).1 = true ∧
    (((new 100).calls (asked ++ .request bobsCard 261 false :: callers.take 2)).request
      bobsCard 262 false).1 = false := by
  obtain ⟨hgrants, hspared, hwindow⟩ := granted_iff_none_recent 100 asked bobsCard
  have horder : CooldownCall.Orderly (asked ++ [.request bobsCard 259 false]) := by decide
  have hrefused : (((new 100).calls asked).request bobsCard 259 false).1 = false := by decide
  have hrecent : ∃ g, (new 100).Granted asked bobsCard g ∧ 259 < Millis.later g 100 := by
    by_contra hnone
    have hgranted := (hgrants 259 false horder).mpr (.inr hnone)
    cases hrefused.symm.trans hgranted
  have hfirst : (((new 100).calls asked).request bobsCard 261 false).1 = true := by decide
  have hcallers : ∀ x ∈ callers, InWindow 261 100 x := by decide
  exact ⟨horder, hrefused, hrecent, (hspared heeded spared_asked 259 false).trans hrefused, hfirst,
    hwindow 261 261 false callers (by decide) hfirst hcallers _ 262 [] rfl⟩

end Cooldowns

end Courier
