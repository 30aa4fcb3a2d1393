import Courier.Proofs.Session.Path

/-!
# Transitions that are kept for later

A transition can be kept for a while before it is committed. The machine knows the stage that it
leads on from by its phase and the millisecond in which that was entered. Once the machine has moved
a kept transition is refused, unless the machine has come back to the same phase, which then took no
time at all.
-/

namespace Courier

/-- What may be asked of a machine. -/
inductive MachineCall where
  | evaluate (seen : Snapshot) (now : Millis)
  | commit (t : Transition)
  | reset (now : Millis)
  | pause
  | resume

namespace Machine

/-- The machine afterwards. A call that is refused leaves it as it was. -/
def call (m : Machine) : MachineCall → Machine
  | .evaluate _ _ => m
  | .commit t => (m.commit t).toOption.getD m
  | .reset now => ((m.reset now).toOption.map Prod.snd).getD m
  | .pause => m.pause
  | .resume => m.resume

def run (m : Machine) (calls : List MachineCall) : Machine :=
  calls.foldl call m

/-- The transition that a call hands out, made already or for later. -/
def offered? (m : Machine) : MachineCall → Option Transition
  | .evaluate seen now => m.evaluate? seen now
  | .reset now => (m.reset now).toOption.map Prod.fst
  | _ => none

/-- The transition that a call makes. -/
def made? (m : Machine) : MachineCall → Option Transition
  | .commit t => (m.commit t).toOption.map fun _ => t
  | .reset now => (m.reset now).toOption.map Prod.fst
  | _ => none

/-- The transitions made in a run. -/
def made (m : Machine) : List MachineCall → List Transition
  | [] => []
  | c :: calls => (m.made? c).toList ++ (m.call c).made calls

/-- From this time on the clock never goes back, and only what was handed out is committed. -/
def Orderly (m : Machine) (clock : Millis) (kept : List Transition) : List MachineCall → Prop
  | [] => True
  | .evaluate seen now :: calls =>
    clock ≤ now ∧ m.Orderly now ((m.offered? (.evaluate seen now)).toList ++ kept) calls
  | .commit t :: calls => t ∈ kept ∧ (m.call (.commit t)).Orderly clock kept calls
  | .reset now :: calls =>
    clock ≤ now ∧
      (m.call (.reset now)).Orderly now ((m.offered? (.reset now)).toList ++ kept) calls
  | .pause :: calls => (m.call .pause).Orderly clock kept calls
  | .resume :: calls => (m.call .resume).Orderly clock kept calls

variable {m : Machine} {clock now : Millis} {kept : List Transition} {t : Transition}
variable {calls : List MachineCall}

/-! ### Single calls -/

theorem commit_isOk_iff (m : Machine) (t : Transition) :
    (m.commit t).isOk ↔ m.stage = t.source := by
  unfold commit
  split
  · rename_i h
    exact iff_of_true rfl h
  · rename_i h
    exact iff_of_false Bool.false_ne_true h

theorem call_commit_of_refused (h : ¬(m.commit t).isOk) : m.call (.commit t) = m := by
  rw [commit_isOk_iff] at h
  simp [call, commit, h, Except.toOption]

theorem reset_eq (m : Machine) (now : Millis) : m.reset now =
    if m.stage.phase = .error then
      .ok (⟨m.stage, ⟨.default, now⟩, .reset, .none⟩, { m with stage := ⟨.default, now⟩ })
    else .error (.invalidTransition m.stage.phase .default) := by
  unfold reset transition?
  rw [Phase.follow?_reset]
  by_cases h : m.stage.phase = .error
  · simp [h, commit, Except.map]
  · simp [h]

theorem source_of_evaluate? {seen : Snapshot} (h : m.evaluate? seen now = some t) :
    t.source = m.stage ∧ t.target.enteredAt = now := by
  unfold evaluate? at h
  split at h
  · cases h
  · obtain ⟨event, -, h⟩ := Option.bind_eq_some_iff.mp h
    obtain ⟨target, -, rfl⟩ := Option.map_eq_some_iff.mp h
    exact ⟨rfl, rfl⟩

/-- A call that makes a transition leads along it, and no other call changes the stage. -/
theorem path_call (m : Machine) (c : MachineCall) :
    Stage.Path m.stage (m.made? c).toList (m.call c).stage := by
  cases c with
  | commit t =>
    by_cases h : m.stage = t.source
    · simp only [made?, call, commit, if_pos h]
      rw [h]
      exact .single t
    · simp only [made?, call, commit, if_neg h]
      exact .nil _
  | reset now =>
    simp only [made?, call, reset_eq]
    by_cases h : m.stage.phase = .error
    · rw [if_pos h]
      exact .single ⟨m.stage, ⟨.default, now⟩, .reset, .none⟩
    · rw [if_neg h]
      exact .nil _
  | _ => exact .nil _

theorem path_run (m : Machine) (calls : List MachineCall) :
    Stage.Path m.stage (m.made calls) (m.run calls).stage := by
  induction calls generalizing m with
  | nil => exact .nil _
  | cons c calls ih => exact (m.path_call c).append (ih (m.call c))

theorem run_append (m : Machine) (calls more : List MachineCall) :
    m.run (calls ++ more) = (m.run calls).run more :=
  List.foldl_append

/-! ### Time on the way -/

end Machine

/-- The transition does not lead back in time. -/
def Transition.IsForward (t : Transition) : Prop :=
  t.source.enteredAt ≤ t.target.enteredAt

/-- Who ends up in the millisecond in which he started has spent none on the way. -/
theorem Stage.Path.enteredAt {a b : Stage} {ts : List Transition} (h : Stage.Path a ts b)
    (hforward : ∀ t ∈ ts, t.IsForward) :
    a.enteredAt ≤ b.enteredAt ∧
      (a.enteredAt = b.enteredAt → ∀ t ∈ ts, t.target.enteredAt = a.enteredAt) := by
  induction h with
  | nil s => exact ⟨UInt64.le_refl _, fun _ => List.forall_mem_nil _⟩
  | @cons t ts s _ ih =>
    obtain ⟨hrest, hall⟩ := ih fun u hu => hforward u (List.mem_cons_of_mem t hu)
    have hfirst : t.source.enteredAt ≤ t.target.enteredAt := hforward t List.mem_cons_self
    refine ⟨UInt64.le_trans hfirst hrest, fun hsame => ?_⟩
    have hstill : t.target.enteredAt = t.source.enteredAt :=
      UInt64.le_antisymm (hsame ▸ hrest) hfirst
    intro u hu
    rcases List.mem_cons.mp hu with rfl | hu
    · exact hstill
    · exact (hall (hstill.trans hsame) u hu).trans hstill

theorem Stage.Path.last {a b : Stage} {ts : List Transition} (h : Stage.Path a ts b) :
    ts = [] ∧ b = a ∨ ∃ t, ts.getLast? = some t ∧ b = t.target := by
  induction h with
  | nil s => exact .inl ⟨rfl, rfl⟩
  | @cons t ts s _ ih =>
    right
    rcases ih with ⟨rfl, rfl⟩ | ⟨u, hu, rfl⟩
    · exact ⟨t, rfl, rfl⟩
    · exact ⟨u, by rw [List.getLast?_cons, hu]; rfl, rfl⟩

namespace Machine

variable {m : Machine} {clock now : Millis} {kept : List Transition} {t : Transition}
variable {calls : List MachineCall}

/-- The stage was entered by now, and so would be every stage that a kept transition leads to. -/
structure UpTo (m : Machine) (clock : Millis) (kept : List Transition) : Prop where
  entered : m.stage.enteredAt ≤ clock
  forward : ∀ t ∈ kept, t.IsForward
  targets : ∀ t ∈ kept, t.target.enteredAt ≤ clock

theorem UpTo.evaluate (h : m.UpTo clock kept) (seen : Snapshot) (hnow : clock ≤ now) :
    (m.call (.evaluate seen now)).UpTo now
      ((m.offered? (.evaluate seen now)).toList ++ kept) := by
  have hfound : ∀ t ∈ (m.evaluate? seen now).toList,
      t.IsForward ∧ t.target.enteredAt ≤ now := by
    intro t ht
    obtain ⟨hsource, htarget⟩ := source_of_evaluate? (Option.mem_toList.mp ht)
    rw [Transition.IsForward, hsource, htarget]
    exact ⟨UInt64.le_trans h.entered hnow, UInt64.le_refl now⟩
  refine ⟨UInt64.le_trans h.entered hnow, fun t ht => ?_, fun t ht => ?_⟩
  · rcases List.mem_append.mp ht with ht | ht
    · exact (hfound t ht).1
    · exact h.forward t ht
  · rcases List.mem_append.mp ht with ht | ht
    · exact (hfound t ht).2
    · exact UInt64.le_trans (h.targets t ht) hnow

theorem UpTo.reset (h : m.UpTo clock kept) (hnow : clock ≤ now) :
    (m.call (.reset now)).UpTo now ((m.offered? (.reset now)).toList ++ kept) := by
  have hlater : ∀ t ∈ kept, t.target.enteredAt ≤ now :=
    fun t ht => UInt64.le_trans (h.targets t ht) hnow
  have hentered : m.stage.enteredAt ≤ now := UInt64.le_trans h.entered hnow
  simp only [call, offered?, reset_eq]
  by_cases herror : m.stage.phase = .error
  · simp only [if_pos herror, Except.toOption, Option.map_some, Option.getD_some,
      Option.toList_some, List.singleton_append]
    refine ⟨UInt64.le_refl now, fun t ht => ?_, fun t ht => ?_⟩
    · rcases List.mem_cons.mp ht with rfl | ht
      · exact hentered
      · exact h.forward t ht
    · rcases List.mem_cons.mp ht with rfl | ht
      · exact UInt64.le_refl now
      · exact hlater t ht
  · simp only [if_neg herror, Except.toOption, Option.map_none, Option.getD_none,
      Option.toList_none, List.nil_append]
    exact ⟨hentered, h.forward, hlater⟩

theorem UpTo.commit (h : m.UpTo clock kept) (ht : t ∈ kept) :
    (m.call (.commit t)).UpTo clock kept := by
  by_cases hsource : m.stage = t.source
  · have hcall : m.call (.commit t) = { m with stage := t.target } := by
      simp [call, Machine.commit, hsource, Except.toOption]
    rw [hcall]
    exact ⟨h.targets t ht, h.forward, h.targets⟩
  · rw [call_commit_of_refused (mt (m.commit_isOk_iff t).mp hsource)]
    exact h

theorem UpTo.pause (h : m.UpTo clock kept) : (m.call .pause).UpTo clock kept :=
  ⟨h.entered, h.forward, h.targets⟩

theorem UpTo.resume (h : m.UpTo clock kept) : (m.call .resume).UpTo clock kept :=
  ⟨h.entered, h.forward, h.targets⟩

theorem UpTo.made? (h : m.UpTo clock kept) {c : MachineCall}
    (horderly : m.Orderly clock kept (c :: calls)) (ht : m.made? c = some t) : t.IsForward := by
  cases c with
  | commit u =>
    rw [Orderly] at horderly
    obtain ⟨-, -, rfl⟩ := Option.map_eq_some_iff.mp ht
    exact h.forward u horderly.1
  | reset now =>
    rw [Orderly] at horderly
    have hmem : t ∈ (m.offered? (.reset now)).toList := Option.mem_toList.mpr ht
    exact (h.reset horderly.1).forward t (List.mem_append_left kept hmem)
  | evaluate seen now => cases ht
  | pause => cases ht
  | resume => cases ht

/-- What is orderly stays so, with what is kept after the call. -/
theorem UpTo.call (h : m.UpTo clock kept) {c : MachineCall}
    (horderly : m.Orderly clock kept (c :: calls)) :
    ∃ clock' kept', (m.call c).UpTo clock' kept' ∧ (m.call c).Orderly clock' kept' calls := by
  cases c with
  | evaluate seen now =>
    rw [Orderly] at horderly
    exact ⟨_, _, h.evaluate seen horderly.1, horderly.2⟩
  | commit u =>
    rw [Orderly] at horderly
    exact ⟨_, _, h.commit horderly.1, horderly.2⟩
  | reset now =>
    rw [Orderly] at horderly
    exact ⟨_, _, h.reset horderly.1, horderly.2⟩
  | pause =>
    rw [Orderly] at horderly
    exact ⟨_, _, h.pause, horderly⟩
  | resume =>
    rw [Orderly] at horderly
    exact ⟨_, _, h.resume, horderly⟩

theorem UpTo.run (h : m.UpTo clock kept) {more : List MachineCall}
    (horderly : m.Orderly clock kept (calls ++ more)) :
    ∃ clock' kept', (m.run calls).UpTo clock' kept' ∧ (m.run calls).Orderly clock' kept' more := by
  induction calls generalizing m clock kept with
  | nil => exact ⟨clock, kept, h, horderly⟩
  | cons c calls ih =>
    obtain ⟨clock', kept', hupto, hrest⟩ := h.call horderly
    exact ih hupto hrest

/-- By induction on the calls: what is made was kept, or leads from the stage at hand to now. -/
theorem UpTo.made (h : m.UpTo clock kept) (horderly : m.Orderly clock kept calls) :
    ∀ t ∈ m.made calls, t.IsForward := by
  induction calls generalizing m clock kept with
  | nil => exact List.forall_mem_nil _
  | cons c calls ih =>
    obtain ⟨clock', kept', hupto, hrest⟩ := h.call horderly
    intro t ht
    rcases List.mem_append.mp ht with ht | ht
    · exact h.made? horderly (Option.mem_toList.mp ht)
    · exact ih hupto hrest t ht

/-! ### Kept transitions -/

/-- In an orderly run, a transition that was found and kept for a while is committed just if nothing
was made since or the last that was made leads to the stage that it leads on from. In the second
case no time has passed between the stages that the machine went through meanwhile. A commit that is
refused leaves the machine as it was. -/
theorem kept_commits_iff (hentered : m.stage.enteredAt ≤ clock) {before after : List MachineCall}
    {seen : Snapshot} (horderly : m.Orderly clock [] (before ++ .evaluate seen now :: after))
    (hfound : (m.run before).evaluate? seen now = some t) :
    let since := (m.run before).made after
    let m' := m.run (before ++ .evaluate seen now :: after)
    ((m'.commit t).isOk ↔
      since = [] ∨ ∃ last, since.getLast? = some last ∧ last.target = t.source) ∧
    ((m'.commit t).isOk → ∀ u ∈ since, u.target.enteredAt = t.source.enteredAt) ∧
    (¬(m'.commit t).isOk → m'.call (.commit t) = m') := by
  intro since m'
  have hrun : m' = (m.run before).run after := m.run_append before _
  have hsource : t.source = (m.run before).stage := (source_of_evaluate? hfound).1
  have hpath : Stage.Path t.source since m'.stage := by
    rw [hsource, hrun]
    exact (m.run before).path_run after
  have hforward : ∀ u ∈ since, u.IsForward := by
    have hstart : m.UpTo clock [] := ⟨hentered, List.forall_mem_nil _, List.forall_mem_nil _⟩
    obtain ⟨clock₁, kept₁, hfirst, hrest⟩ := hstart.run horderly
    obtain ⟨clock₂, kept₂, hupto, hrest⟩ := hfirst.call hrest
    exact hupto.made hrest
  refine ⟨?_, fun hok => ?_, call_commit_of_refused⟩
  · rw [commit_isOk_iff]
    rcases hpath.last with ⟨hnone, hstage⟩ | ⟨last, hlast, hstage⟩
    · exact iff_of_true hstage (.inl hnone)
    · have hsome : since ≠ [] := by
        intro hnone
        rw [hnone] at hlast
        cases hlast
      rw [hstage, hlast]
      simp [hsome]
  · have hback : m'.stage = t.source := (commit_isOk_iff m' t).mp hok
    exact (hpath.enteredAt hforward).2 (congrArg Stage.enteredAt hback).symm

/-! ### A machine that comes back at once -/

def connectable : Snapshot := ⟨true, false, .ready, false⟩

def broken : Snapshot := ⟨true, false, .error, false⟩

/-- A machine fails and is reset within one millisecond. -/
def comingBack : List MachineCall :=
  [.evaluate broken 1000,
    .commit ⟨⟨.default, 1000⟩, ⟨.error, 1000⟩, .connectionLost, .resetFreshness⟩, .reset 1000]

/-- What was found before the failure. -/
def toConnecting : Transition :=
  ⟨⟨.default, 1000⟩, ⟨.connecting, 1000⟩, .identityAssigned, .connect⟩

theorem orderly_comingBack :
    (new 1000 30000).Orderly 1000 [] (.evaluate connectable 1000 :: comingBack) :=
  ⟨by decide, by decide, List.mem_cons_self, by decide, trivial⟩

theorem kept_commits_iff_comingBack :
    let m := (new 1000 30000).run (.evaluate connectable 1000 :: comingBack)
    (m.commit toConnecting).isOk ∧
      ((new 1000 30000).made comingBack).map (·.target.enteredAt) = [1000, 1000] := by
  intro m
  have hfound : ((new 1000 30000).run []).evaluate? connectable 1000 = some toConnecting := by
    decide
  obtain ⟨hiff, -, -⟩ := kept_commits_iff (by decide) orderly_comingBack hfound
  exact ⟨hiff.mpr (.inr ⟨_, rfl, rfl⟩), by decide⟩

/-- A transition may be committed although others were made since it was found. -/
theorem not_every_stale_commit_refused :
    ¬ ∀ (start timeout now : Millis) (seen : Snapshot) (t : Transition)
      (before after : List MachineCall),
      (new start timeout).Orderly start [] (before ++ .evaluate seen now :: after) →
      ((new start timeout).run before).evaluate? seen now = some t →
      ((((new start timeout).run (before ++ .evaluate seen now :: after)).commit t).isOk ↔
        ((new start timeout).run before).made after = []) := by
  intro h
  have hiff := h 1000 30000 1000 connectable toConnecting [] comingBack orderly_comingBack
    (by decide)
  have hok : (((new 1000 30000).run (.evaluate connectable 1000 :: comingBack)).commit
      toConnecting).isOk := by decide
  have hnone := hiff.mp hok
  revert hnone
  decide

end Machine

end Courier
