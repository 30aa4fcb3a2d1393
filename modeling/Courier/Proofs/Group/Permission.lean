import Courier.Proofs.Client.Reading

/-!
# Who may change a roster

Each membership command has its own rule about who may give it. A command that its rule forbids, or
that is not newer than the last one, leaves the client as it was. Any other is noted, and the
changed roster is stored if the client may store rosters at all.
-/

namespace Courier

/-- What a roster becomes when somebody has a command carried out. -/
def GroupCommand.applied (roster : List Entity) (sender : Entity) : GroupCommand → List Entity
  | .invite _ named => Client.joined roster named
  | .expel _ named => Client.without roster named
  | .quit _ => Client.without roster [sender]
  | .query _ _ => roster

theorem GroupCommand.applied_of_length {roster : List Entity} {sender : Entity}
    {command : GroupCommand} (h : (command.applied roster sender).length = roster.length) :
    command.applied roster sender = roster := by
  cases command with
  | invite group named => exact Client.joined_of_length (Nat.not_lt_of_le (Nat.le_of_eq h))
  | expel group named => exact Client.without_of_length (Nat.not_lt_of_le (Nat.le_of_eq h.symm))
  | quit group => exact Client.without_of_length (Nat.not_lt_of_le (Nat.le_of_eq h.symm))
  | query group held => rfl

namespace Client

variable {τ : Type}

/-- What the handler of a membership command does with it. -/
def take (m : Message) : GroupCommand → Action τ MessengerError Unit
  | .invite group named => handleInvite group named m
  | .expel group named => handleExpel group named m
  | .quit group => handleQuit group m
  | .query _ _ => return

theorem change?_eq_some {m : Message} {ch : MembershipChange} (h : m.change? = some ch) :
    m.content.command? = some (.group ch.command) ∧ ch.sender = m.sender ∧
      ch.time = m.content.time ∧ ∀ group held, ch.command ≠ .query group held := by
  obtain ⟨command, hcommand, rfl⟩ := Option.map_eq_some_iff.mp h
  obtain ⟨outer, houter, hmember⟩ := Option.bind_eq_some_iff.mp hcommand
  unfold Command.membership? at hmember
  split at hmember
  · cases hmember
  · rename_i hquery
    obtain rfl := Option.some.inj hmember
    exact ⟨houter, rfl, rfl, hquery⟩
  · cases hmember

/-- The tag of the command has the handler that the protocol asks for. -/
def Handles (c : Client τ) (command : GroupCommand) : Prop :=
  c.desk.handlers.get? (Command.group command).tag = some .standard

theorem HandlesAll.handles {c : Client τ} (h : c.HandlesAll) (command : GroupCommand) :
    c.Handles command := by
  refine h _ ?_
  cases command <;> simp [Command.tag, Handlers.tags]

/-- Without an answer nothing is sent back. -/
theorem attempt_unanswered (a : Action τ MessengerError Unit) (receiver : Entity) (c : Client τ) :
    (attempt ((a >>= fun _ => pure []) >>= sendBack receiver) c).2 = (attempt a c).2 := by
  rw [attempt_bind, attempt_bind]
  rcases attempt a c with ⟨e | x, c'⟩ <;> rfl

theorem doing_receive_change {c : Client τ} {payload : Bytes} {m : Message}
    {ch : MembershipChange} (hstandard : c.Handles ch.command)
    (hm : c.account.codec.decode payload = .ok m) (hch : m.change? = some ch) :
    doing (receive payload) c = (attempt (take m ch.command) c).2 := by
  obtain ⟨hcommand, -, -, hquery⟩ := change?_eq_some hch
  rw [doing_receive hm hcommand]
  unfold dispatch
  unfold Handles at hstandard
  rw [hstandard]
  cases hcmd : ch.command with
  | invite group named => exact attempt_unanswered _ _ _
  | expel group named => exact attempt_unanswered _ _ _
  | quit group => exact attempt_unanswered _ _ _
  | query group held => exact absurd hcmd (hquery group held)

/-! ### Histories -/

def noted (c : Client τ) (group : Entity) (time : Millis) : Client τ :=
  c.modifyAccount fun a => { a with freshness := (a.freshness.observe ⟨group, .history⟩ time).2 }

/-- No membership command of the group that took effect is as new as `time`. -/
def Before (c : Client τ) (group : Entity) (time : Millis) : Prop :=
  ∀ t, c.latest? group = some t → t < time

theorem attempt_acceptHistory (c : Client τ) (group : Entity) (m : Message) :
    attempt (acceptHistory group m) c =
      (.ok (c.account.freshness.observe ⟨group, .history⟩ m.content.time).1,
        c.noted group m.content.time) := rfl

theorem observe_of_before {c : Client τ} {group : Entity} {time : Millis}
    (h : c.Before group time) :
    (c.account.freshness.observe ⟨group, .history⟩ time).1 = true ∧
      (c.noted group time).latest? group = some time := by
  have hany : (c.account.freshness.recent.latest? ⟨group, .history⟩).any (time ≤ ·) = false := by
    cases hl : c.account.freshness.recent.latest? ⟨group, .history⟩ with
    | none => rfl
    | some t =>
      have hlt : t < time := h t hl
      simpa using hlt
  have hobserve : c.account.freshness.recent.observe ⟨group, .history⟩ time =
      (true, ⟨c.account.freshness.recent.seen.insert ⟨group, .history⟩ time⟩) := by
    rw [Recency.observe, hany]
    rfl
  refine ⟨congrArg Prod.fst hobserve, ?_⟩
  change (c.account.freshness.recent.observe ⟨group, .history⟩ time).2.latest? _ = _
  rw [hobserve]
  exact (Table.get?_insert _ _ _ _).trans (if_pos rfl)

theorem observe_of_late {c : Client τ} {group : Entity} {time t : Millis}
    (h : c.latest? group = some t) (hle : time ≤ t) :
    c.account.freshness.observe ⟨group, .history⟩ time = (false, c.account.freshness) := by
  have hl : c.account.freshness.recent.latest? ⟨group, .history⟩ = some t := h
  have hobserve : c.account.freshness.recent.observe ⟨group, .history⟩ time =
      (false, c.account.freshness.recent) := by
    unfold Recency.observe
    rw [hl]
    exact if_pos (by simpa using hle)
  rw [Freshness.observe, hobserve]

theorem noted_of_late {c : Client τ} {group : Entity} {time t : Millis}
    (h : c.latest? group = some t) (hle : time ≤ t) : c.noted group time = c := by
  change ({ c with desk := { c.desk with account := { c.account with
    freshness := (c.account.freshness.observe ⟨group, .history⟩ time).2 } } } : Client τ) = c
  rw [observe_of_late h hle]
  rfl

/-! ### Rules -/

/-- Invitations from somebody are heeded. -/
def Heeds (c : Client τ) (group who : Entity) : Prop :=
  c.account.directory.members group = [] ∨ who ∈ c.account.directory.members group ∨
    c.account.directory.isAdmin group who = true

/-- The rule of a command allows somebody to give it. -/
def Permits (c : Client τ) (sender : Entity) : GroupCommand → Prop
  | .invite group _ => c.Heeds group sender
  | .expel group _ => c.account.directory.isAdmin group sender = true
  | .quit group => c.account.directory.isAdmin group sender = false ∧
      sender ∈ c.account.directory.members group
  | .query _ _ => False

/-- The rules of a group look at its roster and at who has a say in it. -/
theorem permits_congr {c c' : Client τ} {sender : Entity} {command : GroupCommand}
    (hmembers : c'.account.directory.members command.group =
      c.account.directory.members command.group)
    (hadmin : c'.account.directory.isAdmin command.group sender =
      c.account.directory.isAdmin command.group sender) :
    c'.Permits sender command ↔ c.Permits sender command := by
  cases command with
  | invite group named =>
    dsimp only [GroupCommand.group] at hmembers hadmin
    rw [Permits, Heeds, hmembers, hadmin, Permits, Heeds]
  | expel group named =>
    dsimp only [GroupCommand.group] at hadmin
    rw [Permits, hadmin, Permits]
  | quit group =>
    dsimp only [GroupCommand.group] at hmembers hadmin
    rw [Permits, hmembers, hadmin, Permits]
  | query group held => exact Iff.rfl

theorem SameGroups.permits {c c' : Client τ} (h : SameGroups c c') (sender : Entity)
    (command : GroupCommand) : c'.Permits sender command ↔ c.Permits sender command :=
  permits_congr (h.members _) (h.isAdmin _ _)

/-- The roster that a command leaves, if it is carried out. -/
def afterwards (c : Client τ) (sender : Entity) (command : GroupCommand) : List Entity :=
  command.applied (c.account.directory.members command.group) sender

/-- What is done with a command that its sender may give. -/
def carryOut (m : Message) (command : GroupCommand) : Action τ MessengerError Unit := do
  let roster := (← directory).members command.group
  if ← acceptHistory command.group m then
    let changed := command.applied roster m.sender
    if changed.length ≠ roster.length then
      let _ ← saveMembers command.group changed

variable {c : Client τ} {m : Message} {command : GroupCommand}

theorem take_of_not_permits (h : ¬c.Permits m.sender command) :
    (attempt (take m command) c).2 = c := by
  cases command with
  | invite group named =>
    have hcond : ¬((c.account.directory.members group).isEmpty ||
        (c.account.directory.members group).contains m.sender ||
        c.account.directory.isAdmin group m.sender) = true := by
      simpa [Permits, Heeds, or_assoc] using h
    rw [take, handleInvite, attempt_bind, attempt_directory]
    dsimp only
    rw [if_neg hcond]
    rfl
  | expel group named =>
    have hcond : ¬c.account.directory.isAdmin group m.sender = true := h
    rw [take, handleExpel, attempt_bind, attempt_directory]
    dsimp only
    rw [if_neg hcond]
    rfl
  | quit group =>
    have hcond : ¬(!c.account.directory.isAdmin group m.sender &&
        (c.account.directory.members group).contains m.sender) = true := by
      simpa [Permits] using h
    rw [take, handleQuit, attempt_bind, attempt_directory]
    dsimp only
    rw [if_neg hcond]
    rfl
  | query group held => rfl

/-- The handlers differ in their rules only. -/
theorem take_of_permits (h : c.Permits m.sender command) :
    attempt (take m command) c = attempt (carryOut m command) c := by
  rw [carryOut, attempt_bind, attempt_directory]
  cases command with
  | invite group named =>
    have hcond : ((c.account.directory.members group).isEmpty ||
        (c.account.directory.members group).contains m.sender ||
        c.account.directory.isAdmin group m.sender) = true := by
      rcases h with h | h | h <;> simp [h]
    -- The handlers ask which length is the greater one, `carryOut` whether they differ.
    have hgrows (roster : List Entity) : roster.length < (joined roster named).length ↔
        (joined roster named).length ≠ roster.length := by
      have := length_le_joined roster named
      omega
    rw [take, handleInvite, attempt_bind, attempt_directory]
    dsimp only
    rw [if_pos hcond]
    simp only [hgrows]
    rfl
  | expel group named =>
    have hcond : c.account.directory.isAdmin group m.sender = true := h
    have hshrinks (roster : List Entity) : (without roster named).length < roster.length ↔
        (without roster named).length ≠ roster.length := by
      have : (without roster named).length ≤ roster.length := List.length_filter_le _ _
      omega
    rw [take, handleExpel, attempt_bind, attempt_directory]
    dsimp only
    rw [if_pos hcond]
    simp only [hshrinks]
    rfl
  | quit group =>
    obtain ⟨hadmin, hmember⟩ := h
    have hcond : (!c.account.directory.isAdmin group m.sender &&
        (c.account.directory.members group).contains m.sender) = true := by
      simp [hadmin, hmember]
    have hshrinks : (without (c.account.directory.members group) [m.sender]).length ≠
        (c.account.directory.members group).length := by
      intro hlength
      have hsame := without_of_length (Nat.not_lt_of_le (Nat.le_of_eq hlength.symm))
      rw [← hsame] at hmember
      exact (mem_without.mp hmember).2 (List.mem_singleton_self _)
    rw [take, handleQuit, attempt_bind, attempt_directory]
    dsimp only [GroupCommand.group, GroupCommand.applied]
    rw [if_pos hcond, if_pos hshrinks]
  | query group held => exact h.elim

theorem attempt_carryOut_of_late {t : Millis} (h : c.latest? command.group = some t)
    (hle : m.content.time ≤ t) : (attempt (carryOut m command) c).2 = c := by
  rw [carryOut, attempt_bind, attempt_directory]
  dsimp only
  rw [attempt_bind, attempt_acceptHistory, observe_of_late h hle, noted_of_late h hle]
  rfl

theorem attempt_carryOut_of_before (h : c.Before command.group m.content.time) :
    (attempt (carryOut m command) c).2 =
      if c.account.rostersWritable = true ∧ (c.afterwards m.sender command).length ≠
          (c.account.directory.members command.group).length then
        (c.noted command.group m.content.time).modifyDirectory
          (·.saveMembers command.group (c.afterwards m.sender command))
      else c.noted command.group m.content.time := by
  have hw : (c.noted command.group m.content.time).account.rostersWritable =
      c.account.rostersWritable := rfl
  rw [carryOut, attempt_bind, attempt_directory]
  dsimp only
  rw [attempt_bind, attempt_acceptHistory, (observe_of_before h).1]
  dsimp only
  rw [if_pos rfl]
  by_cases hlength : (c.afterwards m.sender command).length ≠
      (c.account.directory.members command.group).length
  · rw [afterwards] at hlength
    rw [if_pos hlength, attempt_bind, saveMembers, attempt_bind, attempt_get]
    dsimp only
    rw [hw, afterwards]
    by_cases hwritable : c.account.rostersWritable = true
    · rw [if_pos hwritable, if_pos ⟨hwritable, hlength⟩]
      rfl
    · rw [if_neg hwritable, if_neg fun h => hwritable h.1]
      rfl
  · rw [afterwards] at hlength ⊢
    rw [if_neg hlength, if_neg fun h => hlength h.2]
    rfl

theorem take_late {t : Millis} (h : c.latest? command.group = some t)
    (hle : m.content.time ≤ t) : (attempt (take m command) c).2 = c := by
  by_cases hpermits : c.Permits m.sender command
  · rw [take_of_permits hpermits]
    exact attempt_carryOut_of_late h hle
  · exact take_of_not_permits hpermits

end Client

end Courier
