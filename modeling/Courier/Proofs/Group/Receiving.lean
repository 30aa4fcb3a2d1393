import Courier.Proofs.Group.Permission

/-!
# What a membership command does

A newer command from someone who may give it changes the roster as its sender meant it, and is the
newest one from then on; one that is not newer changes nothing.
-/

namespace Courier.Client

variable {τ : Type}

/-! ### Commands that take effect -/

/-- A membership command of the group took effect and left a roster behind. -/
structure Took (group : Entity) (time : Millis) (roster : List Entity) (c c' : Client τ) : Prop where
  owners : c'.account.directory.owners = c.account.directory.owners
  helpers : c'.account.directory.helpers = c.account.directory.helpers
  codec : c'.account.codec = c.account.codec
  handlers : c'.desk.handlers = c.desk.handlers
  history : c'.latest? group = some time
  reads : c'.account.directory.Reads group roster

variable {c : Client τ} {group : Entity} {m : Message}

theorem took_noted {time : Millis} (h : c.Before group time) :
    Took group time (c.account.directory.members group) c (c.noted group time) :=
  ⟨rfl, rfl, rfl, rfl, (observe_of_before h).2, Directory.reads_members _ _⟩

theorem Took.saved {time : Millis} {roster : List Entity} {c' : Client τ}
    (h : Took group time roster c c') (left : List Entity) :
    Took group time left c (c'.modifyDirectory (·.saveMembers group left)) :=
  ⟨h.owners, h.helpers, h.codec, h.handlers, h.history, Directory.reads_saveMembers _ _ _⟩

theorem took_of_permits (command : GroupCommand) (hw : c.account.rostersWritable = true)
    (hnew : c.Before command.group m.content.time) (h : c.Permits m.sender command) :
    Took command.group m.content.time (c.afterwards m.sender command) c
      (attempt (take m command) c).2 := by
  rw [take_of_permits h, attempt_carryOut_of_before hnew]
  by_cases hlength : (c.afterwards m.sender command).length ≠
      (c.account.directory.members command.group).length
  · rw [if_pos ⟨hw, hlength⟩]
    exact (took_noted hnew).saved _
  · have hsame : c.afterwards m.sender command = c.account.directory.members command.group :=
      GroupCommand.applied_of_length (Decidable.not_not.mp hlength)
    rw [if_neg fun h => hlength h.2, hsame]
    exact took_noted hnew

/-! ### Packets with a command -/

theorem decode_of_change? {codec : Codec} {payload : Bytes} {ch : MembershipChange}
    (h : codec.change? payload = some ch) :
    ∃ m, codec.decode payload = .ok m ∧ m.change? = some ch := by
  unfold Codec.change? at h
  split at h
  · rename_i m hm
    exact ⟨m, hm, h⟩
  · cases h

section Packets

variable {payload : Bytes} {ch : MembershipChange}

theorem receive_of_not_permits (hstandard : c.Handles ch.command)
    (hch : c.account.codec.change? payload = some ch) (h : ¬c.Permits ch.sender ch.command) :
    doing (receive payload) c = c := by
  obtain ⟨m, hm, hchange⟩ := decode_of_change? hch
  obtain ⟨-, hsender, -⟩ := change?_eq_some hchange
  rw [doing_receive_change hstandard hm hchange]
  exact take_of_not_permits (hsender ▸ h)

theorem receive_of_late (hstandard : c.Handles ch.command)
    (hch : c.account.codec.change? payload = some ch)
    (h : ¬c.Before ch.command.group ch.time) : doing (receive payload) c = c := by
  obtain ⟨m, hm, hchange⟩ := decode_of_change? hch
  obtain ⟨-, -, htime, -⟩ := change?_eq_some hchange
  obtain ⟨t, ht, hle⟩ : ∃ t, c.latest? ch.command.group = some t ∧ ch.time ≤ t := by
    simpa [Before] using h
  rw [doing_receive_change hstandard hm hchange]
  exact take_late ht (htime ▸ hle)

/-- Without the handler that the protocol asks for a command changes no roster. -/
theorem sameGroups_receive_of_not_handles (hch : c.account.codec.change? payload = some ch)
    (h : ¬c.Handles ch.command) : SameGroups c (doing (receive payload) c) := by
  obtain ⟨m, hm, hchange⟩ := decode_of_change? hch
  obtain ⟨hcommand, -⟩ := change?_eq_some hchange
  rw [doing_receive hm hcommand]
  refine Keeps.bind composes_sameGroups ?_ (fun _ => keptByHandling_sameGroups.sendBack _ _) c
  unfold dispatch
  split
  · exact Keeps.pure composes_sameGroups _
  · rename_i hstandard
    exact absurd hstandard h
  · exact Keeps.pure composes_sameGroups _
  · exact Keeps.throw composes_sameGroups _

/-- The packet carries a membership command that takes effect. -/
structure Accepts (c : Client τ) (payload : Bytes) (ch : MembershipChange) : Prop where
  change : c.account.codec.change? payload = some ch
  handles : c.Handles ch.command
  permits : c.Permits ch.sender ch.command
  before : c.Before ch.command.group ch.time

theorem Accepts.doing_receive (h : c.Accepts payload ch) :
    doing (receive payload) c =
      if c.account.rostersWritable = true ∧ (c.afterwards ch.sender ch.command).length ≠
          (c.account.directory.members ch.command.group).length then
        (c.noted ch.command.group ch.time).modifyDirectory
          (·.saveMembers ch.command.group (c.afterwards ch.sender ch.command))
      else c.noted ch.command.group ch.time := by
  obtain ⟨m, hm, hchange⟩ := decode_of_change? h.change
  obtain ⟨-, hsender, htime, -⟩ := change?_eq_some hchange
  rw [doing_receive_change h.handles hm hchange, hsender, htime,
    take_of_permits (hsender ▸ h.permits)]
  exact attempt_carryOut_of_before (htime ▸ h.before)

theorem Accepts.took (h : c.Accepts payload ch) (hw : c.account.rostersWritable = true) :
    Took ch.command.group ch.time (c.afterwards ch.sender ch.command) c
      (doing (receive payload) c) := by
  obtain ⟨m, hm, hchange⟩ := decode_of_change? h.change
  obtain ⟨-, hsender, htime, -⟩ := change?_eq_some hchange
  rw [doing_receive_change h.handles hm hchange, hsender, htime]
  exact took_of_permits ch.command hw (htime ▸ h.before) (hsender ▸ h.permits)

theorem sameGroups_receive_of_not_accepts (h : ∀ ch, ¬c.Accepts payload ch) :
    SameGroups c (doing (receive payload) c) := by
  cases hch : c.account.codec.change? payload with
  | none => exact sameGroups_receive hch
  | some ch =>
    by_cases hstandard : c.Handles ch.command
    · by_cases hpermits : c.Permits ch.sender ch.command
      · by_cases hbefore : c.Before ch.command.group ch.time
        · exact absurd ⟨hch, hstandard, hpermits, hbefore⟩ (h ch)
        · rw [receive_of_late hstandard hch hbefore]
          exact composes_sameGroups.refl c
      · rw [receive_of_not_permits hstandard hch hpermits]
        exact composes_sameGroups.refl c
    · exact sameGroups_receive_of_not_handles hch hstandard

end Packets

/-! ### Several packets -/

def readAll (c : Client τ) (payloads : List Bytes) : Client τ :=
  payloads.foldl (fun c payload => doing (receive payload) c) c

end Courier.Client
