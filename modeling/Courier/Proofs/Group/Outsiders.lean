import Courier.Proofs.Group.Histories

/-!
# Outsiders

Some may not give a membership command: a group with a known roster takes no invitation from those
who are neither in it nor admins, nobody but an admin expels, and those quit who are members and not
admins. A packet with a command of anybody else might as well not have come. What makes a command
come too late is always another one that took effect.
-/

namespace Courier

/-- Somebody is not entitled to a membership command. -/
def Directory.Forbids (d : Directory) (who : Entity) : GroupCommand → Prop
  | .invite group _ => d.members group ≠ [] ∧ who ∉ d.members group ∧ d.isAdmin group who = false
  | .expel group _ => d.isAdmin group who = false
  | .quit group => d.isAdmin group who = true ∨ who ∉ d.members group
  | .query _ _ => False

instance (d : Directory) (who : Entity) : (command : GroupCommand) → Decidable (d.Forbids who command)
  | .invite _ _ => inferInstanceAs (Decidable (_ ∧ _ ∧ _))
  | .expel _ _ => inferInstanceAs (Decidable (_ = _))
  | .quit _ => inferInstanceAs (Decidable (_ ∨ _))
  | .query _ _ => inferInstanceAs (Decidable False)

namespace Client

variable {τ : Type} {c : Client τ} {payload : Bytes} {ch : MembershipChange}

/-- What the rules do not permit is what somebody is not entitled to. -/
theorem forbids_iff {who : Entity} {command : GroupCommand}
    (hquery : ∀ group held, command ≠ .query group held) :
    c.account.directory.Forbids who command ↔ ¬c.Permits who command := by
  cases command with
  | invite group named => simp [Directory.Forbids, Permits, Heeds]
  | expel group named => simp [Directory.Forbids, Permits]
  | quit group => simp [Directory.Forbids, Permits, imp_iff_not_or]
  | query group held => exact absurd rfl (hquery group held)

/-- Whatever the handler of the command is, it has no contents ready for an answer. -/
def Unanswered (c : Client τ) (command : GroupCommand) : Prop :=
  ∀ contents, c.desk.handlers.get? (Command.group command).tag ≠ some (.answer contents)

instance (command : GroupCommand) : Decidable (c.Unanswered command) :=
  match h : c.desk.handlers.get? (Command.group command).tag with
  | some (.answer contents) => .isFalse fun hnone => hnone contents h
  | some .standard | some .refuse | none => .isTrue fun _ hanswer => by cases h.symm.trans hanswer

/-- The packet carries a membership command that its sender is not entitled to, and that the client
was not told to answer in its own way. -/
def Unauthorised (c : Client τ) (payload : Bytes) : Prop :=
  ∃ ch ∈ c.account.codec.change? payload,
    c.Unanswered ch.command ∧ c.account.directory.Forbids ch.sender ch.command

instance (payload : Bytes) : Decidable (c.Unauthorised payload) :=
  inferInstanceAs (Decidable (∃ ch ∈ c.account.codec.change? payload, _))

theorem receive_of_not_handles (hch : c.account.codec.change? payload = some ch)
    (hhandles : ¬c.Handles ch.command) (hunanswered : c.Unanswered ch.command) :
    doing (receive payload) c = c := by
  obtain ⟨m, hm, hchange⟩ := decode_of_change? hch
  obtain ⟨hcommand, -⟩ := change?_eq_some hchange
  rw [doing_receive hm hcommand]
  unfold dispatch
  split
  · rfl
  · rename_i hstandard
    exact absurd hstandard hhandles
  · rename_i contents hanswer
    exact absurd hanswer (hunanswered contents)
  · rfl

theorem Unauthorised.receive (h : c.Unauthorised payload) : doing (receive payload) c = c := by
  obtain ⟨ch, hch, hunanswered, hforbids⟩ := h
  by_cases hhandles : c.Handles ch.command
  · apply receive_of_not_permits hhandles hch
    apply (forbids_iff _).mp hforbids
    obtain ⟨m, -, hchange⟩ := decode_of_change? hch
    exact (change?_eq_some hchange).2.2.2
  · exact receive_of_not_handles hch hhandles hunanswered

/-! ### Without the unauthorised packets -/

section Pruning

variable [Transport τ]

/-- Somebody who is not entitled to it gave a command that is read in the step. -/
def Trespasses (c : Client τ) : ClientStep τ → Bool
  | .call (.receive payload) => c.Unauthorised payload
  | _ => false

/-- The steps without those in which an unauthorised packet is read, as the client stands then. -/
def authorised (c : Client τ) : List (ClientStep τ) → List (ClientStep τ)
  | [] => []
  | s :: steps =>
    if c.Trespasses s then (c.step s).2.authorised steps
    else s :: (c.step s).2.authorised steps

theorem step_of_trespasses {s : ClientStep τ} (h : c.Trespasses s = true) : c.step s = ([], c) := by
  unfold Trespasses at h
  split at h
  · rename_i payload
    have hsame : doing (receive payload) c = c := (of_decide_eq_true h).receive
    rw [step, call, hsame]
  · cases h

theorem run_authorised (c : Client τ) (steps : List (ClientStep τ)) :
    c.run (c.authorised steps) = c.run steps := by
  induction steps generalizing c with
  | nil => rfl
  | cons s steps ih =>
    unfold authorised
    split
    · rename_i htrespasses
      rw [step_of_trespasses htrespasses, ih, run, step_of_trespasses htrespasses]
      rfl
    · rw [run, ih, ← run]

theorem authorised_append_of_trespasses {trespassing : List (ClientStep τ)}
    (h : ∀ s ∈ trespassing, c.Trespasses s = true) (steps : List (ClientStep τ)) :
    c.authorised (trespassing ++ steps) = c.authorised steps := by
  induction trespassing with
  | nil => rfl
  | cons s trespassing ih =>
    have hs := h s List.mem_cons_self
    rw [List.cons_append, authorised, if_pos hs, step_of_trespasses hs]
    exact ih fun s' hs' => h s' (List.mem_cons_of_mem s hs')

end Pruning

/-! ### What comes too late -/

/-- The history of a group is the one that was there, or the time of a command that took effect. -/
theorem latest?_readAll {payloads : List Bytes} {group : Entity} {t : Millis}
    (h : (c.readAll payloads).latest? group = some t) :
    c.latest? group = some t ∨ ∃ before p after ch, payloads = before ++ p :: after ∧
      (c.readAll before).Accepts p ch ∧ ch.command.group = group ∧ ch.time = t := by
  induction payloads generalizing c with
  | nil => exact .inl h
  | cons p ps ih =>
    rcases ih h with hread | ⟨before, q, after, ch, hps, haccepts, hgroup, htime⟩
    · by_cases hmoved : (doing (receive p) c).latest? group = c.latest? group
      · exact .inl (hmoved ▸ hread)
      · obtain ⟨ch, haccepts⟩ := accepts_iff_latest?.mpr ⟨group, hmoved⟩
        obtain ⟨hgroup, htime⟩ := haccepts.moves hmoved
        refine .inr ⟨[], p, ps, ch, rfl, haccepts, hgroup, ?_⟩
        exact Option.some.inj (htime.symm.trans hread)
    · refine .inr ⟨p :: before, q, after, ch, ?_, haccepts, hgroup, htime⟩
      rw [hps, List.cons_append]

/-- An unauthorised packet leaves the client as it is. So a run ends with the same client and the
same reports without those that were unauthorised when they came. A command that its sender is
entitled to comes too late only for one that was known from the start, or for one that its sender
was entitled to and that took effect. -/
theorem unauthorised_invisible [Transport τ] (c : Client τ) :
    (∀ payload, c.Unauthorised payload → doing (receive payload) c = c) ∧
    (∀ steps, c.run (c.authorised steps) = c.run steps) ∧
    ∀ payloads payload ch, (c.readAll payloads).account.codec.change? payload = some ch →
      (c.readAll payloads).Handles ch.command → (c.readAll payloads).Permits ch.sender ch.command →
      (c.readAll payloads).Accepts payload ch ∨ ¬c.Before ch.command.group ch.time ∨
        ∃ before p after earlier, payloads = before ++ p :: after ∧
          (c.readAll before).Accepts p earlier ∧
          earlier.command.group = ch.command.group ∧ ch.time ≤ earlier.time := by
  refine ⟨fun _ h => h.receive, c.run_authorised, ?_⟩
  intro payloads payload ch hch hhandles hpermits
  by_cases hbefore : (c.readAll payloads).Before ch.command.group ch.time
  · exact .inl ⟨hch, hhandles, hpermits, hbefore⟩
  · obtain ⟨t, ht, hle⟩ : ∃ t, (c.readAll payloads).latest? ch.command.group = some t ∧
        ch.time ≤ t := by simpa [Before] using hbefore
    rcases latest?_readAll ht with hstart | ⟨before, p, after, earlier, hps, haccepts, hgroup, rfl⟩
    · right; left
      intro hnew
      exact UInt64.lt_irrefl _ (UInt64.lt_of_le_of_lt hle (hnew t hstart))
    · exact .inr (.inr ⟨before, p, after, earlier, hps, haccepts, hgroup, hle⟩)

end Client

/-! ### Commands from the future by those who may not give them -/

namespace Group

open Client

def trespassing : List (ClientStep Loopback) :=
  ([⟨erin, 9000, .invite team [erin]⟩, ⟨carol, 9000, .expel team [alice]⟩,
    ⟨alice, 9000, .quit team⟩, ⟨erin, 9000, .quit team⟩] : List MembershipChange).map
      fun ch => .call (.receive (packetToBob ch))

/-- Carol's invitation does not come too late behind them, and is what alice's later command comes
too late for if it is dated back. -/
theorem unauthorised_invisible_trespassing :
    let c := knowing Codec.json bob (some [alice, bob, carol])
    let backdated : MembershipChange := { carolExpelled with time := 1000 }
    let invited := c.readAll [packetToBob carolInvites]
    c.Unauthorised (packetToBob ⟨erin, 9000, .invite team [erin]⟩) ∧
    c.run (trespassing ++ [.call (.receive (packetToBob carolInvites))]) =
      c.run [.call (.receive (packetToBob carolInvites))] ∧
    c.Accepts (packetToBob carolInvites) carolInvites ∧
    ¬invited.Accepts (packetToBob backdated) backdated ∧
    ∃ before p after earlier, [packetToBob carolInvites] = before ++ p :: after ∧
      (c.readAll before).Accepts p earlier ∧ earlier.command.group = team ∧ 1000 ≤ earlier.time := by
  intro c backdated invited
  have hunauthorised : c.Unauthorised (packetToBob ⟨erin, 9000, .invite team [erin]⟩) := by
    decide +kernel
  have htrespasses : ∀ s ∈ trespassing, c.Trespasses s = true := by decide +kernel
  have hentitled : ¬c.Trespasses (.call (.receive (packetToBob carolInvites))) = true := by
    decide +kernel
  have haccepts : c.Accepts (packetToBob carolInvites) carolInvites :=
    accepts?_eq_some.mp (by decide +kernel)
  have hlate : ¬invited.Accepts (packetToBob backdated) backdated := by
    rw [← accepts?_eq_some]
    decide +kernel
  obtain ⟨-, hpruned, hnever⟩ := unauthorised_invisible c
  refine ⟨hunauthorised, ?_, haccepts, hlate, ?_⟩
  · have hsame := hpruned (trespassing ++ [.call (.receive (packetToBob carolInvites))])
    rw [authorised_append_of_trespasses htrespasses, authorised, if_neg hentitled] at hsame
    exact hsame.symm
  · rcases hnever [packetToBob carolInvites] (packetToBob backdated) backdated (by decide +kernel)
      (by decide +kernel) (by decide +kernel) with hnow | hstart | hearlier
    · exact absurd hnow hlate
    · exact absurd (by decide +kernel) hstart
    · exact hearlier

end Group

end Courier
