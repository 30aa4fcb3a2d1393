import Courier.Proofs.Group.Histories
import Courier.Proofs.Group.Owner
import Mathlib.Data.List.Nodup

/-!
# Who comes into a roster and who leaves it

A roster is read with its owner in front, and with him alone when nobody else is stored. Whatever
stores a roster takes the one that was read, and adds to it or filters it. So nobody is listed
twice, nobody comes in unnamed except for the owner, and nobody goes missing.
-/

namespace Courier

/-! ### Nobody twice -/

namespace Directory

theorem nodup_bringForward {e : Entity} {members : List Entity} (h : members.Nodup) :
    (bringForward e members).Nodup := by
  unfold bringForward
  split
  · rename_i hlisted
    have hmem : e ∈ members := List.contains_iff_mem.mp hlisted
    exact (List.perm_cons_erase hmem).nodup_iff.mp h
  · exact h

theorem nodup_members_saveMembers {d : Directory} {group : Entity} {roster : List Entity}
    (h : roster.Nodup) : ((d.saveMembers group roster).members group).Nodup := by
  have howner : (d.saveMembers group roster).owner? group = d.owner? group := rfl
  have hroster : (d.saveMembers group roster).rosters.get? group = some roster :=
    (Table.get?_insert _ _ _ _).trans (if_pos rfl)
  rw [members, members?, hroster, howner]
  cases roster with
  | nil =>
    cases d.owner? group with
    | none => exact List.nodup_nil
    | some owner => exact List.nodup_singleton owner
  | cons m ms =>
    cases d.owner? group with
    | none => exact h
    | some owner => exact nodup_bringForward h

end Directory

namespace Client

theorem nodup_joined {roster : List Entity} (h : roster.Nodup) (named : List Entity) :
    (joined roster named).Nodup := by
  induction named generalizing roster with
  | nil => exact h
  | cons e rest ih =>
    rw [joined]
    split
    · exact ih h
    · rename_i hnew
      have hnew : e ∉ roster := fun hmem => hnew (List.contains_iff_mem.mpr hmem)
      exact ih (List.nodup_append_comm.mp (List.nodup_cons.mpr ⟨hnew, h⟩))

/-- Those who join are the newcomers. -/
theorem joined_eq_append (roster named : List Entity) :
    joined roster named = roster ++ Group.newcomers roster named := by
  suffices ∀ found, joined (roster ++ found) named = roster ++ named.foldl (fun found e =>
      if roster.contains e || found.contains e then found else found ++ [e]) found by
    have hnone := this []
    rwa [List.append_nil] at hnone
  induction named with
  | nil => exact fun _ => rfl
  | cons e rest ih =>
    intro found
    rw [joined, List.foldl_cons, List.contains_append]
    split
    · exact ih found
    · rw [List.append_assoc]
      exact ih (found ++ [e])

end Client

theorem GroupCommand.nodup_applied {roster : List Entity} (h : roster.Nodup) (sender : Entity)
    (command : GroupCommand) : (command.applied roster sender).Nodup := by
  cases command with
  | invite group named => exact Client.nodup_joined h named
  | expel group named => exact h.filter _
  | quit group => exact h.filter _
  | query group held => exact h

namespace Group

open Client

variable {τ : Type}

/-! ### Nobody unknown -/

theorem receivers_of_signed_out {group : Entity} {rounds : List Round} {c c' : Client τ}
    (hu : c.account.user = none) (h : attempt (sendRounds group rounds) c = (.ok (), c')) :
    ∀ r ∈ rounds, r.receivers = [] := by
  induction rounds generalizing c with
  | nil => exact nofun
  | cons r rounds ih =>
    obtain ⟨⟨⟩, c₁, hsend, hrest⟩ := attempt_bind_ok h
    have hnil : r.receivers = [] := by
      cases hr : r.receivers with
      | nil => rfl
      | cons receiver rest =>
        rw [hr] at hsend
        obtain ⟨content, c₂, hcontent, hsend⟩ := attempt_bind_ok hsend
        obtain ⟨ref, c₃, hsend, -⟩ := attempt_bind_ok hsend
        obtain ⟨sender, c₄, hsender, -⟩ := attempt_bind_ok (attempt_messaging_ok hsend)
        have hsame : c₂.account.user = none := (Prod.mk.inj hcontent).2 ▸ hu
        rw [attempt_senderOr_none, hsame] at hsender
        cases hsender
    rw [hnil] at hsend
    obtain rfl : c = c₁ := (Prod.mk.inj hsend).2
    intro r' hr'
    rcases List.mem_cons.mp hr' with rfl | hr'
    · exact hnil
    · exact ih hu hrest r' hr'

/-- An operation that succeeds told somebody. -/
theorem Change.Plans.receivers {d : Directory} {user : Option LocalUser} {group : Entity}
    {plan : Plan} {change : Change} (h : change.Plans d user group plan) :
    ∃ r ∈ plan.rounds, r.receivers ≠ [] := by
  cases change with
  | invite named =>
    obtain ⟨bundle, members, -, -, hadded, rfl⟩ := h
    unfold inviteRounds
    split
    · let whole := members ++ newcomers members named
      have hwhole : whole ≠ [] := List.append_ne_nil_of_right_ne_nil members hadded
      exact ⟨⟨.group (.invite group whole), whole⟩, by simp [whole], hwhole⟩
    · exact ⟨⟨bundle, newcomers members named⟩, List.mem_cons_self, hadded⟩
  | expel named =>
    obtain ⟨owner, members, -, hmembers, -, -, -, rfl⟩ := h
    have hsome : members ≠ [] := fun hnil => Directory.members?_ne_nil (hnil ▸ hmembers)
    refine ⟨⟨.group (.expel group named), members⟩, ?_, hsome⟩
    unfold leaveRounds
    split <;> simp
  | quit =>
    obtain ⟨self, owner, members, -, -, -, -, -, rfl⟩ := h
    unfold leaveRounds
    split
    · rename_i hlisted
      have hsome : without members [self.id] ≠ [] := fun hnil => by simp [hnil] at hlisted
      exact ⟨⟨.group (.quit group), without members [self.id]⟩, by simp, hsome⟩
    · exact ⟨⟨.group (.quit group), [owner]⟩, by simp, List.cons_ne_nil _ _⟩

theorem user_of_perform {c : Client τ} {group : Entity} {change : Change}
    (h : (attempt (change.perform group) c).1 = .ok true) : ∃ user, c.account.user = some user := by
  rcases perform_comesTo change group c with ⟨plan, hplan, hrun⟩ | ⟨hidle, -⟩
  · cases hu : c.account.user with
    | some user => exact ⟨user, rfl⟩
    | none =>
      have hok : attempt (plan.run group) c = (.ok true, (attempt (plan.run group) c).2) :=
        Prod.ext (hrun ▸ h) rfl
      obtain ⟨⟨⟩, c₁, hrounds, -⟩ := attempt_bind_ok hok
      obtain ⟨r, hr, hsome⟩ := hplan.receivers
      exact absurd (receivers_of_signed_out hu hrounds r hr) hsome
  · exact absurd h hidle

/-! ### One deed -/

/-- The command that is carried out when an operation succeeds. -/
def Change.command (group : Entity) : Change → GroupCommand
  | invite named => .invite group named
  | expel named => .expel group named
  | quit => .quit group

/-- The deed carries out a command: one of somebody else that takes effect, or one of the client's
user in an operation that succeeds. -/
inductive Deed.Carries (c : Client τ) : Deed τ → Entity → GroupCommand → Prop where
  | packet {payload : Bytes} {ch : MembershipChange} (h : c.Accepts payload ch) :
      Carries c (.packet payload) ch.sender ch.command
  | perform {group : Entity} {change : Change} {user : LocalUser}
      (hu : c.account.user = some user) (h : (attempt (change.perform group) c).1 = .ok true) :
      Carries c (.perform group change) user.id (change.command group)

/-- The deed is an invitation that names somebody. -/
def Deed.Brings (c : Client τ) (group who : Entity) (d : Deed τ) : Prop :=
  ∃ sender named, d.Carries c sender (.invite group named) ∧ who ∈ named

/-- The deed expels somebody by name, or he quits by it. -/
def Deed.Removes (c : Client τ) (group who : Entity) (d : Deed τ) : Prop :=
  (∃ sender named, d.Carries c sender (.expel group named) ∧ who ∈ named) ∨
    d.Carries c who (.quit group)

theorem Change.Plans.roster_eq {c : Client τ} {user : LocalUser} {group : Entity} {plan : Plan}
    {change : Change} (hu : c.account.user = some user)
    (h : change.Plans c.account.directory c.account.user group plan) :
    (change.command group).group = group ∧
      plan.roster = c.afterwards user.id (change.command group) := by
  cases change with
  | invite named =>
    obtain ⟨bundle, members, -, hmembers, -, rfl⟩ := h
    refine ⟨rfl, ?_⟩
    change members ++ newcomers members named = joined (c.account.directory.members group) named
    rw [Directory.members_of_members? hmembers, joined_eq_append]
  | expel named =>
    obtain ⟨owner, members, -, hmembers, -, -, -, rfl⟩ := h
    refine ⟨rfl, ?_⟩
    change without members named = without (c.account.directory.members group) named
    rw [Directory.members_of_members? hmembers]
  | quit =>
    obtain ⟨self, owner, members, hself, -, hmembers, -, -, rfl⟩ := h
    obtain rfl := Option.some.inj (hu.symm.trans hself)
    refine ⟨rfl, ?_⟩
    change without members [user.id] = without (c.account.directory.members group) [user.id]
    rw [Directory.members_of_members? hmembers]

section Steps

variable {c : Client τ} {d : Deed τ} {sender : Entity} {command : GroupCommand}

theorem Deed.Carries.reads (h : d.Carries c sender command)
    (hw : c.account.rostersWritable = true) :
    (d.after c).account.directory.Reads command.group (c.afterwards sender command) := by
  cases h with
  | packet haccepts => exact (haccepts.took hw).reads
  | @perform group change user hu hok =>
    rcases perform_directory change group c with ⟨-, plan, hplan, hsaved⟩ | ⟨hidle, -⟩
    · obtain ⟨hgroup, hroster⟩ := hplan.roster_eq hu
      rw [hgroup, ← hroster, Deed.after, doing_eq, hsaved]
      exact Directory.reads_saveMembers _ _ _
    · exact absurd hok hidle

/-- Only what a command leaves of a roster is ever stored, and only when it is carried out. -/
theorem Deed.after_cases (c : Client τ) (d : Deed τ) :
    (∀ group, (d.after c).account.directory.members group = c.account.directory.members group ∧
      (d.after c).account.directory.owner? group = c.account.directory.owner? group) ∨
    ∃ sender command, d.Carries c sender command ∧ (d.after c).account.directory =
      c.account.directory.saveMembers command.group (c.afterwards sender command) := by
  cases d with
  | packet payload =>
    by_cases haccepts : ∃ ch, c.Accepts payload ch
    · obtain ⟨ch, haccepts⟩ := haccepts
      rw [Deed.after, haccepts.doing_receive]
      split
      · exact .inr ⟨ch.sender, ch.command, .packet haccepts, rfl⟩
      · exact .inl fun group => ⟨rfl, rfl⟩
    · have hsame := sameGroups_receive_of_not_accepts (not_exists.mp haccepts)
      exact .inl fun group => ⟨hsame.members group, (hsame.directory group).2.1⟩
  | perform group change =>
    rw [Deed.after, doing_eq]
    rcases perform_directory change group c with ⟨hok, plan, hplan, hsaved⟩ | ⟨-, hsame⟩
    · obtain ⟨user, hu⟩ := user_of_perform hok
      obtain ⟨hgroup, hroster⟩ := hplan.roster_eq hu
      refine .inr ⟨user.id, change.command group, .perform hu hok, ?_⟩
      rw [hgroup, ← hroster]
      exact hsaved
    · rw [hsame]
      exact .inl fun group => ⟨rfl, rfl⟩
  | meanwhile other => exact .inl fun group => ⟨rfl, rfl⟩

variable {group who : Entity}

theorem Deed.owner?_after (c : Client τ) (d : Deed τ) (group : Entity) :
    (d.after c).account.directory.owner? group = c.account.directory.owner? group := by
  rcases d.after_cases c with hsame | ⟨sender, command, -, hsaved⟩
  · exact (hsame group).2
  · rw [hsaved]
    rfl

theorem Deed.nodup_after (d : Deed τ) (h : (c.account.directory.members group).Nodup) :
    ((d.after c).account.directory.members group).Nodup := by
  rcases d.after_cases c with hsame | ⟨sender, command, -, hsaved⟩
  · rw [(hsame group).1]
    exact h
  · rw [hsaved]
    by_cases hgroup : group = command.group
    · subst hgroup
      exact Directory.nodup_members_saveMembers (command.nodup_applied h sender)
    · rw [Directory.members_saveMembers_of_ne hgroup]
      exact h

/-- Whoever is listed after a deed was listed before, or is the owner, or is brought in by it. -/
theorem Deed.mem_before (d : Deed τ) (h : who ∈ (d.after c).account.directory.members group) :
    who ∈ c.account.directory.members group ∨ c.account.directory.owner? group = some who ∨
      d.Brings c group who := by
  rcases d.after_cases c with hsame | ⟨sender, command, hcarries, hsaved⟩
  · exact .inl ((hsame group).1 ▸ h)
  · rw [hsaved] at h
    by_cases hgroup : group = command.group
    · subst hgroup
      rcases (Directory.reads_saveMembers _ _ _ who).mp h with ⟨-, hmem⟩ | ⟨-, howner⟩
      · cases command with
        | invite g named =>
          rcases mem_joined.mp hmem with hbefore | hnamed
          · exact .inl hbefore
          · exact .inr (.inr ⟨sender, named, hcarries, hnamed⟩)
        | expel g named => exact .inl (mem_without.mp hmem).1
        | quit g => exact .inl (mem_without.mp hmem).1
        | query g held => exact .inl hmem
      · exact .inr (.inl howner)
    · rw [Directory.members_saveMembers_of_ne hgroup] at h
      exact .inl h

/-- Whoever is listed before a deed is listed afterwards, unless he is removed by it. -/
theorem Deed.mem_after (d : Deed τ) (h : who ∈ c.account.directory.members group) :
    who ∈ (d.after c).account.directory.members group ∨ d.Removes c group who := by
  rcases d.after_cases c with hsame | ⟨sender, command, hcarries, hsaved⟩
  · exact .inl ((hsame group).1 ▸ h)
  · rw [hsaved]
    by_cases hgroup : group = command.group
    · subst hgroup
      by_cases hleft : who ∈ c.afterwards sender command
      · have hsome : c.afterwards sender command ≠ [] := List.ne_nil_of_mem hleft
        exact .inl ((Directory.reads_saveMembers _ _ _ who).mpr (.inl ⟨hsome, hleft⟩))
      · refine .inr ?_
        cases command with
        | invite g named => exact absurd (mem_joined.mpr (.inl h)) hleft
        | expel g named =>
          have hnamed : who ∈ named := by
            refine Classical.byContradiction fun hnot => hleft ?_
            exact mem_without.mpr ⟨h, hnot⟩
          exact .inl ⟨sender, named, hcarries, hnamed⟩
        | quit g =>
          have hself : who = sender := by
            refine Classical.byContradiction fun hnot => hleft ?_
            exact mem_without.mpr ⟨h, by simpa using hnot⟩
          exact .inr (hself ▸ hcarries)
        | query g held => exact absurd h hleft
    · rw [Directory.members_saveMembers_of_ne hgroup]
      exact .inl h

/-- Whoever is brought in is listed, if the client may store rosters. -/
theorem Deed.Brings.mem (h : d.Brings c group who) (hw : c.account.rostersWritable = true) :
    who ∈ (d.after c).account.directory.members group := by
  obtain ⟨sender, named, hcarries, hnamed⟩ := h
  have hjoined : who ∈ c.afterwards sender (.invite group named) := mem_joined.mpr (.inr hnamed)
  exact (hcarries.reads hw who).mpr (.inl ⟨List.ne_nil_of_mem hjoined, hjoined⟩)

end Steps

/-! ### Whole runs -/

theorem after_take_succ {c : Client τ} {deeds : List (Deed τ)} {n : Nat} {d : Deed τ}
    (h : deeds[n]? = some d) :
    after c (deeds.take (n + 1)) = d.after (after c (deeds.take n)) := by
  rw [List.take_add_one, h, Option.toList_some, after_concat]

theorem after_take_of_none {c : Client τ} {deeds : List (Deed τ)} {n : Nat}
    (h : deeds[n]? = none) : after c (deeds.take (n + 1)) = after c (deeds.take n) := by
  rw [List.take_add_one, h, Option.toList_none, List.append_nil]

theorem owner?_after (c : Client τ) (deeds : List (Deed τ)) (group : Entity) :
    (after c deeds).account.directory.owner? group = c.account.directory.owner? group := by
  induction deeds generalizing c with
  | nil => rfl
  | cons d deeds ih => exact (ih (d.after c)).trans (d.owner?_after c group)

section Runs

variable {c : Client τ} {deeds : List (Deed τ)} {group who : Entity}

theorem nodup_members_after (h : (c.account.directory.members group).Nodup) :
    ((after c deeds).account.directory.members group).Nodup := by
  induction deeds generalizing c with
  | nil => exact h
  | cons d deeds ih => exact ih (d.nodup_after h)

theorem brought_of_mem {n : Nat}
    (h : who ∈ (after c (deeds.take n)).account.directory.members group) :
    who ∈ c.account.directory.members group ∨ c.account.directory.owner? group = some who ∨
      ∃ k < n, ∃ d, deeds[k]? = some d ∧ d.Brings (after c (deeds.take k)) group who := by
  induction n with
  | zero => exact .inl h
  | succ n ih =>
    have hearlier (hn : who ∈ (after c (deeds.take n)).account.directory.members group) :
        who ∈ c.account.directory.members group ∨ c.account.directory.owner? group = some who ∨
          ∃ k < n + 1, ∃ d, deeds[k]? = some d ∧ d.Brings (after c (deeds.take k)) group who := by
      refine (ih hn).imp_right (Or.imp_right ?_)
      exact fun ⟨k, hk, hbrings⟩ => ⟨k, Nat.lt_succ_of_lt hk, hbrings⟩
    cases hd : deeds[n]? with
    | none => exact hearlier (after_take_of_none hd ▸ h)
    | some d =>
      rw [after_take_succ hd] at h
      rcases d.mem_before h with hbefore | howner | hbrings
      · exact hearlier hbefore
      · rw [owner?_after] at howner
        exact .inr (.inl howner)
      · exact .inr (.inr ⟨n, Nat.lt_succ_self n, d, hd, hbrings⟩)

theorem mem_or_removed {m n : Nat} (hmn : m ≤ n)
    (h : who ∈ (after c (deeds.take m)).account.directory.members group) :
    who ∈ (after c (deeds.take n)).account.directory.members group ∨
      ∃ k, m ≤ k ∧ k < n ∧ ∃ d, deeds[k]? = some d ∧
        d.Removes (after c (deeds.take k)) group who := by
  induction hmn with
  | refl => exact .inl h
  | @step n hmn ih =>
    rcases ih with hlisted | ⟨k, hmk, hk, hremoved⟩
    · cases hd : deeds[n]? with
      | none =>
        rw [after_take_of_none hd]
        exact .inl hlisted
      | some d =>
        rw [after_take_succ hd]
        exact (d.mem_after hlisted).imp_right fun hremoves =>
          ⟨n, hmn, Nat.lt_succ_self n, d, hd, hremoves⟩
    · exact .inr ⟨k, hmk, Nat.lt_succ_of_lt hk, hremoved⟩

end Runs

/-- Whatever packets come in and whoever is invited or expelled or quits, nobody is listed twice,
whoever is listed was so from the start, or owns the group, or was named in an invitation that was
carried out, and stays listed until he is expelled by name or quits. -/
theorem rosters_keep_account (c : Client τ) (deeds : List (Deed τ))
    (hnodup : ∀ group, (c.account.directory.members group).Nodup) :
    let roster (n : Nat) (group : Entity) :=
      (after c (deeds.take n)).account.directory.members group
    (∀ n group, (roster n group).Nodup) ∧
    (∀ n group, ∀ who ∈ roster n group,
      who ∈ c.account.directory.members group ∨ c.account.directory.owner? group = some who ∨
        ∃ k < n, ∃ d, deeds[k]? = some d ∧ d.Brings (after c (deeds.take k)) group who) ∧
    (∀ m n group, m ≤ n → ∀ who ∈ roster m group,
      who ∈ roster n group ∨
        ∃ k, m ≤ k ∧ k < n ∧ ∃ d, deeds[k]? = some d ∧
          d.Removes (after c (deeds.take k)) group who) ∧
    ∀ n group who d, deeds[n]? = some d → d.Brings (after c (deeds.take n)) group who →
      (after c (deeds.take n)).account.rostersWritable = true → who ∈ roster (n + 1) group := by
  intro roster
  refine ⟨fun n group => nodup_members_after (hnodup group), fun n group who h => brought_of_mem h,
    fun m n group hmn who h => mem_or_removed hmn h, ?_⟩
  intro n group who d hd hbrings hw
  have hsucc : roster (n + 1) group =
      (d.after (after c (deeds.take n))).account.directory.members group := by
    dsimp only [roster]
    rw [after_take_succ hd]
  rw [hsucc]
  exact hbrings.mem hw

/-! ### A group from its owner alone -/

/-- Bob brings himself and carol in, who brings erin in and is then expelled by the owner; in the
end bob quits. -/
def comings : List (Deed Loopback) :=
  [.perform team (.invite [carol, bob, carol]), .packet (packetToBob carolInvites),
    .packet (packetToBob carolExpelled), .perform team .quit]

theorem nodup_members_knowing (codec : Codec) (user group : Entity) :
    ((knowing codec user none).account.directory.members group).Nodup := by
  have hroster : (knowing codec user none).account.directory.rosters.get? group = none := rfl
  rw [Directory.members, Directory.members?, hroster]
  cases (knowing codec user none).account.directory.owner? group with
  | none => exact List.nodup_nil
  | some owner => exact List.nodup_singleton owner

/-- The one deed by which carol, who is listed after the second deed, can have come in is the first
one or the second; the one by which she goes missing is the third. -/
theorem rosters_keep_account_comings :
    let c := knowing Codec.json bob none
    let roster (n : Nat) := (after c (comings.take n)).account.directory.members team
    (∀ group, (c.account.directory.members group).Nodup) ∧
    roster 0 = [alice] ∧ roster 2 = [alice, carol, bob, erin] ∧ roster 4 = [alice, erin] ∧
    (∃ k < 2, ∃ d, comings[k]? = some d ∧ d.Brings (after c (comings.take k)) team carol) ∧
    ∃ d, comings[2]? = some d ∧ d.Removes (after c (comings.take 2)) team carol := by
  intro c roster
  have hnodup := nodup_members_knowing Codec.json bob
  have hstart : roster 0 = [alice] := by decide +kernel
  have hjoined : roster 2 = [alice, carol, bob, erin] := by decide +kernel
  have hleft : roster 3 = [alice, bob, erin] := by decide +kernel
  have hend : roster 4 = [alice, erin] := by decide +kernel
  have hlisted : carol ∈ roster 2 := hjoined ▸ by decide
  have hmissing : carol ∉ roster 3 := hleft ▸ by decide
  obtain ⟨-, hcame, hstays, -⟩ := rosters_keep_account c comings hnodup
  refine ⟨hnodup, hstart, hjoined, hend, ?_, ?_⟩
  · rcases hcame 2 team carol hlisted with hbefore | howner | hbrought
    · exact absurd (hstart ▸ hbefore : carol ∈ [alice]) (by decide)
    · exact absurd howner (by decide +kernel)
    · exact hbrought
  · rcases hstays 2 3 team (by decide) carol hlisted with hstill | ⟨k, hfrom, hto, hremoved⟩
    · exact absurd hstill hmissing
    · obtain rfl : k = 2 := Nat.le_antisymm (Nat.le_of_lt_succ hto) hfrom
      exact hremoved

end Group

end Courier
