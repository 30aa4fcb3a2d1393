import Courier.Proofs.Group.Agreement
import Courier.Proofs.Group.Storing

/-!
# Whether the owner stays in the roster

An owner who is listed stays listed whatever the client itself does to a group, and whatever the
others tell it but one thing: the handler of an expulsion asks who sent it and not whom it names. An
admin's command that names the owner, and not everyone else, takes the owner out.
-/

namespace Courier

namespace Directory

theorem members_saveMembers_of_ne {d : Directory} {group g : Entity} (h : g ≠ group)
    (roster : List Entity) : (d.saveMembers group roster).members g = d.members g := by
  have hroster : (d.saveMembers group roster).rosters.get? g = d.rosters.get? g :=
    (Table.get?_insert _ _ _ _).trans (if_neg h)
  have howner : (d.saveMembers group roster).owner? g = d.owner? g := rfl
  rw [members, members?, hroster, howner, members, members?]

/-- A known owner is listed in whatever is read back, unless a roster without him was stored. -/
theorem mem_members_saveMembers_owner {d : Directory} {group owner : Entity}
    (howner : d.owner? group = some owner) (roster : List Entity) :
    owner ∈ (d.saveMembers group roster).members group ↔ roster = [] ∨ owner ∈ roster := by
  rw [reads_saveMembers d group roster owner]
  have howner : (d.saveMembers group roster).owner? group = some owner := howner
  cases roster with
  | nil => simp [howner]
  | cons m ms => simp

end Directory

namespace Group

open Client

variable {τ : Type}

/-! ### One step -/

/-- The owner of a group is known and listed. -/
structure OwnerListed (c : Client τ) (group owner : Entity) : Prop where
  known : c.account.directory.owner? group = some owner
  listed : owner ∈ c.account.directory.members group

/-- The packet is an accepted command that expels the owner by name, but not everyone. -/
def Ousts (c : Client τ) (payload : Bytes) (group owner : Entity) : Prop :=
  ∃ ch named, c.Accepts payload ch ∧ c.account.rostersWritable = true ∧
    ch.command = .expel group named ∧ owner ∈ named ∧
    ∃ e ∈ c.account.directory.members group, e ∉ named

section Steps

variable {c : Client τ} {group owner : Entity}

theorem OwnerListed.of_sameGroups {c' : Client τ} (h : OwnerListed c group owner)
    (hsame : SameGroups c c') : OwnerListed c' group owner where
  known := (hsame.directory group).2.1.trans h.known
  listed := hsame.members group ▸ h.listed

theorem OwnerListed.of_directory {c' : Client τ} (h : OwnerListed c group owner)
    (hsame : c'.account.directory = c.account.directory) : OwnerListed c' group owner where
  known := hsame ▸ h.known
  listed := hsame ▸ h.listed

/-- Storing a roster takes the owner out of a group if it is a roster of this group, is not empty
and leaves him out. -/
theorem OwnerListed.saved_iff {c' : Client τ} {g : Entity} {roster : List Entity}
    (h : OwnerListed c group owner)
    (hsaved : c'.account.directory = c.account.directory.saveMembers g roster) :
    OwnerListed c' group owner ↔ (g = group → roster = [] ∨ owner ∈ roster) := by
  have hknown : c'.account.directory.owner? group = some owner := hsaved ▸ h.known
  have hiff : OwnerListed c' group owner ↔ owner ∈ c'.account.directory.members group :=
    ⟨OwnerListed.listed, OwnerListed.mk hknown⟩
  rw [hiff, hsaved]
  by_cases hg : g = group
  · subst hg
    rw [Directory.mem_members_saveMembers_owner h.known]
    exact ⟨fun hmem _ => hmem, fun hmem => hmem rfl⟩
  · rw [Directory.members_saveMembers_of_ne (Ne.symm hg)]
    exact ⟨fun _ heq => absurd heq hg, fun _ => h.listed⟩

/-- A command that may be given leaves the owner in, unless it expels him by name. -/
theorem OwnerListed.mem_afterwards (h : OwnerListed c group owner) {sender : Entity}
    {command : GroupCommand} (hpermits : c.Permits sender command)
    (hgroup : command.group = group) :
    owner ∈ c.afterwards sender command ↔
      ∀ named, command = .expel group named → owner ∉ named := by
  cases command with
  | invite g named =>
    obtain rfl : g = group := hgroup
    exact ⟨fun _ _ => nofun, fun _ => mem_joined.mpr (.inl h.listed)⟩
  | expel g named =>
    obtain rfl : g = group := hgroup
    constructor
    · rintro hmem named' ⟨⟩
      exact (mem_without.mp hmem).2
    · intro hnamed
      exact mem_without.mpr ⟨h.listed, hnamed named rfl⟩
  | quit g =>
    obtain rfl : g = group := hgroup
    have hother : owner ≠ sender := by
      rintro rfl
      have hadmin := Directory.isAdmin_iff.mpr (.inl h.known)
      rw [hpermits.1] at hadmin
      cases hadmin
    exact ⟨fun _ _ => nofun, fun _ => mem_without.mpr ⟨h.listed, by simpa using hother⟩⟩
  | query g held => exact hpermits.elim

theorem not_ousts_of_not_accepts {payload : Bytes} (h : ∀ ch, ¬c.Accepts payload ch) :
    ¬Ousts c payload group owner := by
  rintro ⟨ch, named, haccepts, -⟩
  exact h ch haccepts

theorem ousts_iff {payload : Bytes} {ch : MembershipChange} (haccepts : c.Accepts payload ch) :
    Ousts c payload group owner ↔ c.account.rostersWritable = true ∧
      ∃ named, ch.command = .expel group named ∧ owner ∈ named ∧
        ∃ e ∈ c.account.directory.members group, e ∉ named := by
  constructor
  · rintro ⟨ch', named, haccepts', hw, h⟩
    obtain rfl := Option.some.inj (haccepts.change.symm.trans haccepts'.change)
    exact ⟨hw, named, h⟩
  · rintro ⟨hw, named, h⟩
    exact ⟨ch, named, haccepts, hw, h⟩

/-- An accepted command that is stored takes the owner out exactly if it expels him by name and
leaves somebody else. -/
theorem OwnerListed.stored_iff (h : OwnerListed c group owner) {sender : Entity}
    {command : GroupCommand} (hpermits : c.Permits sender command) :
    (command.group = group → c.afterwards sender command = [] ∨
        owner ∈ c.afterwards sender command) ↔
      ¬∃ named, command = .expel group named ∧ owner ∈ named ∧
        ∃ e ∈ c.account.directory.members group, e ∉ named := by
  constructor
  · rintro hkept ⟨named, rfl, hnamed, e, he, hother⟩
    rcases hkept rfl with hnil | hmem
    · have hleft : e ∈ c.afterwards sender (.expel group named) := mem_without.mpr ⟨he, hother⟩
      rw [hnil] at hleft
      cases hleft
    · exact (h.mem_afterwards hpermits rfl).mp hmem named rfl hnamed
  · intro hnot hgroup
    by_cases hmem : owner ∈ c.afterwards sender command
    · exact .inr hmem
    · -- Somebody who is left would make the command one that ousts the owner.
      refine .inl (List.eq_nil_iff_forall_not_mem.mpr fun e he => ?_)
      rw [h.mem_afterwards hpermits hgroup] at hmem
      refine hmem fun named hcommand hnamed => ?_
      subst hcommand
      exact hnot ⟨named, rfl, hnamed, e, mem_without.mp he⟩

theorem OwnerListed.receive_iff (h : OwnerListed c group owner) (payload : Bytes) :
    OwnerListed (doing (receive payload) c) group owner ↔ ¬Ousts c payload group owner := by
  by_cases haccepts : ∃ ch, c.Accepts payload ch
  · obtain ⟨ch, haccepts⟩ := haccepts
    rw [ousts_iff haccepts, haccepts.doing_receive]
    by_cases hstore : c.account.rostersWritable = true ∧
        (c.afterwards ch.sender ch.command).length ≠
          (c.account.directory.members ch.command.group).length
    · let left := c.afterwards ch.sender ch.command
      have hsaved : ((c.noted ch.command.group ch.time).modifyDirectory
          (·.saveMembers ch.command.group left)).account.directory =
          c.account.directory.saveMembers ch.command.group left := rfl
      rw [if_pos hstore, h.saved_iff hsaved, h.stored_iff haccepts.permits]
      simp [hstore.1]
    · rw [if_neg hstore]
      refine iff_of_true (h.of_directory rfl) ?_
      rintro ⟨hw, named, hcommand, hnamed, -⟩
      refine hstore ⟨hw, fun hlength => ?_⟩
      -- A roster that did not shrink still lists the owner, whom the command names.
      have hgroup : ch.command.group = group := by rw [hcommand]; rfl
      have hsame : c.afterwards ch.sender ch.command = _ := GroupCommand.applied_of_length hlength
      have hmem : owner ∈ c.afterwards ch.sender ch.command := by
        rw [hsame, hgroup]
        exact h.listed
      exact (h.mem_afterwards haccepts.permits hgroup).mp hmem named hcommand hnamed
  · have hnone : ∀ ch, ¬c.Accepts payload ch := fun ch hch => haccepts ⟨ch, hch⟩
    exact iff_of_true (h.of_sameGroups (sameGroups_receive_of_not_accepts hnone))
      (not_ousts_of_not_accepts hnone)

/-- No operation of the client itself takes the owner out. -/
theorem OwnerListed.perform (h : OwnerListed c group owner) (g : Entity) (change : Change) :
    OwnerListed (doing (change.perform g) c) group owner := by
  rcases perform_directory change g c with ⟨-, plan, hplan, hsaved⟩ | ⟨-, hsame⟩
  · refine (h.saved_iff hsaved).mpr ?_
    rintro rfl
    have hlisted {members : List Entity}
        (hmembers : c.account.directory.members? g = some members) : owner ∈ members :=
      Directory.members_of_members? hmembers ▸ h.listed
    cases change with
    | invite named =>
      obtain ⟨bundle, members, -, hmembers, -, rfl⟩ := hplan
      exact .inr (List.mem_append_left _ (hlisted hmembers))
    | expel named =>
      obtain ⟨owner', members, howner, hmembers, hnamed, -, -, rfl⟩ := hplan
      obtain rfl := Option.some.inj (h.known.symm.trans howner)
      exact .inr (mem_without.mpr ⟨hlisted hmembers, hnamed⟩)
    | quit =>
      obtain ⟨self, owner', members, -, howner, hmembers, hother, -, rfl⟩ := hplan
      obtain rfl := Option.some.inj (h.known.symm.trans howner)
      exact .inr (mem_without.mpr ⟨hlisted hmembers, by simpa using hother⟩)
  · exact h.of_directory hsame

end Steps

/-! ### Whole runs -/

/-- One thing that happens to a client. -/
inductive Deed (τ : Type) where
  | packet (payload : Bytes)
  | perform (group : Entity) (change : Change)
  /-- Anything that leaves the directory alone. -/
  | meanwhile (c : Client τ)

def Deed.after (c : Client τ) : Deed τ → Client τ
  | packet payload => doing (receive payload) c
  | perform group change => doing (change.perform group) c
  | meanwhile other => other.modifyDirectory fun _ => c.account.directory

def after (c : Client τ) (deeds : List (Deed τ)) : Client τ :=
  deeds.foldl Deed.after c

theorem after_concat (c : Client τ) (deeds : List (Deed τ)) (d : Deed τ) :
    after c (deeds ++ [d]) = d.after (after c deeds) := by
  rw [after, List.foldl_append]
  rfl

theorem OwnerListed.after_iff {c : Client τ} {group owner : Entity} (h : OwnerListed c group owner)
    (d : Deed τ) : OwnerListed (d.after c) group owner ↔
      ∀ payload, d = .packet payload → ¬Ousts c payload group owner := by
  cases d with
  | packet payload =>
    rw [Deed.after, h.receive_iff]
    exact ⟨fun hnot _ heq => by cases heq; exact hnot, fun hnot => hnot payload rfl⟩
  | perform g change => exact iff_of_true (h.perform g change) fun _ => nofun
  | meanwhile other => exact iff_of_true (h.of_directory rfl) fun _ => nofun

/-- The owner stays listed all the time exactly if no packet on the way is an admin's command that
expels him by name. -/
theorem owner_stays_iff {c : Client τ} {group owner : Entity} (h : OwnerListed c group owner)
    (deeds : List (Deed τ)) :
    (∀ n, OwnerListed (after c (deeds.take n)) group owner) ↔
      ∀ n payload, deeds[n]? = some (.packet payload) →
        ¬Ousts (after c (deeds.take n)) payload group owner := by
  have hstep (n : Nat) (hn : OwnerListed (after c (deeds.take n)) group owner) :
      OwnerListed (after c (deeds.take (n + 1))) group owner ↔
        ∀ payload, deeds[n]? = some (.packet payload) →
          ¬Ousts (after c (deeds.take n)) payload group owner := by
    rw [List.take_add_one]
    cases deeds[n]? with
    | none => exact iff_of_true (by simpa using hn) fun _ => nofun
    | some d =>
      rw [Option.toList_some, after_concat, hn.after_iff]
      simp
  constructor
  · intro hall n
    exact (hstep n (hall n)).mp (hall (n + 1))
  · intro hnone n
    induction n with
    | zero => exact h
    | succ n ih => exact (hstep n ih).mpr (hnone n)

/-! ### An assistant expels the owner -/

def dora : Entity := ⟨"dora", "moky", .user⟩

/-- Knows that dora assists the team of alice, bob and carol. -/
def assisted : Client Loopback :=
  (knowing Codec.json bob (some [alice, bob, carol])).modifyDirectory (·.setAssistants team [dora])

/-- Dora's command that alice be expelled. -/
def ousting : Message :=
  let command : Command := .group (.expel team [alice])
  Message.new dora bob ((Content.new 7 (.command command) 2000).inGroup team)

def oustingRun : List (Deed Loopback) :=
  [.packet ((Codec.json.encode ousting).toOption.getD [])]

theorem ownerListed_assisted : OwnerListed assisted team alice where
  known := rfl
  listed := by decide +kernel

theorem not_ownerListed_ousting :
    ¬OwnerListed (after assisted (oustingRun.take 1)) team alice := by
  intro h
  have hlisted := h.listed
  revert hlisted
  decide +kernel

/-- Alice, who is listed, does not stay, since one packet ousts her. -/
theorem owner_stays_iff_ousting :
    OwnerListed assisted team alice ∧
    ∃ n payload, oustingRun[n]? = some (.packet payload) ∧
      Ousts (after assisted (oustingRun.take n)) payload team alice := by
  refine ⟨ownerListed_assisted, ?_⟩
  refine Classical.byContradiction fun hnone => ?_
  refine not_ownerListed_ousting ((owner_stays_iff ownerListed_assisted oustingRun).mpr ?_ 1)
  exact fun n payload hn housts => hnone ⟨n, payload, hn, housts⟩

theorem not_every_owner_stays :
    ¬ ∀ (c : Client Loopback) (group owner : Entity) (deeds : List (Deed Loopback)),
      OwnerListed c group owner → ∀ n, OwnerListed (after c (deeds.take n)) group owner := by
  intro h
  exact not_ownerListed_ousting (h assisted team alice oustingRun ownerListed_assisted 1)

end Group

end Courier
