import Courier.Group

/-!
# Rosters as sets

Which members a roster has after a change, whatever their order, and who is read back from a
directory in which a roster was stored.
-/

namespace Courier

namespace Directory

theorem mem_bringForward {e owner : Entity} {members : List Entity} :
    e ∈ bringForward owner members ↔ e ∈ members := by
  unfold bringForward
  split
  · rename_i h
    have howner : owner ∈ members := by simpa using h
    exact (List.perm_cons_erase howner).symm.mem_iff
  · exact Iff.rfl

/-- Those who are read back are the ones in a roster, or the owner if it is empty. -/
def Reads (d : Directory) (group : Entity) (roster : List Entity) : Prop :=
  ∀ e, e ∈ d.members group ↔
    (roster ≠ [] ∧ e ∈ roster) ∨ (roster = [] ∧ d.owner? group = some e)

theorem reads_saveMembers (d : Directory) (group : Entity) (roster : List Entity) :
    (d.saveMembers group roster).Reads group roster := by
  intro e
  have howner : (d.saveMembers group roster).owner? group = d.owner? group := rfl
  have hroster : (d.saveMembers group roster).rosters.get? group = some roster :=
    (Table.get?_insert _ _ _ _).trans (if_pos rfl)
  rw [howner, members, members?, hroster, howner]
  cases roster with
  | nil =>
    cases h : d.owner? group with
    | none => simp
    | some owner => simp [eq_comm]
  | cons m ms =>
    cases d.owner? group with
    | none => simp
    | some owner => simp [mem_bringForward]

theorem members_of_members? {d : Directory} {group : Entity} {members : List Entity}
    (h : d.members? group = some members) : d.members group = members := by
  rw [Directory.members, h]
  rfl

theorem members?_ne_nil {d : Directory} {group : Entity} : d.members? group ≠ some [] := by
  unfold members?
  split
  · rename_i m ms owner _ _
    intro h
    have hm : m ∈ bringForward owner (m :: ms) := mem_bringForward.mpr List.mem_cons_self
    rw [Option.some.inj h] at hm
    cases hm
  · exact fun h => nomatch h
  · exact fun h => nomatch h
  · exact fun h => nomatch h

theorem reads_members (d : Directory) (group : Entity) : d.Reads group (d.members group) := by
  intro e
  unfold members
  cases h : d.members? group with
  | none =>
    have howner : d.owner? group = none := by
      unfold members? at h
      split at h <;> simp_all
    simp [howner]
  | some roster =>
    have hne : roster ≠ [] := fun hnil => members?_ne_nil (hnil ▸ h)
    simp [hne]

theorem Reads.same {d d' : Directory} {group : Entity} {roster roster' : List Entity}
    (h : d.Reads group roster) (h' : d'.Reads group roster')
    (howner : d'.owner? group = d.owner? group) (hsame : ∀ e, e ∈ roster ↔ e ∈ roster') (e : Entity) :
    e ∈ d.members group ↔ e ∈ d'.members group := by
  have hnil : roster = [] ↔ roster' = [] := by
    rw [List.eq_nil_iff_forall_not_mem, List.eq_nil_iff_forall_not_mem]
    exact forall_congr' fun e => not_congr (hsame e)
  rw [h e, h' e, howner, hsame e]
  simp [hnil]

theorem isAdmin_iff {d : Directory} {group who : Entity} :
    d.isAdmin group who = true ↔ d.owner? group = some who ∨ who ∈ d.assistants group := by
  simp [isAdmin]

theorem isAdmin_congr {d d' : Directory} {group : Entity}
    (howner : d'.owner? group = d.owner? group)
    (hassistants : ∀ e, e ∈ d'.assistants group ↔ e ∈ d.assistants group) (who : Entity) :
    d'.isAdmin group who = d.isAdmin group who := by
  rw [Bool.eq_iff_iff, isAdmin_iff, isAdmin_iff, howner, hassistants]

end Directory

namespace Client

theorem mem_joined {e : Entity} {roster named : List Entity} :
    e ∈ joined roster named ↔ e ∈ roster ∨ e ∈ named := by
  induction named generalizing roster with
  | nil => simp [joined]
  | cons n rest ih =>
    rw [joined, ih]
    by_cases hn : n ∈ roster
    · rw [if_pos (List.contains_iff_mem.mpr hn), List.mem_cons]
      refine ⟨fun h => h.imp_right .inr, ?_⟩
      rintro (h | rfl | h)
      · exact .inl h
      · exact .inl hn
      · exact .inr h
    · rw [if_neg (fun h => hn (List.contains_iff_mem.mp h)), List.mem_append, List.mem_singleton,
        List.mem_cons, or_assoc]

theorem prefix_joined (roster named : List Entity) : roster <+: joined roster named := by
  induction named generalizing roster with
  | nil => exact List.prefix_rfl
  | cons n rest ih =>
    rw [joined]
    split
    · exact ih roster
    · exact (List.prefix_append roster [n]).trans (ih _)

theorem length_le_joined (roster named : List Entity) :
    roster.length ≤ (joined roster named).length :=
  (prefix_joined roster named).length_le

/-- A roster that is not longer for those who join had them all. -/
theorem joined_of_length {roster named : List Entity}
    (h : ¬roster.length < (joined roster named).length) : joined roster named = roster :=
  ((prefix_joined roster named).eq_of_length_le (Nat.le_of_not_lt h)).symm

theorem mem_without {e : Entity} {roster named : List Entity} :
    e ∈ without roster named ↔ e ∈ roster ∧ e ∉ named := by
  simp [without]

theorem without_of_length {roster named : List Entity}
    (h : ¬(without roster named).length < roster.length) : without roster named = roster :=
  List.filter_sublist.eq_of_length_le (Nat.le_of_not_lt h)

end Client

end Courier
