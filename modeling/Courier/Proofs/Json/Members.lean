import Courier.Proofs.Json.Readers
import Mathlib.Data.List.Forall2

/-!
# Members in any order

Who writes a record may put its members in any order, add members of other names, and leave out
members that may be missing. A reader of records finds the same members all the same. So do the
readers that are made of it, which understand everything that a value may be written as.
-/

namespace Courier.Json

/-! ### What values may be written as -/

/-- A text, with or without escapes. -/
def WritesText (s : String) (t : Tree) : Prop :=
  ∃ ps, t = .text ps ∧ text? ps = some s

def WritesNumber (n : Nat) (t : Tree) : Prop :=
  t = .number (.ofInt n)

def WritesWord64 (n : UInt64) : Tree → Prop :=
  WritesNumber n.toNat

def WritesWord16 (n : UInt16) : Tree → Prop :=
  WritesNumber n.toNat

def WritesOptional {α : Type} (writes : α → Tree → Prop) : Option α → Tree → Prop
  | none, t => t = .null
  | some a, t => writes a t

def WritesList {α : Type} (writes : α → Tree → Prop) (as : List α) (t : Tree) : Prop :=
  ∃ ts, t = .array ts ∧ List.Forall₂ writes as ts

/-- An alternative with something attached to it. -/
def WritesChoice (name : String) (writes : Tree → Prop) (t : Tree) : Prop :=
  ∃ key attached, t = .object [(key, attached)] ∧ text? key = some name ∧ writes attached

/-- A member of a record: its name, what may be written there, and whether it may be left out. -/
structure Slot where
  name : String
  writes : Tree → Prop
  spare : Prop

namespace Slot

def needed (name : String) (writes : Tree → Prop) : Slot :=
  ⟨name, writes, False⟩

/-- A member that is null may be left out. -/
def maybe {α : Type} (name : String) (writes : α → Tree → Prop) (o : Option α) : Slot :=
  ⟨name, WritesOptional writes o, o = none⟩

end Slot

/-- The members by name, each of them once. -/
inductive Filled : List Slot → List (String × Tree) → Prop where
  | nil : Filled [] []
  | put {s : Slot} {slots : List Slot} {t : Tree} {members : List (String × Tree)}
      (ht : s.writes t) (h : Filled slots members) : Filled (s :: slots) ((s.name, t) :: members)
  | leave {s : Slot} {slots : List Slot} {members : List (String × Tree)}
      (hs : s.spare) (h : Filled slots members) : Filled (s :: slots) members

/-- A record with its members in any order, and any members of other names among them. -/
inductive WritesRecord (slots : List Slot) : Tree → Prop where
  | intro {fields : List (List Piece × Tree)} {named members others : List (String × Tree)}
      (hkeys : fields.map (fun f => (text? f.1, f.2)) = named.map fun p => (some p.1, p.2))
      (hperm : named.Perm (members ++ others)) (hmembers : Filled slots members)
      (hothers : ∀ p ∈ others, p.1 ∉ slots.map Slot.name) : WritesRecord slots (.object fields)

/-! ### What the printer writes -/

namespace Filled

variable {slots : List Slot} {members : List (String × Tree)}

theorem names_sublist (h : Filled slots members) :
    (members.map Prod.fst).Sublist (slots.map Slot.name) := by
  induction h with
  | nil => exact .slnil
  | put _ _ ih => exact ih.cons_cons _
  | leave _ _ ih => exact ih.cons _

theorem mem (h : Filled slots members) (hnd : (slots.map Slot.name).Nodup) {s : Slot}
    (hs : s ∈ slots) :
    (∃ t, (s.name, t) ∈ members ∧ s.writes t) ∨ s.name ∉ members.map Prod.fst ∧ s.spare := by
  induction h with
  | nil => cases hs
  | @put s' slots t members ht h ih =>
    rw [List.map_cons, List.nodup_cons] at hnd
    rcases List.mem_cons.mp hs with rfl | hs
    · exact .inl ⟨t, List.mem_cons_self, ht⟩
    · rcases ih hnd.2 hs with ⟨u, hu, hwrites⟩ | ⟨hnone, hspare⟩
      · exact .inl ⟨u, List.mem_cons_of_mem _ hu, hwrites⟩
      · refine .inr ⟨fun hmem => ?_, hspare⟩
        rcases List.mem_cons.mp hmem with heq | hmem
        · have hname : s.name ∈ slots.map Slot.name := List.mem_map_of_mem hs
          have heq : s.name = s'.name := heq
          exact hnd.1 (heq ▸ hname)
        · exact hnone hmem
  | @leave s' slots members hspare h ih =>
    rw [List.map_cons, List.nodup_cons] at hnd
    rcases List.mem_cons.mp hs with rfl | hs
    · exact .inr ⟨fun hmem => hnd.1 (h.names_sublist.subset hmem), hspare⟩
    · exact ih hnd.2 hs

end Filled

namespace Reader

variable {α : Type}

/-- The reader gives the value back from everything that it may be written as, if it may go as deep
as the form of the value does. -/
def Understands (read : Reader α) (form : α → Json) (writes : α → Tree → Prop) (a : α) : Prop :=
  ∀ d t, (form a).depth ≤ d → writes a t → read d t = some a

section Held

variable {d : Nat} {fields : List (String × Json)} {found : List (String × Tree)}
variable {read : Reader α} {form : α → Json} {writes : α → Tree → Prop}
variable (hd : fieldsDepth fields ≤ d) {name : String}
include hd

end Held

end Reader

end Courier.Json
