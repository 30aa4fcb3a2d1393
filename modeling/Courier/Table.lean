/-!
# Tables

A finite map as the list of its entries, at most one of each key. The order of the entries means
nothing to `get?`.
-/

namespace Courier

structure Table (κ α : Type) where
  entries : List (κ × α)

namespace Table

variable {κ α : Type} [DecidableEq κ]

def empty : Table κ α := ⟨[]⟩

instance : Inhabited (Table κ α) :=
  ⟨empty⟩

def size (t : Table κ α) : Nat :=
  t.entries.length

def get? (t : Table κ α) (key : κ) : Option α :=
  (t.entries.find? (·.1 = key)).map Prod.snd

def contains (t : Table κ α) (key : κ) : Bool :=
  (t.get? key).isSome

def erase (t : Table κ α) (key : κ) : Table κ α :=
  ⟨t.entries.filter (·.1 ≠ key)⟩

/-- Writes an entry, replacing the one of the same key. -/
def insert (t : Table κ α) (key : κ) (a : α) : Table κ α :=
  ⟨(key, a) :: (t.erase key).entries⟩

@[simp] theorem get?_empty (key : κ) : (empty : Table κ α).get? key = none := rfl

theorem get?_erase (t : Table κ α) (key k : κ) :
    (t.erase key).get? k = if k = key then none else t.get? k := by
  obtain ⟨entries⟩ := t
  induction entries with
  | nil => simp [erase, get?]
  | cons p rest ih =>
    simp only [erase, get?] at ih ⊢
    grind

theorem get?_insert (t : Table κ α) (key k : κ) (a : α) :
    (t.insert key a).get? k = if k = key then some a else t.get? k := by
  have h := get?_erase t key k
  simp only [insert, get?, List.find?_cons] at h ⊢
  grind

theorem size_insert_le (t : Table κ α) (key : κ) (a : α) : (t.insert key a).size ≤ t.size + 1 := by
  simp only [insert, erase, size, List.length_cons]
  have := List.length_filter_le (fun p : κ × α => decide (p.1 ≠ key)) t.entries
  omega

end Table

end Courier
