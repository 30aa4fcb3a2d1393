import Courier.Decimal.Binary64

/-!
# JSON values

Numbers are integers or finite binary numbers. A value is canonical when its integers fit 64 bits,
signed or unsigned, and every object lists its keys in increasing order; two canonical values with
the same members are equal.
-/

namespace Courier

inductive Json where
  | null
  | bool (b : Bool)
  | int (n : Int)
  | float (x : Binary64)
  | text (s : String)
  | array (items : List Json)
  | object (fields : List (String × Json))
  deriving Repr, BEq

namespace Json

def nat (n : Nat) : Json := .int n

def leastInt : Int := -0x8000000000000000

def greatestInt : Int := 0xFFFFFFFFFFFFFFFF

mutual

def Canonical : Json → Prop
  | .int n => leastInt ≤ n ∧ n ≤ greatestInt
  | .array items => ItemsCanonical items
  | .object fields => (fields.map Prod.fst).Pairwise (· < ·) ∧ FieldsCanonical fields
  | _ => True

def ItemsCanonical : List Json → Prop
  | [] => True
  | v :: rest => v.Canonical ∧ ItemsCanonical rest

def FieldsCanonical : List (String × Json) → Prop
  | [] => True
  | (_, v) :: rest => v.Canonical ∧ FieldsCanonical rest

end

/-- Puts a member at its place among ordered keys; a member of the same key is replaced. -/
def insertField (key : String) (v : Json) : List (String × Json) → List (String × Json)
  | [] => [(key, v)]
  | (k, w) :: rest =>
    if key < k then (key, v) :: (k, w) :: rest
    else if key = k then (key, v) :: rest
    else (k, w) :: insertField key v rest

theorem mem_insertField {key : String} {v : Json} {fields : List (String × Json)}
    {p : String × Json} (h : p ∈ insertField key v fields) : p = (key, v) ∨ p ∈ fields := by
  induction fields with
  | nil => simpa [insertField] using h
  | cons q rest ih =>
    obtain ⟨k, w⟩ := q
    unfold insertField at h
    split at h
    · simpa using h
    · split at h
      · simp only [List.mem_cons] at h ⊢
        cases h with
        | inl h => exact .inl h
        | inr h => exact .inr (.inr h)
      · simp only [List.mem_cons] at h ⊢
        cases h with
        | inl h => exact .inr (.inl h)
        | inr h =>
          cases ih h with
          | inl h => exact .inl h
          | inr h => exact .inr (.inr h)

theorem pairwise_insertField (key : String) (v : Json) {fields : List (String × Json)}
    (h : (fields.map Prod.fst).Pairwise (· < ·)) :
    ((insertField key v fields).map Prod.fst).Pairwise (· < ·) := by
  induction fields with
  | nil => simp [insertField]
  | cons p rest ih =>
    obtain ⟨k, w⟩ := p
    rw [List.map_cons, List.pairwise_cons] at h
    unfold insertField
    split
    · rename_i hlt
      simp only [List.map_cons, List.pairwise_cons]
      refine ⟨?_, h.1, h.2⟩
      intro k' hk'
      cases List.mem_cons.mp hk' with
      | inl heq => exact heq ▸ hlt
      | inr hmem => exact String.lt_trans hlt (h.1 k' hmem)
    · split
      · rename_i heq
        subst heq
        simpa using h
      · rename_i hlt hne
        rw [List.map_cons, List.pairwise_cons]
        refine ⟨?_, ih h.2⟩
        intro k' hk'
        obtain ⟨q, hq, rfl⟩ := List.mem_map.mp hk'
        cases mem_insertField hq with
        | inl heq =>
          subst heq
          exact String.not_le.mp fun hle => hne (String.le_antisymm hle (String.not_lt.mp hlt))
        | inr hmem => exact h.1 _ (List.mem_map_of_mem hmem)

theorem fieldsCanonical_iff {fields : List (String × Json)} :
    FieldsCanonical fields ↔ ∀ p ∈ fields, p.2.Canonical := by
  induction fields with
  | nil => simp [FieldsCanonical]
  | cons p rest ih => simp [FieldsCanonical, ih]

theorem itemsCanonical_iff {items : List Json} :
    ItemsCanonical items ↔ ∀ v ∈ items, v.Canonical := by
  induction items with
  | nil => simp [ItemsCanonical]
  | cons v rest ih => simp [ItemsCanonical, ih]

theorem canonical_insertField {key : String} {v : Json} {fields : List (String × Json)}
    (hv : v.Canonical) (h : (Json.object fields).Canonical) :
    (Json.object (insertField key v fields)).Canonical := by
  rw [Canonical, fieldsCanonical_iff] at h ⊢
  refine ⟨pairwise_insertField key v h.1, fun p hp => ?_⟩
  cases mem_insertField hp with
  | inl heq => exact heq ▸ hv
  | inr hmem => exact h.2 p hmem

end Json

/-- Free members attached to a record, in increasing key order. -/
structure Properties where
  fields : List (String × Json)
  canonical : (Json.object fields).Canonical

namespace Properties

def empty : Properties :=
  ⟨[], by simp [Json.Canonical, Json.FieldsCanonical]⟩

instance : Inhabited Properties :=
  ⟨empty⟩

def insert (p : Properties) (key : String) (v : Json) (hv : v.Canonical) : Properties :=
  ⟨Json.insertField key v p.fields, Json.canonical_insertField hv p.canonical⟩

def hasKey (p : Properties) (key : String) : Bool :=
  p.fields.any (·.1 == key)

end Properties

end Courier
