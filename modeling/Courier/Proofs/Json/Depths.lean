import Courier.Proofs.Json.Readers

/-!
# How deep values nest that were read

However a value was spelled, its form nests no deeper than its reader was allowed to go. So it can
be written and read again under the same limit.
-/

namespace Courier.Json

/-! ### Free values -/

theorem fieldsDepth_insertField {d : Nat} {key : String} {v : Json} {fields : List (String × Json)}
    (hv : v.depth ≤ d) (h : fieldsDepth fields ≤ d) :
    fieldsDepth (insertField key v fields) ≤ d := by
  induction fields with
  | nil => exact Nat.max_le.mpr ⟨hv, Nat.zero_le d⟩
  | cons p rest ih =>
    obtain ⟨k, w⟩ := p
    obtain ⟨hw, hrest⟩ := Nat.max_le.mp h
    unfold insertField
    split
    · exact Nat.max_le.mpr ⟨hv, h⟩
    · split
      · exact Nat.max_le.mpr ⟨hv, hrest⟩
      · exact Nat.max_le.mpr ⟨hw, ih hrest⟩

theorem depth_of_numeral {n : Numeral} {v : Json} (h : n.value? = some v) : v.depth = 0 := by
  unfold Numeral.value? at h
  dsimp only at h
  split at h
  · cases h
    rfl
  · split at h
    · cases h
      rfl
    · obtain ⟨x, -, rfl⟩ := Option.map_eq_some_iff.mp h
      rfl

mutual

theorem depth_of_value? {d : Nat} {t : Tree} {v : Json} (h : t.value? d = some v) :
    v.depth ≤ d := by
  cases t with
  | null => cases h; exact Nat.zero_le d
  | bool b => cases h; exact Nat.zero_le d
  | number n => exact (depth_of_numeral h).le.trans (Nat.zero_le d)
  | text ps =>
    obtain ⟨s, -, rfl⟩ := Option.map_eq_some_iff.mp h
    exact Nat.zero_le d
  | array items =>
    cases d with
    | zero => simp [Tree.value?] at h
    | succ d =>
      simp only [Tree.value?, Option.map_eq_some_iff] at h
      obtain ⟨vs, hvs, rfl⟩ := h
      exact Nat.succ_le_succ (depth_of_items? hvs)
  | object fields =>
    cases d with
    | zero => simp [Tree.value?] at h
    | succ d =>
      simp only [Tree.value?, Option.map_eq_some_iff] at h
      obtain ⟨fs, hfs, rfl⟩ := h
      exact Nat.succ_le_succ (depth_of_fields? (show fieldsDepth [] ≤ d from Nat.zero_le d) hfs)

theorem depth_of_items? {d : Nat} {items : List Tree} {vs : List Json}
    (h : Tree.items? d items = some vs) : itemsDepth vs ≤ d := by
  match items with
  | [] =>
    cases h
    exact Nat.zero_le d
  | t :: rest =>
    rw [Tree.items?] at h
    split at h
    · rename_i v ws hv hws
      cases h
      exact Nat.max_le.mpr ⟨depth_of_value? hv, depth_of_items? hws⟩
    · cases h

theorem depth_of_fields? {d : Nat} {fields : List (List Piece × Tree)}
    {done fs : List (String × Json)} (hdone : fieldsDepth done ≤ d)
    (h : Tree.fields? d fields done = some fs) : fieldsDepth fs ≤ d := by
  match fields with
  | [] =>
    cases h
    exact hdone
  | (key, t) :: rest =>
    rw [Tree.fields?] at h
    split at h
    · rename_i k v hk hv
      exact depth_of_fields? (fieldsDepth_insertField (depth_of_value? hv) hdone) h
    · cases h

end

namespace Reader

variable {α : Type}

/-- Whatever is read nests no deeper than the reader may go. -/
def Fits (read : Reader α) (form : α → Json) : Prop :=
  ∀ {d : Nat} {t : Tree} {a : α}, read d t = some a → (form a).depth ≤ d

theorem fits_optional {read : Reader α} {form : α → Json} (h : Fits read form) :
    Fits (optional read) (.optional form) := by
  intro d t o ho
  unfold optional at ho
  split at ho
  · cases ho
    exact Nat.zero_le d
  · obtain ⟨a, ha, rfl⟩ := Option.map_eq_some_iff.mp ho
    exact h ha

section Members

variable {read : Reader α} {form : α → Json} {m : Members} {name : String} {a : α} {o : Option α}

theorem Fits.need (h : Fits read form) (ha : m.need name read = some a) :
    (form a).depth ≤ m.depth := by
  obtain ⟨t, -, hread⟩ := Option.bind_eq_some_iff.mp ha
  exact h hread

theorem Fits.maybe (h : Fits read form) (ho : m.maybe name read = some o) :
    (Json.optional form o).depth ≤ m.depth := by
  unfold Members.maybe at ho
  split at ho
  · cases ho
    exact Nat.zero_le _
  · exact fits_optional h ho

end Members

end Reader

end Courier.Json
