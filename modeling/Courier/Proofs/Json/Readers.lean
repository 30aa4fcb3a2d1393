import Courier.Envelope.Form
import Courier.Proofs.Json.ReadBack

/-!
# Readers on printed records

A reader undoes a form if it gives back what the form was made of, at every depth that is enough.
What the readers of records, lists and choices are put together from keeps this.
-/

namespace Courier.Json.Reader

variable {α : Type}

/-- The reader gives back what the form was made of. -/
def Undoes (read : Reader α) (form : α → Json) (a : α) : Prop :=
  ∀ d, (form a).depth ≤ d → read d (form a).tree = some a

/-! ### Single values -/

theorem undoes_text (s : String) : Undoes text .text s :=
  fun _ _ => text?_pieces s

theorem undoes_natural {bound n : Nat} (h : n ≤ bound) : Undoes (natural bound) nat n := by
  intro d _
  simp [natural, nat, tree, natural?_ofInt, h]

theorem undoes_word64 (n : UInt64) : Undoes word64 Json.word n := by
  intro d hd
  have hle : n.toNat ≤ UInt64.size - 1 := Nat.le_sub_one_of_lt n.toNat_lt
  have hnat := undoes_natural hle d hd
  unfold word64 Json.word
  rw [hnat]
  simp

theorem undoes_word16 (n : UInt16) : Undoes word16 (fun n => nat n.toNat) n := by
  intro d hd
  have hle : n.toNat ≤ UInt16.size - 1 := Nat.le_sub_one_of_lt n.toNat_lt
  have hnat := undoes_natural hle d hd
  unfold word16
  rw [hnat]
  simp

theorem bare_text {pick : String → Option α} (d : Nat) (name : String) :
    bare pick d (Json.text name).tree = pick name := by
  simp [bare, choice, tree]

/-! ### Optional values and lists -/

theorem undoes_optional {read : Reader α} {form : α → Json} {o : Option α}
    (h : ∀ a ∈ o, Undoes read form a) (hne : ∀ a ∈ o, (form a).tree ≠ .null) :
    Undoes (optional read) (.optional form) o := by
  intro d hd
  cases o with
  | none => rfl
  | some a =>
    have hread : read d (form a).tree = some a := h a rfl d hd
    change optional read d (form a).tree = some (some a)
    unfold optional
    split
    · rename_i hnull
      exact absurd hnull (hne a rfl)
    · rw [hread]
      rfl

theorem undoes_list {read : Reader α} {form : α → Json} {as : List α}
    (h : ∀ a ∈ as, Undoes read form a) :
    Undoes (list read) (fun as => .array (as.map form)) as := by
  intro d hd
  obtain ⟨d, rfl⟩ : ∃ e, d = e + 1 := ⟨d - 1, by rw [depth] at hd; omega⟩
  have hdepth : itemsDepth (as.map form) ≤ d := by
    rw [depth] at hd
    omega
  clear hd
  change (itemTrees (as.map form)).mapM (read d) = some as
  induction as with
  | nil => rfl
  | cons a as ih =>
    rw [List.map_cons, itemsDepth] at hdepth
    have hread := h a List.mem_cons_self d (by omega)
    have hrest := ih (fun b hb => h b (List.mem_cons_of_mem a hb)) (by omega)
    rw [List.map_cons, itemTrees, List.mapM_cons, hread, hrest]
    rfl

/-! ### Records -/

/-- The members of a printed record, at the depth left inside it. -/
def printed (d : Nat) (fields : List (String × Json)) : Members :=
  ⟨d, fields.map fun p => (p.1, p.2.tree)⟩

theorem known?_fieldTrees {names : List String} {fields : List (String × Json)}
    (hnames : ∀ p ∈ fields, p.1 ∈ names) (hnd : (fields.map Prod.fst).Nodup) :
    known? names (fieldTrees fields) = some (fields.map fun p => (p.1, p.2.tree)) := by
  induction fields with
  | nil => rfl
  | cons p rest ih =>
    obtain ⟨k, v⟩ := p
    rw [List.map_cons, List.nodup_cons] at hnd
    have hrest := ih (fun p hp => hnames p (List.mem_cons_of_mem _ hp)) hnd.2
    have hknown : k ∈ names := hnames (k, v) List.mem_cons_self
    have hfresh : (rest.map fun p => (p.1, p.2.tree)).any (·.1 == k) = false := by
      rw [List.any_map, List.any_eq_false]
      intro p hp heq
      have hkey : p.1 = k := eq_of_beq heq
      have hmem : p.1 ∈ rest.map Prod.fst := List.mem_map_of_mem hp
      exact hnd.1 (hkey ▸ hmem)
    rw [fieldTrees, known?, text?_pieces, hrest]
    simp [hknown, hfresh]

theorem depth_object_le {d : Nat} {fields : List (String × Json)} (h : (object fields).depth ≤ d) :
    ∃ e, d = e + 1 ∧ fieldsDepth fields ≤ e := by
  rw [depth] at h
  exact ⟨d - 1, by omega, by omega⟩

theorem record_object (names : List String) (required : Nat) {d : Nat}
    {fields : List (String × Json)} (hd : (object fields).depth ≤ d)
    (hnames : fields.map Prod.fst = names) (hnd : names.Nodup) :
    ∃ e, fieldsDepth fields ≤ e ∧
      record names required d (object fields).tree = some (printed e fields) := by
  obtain ⟨e, rfl, hfields⟩ := depth_object_le hd
  have hknown : known? names (fieldTrees fields) = some (fields.map fun p => (p.1, p.2.tree)) :=
    known?_fieldTrees (fun p hp => hnames ▸ List.mem_map_of_mem hp) (hnames ▸ hnd)
  refine ⟨e, hfields, ?_⟩
  simp [record, tree, enter?, hknown, printed]

theorem depth_le_of_lookup {name : String} {fields : List (String × Json)} {v : Json}
    (h : fields.lookup name = some v) : v.depth ≤ fieldsDepth fields := by
  induction fields with
  | nil => cases h
  | cons p rest ih =>
    obtain ⟨k, w⟩ := p
    rw [List.lookup_cons] at h
    rw [fieldsDepth]
    split at h
    · cases h
      exact Nat.le_max_left _ _
    · exact Nat.le_trans (ih h) (Nat.le_max_right _ _)

theorem lookup_printed (d : Nat) (name : String) (fields : List (String × Json)) :
    (printed d fields).fields.lookup name = (fields.lookup name).map tree := by
  unfold printed
  induction fields with
  | nil => rfl
  | cons p rest ih =>
    obtain ⟨k, w⟩ := p
    rw [List.map_cons, List.lookup_cons, List.lookup_cons]
    cases name == k with
    | true => rfl
    | false => exact ih

section Members

variable {d : Nat} {fields : List (String × Json)} {read : Reader α} {form : α → Json}
variable (hd : fieldsDepth fields ≤ d) (name : String)
include hd

theorem need_printed {a : α} (hread : Undoes read form a)
    (hlookup : fields.lookup name = some (form a)) : (printed d fields).need name read = some a := by
  rw [Members.need, lookup_printed, hlookup]
  exact hread d (Nat.le_trans (depth_le_of_lookup hlookup) hd)

theorem maybe_printed {o : Option α} (hread : Undoes (optional read) (.optional form) o)
    (hlookup : fields.lookup name = some (.optional form o)) :
    (printed d fields).maybe name read = some o := by
  rw [Members.maybe, lookup_printed, hlookup]
  exact hread d (Nat.le_trans (depth_le_of_lookup hlookup) hd)

end Members

/-- An alternative with something attached to it. -/
theorem choice_object {d : Nat} {name : String} {v : Json} (hd : (object [(name, v)]).depth ≤ d) :
    ∃ e, v.depth ≤ e ∧ choice d (object [(name, v)]).tree = some (name, some (e, v.tree)) := by
  obtain ⟨e, rfl, hfields⟩ := depth_object_le hd
  refine ⟨e, Nat.le_trans (Nat.le_max_left _ _) hfields, ?_⟩
  simp [choice, tree, fieldTrees, enter?]

end Courier.Json.Reader
