import Courier.Proofs.Json.Nesting

/-!
# Values read back from their trees

A text comes back from its pieces, and a canonical value without non-integer numbers from its tree,
if as many arrays and objects may be opened as are nested in it.
-/

namespace Courier.Json

/-! ### Texts -/

theorem pieceBytes?_unit {u : UInt16} (hlead : isLead u = false) (htrail : isTrail u = false)
    (ps : List Piece) : pieceBytes? (.unit u :: ps) =
      (pieceBytes? ps).map (String.utf8EncodeChar (Char.ofNat u.toNat) ++ ·) := by
  -- a unit is looked at together with the unit behind it, if there is one
  match ps with
  | [] => simp only [pieceBytes?, hlead, htrail, Bool.or_self, Bool.false_eq_true, if_false]
  | .byte b :: ps =>
    simp only [pieceBytes?, hlead, htrail, Bool.or_self, Bool.false_eq_true, if_false]
  | .unit v :: ps => simp only [pieceBytes?, hlead, htrail, Bool.false_eq_true, if_false]

theorem pieceBytes?_pieceOf (b : UInt8) (ps : List Piece) :
    pieceBytes? (pieceOf b :: ps) = (pieceBytes? ps).map (b :: ·) := by
  have hpiece : pieceOf b = .byte b ∨ pieceOf b = .unit b.toUInt16 ∧ b < 0x20 := by
    unfold pieceOf
    split
    any_goals exact .inl rfl
    split
    · exact .inr ⟨rfl, by assumption⟩
    · exact .inl rfl
  have hcontrol : ∀ e : Fin 32,
      isLead (UInt8.ofNat e).toUInt16 = false ∧ isTrail (UInt8.ofNat e).toUInt16 = false ∧
      String.utf8EncodeChar (Char.ofNat (UInt8.ofNat e).toUInt16.toNat) = [UInt8.ofNat e] := by
    decide
  rcases hpiece with hpiece | ⟨hpiece, hlt⟩
  · rw [hpiece, pieceBytes?]
  · have hb := hcontrol ⟨b.toNat, UInt8.lt_iff_toNat_lt.mp hlt⟩
    rw [UInt8.ofNat_toNat] at hb
    obtain ⟨hlead, htrail, hencode⟩ := hb
    rw [hpiece, pieceBytes?_unit hlead htrail, hencode]
    rfl

theorem pieceBytes?_map_pieceOf (bs : Bytes) : pieceBytes? (bs.map pieceOf) = some bs := by
  induction bs with
  | nil => rfl
  | cons b bs ih => rw [List.map_cons, pieceBytes?_pieceOf, ih, Option.map_some]

@[simp] theorem text?_pieces (s : String) : text? (pieces s) = some s := by
  rw [text?, pieces, pieceBytes?_map_pieceOf]
  exact Bytes.text?_ofString s

/-! ### Numbers -/

theorem natural?_ofInt (n : Nat) : (Numeral.ofInt n).natural? = some n := by
  have hn : ¬(n : Int) < 0 := by omega
  simp [Numeral.natural?, Numeral.ofInt, hn, Decimal.value_digits]

theorem value?_ofInt {n : Int} (h : (int n).Canonical) :
    (Numeral.ofInt n).value? = some (.int n) := by
  simp only [Canonical, leastInt, greatestInt] at h
  unfold Numeral.value? Numeral.ofInt greatestGathered leastInt
  simp only [Decimal.value_digits, UInt64.size]
  by_cases hn : n < 0
  · obtain ⟨m, rfl⟩ : ∃ m : Nat, n = -(m : Int) := ⟨n.natAbs, by omega⟩
    have hpos : 0 < m := by omega
    simp [hpos, h.1]
  · obtain ⟨m, rfl⟩ : ∃ m : Nat, n = m := ⟨n.natAbs, by omega⟩
    have hle : m ≤ 18446744073709551615 := by omega
    simp [hle]

/-! ### Depth -/

mutual

/-- How many arrays and objects are nested in the value. -/
def depth : Json → Nat
  | .array items => itemsDepth items + 1
  | .object fields => fieldsDepth fields + 1
  | _ => 0

def itemsDepth : List Json → Nat
  | [] => 0
  | v :: rest => max v.depth (itemsDepth rest)

def fieldsDepth : List (String × Json) → Nat
  | [] => 0
  | (_, v) :: rest => max v.depth (fieldsDepth rest)

end

/-! ### Values -/

theorem insertField_of_lt {key : String} {v : Json} {fields : List (String × Json)}
    (h : ∀ p ∈ fields, p.1 < key) : insertField key v fields = fields ++ [(key, v)] := by
  induction fields with
  | nil => rfl
  | cons p rest ih =>
    obtain ⟨k, w⟩ := p
    have hlt : k < key := h (k, w) List.mem_cons_self
    have hnot : ¬key < k := String.lt_asymm hlt
    have hne : key ≠ k := fun heq => String.lt_irrefl k (heq ▸ hlt)
    rw [insertField, if_neg hnot, if_neg hne, ih fun q hq => h q (List.mem_cons_of_mem _ hq)]
    rfl

mutual

theorem value?_tree {d : Nat} {v : Json} (hc : v.Canonical) (hw : v.Whole) (hd : v.depth ≤ d) :
    v.tree.value? d = some v := by
  cases v with
  | null => rfl
  | bool b => rfl
  | int n => exact value?_ofInt hc
  | float x => exact absurd hw (by simp [Whole])
  | text s => simp [tree, Tree.value?]
  | array items =>
    rw [Canonical] at hc
    rw [Whole] at hw
    rw [depth] at hd
    obtain ⟨d, rfl⟩ : ∃ e, d = e + 1 := ⟨d - 1, by omega⟩
    rw [tree, Tree.value?, items?_itemTrees hc hw (by omega)]
    rfl
  | object fields =>
    rw [Canonical] at hc
    rw [Whole] at hw
    rw [depth] at hd
    obtain ⟨d, rfl⟩ : ∃ e, d = e + 1 := ⟨d - 1, by omega⟩
    have hfields := fields?_fieldTrees d [] hc.1 hc.2 hw (by omega)
    rw [tree, Tree.value?, hfields]
    rfl

theorem items?_itemTrees {d : Nat} {items : List Json} (hc : ItemsCanonical items)
    (hw : ItemsWhole items) (hd : itemsDepth items ≤ d) :
    Tree.items? d (itemTrees items) = some items := by
  match items with
  | [] => rfl
  | v :: rest =>
    rw [itemsDepth] at hd
    rw [itemTrees, Tree.items?, value?_tree hc.1 hw.1 (by omega),
      items?_itemTrees hc.2 hw.2 (by omega)]

theorem fields?_fieldTrees (d : Nat) (done : List (String × Json)) {fields : List (String × Json)}
    (hkeys : ((done ++ fields).map Prod.fst).Pairwise (· < ·)) (hc : FieldsCanonical fields)
    (hw : FieldsWhole fields) (hd : fieldsDepth fields ≤ d) :
    Tree.fields? d (fieldTrees fields) done = some (done ++ fields) := by
  match fields with
  | [] => simp [fieldTrees, Tree.fields?]
  | (k, v) :: rest =>
    rw [fieldsDepth] at hd
    have hlast : insertField k v done = done ++ [(k, v)] := by
      rw [List.map_append, List.pairwise_append] at hkeys
      refine insertField_of_lt fun p hp => ?_
      exact hkeys.2.2 p.1 (List.mem_map_of_mem hp) k List.mem_cons_self
    have hkeys' : (((done ++ [(k, v)]) ++ rest).map Prod.fst).Pairwise (· < ·) := by
      rwa [List.append_assoc]
    have hrest := fields?_fieldTrees d (done ++ [(k, v)]) hkeys' hc.2 hw.2 (by omega)
    rw [fieldTrees, Tree.fields?, text?_pieces, value?_tree hc.1 hw.1 (by omega)]
    simp only [hlast]
    rw [hrest, List.append_assoc]
    rfl

end

end Courier.Json
