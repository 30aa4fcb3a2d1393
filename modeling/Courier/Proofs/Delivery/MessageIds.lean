import Courier.Message

/-!
# Message ids

The id of a message ends in its serial number, so messages with different serial numbers have
different ids.
-/

namespace Courier

namespace Decimal

theorem digitChar_inj {d e : Nat} (hd : d < 10) (he : e < 10)
    (h : d.digitChar = e.digitChar) : d = e := by
  have hall : ∀ d e : Fin 10, d.val.digitChar = e.val.digitChar → d.val = e.val := by decide
  exact hall ⟨d, hd⟩ ⟨e, he⟩ h

theorem digitChar_ne_hash {d : Nat} (hd : d < 10) : d.digitChar ≠ '#' := by
  have hall : ∀ d : Fin 10, d.val.digitChar ≠ '#' := by decide
  exact hall ⟨d, hd⟩

theorem toList_text (n : Nat) : (text n).toList = (digits n).map Nat.digitChar :=
  String.toList_ofList

theorem hash_notMem_text (n : Nat) : '#' ∉ (text n).toList := by
  rw [toList_text]
  intro h
  obtain ⟨d, hd, heq⟩ := List.mem_map.mp h
  exact digitChar_ne_hash (digits_lt n d hd) heq

theorem map_digitChar_inj {ds es : List Nat} (hd : ∀ d ∈ ds, d < 10) (he : ∀ e ∈ es, e < 10)
    (h : ds.map Nat.digitChar = es.map Nat.digitChar) : ds = es := by
  induction ds generalizing es with
  | nil =>
    cases es with
    | nil => rfl
    | cons e es => cases h
  | cons d ds ih =>
    cases es with
    | nil => cases h
    | cons e es =>
      obtain ⟨hhead, htail⟩ := List.cons.inj h
      rw [digitChar_inj (hd d List.mem_cons_self) (he e List.mem_cons_self) hhead,
        ih (fun x hx => hd x (List.mem_cons_of_mem d hx))
          (fun x hx => he x (List.mem_cons_of_mem e hx)) htail]

theorem text_inj {m n : Nat} (h : text m = text n) : m = n := by
  have hl := congrArg String.toList h
  rw [toList_text, toList_text] at hl
  rw [← value_digits m, ← value_digits n, map_digitChar_inj (digits_lt m) (digits_lt n) hl]

end Decimal

/-- What follows the last mark is determined. -/
theorem append_cons_inj_right {a : Char} {as bs xs ys : List Char} (hx : a ∉ xs) (hy : a ∉ ys)
    (h : as ++ a :: xs = bs ++ a :: ys) : xs = ys := by
  rcases List.append_eq_append_iff.mp h with ⟨cs, hbs, hcs⟩ | ⟨cs, has, hcs⟩
  · cases cs with
    | nil => exact (List.cons.inj hcs).2
    | cons c cs =>
      obtain ⟨-, hxs⟩ := List.cons.inj hcs
      exact absurd (hxs ▸ List.mem_append_right cs List.mem_cons_self) hx
  · cases cs with
    | nil => exact (List.cons.inj hcs).2.symm
    | cons c cs =>
      obtain ⟨-, hys⟩ := List.cons.inj hcs
      exact absurd (hys ▸ List.mem_append_right cs List.mem_cons_self) hy

theorem MessageRef.toList_id (m : MessageRef) : m.id.toList =
    (m.sender.text ++ ">" ++ m.receiver.text).toList ++
      '#' :: (Decimal.text m.serial.toNat).toList := by
  simp only [id, String.toList_append, List.append_assoc]
  rfl

theorem MessageRef.serial_of_id {m n : MessageRef} (h : m.id = n.id) : m.serial = n.serial := by
  have hl := congrArg String.toList h
  rw [toList_id, toList_id] at hl
  have htext := append_cons_inj_right (Decimal.hash_notMem_text _) (Decimal.hash_notMem_text _) hl
  exact UInt64.toNat_inj.mp (Decimal.text_inj (String.toList_inj.mp htext))

end Courier
