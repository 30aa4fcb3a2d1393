import Courier.Delivery.Queue

/-!
# Lanes

Every operation on lanes is seen through the list of all their entries: an insertion adds one
entry, and a due entry is taken out of the place where that list first has one. Lanes in order
stand by falling priority, hold only entries of their priority and keep them in the order of
submission; then the list of all entries is in the order of departure.
-/

namespace Courier

/-- `a` leaves before `b` if both are due. -/
def QueueEntry.Precedes (a b : QueueEntry) : Prop :=
  b.priority < a.priority ∨ (a.priority = b.priority ∧ a.order < b.order)

instance (a b : QueueEntry) : Decidable (a.Precedes b) :=
  inferInstanceAs (Decidable (_ ∨ _))

namespace QueueEntry

theorem Precedes.asymm {a b : QueueEntry} (hab : a.Precedes b) : ¬b.Precedes a := by
  unfold Precedes Priority at *
  omega

theorem Precedes.trans {a b c : QueueEntry} (hab : a.Precedes b) (hbc : b.Precedes c) :
    a.Precedes c := by
  unfold Precedes Priority at *
  omega

theorem Precedes.cotrans {a c : QueueEntry} (hac : a.Precedes c) (b : QueueEntry) :
    a.Precedes b ∨ b.Precedes c := by
  unfold Precedes Priority at *
  omega

theorem precedes_or_precedes {a b : QueueEntry} (h : a.order ≠ b.order) :
    a.Precedes b ∨ b.Precedes a := by
  unfold Precedes Priority
  omega

end QueueEntry

/-- Two lists of the same entries, both in the order of departure, are equal. -/
theorem eq_of_perm_of_departing {as bs : List QueueEntry} (h : as.Perm bs)
    (ha : as.Pairwise QueueEntry.Precedes) (hb : bs.Pairwise QueueEntry.Precedes) : as = bs :=
  h.eq_of_pairwise (fun _ _ _ _ hab hba => absurd hba hab.asymm) ha hb

namespace Lane

/-! ### One lane -/

theorem takeDue?_eq_none {now : Millis} {es : List QueueEntry} :
    takeDue? now es = none ↔ ∀ e ∈ es, e.isDue now = false := by
  induction es with
  | nil => simp [takeDue?]
  | cons a rest ih =>
    by_cases ha : a.isDue now
    · simp [takeDue?, ha]
    · simp [takeDue?, ha, ih]

theorem takeDue?_eq_some {now : Millis} {es left : List QueueEntry} {e : QueueEntry} :
    takeDue? now es = some (e, left) ↔
      ∃ before after, es = before ++ e :: after ∧ left = before ++ after ∧
        e.isDue now ∧ ∀ a ∈ before, a.isDue now = false := by
  induction es generalizing left with
  | nil => simp [takeDue?]
  | cons a rest ih =>
    by_cases ha : a.isDue now
    · simp only [takeDue?, ha, if_true, Option.some.injEq, Prod.mk.injEq]
      constructor
      · rintro ⟨rfl, rfl⟩
        exact ⟨[], rest, rfl, rfl, ha, by simp⟩
      · rintro ⟨before, after, hes, rfl, _, hbefore⟩
        cases before with
        | nil => simpa using hes
        | cons b before =>
          obtain ⟨rfl, -⟩ := List.cons.inj hes
          simp [ha] at hbefore
    · simp only [takeDue?, ha, Bool.false_eq_true, if_false, Option.map_eq_some_iff, Prod.mk.injEq,
        Prod.exists]
      constructor
      · rintro ⟨found, left', hrest, rfl, rfl⟩
        obtain ⟨before, after, rfl, rfl, he, hbefore⟩ := ih.mp hrest
        refine ⟨a :: before, after, rfl, rfl, he, ?_⟩
        simpa [ha] using hbefore
      · rintro ⟨before, after, hes, rfl, he, hbefore⟩
        cases before with
        | nil =>
          obtain ⟨rfl, -⟩ := List.cons.inj hes
          exact absurd he ha
        | cons b before =>
          obtain ⟨rfl, rfl⟩ := List.cons.inj hes
          refine ⟨e, before ++ after, ih.mpr ⟨before, after, rfl, rfl, he, ?_⟩, rfl, rfl⟩
          exact fun c hc => hbefore c (List.mem_cons_of_mem a hc)

theorem takeDue?_append (now : Millis) (es fs : List QueueEntry) :
    takeDue? now (es ++ fs) =
      match takeDue? now es with
      | some (e, left) => some (e, left ++ fs)
      | none => (takeDue? now fs).map fun (e, left) => (e, es ++ left) := by
  induction es with
  | nil => simp [takeDue?]
  | cons a rest ih =>
    by_cases ha : a.isDue now
    · simp [takeDue?, ha]
    · simp only [List.cons_append, takeDue?, ha, ih]
      cases takeDue? now rest with
      | none => simp [Function.comp_def]
      | some p => simp

theorem insert_nil (e : QueueEntry) : insert e [] = [e] := rfl

theorem insert_cons (e a : QueueEntry) (rest : List QueueEntry) :
    insert e (a :: rest) = if a.order < e.order then a :: insert e rest else e :: a :: rest := by
  by_cases h : a.order < e.order <;> simp [insert, h]

theorem insert_perm (e : QueueEntry) (es : List QueueEntry) : (insert e es).Perm (e :: es) := by
  induction es with
  | nil => exact .refl _
  | cons a rest ih =>
    rw [insert_cons]
    split
    · exact (ih.cons a).trans (.swap e a rest)
    · exact .refl _

theorem insert_submitted {e : QueueEntry} {es : List QueueEntry}
    (hes : es.Pairwise fun a b => a.order < b.order) (he : ∀ a ∈ es, a.order ≠ e.order) :
    (insert e es).Pairwise fun a b => a.order < b.order := by
  induction es with
  | nil => exact List.pairwise_singleton _ _
  | cons a rest ih =>
    obtain ⟨ha, hrest⟩ := List.pairwise_cons.mp hes
    have hae := he a List.mem_cons_self
    rw [insert_cons]
    split
    · rename_i hlt
      refine List.pairwise_cons.mpr ⟨?_, ih hrest fun b hb => he b (List.mem_cons_of_mem a hb)⟩
      intro b hb
      rcases List.mem_cons.mp ((insert_perm e rest).mem_iff.mp hb) with rfl | hb
      · exact hlt
      · exact ha b hb
    · refine List.pairwise_cons.mpr ⟨?_, hes⟩
      intro b hb
      rcases List.mem_cons.mp hb with rfl | hb
      · omega
      · have := ha b hb
        omega

/-- The lane holds entries of its priority, in the order of submission. -/
structure Ordered (l : Lane) : Prop where
  priority : ∀ e ∈ l.entries, e.priority = l.priority
  submitted : l.entries.Pairwise fun a b => a.order < b.order

theorem Ordered.sublist {l : Lane} (hl : l.Ordered) {es : List QueueEntry}
    (h : es.Sublist l.entries) : Ordered ⟨l.priority, es⟩ :=
  ⟨fun e he => hl.priority e (h.subset he), hl.submitted.sublist h⟩

theorem Ordered.departing {l : Lane} (hl : l.Ordered) :
    l.entries.Pairwise QueueEntry.Precedes := by
  refine hl.submitted.imp_of_mem ?_
  intro a b ha hb hab
  exact .inr ⟨(hl.priority a ha).trans (hl.priority b hb).symm, hab⟩

end Lane

namespace DeliveryQueue

/-! ### All lanes -/

def entriesOf (lanes : List Lane) : List QueueEntry :=
  lanes.flatMap Lane.entries

@[simp] theorem entriesOf_nil : entriesOf [] = [] := rfl

@[simp] theorem entriesOf_cons (l : Lane) (rest : List Lane) :
    entriesOf (l :: rest) = l.entries ++ entriesOf rest := rfl

theorem mem_entriesOf {lanes : List Lane} {e : QueueEntry} :
    e ∈ entriesOf lanes ↔ ∃ l ∈ lanes, e ∈ l.entries :=
  List.mem_flatMap

theorem entriesOf_updateLane {p : Priority} {change : List QueueEntry → List QueueEntry}
    {e : QueueEntry} (h : ∀ es, (change es).Perm (e :: es)) (lanes : List Lane) :
    (entriesOf (updateLane p change lanes)).Perm (e :: entriesOf lanes) := by
  induction lanes with
  | nil => simpa [updateLane] using h []
  | cons l rest ih =>
    simp only [updateLane]
    split
    · simpa using (h []).append_right (l.entries ++ entriesOf rest)
    · split
      · simpa using (h l.entries).append_right (entriesOf rest)
      · simp only [entriesOf_cons]
        exact (ih.append_left l.entries).trans List.perm_middle

theorem takeDue?_entriesOf (now : Millis) (lanes : List Lane) :
    (takeDue? now lanes).map (fun (e, left) => (e, entriesOf left)) =
      Lane.takeDue? now (entriesOf lanes) := by
  induction lanes with
  | nil => rfl
  | cons l rest ih =>
    rw [entriesOf_cons, Lane.takeDue?_append, takeDue?]
    cases Lane.takeDue? now l.entries with
    | some p => rfl
    | none =>
      rw [← ih]
      simp [Function.comp_def]

theorem priority_takeDue? {now : Millis} {lanes left : List Lane} {e : QueueEntry}
    (ht : takeDue? now lanes = some (e, left)) :
    left.map Lane.priority = lanes.map Lane.priority := by
  induction lanes generalizing left with
  | nil => simp [takeDue?] at ht
  | cons l rest ih =>
    simp only [takeDue?] at ht
    split at ht
    · obtain ⟨-, rfl⟩ := Prod.mk.inj (Option.some.inj ht)
      rfl
    · obtain ⟨⟨found, lanes'⟩, hrest, heq⟩ := Option.map_eq_some_iff.mp ht
      obtain ⟨rfl, rfl⟩ := Prod.mk.inj heq
      exact congrArg (l.priority :: ·) (ih hrest)

/-- The lanes stand by falling priority, and each is in order. -/
structure LanesOrdered (lanes : List Lane) : Prop where
  falling : lanes.Pairwise fun a b => b.priority < a.priority
  each : ∀ l ∈ lanes, l.Ordered

namespace LanesOrdered

theorem nil : LanesOrdered [] := ⟨.nil, by simp⟩

theorem tail {l : Lane} {rest : List Lane} (h : LanesOrdered (l :: rest)) : LanesOrdered rest :=
  ⟨(List.pairwise_cons.mp h.falling).2, fun a ha => h.each a (List.mem_cons_of_mem l ha)⟩

theorem cons {l : Lane} {rest : List Lane} (hl : l.Ordered)
    (hlt : ∀ a ∈ rest, a.priority < l.priority) (hrest : LanesOrdered rest) :
    LanesOrdered (l :: rest) := by
  refine ⟨List.pairwise_cons.mpr ⟨hlt, hrest.falling⟩, ?_⟩
  intro a ha
  rcases List.mem_cons.mp ha with rfl | ha
  · exact hl
  · exact hrest.each a ha

theorem below {l : Lane} {rest : List Lane} (h : LanesOrdered (l :: rest)) :
    ∀ a ∈ rest, a.priority < l.priority :=
  (List.pairwise_cons.mp h.falling).1

/-- All entries of lanes in order are in the order of departure. -/
theorem departing {lanes : List Lane} (h : LanesOrdered lanes) :
    (entriesOf lanes).Pairwise QueueEntry.Precedes := by
  induction lanes with
  | nil => exact .nil
  | cons l rest ih =>
    have hl := h.each l List.mem_cons_self
    refine List.pairwise_append.mpr ⟨hl.departing, ih h.tail, ?_⟩
    intro a ha b hb
    obtain ⟨m, hm, hbm⟩ := mem_entriesOf.mp hb
    have hlt := h.below m hm
    rw [← hl.priority a ha, ← (h.each m (List.mem_cons_of_mem l hm)).priority b hbm] at hlt
    exact .inl hlt

theorem map_sublist {lanes : List Lane} (h : LanesOrdered lanes)
    {f : List QueueEntry → List QueueEntry} (hf : ∀ es, (f es).Sublist es) :
    LanesOrdered (lanes.map fun l => { l with entries := f l.entries }) := by
  refine ⟨List.pairwise_map.mpr h.falling, ?_⟩
  intro l hl
  obtain ⟨m, hm, rfl⟩ := List.mem_map.mp hl
  exact (h.each m hm).sublist (hf m.entries)

theorem filter {lanes : List Lane} (h : LanesOrdered lanes) (p : Lane → Bool) :
    LanesOrdered (lanes.filter p) :=
  ⟨h.falling.filter p, fun l hl => h.each l (List.mem_filter.mp hl).1⟩

theorem mem_updateLane {p : Priority} {change : List QueueEntry → List QueueEntry}
    {lanes : List Lane} {l : Lane} (h : l ∈ updateLane p change lanes) :
    l.priority = p ∨ ∃ m ∈ lanes, m.priority = l.priority := by
  induction lanes with
  | nil =>
    obtain rfl := List.mem_singleton.mp h
    exact .inl rfl
  | cons a rest ih =>
    simp only [updateLane] at h
    split at h
    · rcases List.mem_cons.mp h with rfl | h
      · exact .inl rfl
      · exact .inr ⟨l, h, rfl⟩
    · split at h
      · rcases List.mem_cons.mp h with rfl | h
        · exact .inl rfl
        · exact .inr ⟨l, List.mem_cons_of_mem a h, rfl⟩
      · rcases List.mem_cons.mp h with rfl | h
        · exact .inr ⟨l, List.mem_cons_self, rfl⟩
        · rcases ih h with hp | ⟨m, hm, hml⟩
          · exact .inl hp
          · exact .inr ⟨m, List.mem_cons_of_mem a hm, hml⟩

theorem updateLane {p : Priority} {change : List QueueEntry → List QueueEntry} {lanes : List Lane}
    (h : LanesOrdered lanes) (hempty : Lane.Ordered ⟨p, change []⟩)
    (hchange : ∀ l ∈ lanes, l.priority = p → Lane.Ordered ⟨p, change l.entries⟩) :
    LanesOrdered (updateLane p change lanes) := by
  induction lanes with
  | nil => exact .cons hempty (by simp) .nil
  | cons l rest ih =>
    simp only [DeliveryQueue.updateLane]
    split
    · rename_i hlt
      refine .cons hempty ?_ h
      intro a ha
      rcases List.mem_cons.mp ha with rfl | ha
      · exact hlt
      · exact Int.lt_trans (h.below a ha) hlt
    · split
      · rename_i heq
        exact .cons (hchange l List.mem_cons_self heq) (heq ▸ h.below) h.tail
      · rename_i hge hne
        refine .cons (h.each l List.mem_cons_self) ?_
          (ih h.tail fun a ha => hchange a (List.mem_cons_of_mem l ha))
        intro a ha
        rcases mem_updateLane ha with hap | ⟨m, hm, hma⟩
        · exact hap ▸ Int.lt_iff_le_and_ne.mpr ⟨Int.not_lt.mp hge, Ne.symm hne⟩
        · exact hma ▸ h.below m hm

theorem takeDue? {now : Millis} {lanes left : List Lane} {e : QueueEntry} (h : LanesOrdered lanes)
    (ht : takeDue? now lanes = some (e, left)) : LanesOrdered left := by
  induction lanes generalizing left with
  | nil => simp [DeliveryQueue.takeDue?] at ht
  | cons l rest ih =>
    have hl := h.each l List.mem_cons_self
    simp only [DeliveryQueue.takeDue?] at ht
    split at ht
    · rename_i found es hes
      obtain ⟨rfl, rfl⟩ := Prod.mk.inj (Option.some.inj ht)
      obtain ⟨before, after, heq, rfl, -⟩ := Lane.takeDue?_eq_some.mp hes
      refine .cons (hl.sublist ?_) h.below h.tail
      rw [heq]
      exact (List.sublist_cons_self found after).append_left before
    · obtain ⟨⟨found, lanes'⟩, hrest, heq⟩ := Option.map_eq_some_iff.mp ht
      obtain ⟨rfl, rfl⟩ := Prod.mk.inj heq
      refine .cons hl ?_ (ih h.tail hrest)
      intro a ha
      have hmem : a.priority ∈ rest.map Lane.priority :=
        priority_takeDue? hrest ▸ List.mem_map_of_mem ha
      obtain ⟨m, hm, hma⟩ := List.mem_map.mp hmem
      exact hma ▸ h.below m hm

end LanesOrdered

end DeliveryQueue

end Courier
