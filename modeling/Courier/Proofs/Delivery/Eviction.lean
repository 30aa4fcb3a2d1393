import Courier.Delivery.Tracker

/-!
# What evictions leave

An eviction drops entries of a cache and writes none. So a status that a tracker tells was marked
under its id, and no mark that came later under that id was written.
-/

namespace Courier

/-! ### Tables -/

namespace Table

variable {κ α : Type} {t u : Table κ α} {key : κ} {a : α}

/-- At most one entry of each key. -/
def Distinct (t : Table κ α) : Prop :=
  (t.entries.map Prod.fst).Nodup

theorem Distinct.sublist (h : t.Distinct) (hsub : u.entries.Sublist t.entries) : u.Distinct :=
  List.Nodup.sublist (hsub.map Prod.fst) h

variable [DecidableEq κ]

theorem Distinct.insert (h : t.Distinct) (key : κ) (a : α) : (t.insert key a).Distinct := by
  refine List.nodup_cons.mpr ⟨fun hmem => ?_, h.sublist List.filter_sublist⟩
  obtain ⟨p, hp, hkey⟩ := List.mem_map.mp hmem
  exact of_decide_eq_true (List.mem_filter.mp hp).2 hkey

theorem mem_of_get? (h : t.get? key = some a) : (key, a) ∈ t.entries := by
  obtain ⟨⟨k, b⟩, hfind, rfl⟩ := Option.map_eq_some_iff.mp h
  have hkey := List.find?_some hfind
  obtain rfl : k = key := of_decide_eq_true hkey
  exact List.mem_of_find?_eq_some hfind

theorem Distinct.get?_of_mem (h : t.Distinct) (hmem : (key, a) ∈ t.entries) :
    t.get? key = some a := by
  obtain ⟨entries⟩ := t
  induction entries with
  | nil => cases hmem
  | cons p rest ih =>
    obtain ⟨hfirst, hrest⟩ := List.nodup_cons.mp h
    rw [get?, List.find?_cons]
    rcases List.mem_cons.mp hmem with rfl | hmem
    · rw [decide_eq_true rfl]
      rfl
    · have hne : p.1 ≠ key := by
        intro hkey
        have hlisted := List.mem_map_of_mem (f := Prod.fst) hmem
        exact hfirst (hkey ▸ hlisted)
      rw [decide_eq_false hne]
      exact ih hrest hmem

/-- What is found after an entry was written was written, or was there before. -/
theorem of_get?_insert {k : κ} {b : α} (h : (t.insert key a).get? k = some b) :
    k = key ∧ b = a ∨ k ≠ key ∧ t.get? k = some b := by
  rw [get?_insert] at h
  split at h
  · exact .inl ⟨‹_›, (Option.some.inj h).symm⟩
  · exact .inr ⟨‹_›, h⟩

/-- What a part of a table holds, the table holds. -/
theorem Distinct.get?_mono (h : t.Distinct) (hsub : u.entries.Sublist t.entries)
    (hget : u.get? key = some a) : t.get? key = some a :=
  h.get?_of_mem (hsub.subset (mem_of_get? hget))

end Table

/-! ### Caches -/

theorem snap_sublist {α : Type} (finger : UInt64) (as : List α) :
    (snap finger as).2.Sublist as := by
  induction as generalizing finger with
  | nil => exact .slnil
  | cons a as ih =>
    rw [snap]
    dsimp only
    split
    · exact (ih _).cons_cons a
    · exact (ih _).cons a

namespace SnapCache

variable {κ α : Type} [DecidableEq κ] {c : SnapCache κ α} {key k : κ} {a b : α}

theorem entries_insert_sublist (c : SnapCache κ α) (key : κ) (a : α) :
    (c.insert key a).table.entries.Sublist (c.table.insert key a).entries := by
  unfold insert
  dsimp only
  split
  · exact snap_sublist 0 _
  · exact .refl _

theorem get?_of_get?_insert (h : c.table.Distinct) (hget : (c.insert key a).get? k = some b) :
    k = key ∧ b = a ∨ k ≠ key ∧ c.get? k = some b :=
  Table.of_get?_insert ((h.insert key a).get?_mono (c.entries_insert_sublist key a) hget)

end SnapCache

/-! ### Trackers -/

inductive TrackerStep where
  | mark (m : MessageRef) (status : DeliveryStatus)
  | reduce

namespace DeliveryTracker

def step (t : DeliveryTracker) : TrackerStep → DeliveryTracker
  | .mark m status => (t.mark m status).2
  | .reduce => t.reduce.2

def run (t : DeliveryTracker) (steps : List TrackerStep) : DeliveryTracker :=
  steps.foldl step t

/-- After the status was recorded, nothing was marked under the id but that it is queued, which a
finished delivery does not go back to. -/
def Stands (id : String) (steps : List TrackerStep) : Prop :=
  ∀ n status, .mark n status ∈ steps → n.id = id → status = .queued

variable {t : DeliveryTracker} {m n : MessageRef} {status told : DeliveryStatus}

theorem distinct_step (h : t.statuses.table.Distinct) (s : TrackerStep) :
    (t.step s).statuses.table.Distinct := by
  cases s with
  | mark n status =>
    simp only [step, mark, SnapCache.insertUnless]
    split
    · exact h
    · exact (h.insert _ _).sublist (t.statuses.entries_insert_sublist _ _)
  | reduce => exact h.sublist (snap_sublist 0 _)

/-- Where a status comes from that is told after a step. -/
theorem status_step (h : t.statuses.table.Distinct) {s : TrackerStep}
    (htold : (t.step s).status? m = some told) :
    (∃ n, s = .mark n told ∧ n.id = m.id) ∨ t.status? m = some told ∧ Stands m.id [s] := by
  cases s with
  | mark n status =>
    simp only [step, mark, status?, SnapCache.insertUnless] at htold
    split at htold
    · -- The mark was refused: it says queued, and a finished delivery is recorded.
      rename_i hkeep
      obtain ⟨current, -, hqueued⟩ := (Option.any_eq_true _ _).mp hkeep
      have hqueued : status = .queued := eq_of_beq (Bool.and_eq_true_iff.mp hqueued).1
      refine .inr ⟨htold, fun n' status' hmem _ => ?_⟩
      cases List.mem_singleton.mp hmem
      exact hqueued
    · rcases SnapCache.get?_of_get?_insert h htold with ⟨hid, rfl⟩ | ⟨hid, hbefore⟩
      · exact .inl ⟨n, rfl, hid.symm⟩
      · refine .inr ⟨hbefore, fun n' status' hmem hn' => ?_⟩
        cases List.mem_singleton.mp hmem
        exact absurd hn'.symm hid
  | reduce =>
    refine .inr ⟨h.get?_mono (snap_sublist 0 _) htold, fun n status hmem => ?_⟩
    cases List.mem_singleton.mp hmem

/-- By induction on the steps: a status was there at the start and stands, or was marked on the way
and stands since. -/
theorem status_run (h : t.statuses.table.Distinct) {steps : List TrackerStep}
    (htold : (t.run steps).status? m = some told) :
    t.status? m = some told ∧ Stands m.id steps ∨
      ∃ before n after, steps = before ++ .mark n told :: after ∧ n.id = m.id ∧
        Stands m.id after := by
  induction steps generalizing t with
  | nil => exact .inl ⟨htold, nofun⟩
  | cons s steps ih =>
    rcases ih (distinct_step h s) htold with ⟨hstep, hstands⟩ | ⟨before, n, after, rfl, hn, hstands⟩
    · rcases status_step h hstep with ⟨n, rfl, hn⟩ | ⟨hstart, hfirst⟩
      · exact .inr ⟨[], n, steps, rfl, hn, hstands⟩
      · refine .inl ⟨hstart, fun n status hmem hn => ?_⟩
        rcases List.mem_cons.mp hmem with rfl | hmem
        · exact hfirst n status List.mem_cons_self hn
        · exact hstands n status hmem hn
    · exact .inr ⟨s :: before, n, after, rfl, hn, hstands⟩

end DeliveryTracker

end Courier
