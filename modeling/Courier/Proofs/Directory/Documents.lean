import Courier.Directory
import Mathlib.Data.List.Induction
import Mathlib.Data.List.Nodup

/-!
# The newest documents

A directory keeps one document of each kind for every entity, and replaces it by a newer one only.
So what it holds after any number of documents is, for every entity and kind, the first of those
with the greatest time. If no two of them have the same time, it does not matter in which order
they came.
-/

namespace Courier

namespace Document

/-- The documents are of the same kind and about the same entity. -/
def Rivals (a b : Document) : Prop :=
  a.did = b.did ∧ a.kind = b.kind

theorem Rivals.symm {a b : Document} (h : a.Rivals b) : b.Rivals a :=
  ⟨h.1.symm, h.2.symm⟩

theorem Rivals.trans {a b c : Document} (h : a.Rivals b) (h' : b.Rivals c) : a.Rivals c :=
  ⟨h.1.trans h'.1, h.2.trans h'.2⟩

/-- Of all that were submitted for the same entity and kind, none is newer than the document, and
none that is as new came before it. -/
def Prevails (submitted : List Document) (doc : Document) : Prop :=
  ∃ before after, submitted = before ++ doc :: after ∧
    (∀ e ∈ before, e.Rivals doc → e.time < doc.time) ∧
    ∀ e ∈ after, e.Rivals doc → e.time ≤ doc.time

section Prevails

variable {submitted : List Document} {doc last : Document}

theorem Prevails.mem (h : doc.Prevails submitted) : doc ∈ submitted := by
  obtain ⟨before, after, rfl, -⟩ := h
  exact List.mem_append_right _ List.mem_cons_self

theorem Prevails.le (h : doc.Prevails submitted) {e : Document} (he : e ∈ submitted)
    (hrivals : e.Rivals doc) : e.time ≤ doc.time := by
  obtain ⟨before, after, rfl, hbefore, hafter⟩ := h
  rcases List.mem_append.mp he with he | he
  · exact UInt64.le_of_lt (hbefore e he hrivals)
  · rcases List.mem_cons.mp he with rfl | he
    · exact UInt64.le_refl _
    · exact hafter e he hrivals

theorem prevails_concat : doc.Prevails (submitted ++ [last]) ↔
    (doc = last ∧ ∀ e ∈ submitted, e.Rivals last → e.time < last.time) ∨
      doc.Prevails submitted ∧ (last.Rivals doc → last.time ≤ doc.time) := by
  constructor
  · rintro ⟨before, after, hsplit, hbefore, hafter⟩
    rcases List.eq_nil_or_concat after with rfl | ⟨after, e, rfl⟩
    · obtain ⟨rfl, hlast⟩ := List.append_inj' hsplit rfl
      obtain rfl := (List.cons.inj hlast).1
      exact .inl ⟨rfl, hbefore⟩
    · have hsplit : submitted ++ [last] = (before ++ doc :: after) ++ [e] := by simpa using hsplit
      obtain ⟨rfl, hlast⟩ := List.append_inj' hsplit rfl
      obtain rfl := (List.cons.inj hlast).1
      simp only [List.concat_eq_append, List.forall_mem_append, List.forall_mem_singleton] at hafter
      exact .inr ⟨⟨before, after, rfl, hbefore, hafter.1⟩, hafter.2⟩
  · rintro (⟨rfl, hnewer⟩ | ⟨⟨before, after, rfl, hbefore, hafter⟩, hlast⟩)
    · exact ⟨submitted, [], rfl, hnewer, nofun⟩
    · refine ⟨before, after ++ [last], by simp, hbefore, ?_⟩
      simp only [List.forall_mem_append, List.forall_mem_singleton]
      exact ⟨hafter, hlast⟩

/-- Among those submitted for an entity and a kind, some document prevails. -/
theorem exists_prevails {e : Document} (he : e ∈ submitted) :
    ∃ doc, doc.Prevails submitted ∧ e.Rivals doc := by
  induction submitted using List.reverseRecOn generalizing e with
  | nil => cases he
  | append_singleton submitted last ih =>
    -- The last one prevails if it is the first for its entity and kind, or newer than the one that
    -- prevails without it.
    by_cases hlast : e.Rivals last
    · by_cases hearlier : ∃ f ∈ submitted, f.Rivals e
      · obtain ⟨f, hf, hfe⟩ := hearlier
        obtain ⟨doc, hdoc, hrivals⟩ := ih hf
        have hdoclast : doc.Rivals last := hrivals.symm.trans (hfe.trans hlast)
        by_cases hle : last.time ≤ doc.time
        · exact ⟨doc, prevails_concat.mpr (.inr ⟨hdoc, fun _ => hle⟩), hlast.trans hdoclast.symm⟩
        · refine ⟨last, prevails_concat.mpr (.inl ⟨rfl, fun g hg hglast => ?_⟩), hlast⟩
          have hgdoc : g.time ≤ doc.time := hdoc.le hg (hglast.trans hdoclast.symm)
          exact UInt64.lt_of_le_of_lt hgdoc (UInt64.not_le.mp hle)
      · refine ⟨last, prevails_concat.mpr (.inl ⟨rfl, fun g hg hglast => ?_⟩), hlast⟩
        exact absurd ⟨g, hg, hglast.trans hlast.symm⟩ hearlier
    · rcases List.mem_append.mp he with he | he
      · obtain ⟨doc, hdoc, hrivals⟩ := ih he
        refine ⟨doc, prevails_concat.mpr (.inr ⟨hdoc, fun h => ?_⟩), hrivals⟩
        exact absurd (hrivals.trans h.symm) hlast
      · obtain rfl := List.mem_singleton.mp he
        exact absurd ⟨rfl, rfl⟩ hlast

/-- Different documents for the same entity and kind have different times. -/
def Dated (submitted : List Document) : Prop :=
  ∀ a ∈ submitted, ∀ b ∈ submitted, a.Rivals b → a.time = b.time → a = b

theorem dated_of_nodup (h : (submitted.map fun d => (d.did, d.kind, d.time)).Nodup) :
    Dated submitted :=
  fun _ ha _ hb ⟨hdid, hkind⟩ htime =>
    List.inj_on_of_nodup_map h ha hb (Prod.ext hdid (Prod.ext hkind htime))

theorem Dated.prevails_iff (h : Dated submitted) : doc.Prevails submitted ↔
    doc ∈ submitted ∧ ∀ e ∈ submitted, e.Rivals doc → e.time ≤ doc.time := by
  refine ⟨fun hdoc => ⟨hdoc.mem, fun e he => hdoc.le he⟩, fun ⟨hmem, hle⟩ => ?_⟩
  obtain ⟨before, after, rfl, hfirst⟩ := List.eq_append_cons_of_mem hmem
  refine ⟨before, after, rfl, fun e he hrivals => ?_, fun e he hrivals => ?_⟩
  · have hmem' : e ∈ before ++ doc :: after := List.mem_append_left _ he
    refine UInt64.lt_of_le_of_ne (hle e hmem' hrivals) fun heq => hfirst ?_
    rwa [← h e hmem' doc hmem hrivals heq]
  · exact hle e (List.mem_append_right _ (List.mem_cons_of_mem doc he)) hrivals

end Prevails

/-- The records with a document saved, unless it is refused. -/
def savedIn (doc : Document) (records : Table Entity (List Document)) :
    Table Entity (List Document) :=
  (Directory.upsert? doc ((records.get? doc.did).getD [])).elim records (records.insert doc.did)

/-- The records with the documents saved one after the other. -/
def allSavedIn (docs : List Document) (records : Table Entity (List Document)) :
    Table Entity (List Document) :=
  docs.foldl (fun records doc => doc.savedIn records) records

theorem allSavedIn_append (docs docs' : List Document) (records : Table Entity (List Document)) :
    allSavedIn (docs ++ docs') records = allSavedIn docs' (allSavedIn docs records) :=
  List.foldl_append

end Document

namespace Directory

/-- Saving a document changes the records alone, and looks at nothing else. -/
theorem saveDocument_eq (d : Directory) (doc : Document) :
    (d.saveDocument doc).2 = { d with records := doc.savedIn d.records } := by
  unfold saveDocument documents Document.savedIn
  cases upsert? doc ((d.records.get? doc.did).getD []) <;> rfl

/-! ### One document -/

section Upsert

variable {doc : Document} {docs docs' : List Document}

theorem held_of_upsert?_eq_none (h : upsert? doc docs = none) :
    ∃ held ∈ docs, held.kind = doc.kind ∧ doc.time ≤ held.time := by
  induction docs with
  | nil => cases h
  | cons first rest ih =>
    rw [upsert?] at h
    split at h
    · split at h
      · exact ⟨first, List.mem_cons_self, ‹_›, ‹_›⟩
      · cases h
    · obtain ⟨held, hheld, hnewer⟩ := ih (Option.map_eq_none_iff.mp h)
      exact ⟨held, List.mem_cons_of_mem first hheld, hnewer⟩

/-- A document that is kept is the first of its kind, or replaces an older one. -/
theorem upsert?_eq_some (h : upsert? doc docs = some docs') :
    ((∀ held ∈ docs, held.kind ≠ doc.kind) ∧ docs' = docs ++ [doc]) ∨
      ∃ before held after, docs = before ++ held :: after ∧ held.kind = doc.kind ∧
        held.time < doc.time ∧ docs' = before ++ doc :: after := by
  induction docs generalizing docs' with
  | nil => exact .inl ⟨nofun, (Option.some.inj h).symm⟩
  | cons first rest ih =>
    rw [upsert?] at h
    split at h
    · split at h
      · cases h
      · exact .inr ⟨[], first, rest, rfl, ‹_›, UInt64.not_le.mp ‹_›, (Option.some.inj h).symm⟩
    · rename_i hkind
      obtain ⟨kept, hkept, rfl⟩ := Option.map_eq_some_iff.mp h
      rcases ih hkept with ⟨hnew, rfl⟩ | ⟨before, held, after, rfl, hsame, hlt, rfl⟩
      · exact .inl ⟨List.forall_mem_cons.mpr ⟨hkind, hnew⟩, rfl⟩
      · exact .inr ⟨first :: before, held, after, rfl, hsame, hlt, rfl⟩

theorem nodup_upsert? (hkinds : (docs.map Document.kind).Nodup)
    (h : upsert? doc docs = some docs') : (docs'.map Document.kind).Nodup := by
  rcases upsert?_eq_some h with ⟨hnew, rfl⟩ | ⟨before, held, after, rfl, hkind, -, rfl⟩
  · rw [List.map_append, List.nodup_append']
    refine ⟨hkinds, List.nodup_singleton _, fun kind hold hdoc => ?_⟩
    obtain ⟨held, hheld, rfl⟩ := List.mem_map.mp hold
    exact hnew held hheld (List.mem_singleton.mp hdoc)
  · simpa only [List.map_append, List.map_cons, hkind] using hkinds

/-- What was held of the kind is gone, and was older. -/
theorem mem_upsert? (hkinds : (docs.map Document.kind).Nodup) (h : upsert? doc docs = some docs') :
    (∀ held ∈ docs, held.kind = doc.kind → held.time < doc.time) ∧
      ∀ e, e ∈ docs' ↔ e = doc ∨ e ∈ docs ∧ e.kind ≠ doc.kind := by
  rcases upsert?_eq_some h with ⟨hnew, rfl⟩ | ⟨before, held, after, rfl, hkind, hlt, rfl⟩
  · refine ⟨fun held hheld hkind => absurd hkind (hnew held hheld), fun e => ?_⟩
    rw [List.mem_append, List.mem_singleton, or_comm]
    exact or_congr_right ⟨fun he => ⟨he, hnew e he⟩, And.left⟩
  · rw [List.map_append, List.map_cons, List.nodup_middle, List.nodup_cons] at hkinds
    obtain ⟨hothers, -⟩ := hkinds
    have hother (e : Document) (he : e ∈ before ∨ e ∈ after) : e.kind ≠ doc.kind := by
      intro hsame
      apply hothers
      rw [hkind, ← hsame, ← List.map_append]
      exact List.mem_map_of_mem (List.mem_append.mpr he)
    constructor
    · intro e he hsame
      rcases List.mem_append.mp he with he | he
      · exact absurd hsame (hother e (.inl he))
      · rcases List.mem_cons.mp he with rfl | he
        · exact hlt
        · exact absurd hsame (hother e (.inr he))
    · intro e
      simp only [List.mem_append, List.mem_cons]
      constructor
      · rintro (he | rfl | he)
        · exact .inr ⟨.inl he, hother e (.inl he)⟩
        · exact .inl rfl
        · exact .inr ⟨.inr (.inr he), hother e (.inr he)⟩
      · rintro (rfl | ⟨he | rfl | he, hne⟩)
        · exact .inr (.inl rfl)
        · exact .inl he
        · exact absurd hkind hne
        · exact .inr (.inr he)

end Upsert

/-! ### All that were submitted -/

/-- Of each entity and kind, the directory has the document that prevails among the submitted ones,
and nothing else. -/
structure Holds (d : Directory) (submitted : List Document) : Prop where
  kinds : ∀ id, ((d.documents id).map Document.kind).Nodup
  mem_iff : ∀ id doc, doc ∈ d.documents id ↔ doc.did = id ∧ doc.Prevails submitted

section Holds

variable {d : Directory} {submitted : List Document}

theorem holds_nil (h : ∀ id, d.documents id = []) : d.Holds [] where
  kinds id := by
    rw [h id]
    exact List.nodup_nil
  mem_iff id doc := by
    rw [h id]
    exact iff_of_false List.not_mem_nil fun hdoc => List.not_mem_nil hdoc.2.mem

theorem Holds.unique (h : d.Holds submitted) {id : Entity} {a b : Document}
    (ha : a ∈ d.documents id) (hb : b ∈ d.documents id) (hkind : a.kind = b.kind) : a = b :=
  List.inj_on_of_nodup_map (h.kinds id) ha hb hkind

/-- What is held is as new as anything that was submitted. -/
theorem Holds.exists_of_mem (h : d.Holds submitted) {e : Document} (he : e ∈ submitted) :
    ∃ doc ∈ d.documents e.did, e.Rivals doc ∧ e.time ≤ doc.time := by
  obtain ⟨doc, hdoc, hrivals⟩ := Document.exists_prevails he
  exact ⟨doc, (h.mem_iff e.did doc).mpr ⟨hrivals.1.symm, hdoc⟩, hrivals, hdoc.le he hrivals⟩

/-- A document that is refused is not newer than the one at hand. -/
theorem Holds.refuse (h : d.Holds submitted) {doc : Document}
    (hnone : upsert? doc (d.documents doc.did) = none) : d.Holds (submitted ++ [doc]) := by
  obtain ⟨held, hheld, hkind, hle⟩ := held_of_upsert?_eq_none hnone
  obtain ⟨hdid, hprevails⟩ := (h.mem_iff doc.did held).mp hheld
  refine ⟨h.kinds, fun id e => ?_⟩
  rw [h.mem_iff, Document.prevails_concat]
  constructor
  · rintro ⟨hid, he⟩
    refine ⟨hid, .inr ⟨he, fun hrivals => ?_⟩⟩
    have hmem : e ∈ d.documents doc.did := (h.mem_iff doc.did e).mpr ⟨hrivals.1.symm, he⟩
    rwa [h.unique hmem hheld (hrivals.2.symm.trans hkind.symm)]
  · rintro ⟨hid, ⟨rfl, hnewer⟩ | ⟨he, -⟩⟩
    · exact absurd hle (UInt64.not_le.mpr (hnewer held hprevails.mem ⟨hdid, hkind⟩))
    · exact ⟨hid, he⟩

theorem documents_insert (d : Directory) (did : Entity) (docs : List Document) (id : Entity) :
    documents { d with records := d.records.insert did docs } id =
      if id = did then docs else d.documents id := by
  rw [documents, Table.get?_insert]
  split <;> rfl

/-- A document that is kept is newer than all that were submitted for its entity and kind. -/
theorem Holds.newer (h : d.Holds submitted) {doc : Document} {docs : List Document}
    (hsome : upsert? doc (d.documents doc.did) = some docs) {e : Document} (he : e ∈ submitted)
    (hrivals : e.Rivals doc) : e.time < doc.time := by
  obtain ⟨held, hheld, hsame, hle⟩ := h.exists_of_mem he
  obtain ⟨holder, -⟩ := mem_upsert? (h.kinds doc.did) hsome
  rw [hrivals.1] at hheld
  exact UInt64.lt_of_le_of_lt hle (holder held hheld (hsame.2.symm.trans hrivals.2))

theorem Holds.keep (h : d.Holds submitted) {doc : Document} {docs : List Document}
    (hsome : upsert? doc (d.documents doc.did) = some docs) :
    Holds { d with records := d.records.insert doc.did docs } (submitted ++ [doc]) := by
  refine ⟨fun id => ?_, fun id e => ?_⟩
  · rw [documents_insert]
    split
    · exact nodup_upsert? (h.kinds doc.did) hsome
    · exact h.kinds id
  · rw [documents_insert, Document.prevails_concat]
    split
    · rename_i hid
      obtain ⟨-, hmem⟩ := mem_upsert? (h.kinds doc.did) hsome
      rw [hmem, h.mem_iff, hid]
      constructor
      · rintro (rfl | ⟨⟨hdid, he⟩, hkind⟩)
        · exact ⟨rfl, .inl ⟨rfl, fun f hf hrivals => h.newer hsome hf hrivals⟩⟩
        · exact ⟨hdid, .inr ⟨he, fun hrivals => absurd hrivals.2.symm hkind⟩⟩
      · rintro ⟨hdid, ⟨rfl, -⟩ | ⟨he, hle⟩⟩
        · exact .inl rfl
        · refine .inr ⟨⟨hdid, he⟩, fun hkind => ?_⟩
          have hrivals : e.Rivals doc := ⟨hdid, hkind⟩
          exact UInt64.not_le.mpr (h.newer hsome he.mem hrivals) (hle hrivals.symm)
    · rename_i hid
      rw [h.mem_iff]
      refine and_congr_right fun hdid => ?_
      constructor
      · exact fun he => .inr ⟨he, fun hrivals => absurd (hdid.symm.trans hrivals.1.symm) hid⟩
      · rintro (⟨rfl, -⟩ | ⟨he, -⟩)
        · exact absurd hdid.symm hid
        · exact he

theorem Holds.save (h : d.Holds submitted) (doc : Document) :
    (d.saveDocument doc).2.Holds (submitted ++ [doc]) := by
  unfold saveDocument
  cases hupsert : upsert? doc (d.documents doc.did) with
  | none => exact h.refuse hupsert
  | some docs => exact h.keep hupsert

/-- Nothing but the records matters, and they take up one document after the other. -/
theorem Holds.saveAll {d' : Directory} {docs : List Document} (h : d.Holds submitted)
    (hrecords : d'.records = Document.allSavedIn docs d.records) :
    d'.Holds (submitted ++ docs) := by
  induction docs generalizing d submitted with
  | nil =>
    have hsame (id : Entity) : d'.documents id = d.documents id := by
      rw [documents, hrecords]
      rfl
    rw [List.append_nil]
    exact ⟨fun id => hsame id ▸ h.kinds id, fun id doc => hsame id ▸ h.mem_iff id doc⟩
  | cons doc docs ih =>
    rw [List.append_cons]
    apply ih (h.save doc)
    rw [saveDocument_eq]
    exact hrecords

theorem Holds.hasEncryptionKey_iff (h : d.Holds submitted) (id : Entity) :
    d.hasEncryptionKey id = true ↔ ∃ visa : Document, visa.did = id ∧ visa.kind = .visa ∧
      visa.Prevails submitted ∧ visa.properties.hasKey "key" = true := by
  simp only [hasEncryptionKey, List.any_eq_true, Document.hasEncryptionKey, Bool.and_eq_true,
    beq_iff_eq, h.mem_iff]
  exact exists_congr fun visa => ⟨fun ⟨⟨hdid, hvisa⟩, hkind, hkey⟩ => ⟨hdid, hkind, hvisa, hkey⟩,
    fun ⟨hdid, hkind, hvisa, hkey⟩ => ⟨⟨hdid, hvisa⟩, hkind, hkey⟩⟩

/-- If no two that were submitted for the same entity and kind have the same time, neither the order
nor how often each was submitted makes a difference. -/
theorem Holds.perm {d' : Directory} {submitted' : List Document} (h : d.Holds submitted)
    (h' : d'.Holds submitted') (hdated : Document.Dated submitted)
    (hsame : ∀ doc, doc ∈ submitted' ↔ doc ∈ submitted) (id : Entity) :
    (d'.documents id).Perm (d.documents id) := by
  have hdated' : Document.Dated submitted' := fun a ha b hb =>
    hdated a ((hsame a).mp ha) b ((hsame b).mp hb)
  rw [List.perm_ext_iff_of_nodup (h'.kinds id).of_map (h.kinds id).of_map]
  intro doc
  rw [h'.mem_iff, h.mem_iff, hdated.prevails_iff, hdated'.prevails_iff, hsame]
  simp only [hsame]

end Holds

end Directory

end Courier
