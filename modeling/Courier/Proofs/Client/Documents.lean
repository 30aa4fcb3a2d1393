import Courier.Proofs.Client.Keys
import Courier.Proofs.Directory.Documents

/-!
# The documents of a client

A client files the documents that it is given to save and those that a packet hands over about the
entity that it names. Nothing else that it does touches its documents, so it holds the newest of
them, whether they were saved or read.
-/

namespace Courier

namespace Client

variable {τ : Type}

/-- Between the two moments the documents were saved one after the other, and packets go on being
read in the same way. -/
structure Files (docs : List Document) (c c' : Client τ) : Prop where
  records : c'.account.directory.records =
    Document.allSavedIn docs c.account.directory.records
  codec : c'.account.codec = c.account.codec
  handlers : c'.desk.handlers = c.desk.handlers

section Files

variable {docs docs' : List Document} {a b c : Client τ}

theorem Files.trans (h : Files docs a b) (h' : Files docs' b c) : Files (docs ++ docs') a c where
  records := by rw [h'.records, h.records, Document.allSavedIn_append]
  codec := h'.codec.trans h.codec
  handlers := h'.handlers.trans h.handlers

theorem Files.filings (h : Files docs a b) : b.filings = a.filings := by
  funext payload
  rw [Client.filings, Client.filings, h.codec, h.handlers]

theorem composes_files : Composes (Files [] : Client τ → Client τ → Prop) where
  refl _ := ⟨rfl, rfl, rfl⟩
  trans h h' := h.trans h'

theorem files_sendInstant (m : Message) (priority : Priority) :
    Keeps (Files []) (sendInstant m priority : Action τ MessengerError _) := by
  refine Keeps.sendInstant composes_files fun c b _ => ?_
  obtain ⟨haccount, hhandlers, -⟩ := c.submitted_fields ⟨m, b⟩ priority
  exact ⟨by rw [haccount]; rfl, by rw [haccount], hhandlers⟩

theorem keptByActing_files : KeptByActing (Files [] : Client τ → Client τ → Prop) where
  toComposes := composes_files
  newContent _ _ := ⟨rfl, rfl, rfl⟩
  requestQuery _ _ := ⟨rfl, rfl, rfl⟩
  sendInstant m priority _ := files_sendInstant m priority
  seen _ _ _ := ⟨rfl, rfl, rfl⟩
  card _ _ _ := ⟨rfl, rfl, rfl⟩
  history _ _ _ := ⟨rfl, rfl, rfl⟩
  roster _ _ := Keeps.saveMembers composes_files fun _ => ⟨rfl, rfl, rfl⟩
  first := files_sendInstant
  online _ := ⟨rfl, rfl, rfl⟩

end Files

/-! ### Packets -/

theorem files_saveDocument (c : Client τ) (doc : Document) :
    Files [doc] c (c.modifyDirectory fun d => (d.saveDocument doc).2) :=
  ⟨congrArg Directory.records (c.account.directory.saveDocument_eq doc), rfl, rfl⟩

theorem attempt_saveDocuments (did : Entity) (docs : List Document) (c : Client τ) :
    ∃ c', attempt (saveDocuments did docs : Action τ MessengerError Unit) c = (.ok (), c') ∧
      Files (docs.filter (·.did = did)) c c' := by
  induction docs generalizing c with
  | nil => exact ⟨c, rfl, composes_files.refl c⟩
  | cons doc rest ih =>
    by_cases hdid : doc.did = did
    · let seen : Client τ :=
        doing (observe ⟨did, .document⟩ doc.time : Action τ MessengerError Bool) c
      obtain ⟨c', hc', hfiles⟩ := ih (seen.modifyDirectory fun d => (d.saveDocument doc).2)
      refine ⟨c', ?_, ?_⟩
      · rw [← hc']
        simp only [saveDocuments, hdid, if_true]
        rfl
      · have hseen : Files [] c seen := ⟨rfl, rfl, rfl⟩
        simpa [hdid] using (hseen.trans (files_saveDocument seen doc)).trans hfiles
    · obtain ⟨c', hc', hfiles⟩ := ih c
      refine ⟨c', ?_, ?_⟩
      · rw [← hc']
        simp only [saveDocuments, hdid, if_false]
      · simpa [hdid] using hfiles

/-- Only a document command that the standard handler reads hands over documents. -/
theorem command_of_filings {c : Client τ} {payload : Bytes} (h : c.filings payload ≠ []) :
    ∃ m did card docs held, c.account.codec.decode payload = .ok m ∧
      m.content.command? = some (.document did card docs held) ∧
      c.desk.handlers.get? "document" = some .standard ∧
      c.filings payload = docs.filter (·.did = did) := by
  unfold filings at h ⊢
  cases hm : c.account.codec.decode payload with
  | error e =>
    rw [hm] at h
    exact absurd rfl h
  | ok m =>
    rw [hm] at h
    dsimp only at h ⊢
    cases hcommand : m.content.command? with
    | none =>
      rw [hcommand] at h
      exact absurd rfl h
    | some command =>
      rw [hcommand, Option.elim_some] at h
      split at h
      · rename_i hhandler
        cases command with
        | document did card docs held =>
          refine ⟨m, did, card, docs, held, rfl, hcommand, hhandler, ?_⟩
          rw [Option.elim_some, hhandler]
          rfl
        | _ => exact absurd rfl h
      · exact absurd rfl h

/-- A packet files the documents that it hands over, and no others. -/
theorem files_receive (c : Client τ) (payload : Bytes) :
    Files (c.filings payload) c (doing (receive payload) c) := by
  by_cases hnone : c.filings payload = []
  · rw [hnone]
    refine keptByActing_files.receive_of (fun _ _ _ => ⟨rfl, rfl, rfl⟩) fun doc hdoc => ?_
    rw [hnone] at hdoc
    cases hdoc
  · obtain ⟨m, did, card, docs, held, hm, hcommand, hhandler, hfilings⟩ := command_of_filings hnone
    obtain ⟨c₁, hcard, hsame⟩ : ∃ c₁,
        attempt (saveCard did card : Action τ MessengerError Unit) c = (.ok (), c₁) ∧
          Files [] c c₁ := by
      cases card <;> exact ⟨_, rfl, rfl, rfl, rfl⟩
    obtain ⟨c₂, hsaved, hfiles⟩ := attempt_saveDocuments did docs c₁
    have hdispatch : dispatch c.desk.handlers m (.document did card docs held) =
        (handleStandard m (.document did card docs held) : Action τ MessengerError _) := by
      simp only [dispatch, Command.tag, hhandler]
    have hread : (attempt (dispatch c.desk.handlers m (.document did card docs held) >>=
        sendBack m.sender) c).2 = c₂ := by
      rw [hdispatch]
      simp only [handleStandard, sendBack, attempt_bind, hcard, hsaved, attempt_pure]
    rw [doing_receive hm hcommand, hread, hfilings]
    exact hsame.trans hfiles

end Client

/-! ### Iterations -/

namespace Watched

variable {τ : Type}

/-- Between the two moments of an iteration some packets were handed out, and the documents in them
were filed. -/
def Files (w w' : Watched τ Desk) : Prop :=
  ∃ payloads, w'.heard = w.heard ++ payloads ∧
    Client.Files (payloads.flatMap w.client.filings) w.client w'.client

section Files

variable {w w₁ w₂ : Watched τ Desk}

theorem files_of_same (hheard : w₁.heard = w.heard) (h : Client.Files [] w.client w₁.client) :
    w.Files w₁ :=
  ⟨[], hheard.trans (List.append_nil _).symm, h⟩

theorem Files.trans (h : w.Files w₁) (h' : w₁.Files w₂) : w.Files w₂ := by
  obtain ⟨payloads, hheard, hfiles⟩ := h
  obtain ⟨more, hheard', hfiles'⟩ := h'
  rw [hfiles.filings] at hfiles'
  refine ⟨payloads ++ more, ?_, ?_⟩
  · rw [hheard', hheard, List.append_assoc]
  · rw [List.flatMap_append]
    exact hfiles.trans hfiles'

variable [Transport τ]

theorem files_receive (w : Watched τ Desk) (p : Packet) :
    w.Files (w.receive Client.observer p) := by
  refine ⟨[p.payload], List.filterMap_append, ?_⟩
  rw [List.flatMap_singleton]
  exact w.client.files_receive p.payload

theorem files_pump (w : Watched τ Desk) : w.Files (w.pump Client.observer).2 :=
  pump_of (fun _ => files_of_same rfl ⟨rfl, rfl, rfl⟩) Files.trans
    (fun _ => files_of_same rfl ⟨rfl, rfl, rfl⟩) files_receive w

theorem files_move (now : Millis) (w : Watched τ Desk) : w.Files (w.move Client.observer now) := by
  refine files_of_same (heard_move now w) ?_
  cases ht : w.session.evaluate? now with
  | none =>
    rw [move_of_none _ ht]
    exact Client.composes_files.refl _
  | some t =>
    let entered : Client τ := ⟨w.session.enter t.target, w.observer⟩
    have hentered : Client.Files [] w.client entered := ⟨rfl, rfl, rfl⟩
    have hperform : Client.Files [] entered (Client.doing (Client.perform t.effect) entered) := by
      by_cases heffect : t.effect = .resetFreshness
      · rw [heffect]
        exact ⟨rfl, rfl, rfl⟩
      · exact Client.keptByActing_files.effect (fun _ => ⟨rfl, rfl, rfl⟩) entered heffect
    rw [move_client ht]
    exact hentered.trans hperform

theorem files_send (now : Millis) (w : Watched τ Desk) :
    w.Files (w.send Client.observer now).2 := by
  refine files_of_same (heard_send _ now w) ?_
  have hsame : Client.Files [] w.client ⟨w.session, (w.send Client.observer now).2.observer⟩ :=
    observer_send (o := Client.observer) (P := fun x => Client.Files [] w.client ⟨w.session, x⟩)
      (fun _ _ h => ⟨h.records, h.codec, h.handlers⟩)
      (fun _ _ _ h => ⟨h.records, h.codec, h.handlers⟩) now (Client.composes_files.refl _)
  exact ⟨hsame.records, hsame.codec, hsame.handlers⟩

theorem files_iterate (now : Millis) (w : Watched τ Desk) :
    w.Files (w.iterate Client.observer now).2 := by
  have hkept : KeptByPreparing Client.observer (Files : Watched τ Desk → Watched τ Desk → Prop) :=
    ⟨Files.trans, fun _ => files_of_same rfl ⟨rfl, rfl, rfl⟩, files_move, files_pump⟩
  exact hkept.iterate files_send now w

end Files

end Watched

/-! ### Runs -/

/-- What may be done to a client that is given documents to save. -/
inductive Filing (τ : Type) where
  | save (doc : Document)
  | step (s : ClientStep τ)

/-- Whether documents change from outside by being saved only. -/
def Filing.LeavesDocuments {τ : Type} : Filing τ → Prop
  | .step (.call (.learn f)) => ∀ d, (f d).records = d.records
  | _ => True

namespace Client

variable {τ : Type} [Transport τ]

def file (c : Client τ) : Filing τ → Client τ
  | .save doc => c.modifyDirectory fun d => (d.saveDocument doc).2
  | .step s => (c.step s).2

/-- The documents that are submitted in a step, saved or read. -/
def filed (c : Client τ) : Filing τ → List Document
  | .save doc => [doc]
  | .step s => (c.heard s).flatMap c.filings

def fileAll (c : Client τ) (fs : List (Filing τ)) : Client τ :=
  fs.foldl file c

def filedAll (c : Client τ) : List (Filing τ) → List Document
  | [] => []
  | f :: fs => c.filed f ++ (c.file f).filedAll fs

theorem records_call (c : Client τ) {call : ClientCall τ}
    (h : (Filing.step (.call call)).LeavesDocuments) :
    (c.call call).account.directory.records =
      Document.allSavedIn (call.payload?.toList.flatMap c.filings)
        c.account.directory.records := by
  by_cases hdeed : IsDeed call
  · cases call with
    | receive payload =>
      have hread : [payload].flatMap c.filings = c.filings payload := List.flatMap_singleton _ _
      exact hread ▸ (c.files_receive payload).records
    | _ => exact (keptByActing_files.call c hdeed nofun).records
  · cases call with
    | learn f => exact h c.account.directory
    | _ => first | rfl | exact absurd trivial hdeed

theorem records_file (c : Client τ) {f : Filing τ} (h : f.LeavesDocuments) :
    (c.file f).account.directory.records =
      Document.allSavedIn (c.filed f) c.account.directory.records := by
  cases f with
  | save doc => exact (c.files_saveDocument doc).records
  | step s =>
    cases s with
    | call call => exact c.records_call h
    | iterate =>
      obtain ⟨payloads, hheard, hfiles⟩ :=
        Watched.files_iterate c.account.clock ⟨c.session, c.desk, []⟩
      have hpayloads : c.heard .iterate = payloads := hheard
      rw [filed, hpayloads]
      exact hfiles.records

theorem holds_fileAll {c : Client τ} {fs : List (Filing τ)} {submitted : List Document}
    (hc : c.account.directory.Holds submitted) (h : ∀ f ∈ fs, f.LeavesDocuments) :
    (c.fileAll fs).account.directory.Holds (submitted ++ c.filedAll fs) := by
  induction fs generalizing c submitted with
  | nil =>
    rw [filedAll, List.append_nil]
    exact hc
  | cons f fs ih =>
    obtain ⟨hf, hfs⟩ := List.forall_mem_cons.mp h
    rw [filedAll, ← List.append_assoc]
    exact ih (hc.saveAll (c.records_file hf)) hfs

/-- After any run a client that had no documents holds, of each entity and kind, the first of the
newest that were submitted, by saving or in a packet that hands them over in the name of that
entity. So it can encrypt to an entity just if the newest visa has a key, and unless two differ that
have the same time it does not matter in which order they came. -/
theorem holds_newest_documents {c : Client τ} {fs : List (Filing τ)}
    (hnone : ∀ id, c.account.directory.documents id = []) (hfs : ∀ f ∈ fs, f.LeavesDocuments) :
    let d := (c.fileAll fs).account.directory
    (∀ id, ((d.documents id).map Document.kind).Nodup) ∧
    (∀ id doc, doc ∈ d.documents id ↔ doc.did = id ∧ doc.Prevails (c.filedAll fs)) ∧
    (∀ doc ∈ c.filedAll fs, ∃ held ∈ d.documents doc.did, doc.Rivals held) ∧
    (∀ id, d.hasEncryptionKey id = true ↔ ∃ visa : Document, visa.did = id ∧ visa.kind = .visa ∧
      visa.Prevails (c.filedAll fs) ∧ visa.properties.hasKey "key" = true) ∧
    ∀ (c' : Client τ) (fs' : List (Filing τ)), (∀ id, c'.account.directory.documents id = []) →
      (∀ f ∈ fs', f.LeavesDocuments) → (c'.filedAll fs').Perm (c.filedAll fs) →
      Document.Dated (c.filedAll fs) → ∀ id,
        ((c'.fileAll fs').account.directory.documents id).Perm (d.documents id) := by
  intro d
  have hholds : d.Holds (c.filedAll fs) := holds_fileAll (Directory.holds_nil hnone) hfs
  refine ⟨hholds.kinds, hholds.mem_iff, fun doc hdoc => ?_, hholds.hasEncryptionKey_iff, ?_⟩
  · obtain ⟨held, hheld, hrivals, -⟩ := hholds.exists_of_mem hdoc
    exact ⟨held, hheld, hrivals⟩
  · intro c' fs' hnone' hfs' hperm hdated id
    have hholds' : (c'.fileAll fs').account.directory.Holds (c'.filedAll fs') :=
      holds_fileAll (Directory.holds_nil hnone') hfs'
    exact hholds.perm hholds' hdated (fun doc => hperm.mem_iff) id

/-! ### Documents read between two that are saved -/

def aliceVisa (time : Millis) : Document :=
  .new ⟨"alice", "moky", .user⟩ .visa time

/-- A packet in the name of alice, with her newest visa, one of carol and her profile. -/
def handedOut : Bytes :=
  let alice : Entity := ⟨"alice", "moky", .user⟩
  let keyed := { aliceVisa 3 with properties := Properties.empty.insert "key" (.text "ek") trivial }
  Envelope.encode (.new .anyStation ⟨"bob", "moky", .user⟩ (.new 9 (.command (.document alice none
    [keyed, .new ⟨"carol", "moky", .user⟩ .visa 7, .new alice .profile 2] none)) 1))

def readBetween : List (Filing Loopback) :=
  let transport := Query.signedOut.session.transport.deliver handedOut
  [.save (aliceVisa 1), .step (.call (.session (.transport transport))), .step .iterate,
    .save (aliceVisa 2)]

def readFirst : List (Filing Loopback) :=
  [.step (.call (.receive handedOut)), .save (aliceVisa 2), .save (aliceVisa 1)]

theorem holds_newest_documents_readBetween :
    let c := Query.signedOut
    let d := (c.fileAll readBetween).account.directory
    let alice : Entity := ⟨"alice", "moky", .user⟩
    (d.documents alice).map (fun doc => (doc.kind, doc.time)) = [(.visa, 3), (.profile, 2)] ∧
      (d.documents ⟨"carol", "moky", .user⟩).length = 0 ∧ d.hasEncryptionKey alice = true ∧
      (∃ visa : Document, visa.Prevails (c.filedAll readBetween) ∧
        visa.properties.hasKey "key" = true) ∧
      ∀ id, ((c.fileAll readFirst).account.directory.documents id).Perm (d.documents id) := by
  intro c d alice
  have hnone (id : Entity) : c.account.directory.documents id = [] := rfl
  have hbetween : ∀ f ∈ readBetween, f.LeavesDocuments := by
    simp [readBetween, Filing.LeavesDocuments]
  have hfirst : ∀ f ∈ readFirst, f.LeavesDocuments := by
    simp [readFirst, Filing.LeavesDocuments]
  have hkey : d.hasEncryptionKey alice = true := by decide +kernel
  obtain ⟨-, -, -, hkeys, hreordered⟩ := holds_newest_documents hnone hbetween
  obtain ⟨visa, -, -, hvisa, hcarries⟩ := (hkeys alice).mp hkey
  refine ⟨by decide +kernel, by decide +kernel, hkey, ⟨visa, hvisa, hcarries⟩, ?_⟩
  apply hreordered c readFirst hnone hfirst
  · let saved := c.file (.save (aliceVisa 1))
    let delivered := saved.file readBetween[1]
    have hheard : delivered.heard .iterate = [handedOut] := by decide +kernel
    have hfiled : c.filedAll readBetween =
        [aliceVisa 1] ++ ([] ++ (delivered.filed (.step .iterate) ++ ([aliceVisa 2] ++ []))) := rfl
    have hfiled' : c.filedAll readFirst =
        c.filings handedOut ++ [] ++ ([aliceVisa 2] ++ ([aliceVisa 1] ++ [])) := rfl
    have hfilings : delivered.filings = c.filings := by
      have hdelivered : Files [] saved delivered := ⟨rfl, rfl, rfl⟩
      exact hdelivered.filings.trans (c.files_saveDocument (aliceVisa 1)).filings
    have hperm : (c.filings handedOut ++ [aliceVisa 2] ++ [aliceVisa 1]).Perm
        ([aliceVisa 1] ++ (c.filings handedOut ++ [aliceVisa 2])) := List.perm_append_comm
    rw [hfiled, hfiled', filed, hheard, hfilings]
    simpa only [List.flatMap_singleton, List.append_nil, List.nil_append, List.append_assoc]
      using hperm
  · exact Document.dated_of_nodup (by decide +kernel)

end Client

end Courier
