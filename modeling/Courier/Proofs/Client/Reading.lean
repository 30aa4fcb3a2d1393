import Courier.Proofs.Client.Handling
import Courier.Proofs.Directory.Documents
import Courier.Proofs.Group.Rosters

/-!
# What reading a packet changes

Only a membership command that is newer than the last one changes a roster or the history of a
group; every other packet leaves alone whatever such a command will find. One that takes effect
leaves its own time behind, so that another one of that time comes too late.
-/

namespace Courier

/-- The membership change that a payload asks for. -/
def Codec.change? (codec : Codec) (payload : Bytes) : Option MembershipChange :=
  match codec.decode payload with
  | .ok m => m.change?
  | .error _ => none

theorem Recency.latest?_observe_of_ne {κ : Type} [DecidableEq κ] {r : Recency κ} {key k : κ}
    (h : key ≠ k) (time : Millis) : (r.observe k time).2.latest? key = r.latest? key := by
  unfold observe
  split
  · rfl
  · exact (Table.get?_insert _ _ _ _).trans (if_neg h)

namespace Client

variable {τ ε : Type}

def latest? (c : Client τ) (group : Entity) : Option Millis :=
  c.account.freshness.recent.latest? ⟨group, .history⟩

/-- Every tag of the protocol has the handler that the protocol asks for. -/
def HandlesAll (c : Client τ) : Prop :=
  ∀ tag ∈ Handlers.tags, c.desk.handlers.get? tag = some .standard

/-- Everything that membership commands depend on is the same. -/
structure SameGroups (c c' : Client τ) : Prop where
  rosters : c'.account.directory.rosters = c.account.directory.rosters
  owners : c'.account.directory.owners = c.account.directory.owners
  helpers : c'.account.directory.helpers = c.account.directory.helpers
  history : ∀ group, c'.latest? group = c.latest? group
  writable : c'.account.rostersWritable = c.account.rostersWritable
  codec : c'.account.codec = c.account.codec
  handlers : c'.desk.handlers = c.desk.handlers

theorem composes_sameGroups : Composes (SameGroups : Client τ → Client τ → Prop) where
  refl _ := ⟨rfl, rfl, rfl, fun _ => rfl, rfl, rfl, rfl⟩
  trans h h' := ⟨h'.rosters.trans h.rosters, h'.owners.trans h.owners, h'.helpers.trans h.helpers,
    fun g => (h'.history g).trans (h.history g), h'.writable.trans h.writable,
    h'.codec.trans h.codec, h'.handlers.trans h.handlers⟩

theorem sameGroups_of_asks {c c' : Client τ} (h : Asks c c') : SameGroups c c' := by
  obtain ⟨ls, hsent, -⟩ := h
  obtain ⟨cooldowns, ha⟩ := hsent.account
  refine ⟨?_, ?_, ?_, ?_, ?_, ?_, hsent.handlers⟩
  · rw [ha]
  · rw [ha]
  · rw [ha]
  · intro group
    rw [latest?, ha]
    rfl
  · rw [ha]
  · rw [ha]

theorem SameGroups.directory {c c' : Client τ} (h : SameGroups c c') (group : Entity) :
    c'.account.directory.members? group = c.account.directory.members? group ∧
    c'.account.directory.owner? group = c.account.directory.owner? group ∧
    c'.account.directory.assistants group = c.account.directory.assistants group := by
  unfold Directory.members? Directory.owner? Directory.assistants Directory.assistants?
  rw [h.rosters, h.owners, h.helpers]
  exact ⟨rfl, rfl, rfl⟩

theorem SameGroups.members {c c' : Client τ} (h : SameGroups c c') (group : Entity) :
    c'.account.directory.members group = c.account.directory.members group := by
  rw [Directory.members, (h.directory group).1, Directory.members]

theorem SameGroups.isAdmin {c c' : Client τ} (h : SameGroups c c') (group who : Entity) :
    c'.account.directory.isAdmin group who = c.account.directory.isAdmin group who := by
  obtain ⟨-, howner, hassistants⟩ := h.directory group
  rw [Directory.isAdmin, howner, hassistants, Directory.isAdmin]

/-! ### Packets that change no roster -/

theorem sameGroups_observe_document (did : Entity) (time : Millis) :
    Keeps SameGroups (observe ⟨did, .document⟩ time : Action τ ε Bool) := by
  intro c
  refine ⟨rfl, rfl, rfl, ?_, rfl, rfl, rfl⟩
  intro group
  have hkind : (⟨group, .history⟩ : FreshnessKey) ≠ ⟨did, .document⟩ := nofun
  exact Recency.latest?_observe_of_ne hkind time

theorem keptByHandling_sameGroups : KeptByHandling (SameGroups : Client τ → Client τ → Prop) where
  toComposes := composes_sameGroups
  newContent _ _ := ⟨rfl, rfl, rfl, fun _ => rfl, rfl, rfl, rfl⟩
  requestQuery key := (keeps_requestQuery key).mono sameGroups_of_asks
  sendInstant m priority _ := by
    refine Keeps.sendInstant composes_sameGroups fun c b _ => ?_
    obtain ⟨ha, hh, -⟩ := c.submitted_fields ⟨m, b⟩ priority
    refine ⟨?_, ?_, ?_, ?_, ?_, ?_, hh⟩
    · rw [ha]
    · rw [ha]
    · rw [ha]
    · intro group
      rw [latest?, latest?, ha]
    · rw [ha]
    · rw [ha]
  seen := sameGroups_observe_document
  card _ _ _ := ⟨rfl, rfl, rfl, fun _ => rfl, rfl, rfl, rfl⟩

theorem sameGroups_saveDocument (c : Client τ) (doc : Document) :
    SameGroups c (c.modifyDirectory fun d => (d.saveDocument doc).2) := by
  simp only [Directory.saveDocument_eq]
  exact ⟨rfl, rfl, rfl, fun _ => rfl, rfl, rfl, rfl⟩

theorem sameGroups_setKey (c : Client τ) (key : Option String) :
    SameGroups c { c with session := (c.session.setKey key).2 } :=
  ⟨rfl, rfl, rfl, fun _ => rfl, rfl, rfl, rfl⟩

theorem sameGroups_receive {c : Client τ} {payload : Bytes}
    (h : c.account.codec.change? payload = none) :
    SameGroups c (doing (receive payload) c) := by
  unfold Codec.change? at h
  cases hm : c.account.codec.decode payload with
  | error e =>
    rw [doing_receive_of_error hm]
    exact composes_sameGroups.refl c
  | ok m =>
    rw [hm] at h
    cases hcommand : m.content.command? with
    | none =>
      rw [doing_receive_of_text hm hcommand]
      exact composes_sameGroups.refl c
    | some command =>
      rw [doing_receive hm hcommand]
      have hnone : command.membership? = none := by
        simpa [Message.change?, hcommand] using h
      have hkept := keptByHandling_sameGroups (τ := τ)
      exact Keeps.bind composes_sameGroups (hkept.dispatch fun _ =>
          hkept.handleStandard m hnone (fun _ _ c => sameGroups_setKey c _)
            fun doc _ c => sameGroups_saveDocument c doc)
        (fun contents => hkept.sendBack _ contents) c

end Client

end Courier
