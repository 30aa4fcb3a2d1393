import Courier.Proofs.Group.Abreast

/-!
# What an onlooker is asked

Somebody without a part in a group sees the client ask for rosters and cards. What it asks him, and
whether it goes on asking, does not depend on the roster of that group: a question that goes to the
group itself waits for no roster, and its members are asked for in questions to the station.
-/

namespace Courier.Client

variable {τ ε : Type} {α β α' β' : Type}

/-! ### Two actions at a time -/

/-- Both fail, or both end with results so related. -/
def Agree (V : α → β → Prop) : Except ε α → Except ε β → Prop
  | .ok x, .ok y => V x y
  | .error _, .error _ => True
  | _, _ => False

/-- Two attempts that end alike and leave related clients. -/
structure Paired (R : Client τ → Client τ → Prop) (V : α → β → Prop)
    (r₁ : Except ε α × Client τ) (r₂ : Except ε β × Client τ) : Prop where
  clients : R r₁.2 r₂.2
  results : Agree V r₁.1 r₂.1

/-- Results that nobody looks at. -/
def Whatever (_ : α) (_ : β) : Prop := True

namespace Paired

variable {R : Client τ → Client τ → Prop} {V : α → β → Prop} {W : α' → β' → Prop}
  {c₁ c₂ : Client τ}

theorem ok {x : α} {y : β} (h : R c₁ c₂) (hxy : V x y) :
    Paired R V ((.ok x : Except ε α), c₁) ((.ok y : Except ε β), c₂) := ⟨h, hxy⟩

theorem error {e₁ e₂ : ε} (h : R c₁ c₂) : Paired R V (.error e₁, c₁) (.error e₂, c₂) := ⟨h, trivial⟩

theorem bind {a₁ : Action τ ε α} {a₂ : Action τ ε β} {f₁ : α → Action τ ε α'}
    {f₂ : β → Action τ ε β'} (ha : Paired R V (attempt a₁ c₁) (attempt a₂ c₂))
    (hf : ∀ {x y c₃ c₄}, V x y → R c₃ c₄ → Paired R W (attempt (f₁ x) c₃) (attempt (f₂ y) c₄)) :
    Paired R W (attempt (a₁ >>= f₁) c₁) (attempt (a₂ >>= f₂) c₂) := by
  obtain ⟨hclients, hresults⟩ := ha
  rw [attempt_bind, attempt_bind]
  rcases h₁ : attempt a₁ c₁ with ⟨e₁ | x, c₃⟩ <;> rcases h₂ : attempt a₂ c₂ with ⟨e₂ | y, c₄⟩ <;>
    rw [h₁, h₂] at hclients hresults
  · exact error hclients
  · exact hresults.elim
  · exact hresults.elim
  · exact hf hresults hclients

end Paired

/-! ### What both runs know -/

namespace Abreast

variable {c c₁ c₂ : Client τ} {last : Nat} {who group : Entity}
  (h : Abreast c last who group c₁ c₂)
include h

theorem cooling_iff {key : FreshnessKey} (hkey : key.kind ≠ .document) :
    c₁.Cooling key ↔ c₂.Cooling key := by
  rw [Client.cooling_iff, Client.cooling_iff, h.same.ends key hkey, h.fields.2.1]

theorem arm {key : FreshnessKey} : Abreast c last who group (c₁.arm key) (c₂.arm key) := by
  refine h.learns ⟨rfl, rfl, rfl, _, _, rfl⟩ ⟨rfl, rfl, rfl, _, _, rfl⟩ ?_
    (h.shut.of_directory rfl) (h.shut'.of_directory rfl)
  refine ⟨h.same.cards, h.same.records, h.same.helpers, h.same.owners, h.same.rosters,
    h.same.recent, h.same.period, fun k hk => ?_⟩
  rw [coolsUntil?_arm, coolsUntil?_arm, h.same.ends k hk, renewal, renewal, h.same.period,
    h.fields.2.1]

theorem requestQuery {key : FreshnessKey} (hkey : key.kind ≠ .document) :
    Paired (Abreast c last who group) Eq (attempt (requestQuery key : Action τ ε Bool) c₁)
      (attempt (requestQuery key : Action τ ε Bool) c₂) := by
  have hiff := h.cooling_iff hkey
  by_cases hcooling : c₁.Cooling key
  · rw [attempt_requestQuery_of_cooling hcooling,
      attempt_requestQuery_of_cooling (hiff.mp hcooling)]
    exact .ok h rfl
  · rw [attempt_requestQuery_of_not_cooling hcooling,
      attempt_requestQuery_of_not_cooling (mt hiff.mpr hcooling)]
    exact .ok h.arm rfl

theorem isEmpty_members (g : Entity) : (c₂.account.directory.members g).isEmpty =
    (c₁.account.directory.members g).isEmpty := by
  by_cases hg : g = group
  · have hknown := h.shut.known
    have hknown' := h.shut'.known
    rw [← hg] at hknown hknown'
    rw [List.isEmpty_eq_false_iff.mpr hknown, List.isEmpty_eq_false_iff.mpr hknown']
  · rw [h.same.members hg]

theorem needsCard_eq (g : Entity) : Freshness.needsCard g (c₂.account.directory.card? g) =
    Freshness.needsCard g (c₁.account.directory.card? g) := by
  rw [Directory.card?, ← h.same.cards, Directory.card?]

theorem needsMembers_eq (g : Entity) :
    c₂.account.freshness.needsMembers g (some (c₂.account.directory.members g)) none =
      c₁.account.freshness.needsMembers g (some (c₁.account.directory.members g)) none := by
  simp only [Freshness.needsMembers, Option.all_some, h.isEmpty_members g, Option.any_none]

theorem knowsGroup_iff {g : Entity} : c₁.KnowsGroup g ↔ c₂.KnowsGroup g := by
  have hcard := h.needsCard_eq g
  have hroster := h.needsMembers_eq g
  exact ⟨fun hg => ⟨hcard.trans hg.card, hroster.trans hg.roster⟩,
    fun hg => ⟨hcard.symm.trans hg.card, hroster.symm.trans hg.roster⟩⟩

/-- Messages with contents that are made next. -/
theorem alike_next (sender receiver : Entity) (body : Body) (g : Option Entity) :
    (Message.new sender receiver { c₁.nextContent body with group := g }).Alike
      (Message.new sender receiver { c₂.nextContent body with group := g }) := by
  have hclock := h.fields.2.1
  simp only [Message.Alike, Message.new, nextContent, Content.new, hclock]

end Abreast

/-! ### The onlooker -/

/-- Somebody who is no group and not asked for cards or documents, while serial numbers are fresh and
not looked at by a codec that writes every question. -/
structure Onlooker (c : Client τ) (last : Nat) (who : Entity) : Prop where
  single : who.isGroup = false
  elsewhere : Entity.anyStation ≠ who
  puts : c.account.codec.PutsQuestions
  blind : c.account.codec.SerialBlind
  fresh : c.FreshUpTo last

namespace Onlooker

variable {c c₁ c₂ : Client τ} {last : Nat} {who group : Entity} (o : Onlooker c last who)
include o

theorem ne_of_isGroup {g : Entity} (h : g.isGroup = true) : g ≠ who := by
  rintro rfl
  exact absurd h (by rw [o.single]; exact Bool.false_ne_true)

theorem able {c' : Client τ} (h : Onward c c') {user : LocalUser}
    (hu : c'.account.user = some user) : c'.Able :=
  ⟨⟨user, hu⟩, h.fields.2.2.1 ▸ o.puts⟩

variable (h : Abreast c last who group c₁ c₂)
include h

theorem draw : Abreast c last who group c₁.draw c₂.draw :=
  h.aside o.fresh (aside_draw c₁) (aside_draw c₂)

/-- What strays in both runs is not seen. -/
theorem strays {a₁ : Action τ ε α} {a₂ : Action τ ε β} (ha₁ : Strays who a₁ c₁)
    (ha₂ : Strays who a₂ c₂) :
    Paired (Abreast c last who group) Whatever (attempt a₁ c₁) (attempt a₂ c₂) := by
  obtain ⟨x, c₃, hx, haside⟩ := ha₁
  obtain ⟨y, c₄, hy, haside'⟩ := ha₂
  rw [hx, hy]
  exact .ok (h.aside o.fresh haside haside') trivial

/-- Messages whose serial numbers are drawn next are sent at once in both runs, or in neither. -/
theorem sendDrawn {m₁ m₂ : Message} (halike : m₁.Alike m₂)
    (hserial : m₁.content.serial = c₁.account.serials c₁.account.drawn)
    (hserial' : m₂.content.serial = c₂.account.serials c₂.account.drawn) (priority : Priority) :
    Paired (Abreast c last who group) Whatever (attempt (sendInstant m₁ priority) c₁.draw)
      (attempt (sendInstant m₂ priority) c₂.draw) := by
  have hcodec : c₁.draw.account.codec = c.account.codec := h.left.fields.2.2.1
  have hcodec' : c₂.draw.account.codec = c.account.codec := h.right.fields.2.2.1
  cases hb₁ : c.account.codec.encode m₁ with
  | error e₁ =>
    cases hb₂ : c.account.codec.encode m₂ with
    | error e₂ =>
      rw [attempt_sendInstant, attempt_sendInstant, hcodec, hcodec', hb₁, hb₂]
      exact .error (o.draw h)
    | ok b₂ =>
      obtain ⟨b, hb⟩ := o.blind halike.symm hb₂
      cases hb₁.symm.trans hb
  | ok b₁ =>
    obtain ⟨b₂, hb₂⟩ := o.blind halike hb₁
    obtain ⟨ref₁, hsent₁⟩ := attempt_sendInstant_of_encodes priority (hcodec ▸ hb₁)
    obtain ⟨ref₂, hsent₂⟩ := attempt_sendInstant_of_encodes priority (hcodec' ▸ hb₂)
    rw [hsent₁, hsent₂]
    exact .ok (h.letter o.fresh halike hserial hserial' hb₁ hb₂ priority) trivial

theorem announce (receiver : Entity) (command : Command) :
    Paired (Abreast c last who group) Whatever
      (attempt (announce receiver command .normal) c₁)
      (attempt (announce receiver command .normal) c₂) := by
  cases hu : c₁.account.user with
  | none =>
    rw [Query.attempt_announce_of_nobody hu,
      Query.attempt_announce_of_nobody (h.fields.1.trans hu)]
    exact .error (o.draw h)
  | some user =>
    rw [attempt_announce_of_user hu, attempt_announce_of_user (h.fields.1.trans hu)]
    exact o.sendDrawn h (h.alike_next user.id receiver (.command command) none) rfl rfl .normal

theorem queryCard (id : Entity) : Paired (Abreast c last who group) Whatever
    (attempt (queryCard id) c₁) (attempt (queryCard id) c₂) := by
  refine (h.requestQuery (by nofun)).bind ?_
  rintro granted _ c₃ c₄ rfl h
  cases granted with
  | false => exact .ok h trivial
  | true =>
    refine (o.announce h _ _).bind fun _ h => ?_
    exact .ok h trivial

/-- A group that something has to be asked for first is not sent to in either run. -/
theorem checkGroup {query : Entity → Action τ MessengerError Bool} {g : Entity}
    (hquery : ∀ {g c₃ c₄}, Abreast c last who group c₃ c₄ →
      Paired (Abreast c last who group) Whatever (attempt (query g) c₃) (attempt (query g) c₄))
    (hknows : ¬c₁.KnowsGroup g) :
    Paired (Abreast c last who group) (fun ready ready' => ready = false ∧ ready' = false)
      (attempt (checkGroup query g) c₁) (attempt (checkGroup query g) c₂) := by
  have hcards := h.needsCard_eq g
  have hrosters := h.needsMembers_eq g
  cases hcard : Freshness.needsCard g (c₁.account.directory.card? g) with
  | true =>
    rw [attempt_checkGroup_of_needsCard query g hcard,
      attempt_checkGroup_of_needsCard query g (hcards ▸ hcard)]
    refine (o.queryCard h g).bind fun _ h => ?_
    exact .ok h ⟨rfl, rfl⟩
  | false =>
    have hroster := Bool.of_not_eq_false fun hroster => hknows ⟨hcard, hroster⟩
    rw [attempt_checkGroup_of_needsMembers query g hcard hroster,
      attempt_checkGroup_of_needsMembers query g (hcards ▸ hcard) (hrosters ▸ hroster)]
    refine (hquery h).bind fun _ h => ?_
    exact .ok h ⟨rfl, rfl⟩

/-! ### Questions to assistants -/

/-- The question is sent, or waits, in both runs. -/
theorem tell {query : Entity → Action τ MessengerError Bool}
    (hquery : ∀ {g c₃ c₄}, Abreast c last who group c₃ c₄ →
      Paired (Abreast c last who group) Whatever (attempt (query g) c₃) (attempt (query g) c₄))
    (g receiver : Entity) {command : Command} (hquestion : command.isQuestion = true) :
    Paired (Abreast c last who group) Whatever (attempt (tell query g receiver command) c₁)
      (attempt (tell query g receiver command) c₂) := by
  cases hu : c₁.account.user with
  | none =>
    rw [attempt_tell_of_nobody query g receiver command hu,
      attempt_tell_of_nobody query g receiver command (h.fields.1.trans hu)]
    exact .error (o.draw h)
  | some user =>
    have hu' : c₂.account.user = some user := h.fields.1.trans hu
    by_cases hgroup : (receiver.isGroup && !receiver.isBroadcast) = true
    · by_cases hknows : c₁.KnowsGroup receiver
      · -- Here the runs may differ: one of them may find that it has to wait for documents.
        have hreceiver := o.ne_of_isGroup (Bool.and_eq_true_iff.mp hgroup).1
        exact o.strays h
          (strays_tell query (o.able h.left hu) o.elsewhere hreceiver hquestion hgroup hknows)
          (strays_tell query (o.able h.right hu') o.elsewhere hreceiver hquestion hgroup
            (h.knowsGroup_iff.mp hknows))
      · rw [attempt_tell_of_user query g receiver command hu,
          attempt_tell_of_user query g receiver command hu', if_pos hgroup, if_pos hgroup]
        have hunknown : ¬c₁.draw.KnowsGroup receiver := fun hg => hknows ⟨hg.card, hg.roster⟩
        refine (o.checkGroup (o.draw h) hquery hunknown).bind ?_
        rintro _ _ c₃ c₄ ⟨rfl, rfl⟩ h
        exact .ok h trivial
    · rw [attempt_tell_of_user query g receiver command hu,
        attempt_tell_of_user query g receiver command hu', if_neg hgroup, if_neg hgroup]
      exact o.sendDrawn h (h.alike_next user.id receiver (.command command) (some g)) rfl rfl .normal

theorem askAssistants {query : Entity → Action τ MessengerError Bool}
    (hquery : ∀ {g c₃ c₄}, Abreast c last who group c₃ c₄ →
      Paired (Abreast c last who group) Whatever (attempt (query g) c₃) (attempt (query g) c₄))
    (g : Entity) {command : Command} (hquestion : command.isQuestion = true)
    (bots : List Entity) :
    Paired (Abreast c last who group) Whatever (attempt (askAssistants query g command bots) c₁)
      (attempt (askAssistants query g command bots) c₂) := by
  induction bots generalizing c₁ c₂ with
  | nil => exact .ok h trivial
  | cons bot rest ih =>
    rw [askAssistants_cons]
    exact (o.tell h hquery g bot hquestion).bind fun _ h => ih h

theorem queryMembersWithin (chain : Nat) (g : Entity) :
    Paired (Abreast c last who group) Whatever (attempt (queryMembersWithin chain g) c₁)
      (attempt (queryMembersWithin chain g) c₂) := by
  induction chain generalizing g c₁ c₂ with
  | zero => exact .ok h trivial
  | succ chain ih =>
    refine (h.requestQuery (by nofun)).bind ?_
    rintro granted _ c₃ c₄ rfl h
    cases granted with
    | false => exact .ok h trivial
    | true =>
      rw [if_pos rfl, attempt_bind, attempt_bind, attempt_get, attempt_get]
      dsimp only
      rw [← h.same.assistants g, ← h.same.recent]
      split
      · exact .ok h trivial
      · refine (o.askAssistants h (fun h => ih h _) g rfl _).bind fun _ h => ?_
        exact .ok h trivial

theorem queryMembers (g : Entity) : Paired (Abreast c last who group) Whatever
    (attempt (queryMembers g) c₁) (attempt (queryMembers g) c₂) := by
  have hchain : c₂.longestChain = c₁.longestChain := by
    rw [longestChain, ← h.same.helpers, longestChain]
  rw [Client.queryMembers, attempt_bind, attempt_bind, attempt_get, attempt_get]
  dsimp only
  rw [hchain]
  exact o.queryMembersWithin h _ g

end Onlooker

end Courier.Client
