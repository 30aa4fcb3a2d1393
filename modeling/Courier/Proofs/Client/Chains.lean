import Courier.Proofs.Client.Readiness

/-!
# Chains of assistants

An assistant of a group may itself be a group whose roster is missing, and then asking for the one
roster leads to asking for the other. Here sending is an errand without any bound on such chains,
which may lead on for ever. While cooldowns last, it does not: a group whose assistants are asked is
cooling down before they are, until the errand is over, so that every group among the assistants is
asked on behalf of at most once. The errand ends as sending does.
-/

namespace Courier

/-- The group whose roster a letter asks for, if it does. -/
def Letter.rosterAsked? (l : Letter) : Option Entity :=
  match l.message.content.command? with
  | some (.group (.query group _)) => some group
  | _ => none

/-- Who is asked for the roster of the group, in turn. -/
def rosterQueries (group : Entity) (ls : List Letter) : List Entity :=
  (ls.filter (·.rosterAsked? = some group)).map (·.message.receiver)

theorem rosterQueries_append (group : Entity) (ls ls' : List Letter) :
    rosterQueries group (ls ++ ls') = rosterQueries group ls ++ rosterQueries group ls' := by
  rw [rosterQueries, List.filter_append, List.map_append, rosterQueries, rosterQueries]

theorem rosterQueries_singleton (group : Entity) (l : Letter) :
    rosterQueries group [l] =
      if l.rosterAsked? = some group then [l.message.receiver] else [] := by
  rw [rosterQueries, List.filter_cons]
  by_cases h : l.rosterAsked? = some group
  · rw [if_pos h, if_pos (decide_eq_true h)]
    rfl
  · rw [if_neg h, if_neg (by simpa using h)]
    rfl

theorem rosterQueries_of_none {group : Entity} {ls : List Letter}
    (h : ∀ l ∈ ls, l.rosterAsked? = none) : rosterQueries group ls = [] := by
  rw [rosterQueries, List.map_eq_nil_iff, List.filter_eq_nil_iff]
  intro l hl
  simp [h l hl]

namespace Client

variable {τ : Type} {α β : Type}

/-- The member query of a group is asked for, and is let through unless the group cools down. -/
structure Entry where
  group : Entity
  granted : Bool
  deriving DecidableEq

/-- The groups whose member queries were let through. -/
def letThrough (es : List Entry) : List Entity :=
  (es.filter (·.granted)).map (·.group)

theorem letThrough_append (es es' : List Entry) :
    letThrough (es ++ es') = letThrough es ++ letThrough es' := by
  rw [letThrough, List.filter_append, List.map_append, letThrough, letThrough]

theorem letThrough_cons (e : Entry) (es : List Entry) :
    letThrough (e :: es) = if e.granted then e.group :: letThrough es else letThrough es := by
  rw [letThrough, List.filter_cons]
  split <;> rfl

/-! ### Errands -/

/-- A client, and the member queries that were asked for so far. -/
structure Trip (τ : Type) where
  client : Client τ
  entries : List Entry

/-- An action that may lead on for ever, and then comes to nothing. -/
abbrev Errand (τ α : Type) := ExceptT MessengerError (StateT (Trip τ) Option) α

namespace Errand

/-- How an errand ends, if it does, and the trip so far. -/
def outcome (e : Errand τ α) (t : Trip τ) : Option (Except MessengerError α × Trip τ) :=
  e.run.run t

/-- Does something that ends on its own. -/
def briefly (a : Action τ MessengerError α) : Errand τ α :=
  ExceptT.mk fun t => some ((attempt a t.client).1, { t with client := (attempt a t.client).2 })

def enter (group : Entity) (granted : Bool) : Errand τ PUnit :=
  modify fun t => { t with entries := t.entries ++ [⟨group, granted⟩] }

/-- What sending calls. The calls lead to each other without end if a cooldown is over as soon as
it starts. -/
inductive Call : Type → Type 1 where
  | sendContent (sender : Option Entity) (receiver : Entity) (content : Content)
      (priority : Priority) : Call (Option MessageRef)
  | checkGroup (group : Entity) : Call Bool
  | queryMembers (group : Entity) : Call Bool
  | askAssistants (group : Entity) (command : Command) (bots : List Entity) : Call Unit

def Call.errand {τ : Type} : {α : Type} → Call α → Errand τ α
  | _, .sendContent sender receiver content priority => do
    let sender ← briefly (senderOr sender)
    if receiver.isGroup && !receiver.isBroadcast then
      if ← checkGroup receiver |>.errand then
        briefly (sendInstant (Message.new sender receiver content) priority)
      else return none
    else briefly (sendInstant (Message.new sender receiver content) priority)
  | _, .checkGroup group => do
    let c ← briefly get
    let d := c.account.directory
    if Freshness.needsCard group (d.card? group) then
      let _ ← briefly (queryCard group)
      return false
    else if c.account.freshness.needsMembers group (some (d.members group)) none then
      let _ ← queryMembers group |>.errand
      return false
    else
      let waiting := (d.members group).filter fun m => !d.hasEncryptionKey m
      briefly (queryDocuments waiting)
      return waiting.isEmpty
  | _, .queryMembers group => do
    let granted ← briefly (requestQuery ⟨group, .members⟩)
    enter group granted
    if granted then
      let c ← briefly get
      let bots := c.account.directory.assistants group
      if bots.isEmpty then return false
      else
        let held := c.account.freshness.recent.latest? ⟨group, .history⟩
        askAssistants group (.group (.query group held)) bots |>.errand
        return true
    else return false
  | _, .askAssistants _ _ [] => return
  | _, .askAssistants group command (bot :: rest) => do
    let content ← briefly (newContent (.command command))
    let _ ← sendContent none bot (content.inGroup group) .normal |>.errand
    askAssistants group command rest |>.errand
partial_fixpoint

theorem outcome_bind (e : Errand τ α) (f : α → Errand τ β) (t : Trip τ) :
    outcome (e >>= f) t = (outcome e t).bind fun p =>
      match p with
      | (.ok x, t') => outcome (f x) t'
      | (.error err, t') => some (.error err, t') := by
  simp only [outcome, ExceptT.run_bind, StateT.run_bind]
  change (e.run.run t).bind _ = _
  congr 1
  funext p
  rcases p with ⟨_ | x, t'⟩ <;> rfl

/-- The errand ends as the action does, after member queries were asked for as listed. -/
def Tracks (e : Errand τ α) (a : Action τ MessengerError α) (c : Client τ)
    (es : List Entry) : Prop :=
  ∀ before, e.outcome ⟨c, before⟩ = some ((attempt a c).1, ⟨(attempt a c).2, before ++ es⟩)

namespace Tracks

variable {e : Errand τ α} {f : α → Errand τ β} {a : Action τ MessengerError α}
  {g : α → Action τ MessengerError β} {c c' : Client τ} {es es' : List Entry}

theorem briefly (a : Action τ MessengerError α) (c : Client τ) :
    Tracks (Errand.briefly a) a c [] := by
  intro before
  rw [List.append_nil]
  rfl

theorem pure (x : α) (c : Client τ) :
    Tracks (Pure.pure x : Errand τ α) (Pure.pure x) c [] := by
  intro before
  rw [List.append_nil]
  rfl

theorem bind_ok {x : α} (h : Tracks e a c es) (ha : attempt a c = (.ok x, c'))
    (hf : Tracks (f x) (g x) c' es') : Tracks (e >>= f) (a >>= g) c (es ++ es') := by
  intro before
  rw [outcome_bind, h before, attempt_bind, ha, ← List.append_assoc]
  exact hf _

theorem bind_error {err : MessengerError} (h : Tracks e a c es)
    (ha : attempt a c = (.error err, c')) : Tracks (e >>= f) (a >>= g) c es := by
  intro before
  rw [outcome_bind, h before, attempt_bind, ha]
  rfl

theorem briefly_bind {x : α} (ha : attempt a c = (.ok x, c')) (hf : Tracks (f x) (g x) c' es) :
    Tracks (Errand.briefly a >>= f) (a >>= g) c es :=
  (briefly a c).bind_ok ha hf

/-- What comes last tells the caller something and does nothing. -/
theorem andThen (h : Tracks e a c es) (y : β) :
    Tracks (e >>= fun _ => Pure.pure y) (a >>= fun _ => Pure.pure y) c es := by
  rcases ha : attempt a c with ⟨err | x, c'⟩
  · exact h.bind_error ha
  · rw [← List.append_nil es]
    exact h.bind_ok ha (pure y c')

theorem enter_bind {k : PUnit → Errand τ α} (group : Entity) (granted : Bool)
    (hk : Tracks (k ⟨⟩) a c es) :
    Tracks (enter group granted >>= k) a c (⟨group, granted⟩ :: es) := by
  intro before
  rw [outcome_bind, List.append_cons]
  exact hk _

end Tracks

end Errand

/-! ### Cooldowns that last -/

/-- A cooldown that starts now is not over yet. -/
def Lasting (c : Client τ) : Prop :=
  c.account.clock < c.renewal

theorem lasting_of_period {c : Client τ} (hperiod : 0 < c.account.freshness.cooldowns.period)
    (hclock : c.account.clock < Millis.latest) : c.Lasting := by
  rw [UInt64.lt_iff_toNat_lt] at hperiod hclock
  rw [Lasting, renewal, UInt64.lt_iff_toNat_lt, Millis.toNat_later]
  rw [UInt64.toNat_zero] at hperiod
  omega

section Cooling

variable {c c' : Client τ} {key : FreshnessKey}

theorem Armed.lasting (h : Armed c c') (hc : c.Lasting) : c'.Lasting := by
  rw [Lasting, h.clock, h.renewal]
  exact hc

theorem Armed.cooling (h : Armed c c') (hc : c.Cooling key) : c'.Cooling key := by
  rw [cooling_iff, h.clock]
  rcases h.ends key with hsame | ⟨hrest, -⟩
  · rw [hsame]
    exact cooling_iff.mp hc
  · exact absurd hc hrest

theorem cooling_arm (hc : c.Lasting) : (c.arm key).Cooling key := by
  rw [cooling_iff]
  exact ⟨c.renewal, by rw [coolsUntil?_arm, if_pos rfl], hc⟩

/-- How many groups have assistants that may still be asked. -/
def unasked (c : Client τ) : Nat :=
  c.account.directory.helpers.entries.countP fun p => !decide (c.Cooling ⟨p.1, .members⟩)

theorem Armed.unasked_le (h : Armed c c')
    (hdirectory : c'.account.directory = c.account.directory) : c'.unasked ≤ c.unasked := by
  rw [unasked, hdirectory, unasked]
  refine List.countP_mono_left fun p _ hp => ?_
  simp only [Bool.not_eq_eq_eq_not, Bool.not_true, decide_eq_false_iff_not] at hp ⊢
  exact fun hcooling => hp (h.cooling hcooling)

/-- A group whose assistants are asked is none of those that may still be asked. -/
theorem unasked_arm_lt {group : Entity} (hc : c.Lasting) (hrest : ¬c.Cooling ⟨group, .members⟩)
    (hbots : c.account.directory.assistants group ≠ []) :
    (c.arm ⟨group, .members⟩).unasked < c.unasked := by
  obtain ⟨p, hp, hkey⟩ : ∃ p ∈ c.account.directory.helpers.entries, p.1 = group := by
    cases hfind : c.account.directory.helpers.entries.find? (·.1 = group) with
    | none =>
      refine absurd ?_ hbots
      rw [Directory.assistants, Directory.assistants?, Table.get?, hfind]
      rfl
    | some p => exact ⟨p, List.mem_of_find?_eq_some hfind, by simpa using List.find?_some hfind⟩
  have hfewer : ∀ p : Entity × List Entity,
      (!decide ((c.arm ⟨group, .members⟩).Cooling ⟨p.1, .members⟩)) =
        ((!decide ((c.arm ⟨group, .members⟩).Cooling ⟨p.1, .members⟩)) &&
          !decide (c.Cooling ⟨p.1, .members⟩)) := by
    intro p
    by_cases hp : c.Cooling ⟨p.1, .members⟩
    · simp [hp, (armed_arm hrest).cooling hp]
    · simp [hp]
  rw [unasked, unasked, List.countP_eq_length_filter, List.countP_eq_length_filter,
    List.filter_congr fun p _ => hfewer p, ← List.filter_filter]
  refine List.length_filter_lt_length_iff_exists.mpr ⟨p, ?_, ?_⟩
  · rw [List.mem_filter, hkey]
    exact ⟨hp, by simpa using hrest⟩
  · rw [hkey]
    simpa using cooling_arm hc

end Cooling

/-! ### What was asked on the way -/

/-- Between the two moments a group was left alone, or its assistants were asked for the roster,
each once for a place among them at most. -/
inductive AskedOnce (c c' : Client τ) (g : Entity) (es : List Entry) (ls : List Letter) : Prop where
  | never (hes : g ∉ letThrough es) (hls : rosterQueries g ls = [])
  | once (hrest : ¬c.Cooling ⟨g, .members⟩) (hcooling : c'.Cooling ⟨g, .members⟩)
    (hes : (letThrough es).count g = 1)
    (hls : (rosterQueries g ls).Sublist (c.account.directory.assistants g))

/-- How many assistants the groups have whose member queries were let through. -/
def places (c : Client τ) (es : List Entry) : Nat :=
  ((letThrough es).flatMap c.account.directory.assistants).length

theorem places_append (c : Client τ) (es es' : List Entry) :
    c.places (es ++ es') = c.places es + c.places es' := by
  rw [places, letThrough_append, List.flatMap_append, List.length_append, places, places]

namespace AskedOnce

variable {c c₁ c₂ : Client τ} {g : Entity} {es es' : List Entry} {ls ls' : List Letter}

theorem trans (h : AskedOnce c c₁ g es ls) (h' : AskedOnce c₁ c₂ g es' ls') (harmed : Armed c c₁)
    (harmed' : Armed c₁ c₂) (hdirectory : c₁.account.directory = c.account.directory) :
    AskedOnce c c₂ g (es ++ es') (ls ++ ls') := by
  cases h with
  | never hes hls =>
    cases h' with
    | never hes' hls' =>
      refine .never ?_ (by rw [rosterQueries_append, hls, hls']; rfl)
      rw [letThrough_append, List.mem_append]
      exact not_or.mpr ⟨hes, hes'⟩
    | once hrest hcooling hes' hls' =>
      refine .once (fun hc => hrest (harmed.cooling hc)) hcooling ?_ ?_
      · rw [letThrough_append, List.count_append, List.count_eq_zero.mpr hes, hes']
      · rw [rosterQueries_append, hls, ← hdirectory]
        exact hls'
  | once hrest hcooling hes hls =>
    cases h' with
    | never hes' hls' =>
      refine .once hrest (harmed'.cooling hcooling) ?_ ?_
      · rw [letThrough_append, List.count_append, List.count_eq_zero.mpr hes', hes]
      · rw [rosterQueries_append, hls', List.append_nil]
        exact hls
    | once hrest' _ _ _ => exact absurd hcooling hrest'

end AskedOnce

/-- The entries and the letters of a whole errand: every group was asked once at most, and all
entries but the first were on behalf of assistants of a group that was let through. -/
structure Excursion (c c' : Client τ) (es : List Entry) (ls : List Letter) : Prop where
  sent : Sent c c' ls
  armed : Armed c c'
  groups : ∀ g, AskedOnce c c' g es ls
  entries : es.length ≤ 1 + c.places es

/-- What is done while the assistants of a group are asked, which is cooling down already. -/
structure Inside (g : Entity) (bots : List Entity) (c c' : Client τ) (es : List Entry)
    (ls : List Letter) : Prop where
  sent : Sent c c' ls
  armed : Armed c c'
  own : g ∉ letThrough es ∧ (rosterQueries g ls).Sublist bots
  others : ∀ h, h ≠ g → AskedOnce c c' h es ls
  entries : es.length ≤ bots.length + c.places es

/-- Letters that ask for no roster were sent between the two moments. -/
def Discreet (c c' : Client τ) : Prop :=
  Armed c c' ∧ ∃ ls, Sent c c' ls ∧ ∀ l ∈ ls, l.rosterAsked? = none

theorem composes_discreet : Composes (Discreet : Client τ → Client τ → Prop) where
  refl c := ⟨composes_armed.refl c, [], .refl c, List.forall_mem_nil _⟩
  trans := by
    rintro a b c ⟨harmed, ls, hsent, hls⟩ ⟨harmed', ls', hsent', hls'⟩
    refine ⟨composes_armed.trans harmed harmed', ls ++ ls', hsent.trans hsent', fun l hl => ?_⟩
    rcases List.mem_append.mp hl with hl | hl
    · exact hls l hl
    · exact hls' l hl

theorem discreet_requestQuery (key : FreshnessKey) :
    Keeps Discreet (requestQuery key : Action τ MessengerError Bool) :=
  fun c => ⟨keptBySending_armed.requestQuery key c, [], sent_requestQuery key c,
    List.forall_mem_nil _⟩

theorem discreet_announce (receiver : Entity) {command : Command}
    (h : ∀ g held, command ≠ .group (.query g held)) :
    Keeps Discreet (announce receiver command .normal : Action τ MessengerError _) := by
  intro c
  refine ⟨keptBySending_armed.announce receiver command .normal c, ?_⟩
  cases hu : c.account.user with
  | none =>
    rw [Query.attempt_announce_of_nobody hu]
    exact ⟨[], sent_draw c, List.forall_mem_nil _⟩
  | some user =>
    let m := Message.new user.id receiver (c.nextContent (.command command))
    rw [attempt_announce_of_user hu, attempt_sendInstant]
    cases hb : c.draw.account.codec.encode m with
    | error e => exact ⟨[], sent_draw c, List.forall_mem_nil _⟩
    | ok b =>
      refine ⟨[⟨m, b⟩], (Sent.refl c.draw).letter rfl hb, fun l hl => ?_⟩
      rw [List.mem_singleton.mp hl]
      change (match some command with
        | some (.group (.query group _)) => some group
        | _ => none) = none
      split
      · rename_i g held heq
        exact absurd (Option.some.inj heq) (h g held)
      · rfl

theorem discreet_queryCard (id : Entity) : Keeps Discreet (queryCard id : Action τ _ Bool) := by
  refine Keeps.bind composes_discreet (discreet_requestQuery _) fun granted => ?_
  cases granted with
  | false => exact Keeps.pure composes_discreet _
  | true =>
    exact Keeps.bind composes_discreet (discreet_announce _ nofun) fun _ =>
      Keeps.pure composes_discreet _

theorem discreet_queryDocument (id : Entity) :
    Keeps Discreet (queryDocument id : Action τ _ Bool) := by
  refine Keeps.bind composes_discreet (discreet_requestQuery _) fun granted => ?_
  cases granted with
  | false => exact Keeps.pure composes_discreet _
  | true =>
    refine Keeps.bind composes_discreet (Keeps.directory composes_discreet) fun d => ?_
    exact Keeps.bind composes_discreet (discreet_announce _ nofun) fun _ =>
      Keeps.pure composes_discreet _

theorem discreet_queryDocuments (ids : List Entity) :
    Keeps Discreet (queryDocuments ids : Action τ _ Unit) := by
  induction ids with
  | nil => exact Keeps.pure composes_discreet _
  | cons id rest ih => exact Keeps.bind composes_discreet (discreet_queryDocument id) fun _ => ih

theorem Discreet.excursion {c c' : Client τ} (h : Discreet c c') : ∃ ls, Excursion c c' [] ls := by
  obtain ⟨harmed, ls, hsent, hls⟩ := h
  refine ⟨ls, hsent, harmed, fun g => .never List.not_mem_nil (rosterQueries_of_none hls), ?_⟩
  exact Nat.zero_le _

namespace Inside

variable {c c₁ c₂ : Client τ} {g : Entity} {bots bots' : List Entity} {es es' : List Entry}
  {ls ls' : List Letter}

theorem nothing (g : Entity) (c : Client τ) : Inside g [] c c [] [] where
  sent := .refl c
  armed := composes_armed.refl c
  own := ⟨List.not_mem_nil, List.Sublist.refl _⟩
  others _ _ := .never List.not_mem_nil rfl
  entries := Nat.zero_le _

theorem trans (h : Inside g bots c c₁ es ls) (h' : Inside g bots' c₁ c₂ es' ls') :
    Inside g (bots ++ bots') c c₂ (es ++ es') (ls ++ ls') := by
  have hdirectory : c₁.account.directory = c.account.directory := h.sent.fields.2.2.2
  refine ⟨h.sent.trans h'.sent, composes_armed.trans h.armed h'.armed, ⟨?_, ?_⟩, ?_, ?_⟩
  · rw [letThrough_append, List.mem_append]
    exact not_or.mpr ⟨h.own.1, h'.own.1⟩
  · rw [rosterQueries_append]
    exact h.own.2.append h'.own.2
  · exact fun k hk => (h.others k hk).trans (h'.others k hk) h.armed h'.armed hdirectory
  · have hentries := h.entries
    have hentries' := h'.entries
    rw [places, hdirectory, ← places] at hentries'
    rw [places_append, List.length_append, List.length_append]
    omega

/-- Not everyone has to be asked. -/
theorem mono (h : Inside g bots c c₁ es ls) (hbots : bots.Sublist bots') :
    Inside g bots' c c₁ es ls :=
  ⟨h.sent, h.armed, ⟨h.own.1, h.own.2.trans hbots⟩, h.others,
    Nat.le_trans h.entries (Nat.add_le_add_right hbots.length_le _)⟩

/-- The member query of a group is let through, and its assistants are asked. -/
theorem excursion (h : Inside g (c.account.directory.assistants g) (c.arm ⟨g, .members⟩) c₂ es ls)
    (hc : c.Lasting) (hrest : ¬c.Cooling ⟨g, .members⟩) : Excursion c c₂ (⟨g, true⟩ :: es) ls := by
  have harm : Armed c (c.arm ⟨g, .members⟩) := armed_arm hrest
  have hsent : Sent c (c.arm ⟨g, .members⟩) [] :=
    .nothing ⟨_, rfl⟩ rfl rfl (Nat.le_refl _)
  refine ⟨hsent.trans h.sent, composes_armed.trans harm h.armed, fun k => ?_, ?_⟩
  · by_cases hk : k = g
    · subst hk
      refine .once hrest (h.armed.cooling (cooling_arm hc)) ?_ h.own.2
      rw [letThrough_cons, if_pos rfl, List.count_cons_self, List.count_eq_zero.mpr h.own.1]
    · cases h.others k hk with
      | never hes hls =>
        refine .never ?_ hls
        rw [letThrough_cons, if_pos rfl, List.mem_cons]
        exact not_or.mpr ⟨hk, hes⟩
      | once hrest' hcooling hes hls =>
        refine .once (fun hcools => hrest' (harm.cooling hcools)) hcooling ?_ hls
        rw [letThrough_cons, if_pos rfl, List.count_cons_of_ne (Ne.symm hk)]
        exact hes
  · have hentries := h.entries
    have hplaces : c.places (⟨g, true⟩ :: es) =
        (c.account.directory.assistants g).length + (c.arm ⟨g, .members⟩).places es := by
      rw [places, letThrough_cons, if_pos rfl, List.flatMap_cons, List.length_append]
      rfl
    rw [List.length_cons, hplaces]
    omega

end Inside

namespace Excursion

variable {c c₁ : Client τ} {g bot : Entity} {es : List Entry} {ls : List Letter}

theorem nothing (c : Client τ) : Excursion c c [] [] where
  sent := .refl c
  armed := composes_armed.refl c
  groups _ := .never List.not_mem_nil rfl
  entries := Nat.zero_le _

theorem refused (g : Entity) (c : Client τ) : Excursion c c [⟨g, false⟩] [] where
  sent := .refl c
  armed := composes_armed.refl c
  groups _ := .never List.not_mem_nil rfl
  entries := Nat.le_refl _

/-- Nothing is asked on behalf of a group that is cooling down, by anyone else. -/
theorem inside (h : Excursion c.draw c₁ es ls) (hcooling : c.Cooling ⟨g, .members⟩) :
    Inside g [bot] c c₁ es ls := by
  have hdraw : Armed c c.draw := armed_of_freshness rfl rfl
  refine ⟨h.sent.of_draw, composes_armed.trans hdraw h.armed, ?_, fun k _ => ?_, h.entries⟩
  · cases h.groups g with
    | never hes hls => exact ⟨hes, hls ▸ List.nil_sublist _⟩
    | once hrest _ _ _ => exact absurd hcooling hrest
  · exact (AskedOnce.never List.not_mem_nil rfl : AskedOnce c c.draw k [] []).trans (h.groups k)
      hdraw h.armed rfl

end Excursion

/-- Besides, an assistant of the group is sent a message. -/
theorem Inside.letter {c c₁ : Client τ} {g bot : Entity} {es : List Entry} {ls : List Letter}
    {m : Message} {b : Bytes} (h : Excursion c.draw c₁ es ls) (hcooling : c.Cooling ⟨g, .members⟩)
    (hserial : m.content.serial = c.account.serials c.account.drawn)
    (hb : c.account.codec.encode m = .ok b) (hreceiver : m.receiver = bot)
    (hasks : (Letter.mk m b).rosterAsked? = some g) :
    Inside g [bot] c (c₁.submitted ⟨m, b⟩ .normal) es (ls ++ [⟨m, b⟩]) := by
  have hinside : Inside g [bot] c c₁ es ls := h.inside hcooling
  obtain ⟨haccount, -, -⟩ := c₁.submitted_fields ⟨m, b⟩ .normal
  have hposted : Armed c₁ (c₁.submitted ⟨m, b⟩ .normal) :=
    armed_of_freshness (by rw [haccount]) (by rw [haccount])
  have hothers (k : Entity) (hk : k ≠ g) : rosterQueries k [⟨m, b⟩] = [] := by
    rw [rosterQueries_singleton, hasks, if_neg]
    exact fun heq => hk (Option.some.inj heq).symm
  refine ⟨h.sent.letter hserial hb, composes_armed.trans hinside.armed hposted,
    ⟨hinside.own.1, ?_⟩, fun k hk => ?_, hinside.entries⟩
  · have hnone : rosterQueries g ls = [] := by
      cases h.groups g with
      | never _ hls => exact hls
      | once hrest _ _ _ => exact absurd hcooling hrest
    rw [rosterQueries_append, hnone, rosterQueries_singleton, hasks, if_pos rfl, hreceiver]
    exact List.Sublist.refl _
  · rw [← List.append_nil es]
    exact (hinside.others k hk).trans (.never List.not_mem_nil (hothers k hk)) hinside.armed
      hposted h.sent.of_draw.fields.2.2.2

/-- On an errand every group is let through at most once, and then every place among its assistants
leads to at most one letter and to at most one further entry. -/
structure Moderate (c : Client τ) (es : List Entry) (ls : List Letter) : Prop where
  once : (letThrough es).Nodup
  rested : ∀ g ∈ letThrough es, ¬c.Cooling ⟨g, .members⟩
  queries : ∀ g, (rosterQueries g ls).Sublist (c.account.directory.assistants g)
  entries : es.length ≤ 1 + c.places es

theorem Excursion.moderate {c c' : Client τ} {es : List Entry} {ls : List Letter}
    (h : Excursion c c' es ls) : Moderate c es ls where
  once := by
    rw [List.nodup_iff_count]
    intro g
    cases h.groups g with
    | never hes _ => exact List.count_eq_zero.mpr hes ▸ Nat.zero_le 1
    | once _ _ hes _ => exact Nat.le_of_eq hes
  rested g hg := by
    cases h.groups g with
    | never hes _ => exact absurd hg hes
    | once hrest _ _ _ => exact hrest
  queries g := by
    cases h.groups g with
    | never _ hls => exact hls ▸ List.nil_sublist _
    | once _ _ _ hls => exact hls
  entries := h.entries

/-! ### Errands that end -/

namespace Errand

/-- The errand ends as the action does, and asks every group at most once. -/
def Settles (e : Errand τ α) (a : Action τ MessengerError α) (c : Client τ) : Prop :=
  ∃ es ls, Tracks e a c es ∧ Excursion c (attempt a c).2 es ls

/-- Cooldowns last, and less than `n` groups have assistants that may still be asked. -/
structure Roomy (n : Nat) (c : Client τ) : Prop where
  lasting : c.Lasting
  room : c.unasked < n

variable {n : Nat} {c c' : Client τ}

theorem Roomy.of_sent {ls : List Letter} (h : Roomy n c) (harmed : Armed c c')
    (hsent : Sent c c' ls) : Roomy n c' where
  lasting := harmed.lasting h.lasting
  room := Nat.lt_of_le_of_lt (harmed.unasked_le hsent.fields.2.2.2) h.room

theorem roomy_longestChain (hc : c.Lasting) : Roomy c.longestChain c where
  lasting := hc
  room := Nat.lt_succ_of_le List.countP_le_length

theorem settles_briefly {a : Action τ MessengerError α} (hdiscreet : Keeps Discreet a)
    (c : Client τ) : Settles (briefly a) a c := by
  obtain ⟨ls, hexcursion⟩ := (hdiscreet c).excursion
  exact ⟨[], ls, .briefly a c, hexcursion⟩

theorem attempt_andThen (a : Action τ MessengerError α) (y : β) (c : Client τ) :
    (attempt (a >>= fun _ => pure y) c).2 = (attempt a c).2 := by
  rw [attempt_bind]
  rcases attempt a c with ⟨e | x, c'⟩ <;> rfl

theorem Settles.andThen {e : Errand τ α} {a : Action τ MessengerError α} (h : Settles e a c)
    (y : β) : Settles (e >>= fun _ => pure y) (a >>= fun _ => pure y) c := by
  obtain ⟨es, ls, htracks, hexcursion⟩ := h
  exact ⟨es, ls, htracks.andThen y, (attempt_andThen a y c).symm ▸ hexcursion⟩

theorem Settles.get_bind {f : Client τ → Errand τ β} {g : Client τ → Action τ MessengerError β}
    (h : Settles (f c) (g c) c) : Settles (briefly get >>= f) (get >>= g) c := by
  obtain ⟨es, ls, htracks, hexcursion⟩ := h
  exact ⟨es, ls, htracks.briefly_bind rfl, hexcursion⟩

/-- In the end the message was sent, unless something came in between. -/
def Posted (c c' : Client τ) (m : Message) (priority : Priority) : Prop :=
  c' = c ∨ ∃ b, c.account.codec.encode m = .ok b ∧ c' = c.submitted ⟨m, b⟩ priority

theorem posted_sendInstant (m : Message) (priority : Priority) (c : Client τ) :
    Posted c (attempt (sendInstant m priority) c).2 m priority := by
  rw [attempt_sendInstant]
  cases hb : c.account.codec.encode m with
  | error e => exact .inl rfl
  | ok b => exact .inr ⟨b, hb, rfl⟩

theorem senderOr_cases (sender : Option Entity) (c : Client τ) :
    (∃ who, attempt (senderOr sender) c = (.ok who, c)) ∨
      ∃ e, attempt (senderOr sender) c = (.error e, c) := by
  cases sender with
  | some who => exact .inl ⟨who, rfl⟩
  | none =>
    rw [attempt_senderOr_none]
    cases c.account.user with
    | none => exact .inr ⟨_, rfl⟩
    | some user => exact .inl ⟨_, rfl⟩

section Query

variable {query : Entity → Action τ MessengerError Bool}

theorem settles_checkGroup (group : Entity)
    (hquery : Settles (Call.queryMembers group).errand (query group) c) :
    Settles (Call.checkGroup group).errand (Client.checkGroup query group) c := by
  rw [Call.errand, Client.checkGroup]
  refine Settles.get_bind ?_
  dsimp only
  split
  · exact (settles_briefly (discreet_queryCard group) c).andThen false
  · split
    · exact hquery.andThen false
    · exact (settles_briefly (discreet_queryDocuments _) c).andThen _

/-- What is asked on the way to sending a message, and then the message itself. -/
theorem settles_sendContent {receiver : Entity}
    (hcheck : Settles (Call.checkGroup receiver).errand (Client.checkGroup query receiver) c)
    (sender : Option Entity) (content : Content) (priority : Priority) :
    ∃ es ls c₁, Tracks (Call.sendContent sender receiver content priority).errand
        (sendContentBy query sender receiver content priority) c es ∧ Excursion c c₁ es ls ∧
      ((attempt (sendContentBy query sender receiver content priority) c).2 = c₁ ∨
        ∃ who, attempt (senderOr sender) c = (.ok who, c) ∧
          Posted c₁ (attempt (sendContentBy query sender receiver content priority) c).2
            (Message.new who receiver content) priority) := by
  rw [Call.errand, sendContentBy, attempt_bind]
  rcases senderOr_cases sender c with ⟨who, hwho⟩ | ⟨e, hnobody⟩
  · let m := Message.new who receiver content
    rw [hwho]
    dsimp only
    by_cases hnarrow : (receiver.isGroup && !receiver.isBroadcast) = true
    · obtain ⟨es, ls, htracks, hexcursion⟩ := hcheck
      rw [if_pos hnarrow, attempt_bind]
      rcases hready : attempt (Client.checkGroup query receiver) c with ⟨e | ready, c₁⟩
      · rw [hready] at hexcursion
        refine ⟨es, ls, c₁, .briefly_bind hwho ?_, hexcursion, .inl rfl⟩
        rw [if_pos hnarrow, if_pos hnarrow]
        exact htracks.bind_error hready
      · rw [hready] at hexcursion
        dsimp only
        refine ⟨es, ls, c₁, .briefly_bind hwho ?_, hexcursion, ?_⟩
        · rw [if_pos hnarrow, if_pos hnarrow, ← List.append_nil es]
          refine htracks.bind_ok hready ?_
          cases ready with
          | false => exact .pure none c₁
          | true => exact .briefly (sendInstant m priority) c₁
        · cases ready with
          | false => exact .inl rfl
          | true => exact .inr ⟨who, rfl, posted_sendInstant m priority c₁⟩
    · refine ⟨[], [], c, .briefly_bind hwho ?_, .nothing c, .inr ⟨who, rfl, ?_⟩⟩
      · rw [if_neg hnarrow, if_neg hnarrow]
        exact .briefly (sendInstant m priority) c
      · rw [if_neg hnarrow]
        exact posted_sendInstant m priority c
  · rw [hnobody]
    exact ⟨[], [], c, (Tracks.briefly _ c).bind_error hnobody, .nothing c, .inl rfl⟩

/-- An assistant of a group is asked, and others on behalf of groups that do not cool down yet. -/
theorem inside_sendContent (hquery : ∀ g c', Roomy n c' → Settles (Call.queryMembers g).errand (query g) c')
    (group bot : Entity) (held : Option Millis) (hroomy : Roomy n c)
    (hcooling : c.Cooling ⟨group, .members⟩) :
    let content := (c.nextContent (.command (.group (.query group held)))).inGroup group
    ∃ es ls, Tracks (Call.sendContent none bot content .normal).errand
        (sendContentBy query none bot content .normal) c.draw es ∧
      Inside group [bot] c (attempt (sendContentBy query none bot content .normal) c.draw).2
        es ls := by
  intro content
  have hdraw : Roomy n c.draw := hroomy.of_sent (armed_of_freshness rfl rfl) (sent_draw c)
  obtain ⟨es, ls, c₁, htracks, hexcursion, hend⟩ :=
    settles_sendContent (settles_checkGroup bot (hquery bot c.draw hdraw)) none content .normal
  have hcodec : c₁.account.codec = c.account.codec := hexcursion.sent.fields.2.2.1
  rcases hend with hend | ⟨who, -, hend | ⟨b, hb, hend⟩⟩
  · exact ⟨es, ls, htracks, hend ▸ hexcursion.inside hcooling⟩
  · exact ⟨es, ls, htracks, hend ▸ hexcursion.inside hcooling⟩
  · refine ⟨es, ls ++ [⟨Message.new who bot content, b⟩], htracks, hend ▸ ?_⟩
    exact .letter hexcursion hcooling rfl (hcodec ▸ hb) rfl rfl

/-- By induction on the assistants that are still to be asked. -/
theorem inside_askAssistants (hquery : ∀ g c', Roomy n c' → Settles (Call.queryMembers g).errand (query g) c')
    (group : Entity) (held : Option Millis) (bots : List Entity) (hroomy : Roomy n c)
    (hcooling : c.Cooling ⟨group, .members⟩) :
    let command := Command.group (.query group held)
    ∃ es ls, Tracks (Call.askAssistants group command bots).errand
        (Client.askAssistants query group command bots) c es ∧
      Inside group bots c (attempt (Client.askAssistants query group command bots) c).2 es ls := by
  intro command
  induction bots generalizing c with
  | nil =>
    rw [Call.errand, Client.askAssistants]
    exact ⟨[], [], .pure () c, .nothing group c⟩
  | cons bot rest ih =>
    let content := (c.nextContent (.command command)).inGroup group
    obtain ⟨es, ls, htracks, hinside⟩ :=
      inside_sendContent hquery group bot held hroomy hcooling
    rw [Call.errand, Client.askAssistants, attempt_bind, attempt_newContent]
    dsimp only
    rw [attempt_bind]
    rcases hasked : attempt (sendContentBy query none bot content .normal) c.draw with
      ⟨e | x, c₁⟩
    · rw [hasked] at hinside
      refine ⟨es, ls, .briefly_bind rfl (htracks.bind_error hasked), ?_⟩
      exact hinside.mono ((List.nil_sublist rest).cons_cons bot)
    · rw [hasked] at hinside
      obtain ⟨es', ls', htracks', hinside'⟩ :=
        ih (hroomy.of_sent hinside.armed hinside.sent) (hinside.armed.cooling hcooling)
      refine ⟨es ++ es', ls ++ ls', .briefly_bind rfl (htracks.bind_ok hasked htracks'), ?_⟩
      exact hinside.trans hinside'

end Query

theorem settles_queryMembers_of_cooling (chain : Nat) {group : Entity}
    (h : c.Cooling ⟨group, .members⟩) :
    Settles (Call.queryMembers group).errand (queryMembersWithin (chain + 1) group) c := by
  have hrefused := attempt_requestQuery_of_cooling (ε := MessengerError) h
  refine ⟨[⟨group, false⟩], [], ?_, ?_⟩
  · rw [Call.errand, queryMembersWithin]
    exact .briefly_bind hrefused (.enter_bind group false (.pure false c))
  · rw [queryMembersWithin, attempt_bind, hrefused]
    exact .refused group c

/-- A group without assistants is let through all the same. -/
theorem settles_queryMembers_of_empty (chain : Nat) {group : Entity} (hc : c.Lasting)
    (h : ¬c.Cooling ⟨group, .members⟩) (hempty : c.account.directory.assistants group = []) :
    Settles (Call.queryMembers group).errand (queryMembersWithin (chain + 1) group) c := by
  let c₁ := c.arm ⟨group, .members⟩
  have hgranted := attempt_requestQuery_of_not_cooling (ε := MessengerError) h
  have hnone : (c₁.account.directory.assistants group).isEmpty = true :=
    List.isEmpty_iff.mpr hempty
  have hinside : Inside group (c.account.directory.assistants group) c₁ c₁ [] [] :=
    (Inside.nothing group c₁).mono (List.nil_sublist _)
  refine ⟨[⟨group, true⟩], [], ?_, ?_⟩
  · rw [Call.errand, queryMembersWithin]
    refine .briefly_bind hgranted (.enter_bind group true (.briefly_bind rfl ?_))
    dsimp only
    rw [if_pos hnone, if_pos hnone]
    exact .pure false c₁
  · rw [queryMembersWithin, attempt_bind, hgranted]
    dsimp only
    rw [if_pos rfl, attempt_bind, attempt_get]
    dsimp only
    rw [if_pos hnone]
    exact hinside.excursion hc h

/-- The group is cooling down before its assistants are asked, so that fewer groups are left that
may lead further. -/
theorem settles_queryMembers_of_assistants {chain : Nat} {group : Entity}
    (hquery : ∀ (g : Entity) (c' : Client τ), Roomy chain c' →
      Settles (Call.queryMembers g).errand (queryMembersWithin chain g) c')
    (hroomy : Roomy (chain + 1) c) (h : ¬c.Cooling ⟨group, .members⟩)
    (hbots : c.account.directory.assistants group ≠ []) :
    Settles (Call.queryMembers group).errand (queryMembersWithin (chain + 1) group) c := by
  let c₁ := c.arm ⟨group, .members⟩
  have hgranted := attempt_requestQuery_of_not_cooling (ε := MessengerError) h
  have hsome : ¬(c₁.account.directory.assistants group).isEmpty = true :=
    fun hempty => hbots (List.isEmpty_iff.mp hempty)
  have hroomy₁ : Roomy chain c₁ := by
    refine ⟨(armed_arm h).lasting hroomy.lasting, ?_⟩
    have hfewer : c₁.unasked < c.unasked := unasked_arm_lt hroomy.lasting h hbots
    have hroom := hroomy.room
    omega
  obtain ⟨es, ls, htracks, hinside⟩ := inside_askAssistants hquery group
    (c₁.account.freshness.recent.latest? ⟨group, .history⟩)
    (c₁.account.directory.assistants group) hroomy₁ (cooling_arm hroomy.lasting)
  refine ⟨⟨group, true⟩ :: es, ls, ?_, ?_⟩
  · rw [Call.errand, queryMembersWithin]
    refine .briefly_bind hgranted (.enter_bind group true (.briefly_bind rfl ?_))
    dsimp only
    rw [if_neg hsome, if_neg hsome]
    exact htracks.andThen true
  · rw [queryMembersWithin, attempt_bind, hgranted]
    dsimp only
    rw [if_pos rfl, attempt_bind, attempt_get]
    dsimp only
    rw [if_neg hsome, attempt_andThen]
    exact hinside.excursion hroomy.lasting h

/-- By induction on the length of the chains that are admitted. Each group in a chain is cooling
down before the next one is asked for, so that fewer are left than may follow. -/
theorem settles_queryMembersWithin (chain : Nat) (group : Entity) (hroomy : Roomy chain c) :
    Settles (Call.queryMembers group).errand (queryMembersWithin chain group) c := by
  induction chain generalizing group c with
  | zero => exact absurd hroomy.room (Nat.not_lt_zero _)
  | succ chain ih =>
    by_cases h : c.Cooling ⟨group, .members⟩
    · exact settles_queryMembers_of_cooling chain h
    · by_cases hbots : c.account.directory.assistants group = []
      · exact settles_queryMembers_of_empty chain hroomy.lasting h hbots
      · exact settles_queryMembers_of_assistants (fun g c' => ih g) hroomy h hbots

theorem Settles.of_attempt {e : Errand τ α} {a a' : Action τ MessengerError α}
    (h : Settles e a c) (heq : attempt a' c = attempt a c) : Settles e a' c := by
  obtain ⟨es, ls, htracks, hexcursion⟩ := h
  refine ⟨es, ls, fun before => ?_, heq ▸ hexcursion⟩
  rw [heq]
  exact htracks before

theorem settles_queryMembers (group : Entity) (hc : c.Lasting) :
    Settles (Call.queryMembers group).errand (Client.queryMembers group) c :=
  (settles_queryMembersWithin c.longestChain group (roomy_longestChain hc)).of_attempt
    (by rw [Client.queryMembers, attempt_bind, attempt_get])

/-- Whoever is an assistant of whom, as long as cooldowns last: the calls that lead to one another
without a bound all end, and end as the bounded ones do. On the way the member query of no group is
let through twice, and for each place among the assistants of a group at most one letter asks for
its roster. The message of the caller comes last, if it leaves. -/
theorem sending_ends (hperiod : 0 < c.account.freshness.cooldowns.period)
    (hclock : c.account.clock < Millis.latest) :
    (∀ group, ∃ es ls, Tracks (Call.queryMembers group).errand (Client.queryMembers group) c es ∧
      Sent c (attempt (Client.queryMembers group) c).2 ls ∧ Moderate c es ls) ∧
    (∀ group, ∃ es ls,
      Tracks (Call.checkGroup group).errand (Client.checkGroup Client.queryMembers group) c es ∧
      Sent c (attempt (Client.checkGroup Client.queryMembers group) c).2 ls ∧
      Moderate c es ls) ∧
    ∀ sender receiver content priority, ∃ es ls c₁,
      Tracks (Call.sendContent sender receiver content priority).errand
        (Client.sendContent sender receiver content priority) c es ∧
      Sent c c₁ ls ∧ Moderate c es ls ∧
      ((attempt (Client.sendContent sender receiver content priority) c).2 = c₁ ∨
        ∃ who, attempt (senderOr sender) c = (.ok who, c) ∧
          Posted c₁ (attempt (Client.sendContent sender receiver content priority) c).2
            (Message.new who receiver content) priority) := by
  have hc : c.Lasting := lasting_of_period hperiod hclock
  refine ⟨fun group => ?_, fun group => ?_, fun sender receiver content priority => ?_⟩
  · obtain ⟨es, ls, htracks, hexcursion⟩ := settles_queryMembers group hc
    exact ⟨es, ls, htracks, hexcursion.sent, hexcursion.moderate⟩
  · obtain ⟨es, ls, htracks, hexcursion⟩ := settles_checkGroup group (settles_queryMembers group hc)
    exact ⟨es, ls, htracks, hexcursion.sent, hexcursion.moderate⟩
  · obtain ⟨es, ls, c₁, htracks, hexcursion, hend⟩ := settles_sendContent
      (settles_checkGroup receiver (settles_queryMembers receiver hc)) sender content priority
    exact ⟨es, ls, c₁, htracks, hexcursion.sent, hexcursion.moderate, hend⟩

def fleet : Entity := ⟨"fleet", "moky", .group⟩

/-- The crew assists itself and the fleet, and the fleet assists the crew. -/
def circular : Client Loopback :=
  (Query.signedIn Query.signedOut).modifyDirectory fun d =>
    (((d.saveCard crew ⟨"key", none⟩).saveCard fleet ⟨"key", none⟩).setAssistants crew
      [crew, fleet, mate]).setAssistants fleet [crew, fleet]

theorem sending_ends_circular :
    0 < circular.account.freshness.cooldowns.period ∧
      circular.account.clock < Millis.latest ∧
      ∃ c' es, (Call.queryMembers crew).errand.outcome ⟨circular, []⟩ = some (.ok true, ⟨c', es⟩) ∧
        (letThrough es).Nodup := by
  have hperiod : 0 < circular.account.freshness.cooldowns.period := by decide
  have hclock : circular.account.clock < Millis.latest := by decide
  obtain ⟨hquery, -, -⟩ := sending_ends hperiod hclock
  obtain ⟨es, ls, htracks, -, hmoderate⟩ := hquery crew
  have hasked := attempt_eq_of_toOption
    (show (attempt (Client.queryMembers crew) circular).1.toOption = some true by decide +kernel)
  refine ⟨hperiod, hclock, (attempt (Client.queryMembers crew) circular).2, es, ?_,
    hmoderate.once⟩
  rw [htracks [], congrArg Prod.fst hasked]
  rfl

end Errand

end Client

end Courier
