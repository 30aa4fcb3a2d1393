import Courier.Proofs.Client.Aside
import Courier.Proofs.Envelope.Bare

/-!
# Questions for rosters

Asking for a roster may lead to other questions, for the cards, documents and rosters of the groups
that assist it. All of them are sent in the name of the signed-in user, and no documents travel
with them.
-/

namespace Courier

theorem Command.documents_of_isInquiry {command : Command} (h : command.isInquiry = true) :
    command.documents = [] := by
  unfold isInquiry at h
  split at h
  · rfl
  · rfl
  · rfl
  · cases h

/-- The letter is from somebody, and there are no documents in it. -/
structure Letter.PlainFrom (l : Letter) (who : Entity) : Prop where
  sender : l.message.sender = who
  documents : l.message.documents = []

namespace Client

variable {τ ε : Type} {user : LocalUser}

/-- If the user is signed in, letters from him without documents were sent between the two moments,
and nothing else happened but queries that started to cool down. -/
def Inquires (user : LocalUser) (c c' : Client τ) : Prop :=
  c.account.user = some user → ∃ ls, Sent c c' ls ∧ ∀ l ∈ ls, l.PlainFrom user.id

theorem composes_inquires : Composes (Inquires user : Client τ → Client τ → Prop) where
  refl c _ := ⟨[], .refl c, fun _ h => nomatch h⟩
  trans h h' hu := by
    obtain ⟨ls, hsent, hplain⟩ := h hu
    obtain ⟨ls', hsent', hplain'⟩ := h' (hsent.fields.1.trans hu)
    refine ⟨ls ++ ls', hsent.trans hsent', fun l hl => ?_⟩
    rcases List.mem_append.mp hl with hl | hl
    · exact hplain l hl
    · exact hplain' l hl

theorem inquires_requestQuery (key : FreshnessKey) :
    Keeps (Inquires user) (requestQuery key : Action τ ε Bool) :=
  fun c _ => ⟨[], sent_requestQuery key c, fun _ h => nomatch h⟩

/-- A message with a serial number that was drawn before anything else was sent. -/
theorem inquires_sendInstant {c c₂ : Client τ} {m : Message} (h : Inquires user c.draw c₂)
    (hserial : m.content.serial = c.account.serials c.account.drawn) (hsender : m.sender = user.id)
    (hdocuments : m.documents = []) :
    Inquires user c (attempt (sendInstant m .normal) c₂).2 := by
  intro hu
  obtain ⟨ls, hsent, hplain⟩ := h hu
  have hcodec : c₂.account.codec = c.account.codec := hsent.fields.2.2.1
  rw [attempt_sendInstant, hcodec]
  cases hb : c.account.codec.encode m with
  | error e => exact ⟨ls, hsent.of_draw, hplain⟩
  | ok b =>
    refine ⟨ls ++ [⟨m, b⟩], hsent.letter hserial hb, fun l hl => ?_⟩
    rcases List.mem_append.mp hl with hl | hl
    · exact hplain l hl
    · rw [List.mem_singleton.mp hl]
      exact ⟨hsender, hdocuments⟩

theorem inquires_announce (receiver : Entity) {command : Command} (h : command.documents = []) :
    Keeps (Inquires user) (announce receiver command .normal : Action τ MessengerError _) := by
  intro c hu
  rw [attempt_announce_of_user hu]
  exact inquires_sendInstant (composes_inquires.refl _) rfl rfl h hu

/-- A command that asks is told somebody once he is ready for it, if he has to be. -/
theorem inquires_tell {query : Entity → Action τ MessengerError Bool} (group receiver : Entity)
    {command : Command} (h : command.documents = [])
    (hcheck : Keeps (Inquires user) (checkGroup query receiver)) :
    Keeps (Inquires user) (tell query group receiver command) := by
  intro c hu
  rw [attempt_tell_of_user query group receiver command hu]
  have hsend {c₂ : Client τ} (hc₂ : Inquires user c.draw c₂) :=
    inquires_sendInstant (m := Message.new user.id receiver
      ((c.nextContent (.command command)).inGroup group)) hc₂ rfl rfl h
  split
  · have hchecked := hcheck c.draw
    rw [attempt_bind]
    generalize attempt (checkGroup query receiver) c.draw = checked at hchecked ⊢
    rcases checked with ⟨e | ready, c₂⟩
    · obtain ⟨ls, hsent, hplain⟩ := hchecked hu
      exact ⟨ls, hsent.of_draw, hplain⟩
    · cases ready with
      | false =>
        obtain ⟨ls, hsent, hplain⟩ := hchecked hu
        exact ⟨ls, hsent.of_draw, hplain⟩
      | true => exact hsend hchecked hu
  · exact hsend (composes_inquires.refl _) hu

theorem inquiring_inquires :
    Inquiring (Keeps (Inquires user : Client τ → Client τ → Prop)) where
  pure := Keeps.pure composes_inquires
  bind := Keeps.bind composes_inquires
  get := Keeps.get composes_inquires
  requestQuery := inquires_requestQuery
  announce receiver _ h := inquires_announce receiver (Command.documents_of_isInquiry h)
  tell group receiver _ h := inquires_tell group receiver (Command.documents_of_isInquiry h)

end Client

end Courier
