import Courier.Proofs.Envelope.RoundTrip

/-!
# Messages without documents

How deep the form of a message nests is up to the documents that travel in it. A message without any
is never too deep, and is read back whatever it says.
-/

namespace Courier

open Json

/-! ### Depth -/

theorem Json.itemsDepth_map {α : Type} {form : α → Json} {d : Nat} (h : ∀ a, (form a).depth ≤ d)
    (as : List α) : itemsDepth (as.map form) ≤ d := by
  induction as with
  | nil => exact Nat.zero_le d
  | cons a as ih => exact Nat.max_le.mpr ⟨h a, ih⟩

theorem Json.depth_optional {α : Type} {form : α → Json} {d : Nat} (h : ∀ a, (form a).depth ≤ d)
    (o : Option α) : (Json.optional form o).depth ≤ d := by
  cases o with
  | none => exact Nat.zero_le d
  | some a => exact h a

theorem Entity.depth_form (e : Entity) : e.form.depth ≤ 1 := by
  obtain ⟨name, address, kind⟩ := e
  cases kind <;> exact Nat.le_refl 1

theorem Card.depth_form (c : Card) : c.form.depth ≤ 1 := by
  obtain ⟨key, seed⟩ := c
  cases seed <;> exact Nat.le_refl 1

theorem StationInfo.depth_form (s : StationInfo) : s.form.depth ≤ 2 := by
  have hdid := s.did.depth_form
  simp only [StationInfo.form, depth, fieldsDepth, Json.nat]
  omega

theorem GroupCommand.depth_form (c : GroupCommand) : c.form.depth ≤ 4 := by
  have hitems (es : List Entity) := itemsDepth_map Entity.depth_form es
  have hword (o : Option UInt64) : (Json.optional .word o).depth ≤ 0 :=
    depth_optional (fun _ => Nat.le_refl 0) o
  cases c with
  | invite g named =>
    have := hitems named
    have := g.depth_form
    simp only [GroupCommand.form, depth, fieldsDepth]
    omega
  | expel g named =>
    have := hitems named
    have := g.depth_form
    simp only [GroupCommand.form, depth, fieldsDepth]
    omega
  | quit g =>
    have := g.depth_form
    simp only [GroupCommand.form, depth, fieldsDepth]
    omega
  | query g held =>
    have := hword held
    have := g.depth_form
    simp only [GroupCommand.form, depth, fieldsDepth]
    omega

theorem Command.depth_form {c : Command} (h : c.documents = []) : c.form.depth ≤ 5 := by
  have htext (o : Option String) : (Json.optional .text o).depth ≤ 0 :=
    depth_optional (fun _ => Nat.le_refl 0) o
  have hword (o : Option UInt64) : (Json.optional .word o).depth ≤ 0 :=
    depth_optional (fun _ => Nat.le_refl 0) o
  have hcard (o : Option Card) : (Json.optional Card.form o).depth ≤ 1 :=
    depth_optional Card.depth_form o
  cases c with
  | handshake title session =>
    have := htext session
    cases title <;> simp only [Command.form, HandshakeTitle.form, depth, fieldsDepth] <;> omega
  | login did agent station =>
    have := did.depth_form
    have := htext agent
    have := depth_optional StationInfo.depth_form station
    simp only [Command.form, depth, fieldsDepth]
    omega
  | report title => cases title <;> simp [Command.form, ReportTitle.form, depth, fieldsDepth]
  | card did c =>
    have := did.depth_form
    have := hcard c
    simp only [Command.form, depth, fieldsDepth]
    omega
  | document did c docs held =>
    obtain rfl : docs = [] := h
    have := did.depth_form
    have := hcard c
    have := hword held
    simp only [Command.form, depth, fieldsDepth, List.map_nil, itemsDepth]
    omega
  | receipt text origin =>
    have := hword origin
    simp only [Command.form, depth, fieldsDepth]
    omega
  | group command =>
    have := command.depth_form
    simp only [Command.form, depth, fieldsDepth]
    omega

theorem Body.depth_form {b : Body} (h : b.documents = []) : b.form.depth ≤ 6 := by
  cases b with
  | text s => simp [Body.form, depth, fieldsDepth]
  | command c =>
    have := Command.depth_form h
    simp only [Body.form, depth, fieldsDepth]
    omega

theorem Message.depth_form {m : Message} (h : m.documents = []) : m.form.depth ≤ 8 := by
  obtain ⟨hvisa, hlisted⟩ := List.append_eq_nil_iff.mp h
  have hvisa : (Json.optional Document.form m.visa).depth = 0 := by
    rw [Option.toList_eq_nil_iff.mp hvisa]
    rfl
  have := m.sender.depth_form
  have := m.receiver.depth_form
  have := depth_optional Entity.depth_form m.content.group
  have := Body.depth_form hlisted
  have := depth_optional Card.depth_form m.card
  simp only [Message.form, Content.form, depth, fieldsDepth, word, Json.nat]
  omega

/-! ### What two clients can tell each other -/

/-- Every message without documents can be written, and the reader reads it as it was. -/
def Codec.Conveys (writer reader : Codec) : Prop :=
  ∀ m : Message, m.documents = [] → ∃ b, writer.encode m = .ok b ∧ reader.decode b = .ok m

theorem Codec.conveys_json : Codec.json.Conveys Codec.json := by
  intro m h
  have hwhole : ∀ doc ∈ m.documents, doc.Whole := by
    rw [h]
    exact nofun
  have hdepth : m.form.depth ≤ Envelope.greatestDepth :=
    Nat.le_trans (Message.depth_form h) (by decide)
  exact ⟨Envelope.encode m, rfl, Envelope.decode_encode hwhole hdepth⟩

end Courier
