import Courier.Proofs.Client.Conduct

/-!
# Where session keys come from

A client takes a session key from any packet that carries a handshake of success. Nothing else
gives it one, so it serves traffic only after such a packet was read. It does not matter who sent
the packet: what is said here of the payload cannot be said of a station.
-/

namespace Courier

/-- Whether a call leaves it to the packets to open the session. -/
def ClientCall.LeavesKey {τ : Type} : ClientCall τ → Prop
  | .session (.setKey _) => False
  | .reconnect s _ => s.key = none
  | _ => True

def ClientStep.LeavesKey {τ : Type} : ClientStep τ → Prop
  | .call c => c.LeavesKey
  | .iterate => True

namespace Session

variable {τ : Type} [Transport τ]

theorem key_call (s : Session τ) {c : SessionCall τ} (hc : ∀ key, c ≠ .setKey key) {k : String}
    (h : (s.call c).key = some k) : s.key = some k := by
  cases c with
  | setKey key => exact absurd rfl (hc key)
  | setIdentity identity =>
    simp only [call, setIdentity] at h
    split at h
    · exact h
    · cases h
  | connect => simpa only [call, connect_snd] using h
  | reset now =>
    simp only [call, reset_eq] at h
    by_cases he : s.phase = .error
    · simp [he] at h
    · simpa [he] using h
  | _ => exact h

end Session

namespace Client

variable {τ : Type} [Transport τ]

/-- The payloads that a step gives to the client to read. -/
def heard (c : Client τ) : ClientStep τ → List Bytes
  | .call call => call.payload?.toList
  | .iterate => (c.step .iterate).1.filterMap Report.payload?

def heardAll (c : Client τ) : List (ClientStep τ) → List Bytes
  | [] => []
  | s :: steps => c.heard s ++ (c.step s).2.heardAll steps

/-- A packet sets the session key just if it hands one over, whoever sent it. -/
theorem key_receive (c : Client τ) (payload : Bytes) :
    (doing (receive payload) c).session.key = (c.sessionKey? payload).or c.session.key := by
  cases hk : c.sessionKey? payload with
  | some k =>
    rw [receive_sessionKey hk]
    simp only [Session.setKey]
    split
    · assumption
    · rfl
  | none =>
    obtain ⟨cs, hcs, hsession⟩ := (c.acts_receive payload).session
    rw [hsession]
    rcases (calls_of_routine c.session hcs).2.2.2 with hsame | ⟨k, htaken, -⟩
    · exact hsame
    · rw [hk] at htaken
      cases htaken

/-- Unless one is set from outside, a call leaves the session with the key that it had, with none
or with one that was handed over. -/
theorem key_call (c : Client τ) {call : ClientCall τ} (h : call.LeavesKey) {k : String}
    (hk : (c.call call).session.key = some k) :
    c.session.key = some k ∨ c.account.codec.Opens call.payload?.toList k := by
  by_cases ho : Ordinary call
  · obtain ⟨cs, hcs, hsession⟩ := (c.acts_call ho).session
    rw [hsession] at hk
    rcases (calls_of_routine c.session hcs).2.2.2 with hsame | ⟨l, hopens, htaken⟩
    · exact .inl (hsame ▸ hk)
    · rw [htaken] at hk
      exact .inr (Option.some.inj hk ▸ hopens)
  · left
    cases call with
    | handshake key =>
      cases key with
      | none =>
        rw [call, c.doing_handshake.2] at hk
        exact hk
      | some key => exact absurd trivial ho
    | post m priority =>
      obtain ⟨-, queue, hsession⟩ := c.post_fields m priority
      rw [hsession] at hk
      exact hk
    | session call => exact c.session.key_call (by rintro key rfl; exact h) hk
    | reconnect s desk => cases (show s.key = none from h).symm.trans hk
    | signIn user => exact hk
    | wait time => exact hk
    | _ => exact absurd trivial ho

theorem key_step (c : Client τ) {s : ClientStep τ} (h : s.LeavesKey) {k : String}
    (hk : (c.step s).2.session.key = some k) :
    c.session.key = some k ∨ c.account.codec.Opens (c.heard s) k := by
  cases s with
  | call call => exact c.key_call h hk
  | iterate =>
    obtain ⟨payloads, hheard, -, -, hkey⟩ :=
      Watched.key_iterate c.account.clock ⟨c.session, c.desk, []⟩
    have hpayloads : c.heard .iterate = payloads := hheard
    rw [hpayloads]
    rcases hkey with hsame | ⟨l, hopens, htaken⟩
    · exact .inl (hsame ▸ hk)
    · exact .inr (Option.some.inj (htaken.symm.trans hk) ▸ hopens)

theorem key_run (c : Client τ) {steps : List (ClientStep τ)} (h : ∀ s ∈ steps, s.LeavesKey)
    {k : String} (hk : (c.run steps).2.session.key = some k) :
    c.session.key = some k ∨ c.account.codec.Opens (c.heardAll steps) k := by
  induction steps generalizing c with
  | nil => exact .inl hk
  | cons s steps ih =>
    rcases ih (c.step s).2 (fun s' hs' => h s' (List.mem_cons_of_mem s hs')) hk with hk | hopens
    · rcases c.key_step (h s List.mem_cons_self) hk with hk | ⟨payload, hpayload, hopens⟩
      · exact .inl hk
      · exact .inr ⟨payload, List.mem_append_left _ hpayload, hopens⟩
    · rw [codec_step] at hopens
      obtain ⟨payload, hpayload, hopens⟩ := hopens
      exact .inr ⟨payload, List.mem_append_right _ hpayload, hopens⟩

/-- A packet sets the session key just if it carries a handshake of success with a key, in whatever
state the client is and whoever sent it. So every key that a client holds was handed over by a
packet that it read, unless one was set from outside, and a session enters the running phase only
with such a key. -/
theorem keys_from_packets (c : Client τ) :
    (∀ payload,
      (doing (receive payload) c).session.key = (c.sessionKey? payload).or c.session.key) ∧
    ∀ steps : List (ClientStep τ), (∀ s ∈ steps, s.LeavesKey) → c.session.key = none →
      let r := (c.run steps).2
      (∀ k, r.session.key = some k → c.account.codec.Opens (c.heardAll steps) k) ∧
      ∀ t, .after t ∈ (r.step .iterate).1 → t.target.phase = .running →
        ∃ k, r.session.key = some k ∧ c.account.codec.Opens (c.heardAll steps) k := by
  refine ⟨c.key_receive, ?_⟩
  intro steps hsteps hnone r
  have hkeys (k : String) (hk : r.session.key = some k) :
      c.account.codec.Opens (c.heardAll steps) k := by
    rcases c.key_run hsteps hk with hk | hopens
    · cases hnone.symm.trans hk
    · exact hopens
  refine ⟨hkeys, ?_⟩
  intro t ht hrunning
  have hevaluated := Watched.evaluate?_of_reported onlyCalls_observer ht List.not_mem_nil
  obtain ⟨-, -, -, -, -, hseen⟩ := Session.evaluate?_eq_some hevaluated
  obtain ⟨-, -, hkey, -⟩ := hseen hrunning
  obtain ⟨activity, failed, cursor, hfolded⟩ := r.session.foldStatuses_eq
  rw [hfolded] at hkey
  obtain ⟨k, hk⟩ := Option.isSome_iff_exists.mp hkey
  exact ⟨k, hk, hkeys k hk⟩

/-- A handshake of success that another user sends. -/
def forged : Bytes :=
  Envelope.encode (.new ⟨"bob", "moky", .user⟩ ⟨"alice", "moky", .user⟩
    (.new 9 (.command (.handshake .success (some "k"))) 1))

/-- A session that comes to its handshake. -/
def greeted : List (ClientStep Loopback) :=
  [.call (.session (.setIdentity (some ⟨"alice", "moky", .user⟩))), .iterate, .iterate, .iterate]

/-- The session that comes to its handshake is given the other user's packet. -/
def misled : List (ClientStep Loopback) :=
  let transport := ((Query.signedIn Query.signedOut).run greeted).2.session.transport
  greeted ++ [.call (.session (.transport (transport.deliver forged))), .iterate]

theorem leavesKey_misled : ∀ s ∈ misled, s.LeavesKey := by
  intro s hs
  simp only [misled, greeted, List.cons_append, List.nil_append, List.mem_cons,
    List.not_mem_nil, or_false] at hs
  rcases hs with rfl | rfl | rfl | rfl | rfl | rfl <;> trivial

theorem keys_from_packets_misled :
    let c := Query.signedIn Query.signedOut
    let r := (c.run misled).2
    let t : Transition :=
      ⟨⟨.handshaking, 2000⟩, ⟨.running, 2000⟩, .keyAccepted, .broadcastDocuments⟩
    c.heardAll misled = [forged] ∧ .after t ∈ (r.step .iterate).1 ∧
      ∃ k, r.session.key = some k ∧ c.account.codec.Opens (c.heardAll misled) k := by
  intro c r t
  have hheard : c.heardAll misled = [forged] := by decide +kernel
  have hreported : .after t ∈ (r.step .iterate).1 := by decide +kernel
  have hnone : c.session.key = none := by decide +kernel
  obtain ⟨-, hrun⟩ := keys_from_packets c
  have hr : (c.run misled).2 = r := rfl
  obtain ⟨-, hrunning⟩ := hrun misled leavesKey_misled hnone
  rw [hr] at hrunning
  exact ⟨hheard, hreported, hrunning t hreported rfl⟩

/-- Not only a station opens a session. -/
theorem not_only_stations_open : ¬ ∀ (c : Client Loopback) (steps : List (ClientStep Loopback)),
    (∀ s ∈ steps, s.LeavesKey) →
      let r := (c.run steps).2
      ∀ payload m k, c.account.codec.decode payload = .ok m →
        (doing (receive payload) r).session.key = some k → r.session.key ≠ some k →
        m.sender.kind = .station := by
  intro h
  have hsteps : ∀ s ∈ misled.take 4, s.LeavesKey := fun s hs =>
    leavesKey_misled s (List.mem_of_mem_take hs)
  have hkind : (Codec.json.decode forged).toOption.map (·.sender.kind) = some .user := by
    decide +kernel
  obtain ⟨m, hm, huser⟩ := Option.map_eq_some_iff.mp hkind
  have hdecoded : Codec.json.decode forged = .ok m := by
    generalize Codec.json.decode forged = decoded at hm ⊢
    cases decoded with
    | error e => cases hm
    | ok m' => exact congrArg Except.ok (Option.some.inj hm)
  have hstation := h (Query.signedIn Query.signedOut) (misled.take 4) hsteps forged m "k" hdecoded
    (by decide +kernel) (by decide +kernel)
  cases hstation.symm.trans huser

end Client

end Courier
