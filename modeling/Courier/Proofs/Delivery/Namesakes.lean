import Courier.Proofs.Delivery.Eviction
import Courier.Proofs.Delivery.MessageIds
import Courier.Proofs.Delivery.Reservations

/-!
# Messages of the same id

The id of a message is made of the texts of sender and receiver and its serial number. The kinds of
the two are not in it, and where a name or an address contains one of the marks between the parts,
the parts cannot be made out. Messages of the same id are one to the queue and to the tracker, and
any others never get in each other's way.
-/

namespace Courier

/-! ### Marks between parts -/

/-- What precedes the first mark is determined, and so is what follows it. -/
theorem append_cons_inj_of_notMem {a : Char} {as bs xs ys : List Char} (ha : a ∉ as) (hb : a ∉ bs)
    (h : as ++ a :: xs = bs ++ a :: ys) : as = bs ∧ xs = ys := by
  have hreversed : xs.reverse ++ a :: as.reverse = ys.reverse ++ a :: bs.reverse := by
    simpa using congrArg List.reverse h
  have hfirst : as.reverse = bs.reverse :=
    append_cons_inj_right (mt List.mem_reverse.mp ha) (mt List.mem_reverse.mp hb) hreversed
  obtain rfl := List.reverse_inj.mp hfirst
  exact ⟨rfl, (List.cons.inj (List.append_cancel_left h)).2⟩

theorem Entity.toList_text (e : Entity) :
    e.text.toList = e.name.toList ++ '@' :: e.address.toList := by
  simp only [text, String.toList_append, List.append_assoc]
  rfl

namespace MessageRef

/-- The part of an id in front of the serial number. -/
def route (m : MessageRef) : String :=
  m.sender.text ++ ">" ++ m.receiver.text

/-- Queue and tracker cannot tell the messages apart. -/
structure Namesakes (m n : MessageRef) : Prop where
  route : m.route = n.route
  serial : m.serial = n.serial

/-- The first mark of each sort in the route stands between two of its parts. -/
structure Legible (m : MessageRef) : Prop where
  sender : '@' ∉ m.sender.name.toList
  address : '>' ∉ m.sender.address.toList
  receiver : '@' ∉ m.receiver.name.toList

/-- The messages are the same, or differ in the kinds of sender and receiver alone. -/
structure SameButKinds (m n : MessageRef) : Prop where
  sender : m.sender.name = n.sender.name ∧ m.sender.address = n.sender.address
  receiver : m.receiver.name = n.receiver.name ∧ m.receiver.address = n.receiver.address
  serial : m.serial = n.serial

variable {m n : MessageRef}

theorem id_eq_iff : m.id = n.id ↔ m.Namesakes n := by
  constructor
  · intro h
    have hserial := serial_of_id h
    have htext : m.route ++ ("#" ++ Decimal.text m.serial.toNat) =
        n.route ++ ("#" ++ Decimal.text m.serial.toNat) := by
      simpa only [id, route, hserial, String.append_assoc] using h
    exact ⟨(String.append_left_inj _).mp htext, hserial⟩
  · rintro ⟨hroute, hserial⟩
    change m.route ++ "#" ++ _ = n.route ++ "#" ++ _
    rw [hroute, hserial]

theorem toList_route (m : MessageRef) : m.route.toList =
    m.sender.name.toList ++ '@' :: (m.sender.address.toList ++ '>' ::
      (m.receiver.name.toList ++ '@' :: m.receiver.address.toList)) := by
  have hroute : m.route.toList =
      m.sender.text.toList ++ '>' :: m.receiver.text.toList := by
    simp only [route, String.toList_append, List.append_assoc]
    rfl
  rw [hroute, Entity.toList_text, Entity.toList_text]
  simp

/-- Legible messages of the same id differ in kinds at most. -/
theorem Legible.namesakes_iff (hm : m.Legible) (hn : n.Legible) :
    m.Namesakes n ↔ m.SameButKinds n := by
  constructor
  · rintro ⟨hroute, hserial⟩
    have hlist := congrArg String.toList hroute
    rw [toList_route, toList_route] at hlist
    obtain ⟨hname, hrest⟩ := append_cons_inj_of_notMem hm.sender hn.sender hlist
    obtain ⟨haddress, hrest⟩ := append_cons_inj_of_notMem hm.address hn.address hrest
    obtain ⟨hname', haddress'⟩ := append_cons_inj_of_notMem hm.receiver hn.receiver hrest
    exact ⟨⟨String.toList_inj.mp hname, String.toList_inj.mp haddress⟩,
      ⟨String.toList_inj.mp hname', String.toList_inj.mp haddress'⟩, hserial⟩
  · rintro ⟨⟨hname, haddress⟩, ⟨hname', haddress'⟩, hserial⟩
    refine ⟨?_, hserial⟩
    simp only [route, Entity.text, hname, haddress, hname', haddress']

end MessageRef

/-! ### Queue and tracker -/

theorem DeliveryQueue.Sound.append_refused_iff {q : DeliveryQueue} {out : List QueueEntry}
    (hq : q.Sound out) (m : MessageRef) (s : Shipment) (now : Millis) :
    (q.append m s now).1 = false ↔ ∃ e ∈ q.waiting ++ out, e.message.Namesakes m := by
  rw [← Bool.not_eq_true, append_fst, Classical.not_not, hq.mem_reserved]
  refine exists_congr fun e => and_congr_right fun _ => ?_
  exact MessageRef.id_eq_iff

/-- Two messages have the same id just if they have the same serial number and their senders and
receivers make the same text, which legible messages do whose senders and receivers agree up to
their kinds. A queue refuses a message just if one of the same id waits or is handed out. The status
that a tracker tells of a message was marked for one of the same id, and all that was marked since
for any of that id is that it is queued. -/
theorem namesakes_alone_interfere (m n : MessageRef) {q : DeliveryQueue} {out : List QueueEntry}
    (hq : q.Sound out) (s : Shipment) (now : Millis) (capacity : Nat)
    (steps : List TrackerStep) :
    (m.id = n.id ↔ m.Namesakes n) ∧
    (m.Legible → n.Legible → (m.Namesakes n ↔ m.SameButKinds n)) ∧
    ((q.append m s now).1 = false ↔ ∃ e ∈ q.waiting ++ out, e.message.Namesakes m) ∧
    (∀ told, ((DeliveryTracker.new capacity).run steps).status? m = some told →
      ∃ before l after, steps = before ++ .mark l told :: after ∧ l.Namesakes m ∧
        ∀ l' status, .mark l' status ∈ after → l'.Namesakes m → status = .queued) := by
  refine ⟨MessageRef.id_eq_iff, fun hm hn => hm.namesakes_iff hn, hq.append_refused_iff m s now, ?_⟩
  intro told htold
  have hdistinct : (DeliveryTracker.new capacity).statuses.table.Distinct := .nil
  rcases DeliveryTracker.status_run hdistinct htold with ⟨hstart, -⟩ | ⟨before, l, after, h, hl, hs⟩
  · cases hstart
  · refine ⟨before, l, after, h, MessageRef.id_eq_iff.mp hl, fun l' status hmem hl' => ?_⟩
    exact hs l' status hmem (MessageRef.id_eq_iff.mpr hl')

/-! ### Messages that get in each other's way -/

namespace MessageRef

/-- What Alice writes to Bob. -/
def toBob : MessageRef :=
  ⟨⟨"alice", "moky", .user⟩, ⟨"bob", "moky", .user⟩, 1⟩

/-- What Alice writes to the group that is called like Bob. -/
def toBobs : MessageRef :=
  ⟨⟨"alice", "moky", .user⟩, ⟨"bob", "moky", .group⟩, 1⟩

theorem legible_toBob : toBob.Legible := by constructor <;> decide

theorem legible_toBobs : toBobs.Legible := by constructor <;> decide

end MessageRef

open MessageRef in
/-- While the message to Bob waits, the one to the group is refused, and the status of the one is
told of the other. -/
theorem namesakes_alone_interfere_bob :
    toBob.Legible ∧ toBobs.Legible ∧ toBob.Namesakes toBobs ∧
    (∀ (policy : RetryPolicy) (s : Shipment) (now : Millis),
      ((((DeliveryQueue.new policy).append toBob s now).2.append toBobs s now).1 = false)) ∧
    ∃ t, t = (DeliveryTracker.new 1).run [.mark toBob .sent] ∧ t.status? toBobs = some .sent ∧
      ∃ n, .mark n .sent ∈ [TrackerStep.mark toBob .sent] ∧ n.Namesakes toBobs := by
  have hid : toBobs.id = toBob.id := rfl
  have hsame : toBob.Namesakes toBobs := MessageRef.id_eq_iff.mp hid.symm
  refine ⟨legible_toBob, legible_toBobs, hsame, fun policy s now => ?_, _, rfl, ?_⟩
  · have hwaits : (DeliveryQueue.new policy).entry toBob s now ∈
        ((DeliveryQueue.new policy).append toBob s now).2.waiting :=
      (DeliveryQueue.waiting_append List.not_mem_nil).mem_iff.mpr List.mem_cons_self
    have hsound := (DeliveryQueue.Sound.new policy).append toBob s now
    obtain ⟨-, -, hqueue, -⟩ := namesakes_alone_interfere toBobs toBob hsound s now 1 []
    exact hqueue.mpr ⟨_, List.mem_append_left _ hwaits, hsame⟩
  · have htold :
        ((DeliveryTracker.new 1).run [.mark toBob .sent]).status? toBobs = some .sent := by
      simp [DeliveryTracker.run, DeliveryTracker.step, DeliveryTracker.mark,
        DeliveryTracker.status?, DeliveryTracker.new, SnapCache.insertUnless, SnapCache.insert,
        SnapCache.new, SnapCache.get?, SnapCache.size, Table.get?, Table.insert, Table.empty,
        Table.erase, Table.size, hid]
    obtain ⟨-, -, -, htracker⟩ := namesakes_alone_interfere toBobs toBob
      (DeliveryQueue.Sound.new ⟨0, 0, 0⟩) ⟨[], 0, none⟩ 0 1 [.mark toBob .sent]
    obtain ⟨before, l, after, hsteps, hl, -⟩ := htracker .sent htold
    exact ⟨htold, l, hsteps ▸ List.mem_append_right before List.mem_cons_self, hl⟩

/-- Different messages may have one id, and not only because of the kinds. -/
theorem not_every_message_told_apart :
    (¬ ∀ m n : MessageRef, m.id = n.id → m = n) ∧
    ¬ ∀ m n : MessageRef, m.id = n.id → m.SameButKinds n := by
  refine ⟨fun h => ?_, fun h => ?_⟩
  · have hsame : MessageRef.toBob = MessageRef.toBobs := h _ _ rfl
    revert hsame
    decide
  · let m : MessageRef := ⟨⟨"a", "x>b@y", .user⟩, ⟨"c", "z", .user⟩, 1⟩
    let n : MessageRef := ⟨⟨"a", "x", .user⟩, ⟨"b", "y>c@z", .user⟩, 1⟩
    have hid : m.id = n.id := MessageRef.id_eq_iff.mpr ⟨by decide, rfl⟩
    have haddress := (h m n hid).sender.2
    revert haddress
    decide

end Courier
