import Courier.Delivery.Shipment
import Courier.Message

/-!
# Delivery queue

Entries leave by priority and, within one priority, in the order of submission. The id of a message
stays reserved from its submission until its entry is delivered, given up or expired, also while
the entry is handed out; a reserved id is not queued a second time.
-/

namespace Courier

structure QueueEntry where
  shipment : Shipment
  message : MessageRef
  /-- Position in the order of submission. -/
  order : Nat
  /-- Failed pushes so far. -/
  attempts : UInt32
  enqueuedAt : Millis
  notBefore : Millis
  deriving DecidableEq, Repr

namespace QueueEntry

def id (e : QueueEntry) : String := e.message.id

def priority (e : QueueEntry) : Priority := e.shipment.priority

def isDue (e : QueueEntry) (now : Millis) : Bool := e.notBefore ≤ now

end QueueEntry

structure RetryPolicy where
  maxRetries : UInt32
  retryDelay : Millis
  expiry : Millis
  deriving DecidableEq, Repr

def RetryPolicy.isExpired (p : RetryPolicy) (e : QueueEntry) (now : Millis) : Bool :=
  p.expiry < Millis.since now e.enqueuedAt

/-- The waiting entries of one priority, in the order of submission. -/
structure Lane where
  priority : Priority
  entries : List QueueEntry
  deriving DecidableEq, Repr

namespace Lane

/-- Takes the first due entry out of a lane. -/
def takeDue? (now : Millis) : List QueueEntry → Option (QueueEntry × List QueueEntry)
  | [] => none
  | e :: rest =>
    if e.isDue now then some (e, rest)
    else (takeDue? now rest).map fun (found, left) => (found, e :: left)

/-- Puts an entry back in front of everything submitted after it. -/
def insert (e : QueueEntry) (entries : List QueueEntry) : List QueueEntry :=
  entries.takeWhile (·.order < e.order) ++ e :: entries.dropWhile (·.order < e.order)

end Lane

/-- Lanes stand in order of falling priority. -/
structure DeliveryQueue where
  policy : RetryPolicy
  lanes : List Lane
  reserved : List String
  nextOrder : Nat
  deriving DecidableEq, Repr

inductive RetryOutcome where
  | requeued
  /-- Out of retries: the entry has left the queue. -/
  | exhausted (e : QueueEntry)
  deriving DecidableEq, Repr

namespace DeliveryQueue

def new (policy : RetryPolicy) : DeliveryQueue :=
  ⟨policy, [], [], 0⟩

def contains (q : DeliveryQueue) (id : String) : Bool :=
  q.reserved.contains id

/-- All waiting entries, in the order in which they would leave if all were due. -/
def waiting (q : DeliveryQueue) : List QueueEntry :=
  q.lanes.flatMap Lane.entries

def size (q : DeliveryQueue) : Nat :=
  q.waiting.length

def isEmpty (q : DeliveryQueue) : Bool :=
  q.size == 0

/-- Changes the lane of a priority, opening it at its place if there is none. -/
def updateLane (p : Priority) (change : List QueueEntry → List QueueEntry) :
    List Lane → List Lane
  | [] => [⟨p, change []⟩]
  | l :: rest =>
    if l.priority < p then ⟨p, change []⟩ :: l :: rest
    else if l.priority = p then ⟨p, change l.entries⟩ :: rest
    else l :: updateLane p change rest

/-- Takes the first due entry out of the first lane that has one. -/
def takeDue? (now : Millis) : List Lane → Option (QueueEntry × List Lane)
  | [] => none
  | l :: rest =>
    match Lane.takeDue? now l.entries with
    | some (e, left) => some (e, ⟨l.priority, left⟩ :: rest)
    | none => (takeDue? now rest).map fun (e, lanes) => (e, l :: lanes)

/-- Queues a shipment, unless its message is reserved. -/
def append (q : DeliveryQueue) (message : MessageRef) (shipment : Shipment) (now : Millis) :
    Bool × DeliveryQueue :=
  if q.contains message.id then (false, q)
  else
    let e : QueueEntry := ⟨shipment, message, q.nextOrder, 0, now, now⟩
    (true, { q with
      lanes := updateLane e.priority (· ++ [e]) q.lanes
      reserved := message.id :: q.reserved
      nextOrder := q.nextOrder + 1 })

/-- Hands out the first due entry. -/
def next (q : DeliveryQueue) (now : Millis) : Option (QueueEntry × DeliveryQueue) :=
  (takeDue? now q.lanes).map fun (e, lanes) => (e, { q with lanes := lanes })

def complete (q : DeliveryQueue) (e : QueueEntry) : DeliveryQueue :=
  { q with reserved := q.reserved.erase e.id }

/-- Counts a failed push of an entry that was handed out, and puts it back for a later time unless
its retries are used up. -/
def retry (q : DeliveryQueue) (e : QueueEntry) (now : Millis) : RetryOutcome × DeliveryQueue :=
  let e := { e with attempts := e.attempts + 1 }
  if q.policy.maxRetries < e.attempts then (.exhausted e, q.complete e)
  else
    let e := { e with notBefore := Millis.later now q.policy.retryDelay }
    (.requeued, { q with lanes := updateLane e.priority (Lane.insert e) q.lanes })

/-- Drops the entries that waited longer than the expiry, and returns them. -/
def purge (q : DeliveryQueue) (now : Millis) : List QueueEntry × DeliveryQueue :=
  let expired := q.waiting.filter (q.policy.isExpired · now)
  let kept := q.lanes.map fun l =>
    { l with entries := l.entries.filter (!q.policy.isExpired · now) }
  (expired, { q with
    lanes := kept.filter (!·.entries.isEmpty)
    reserved := expired.foldl (fun ids e => ids.erase e.id) q.reserved })

/-- Drops everything, also the reservations, and returns how many entries were waiting. -/
def clear (q : DeliveryQueue) : Nat × DeliveryQueue :=
  (q.size, { q with lanes := [], reserved := [] })

def drain (q : DeliveryQueue) (now : Millis) : List QueueEntry × DeliveryQueue :=
  go q.size q
where
  go : Nat → DeliveryQueue → List QueueEntry × DeliveryQueue
    | 0, q => ([], q)
    | n + 1, q =>
      match q.next now with
      | none => ([], q)
      | some (e, q) =>
        let (es, q) := go n (q.complete e)
        (e :: es, q)

end DeliveryQueue

end Courier
