import Courier.Message
import Courier.Table

/-!
# Freshness

Two records per key. A cooldown answers whether a query may be sent again and is armed whenever it
says yes. A recency record holds the newest time seen and never goes back.
-/

namespace Courier

/-- For each key, the time at which its cooldown ends. -/
structure Cooldowns (κ : Type) where
  period : Millis
  ends : Table κ Millis

namespace Cooldowns

variable {κ : Type} [DecidableEq κ]

def new (period : Millis) : Cooldowns κ :=
  ⟨period, .empty⟩

def isCooling (c : Cooldowns κ) (key : κ) (now : Millis) : Bool :=
  (c.ends.get? key).any (now < ·)

def request (c : Cooldowns κ) (key : κ) (now : Millis) (force : Bool) : Bool × Cooldowns κ :=
  if !force && c.isCooling key now then (false, c)
  else (true, { c with ends := c.ends.insert key (Millis.later now c.period) })

def clear (c : Cooldowns κ) : Cooldowns κ :=
  { c with ends := .empty }

end Cooldowns

/-- For each key, the newest time seen. -/
structure Recency (κ : Type) where
  seen : Table κ Millis

namespace Recency

variable {κ : Type} [DecidableEq κ]

def new : Recency κ :=
  ⟨.empty⟩

def latest? (r : Recency κ) (key : κ) : Option Millis :=
  r.seen.get? key

/-- Records a time if it is newer than the one recorded. -/
def observe (r : Recency κ) (key : κ) (time : Millis) : Bool × Recency κ :=
  if (r.latest? key).any (time ≤ ·) then (false, r)
  else (true, ⟨r.seen.insert key time⟩)

/-- Whether nothing newer than the reference has been seen. -/
def isStale (r : Recency κ) (key : κ) (reference : Millis) : Bool :=
  (r.latest? key).all (· ≤ reference)

end Recency

inductive FreshnessKind where
  | card
  | document
  | members
  /-- The membership commands received for a group. -/
  | history
  deriving DecidableEq, Repr

structure FreshnessKey where
  entity : Entity
  kind : FreshnessKind
  deriving DecidableEq, Repr

/-- Cooldowns of outgoing queries, and the newest times seen of documents and group histories. -/
structure Freshness where
  cooldowns : Cooldowns FreshnessKey
  recent : Recency FreshnessKey

namespace Freshness

def new (cooldown : Millis) : Freshness :=
  ⟨.new cooldown, .new⟩

def request (f : Freshness) (key : FreshnessKey) (now : Millis) (force : Bool) :
    Bool × Freshness :=
  let (granted, cooldowns) := f.cooldowns.request key now force
  (granted, { f with cooldowns := cooldowns })

def observe (f : Freshness) (key : FreshnessKey) (time : Millis) : Bool × Freshness :=
  let (newer, recent) := f.recent.observe key time
  (newer, { f with recent := recent })

/-- Forgets every cooldown and keeps what has been seen. -/
def resetCooldowns (f : Freshness) : Freshness :=
  { f with cooldowns := f.cooldowns.clear }

def needsCard (id : Entity) (card : Option Card) : Bool :=
  !id.isBroadcast && card.isNone

/-- Whether there are no documents, or newer ones than those at hand were announced. -/
def needsDocuments (f : Freshness) (id : Entity) (docs : List Document) : Bool :=
  if id.isBroadcast then false
  else
    match Document.newest? docs with
    | none => true
    | some held => !f.recent.isStale ⟨id, .document⟩ held

/-- Whether there is no roster, or a membership change newer than the one at hand was announced. -/
def needsMembers (f : Freshness) (group : Entity) (members : Option (List Entity))
    (held : Option Millis) : Bool :=
  if group.isBroadcast then false
  else if members.all List.isEmpty then true
  else held.any fun t => !f.recent.isStale ⟨group, .history⟩ t

end Freshness

end Courier
