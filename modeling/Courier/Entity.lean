/-!
# Entities

Users, groups, stations and bots are named `name@address`. Two addresses stand for everybody who
can be reached there instead of one party.
-/

namespace Courier

inductive EntityKind where
  | user
  | group
  | station
  | bot
  deriving DecidableEq, Repr, Ord

/-- Entities are ordered by name, then address, then kind. -/
structure Entity where
  name : String
  address : String
  kind : EntityKind
  deriving DecidableEq, Repr, Ord

namespace Entity

def anywhere : String := "anywhere"

def everywhere : String := "everywhere"

def everyone : Entity := ⟨"everyone", everywhere, .group⟩

/-- Whichever station is on the other end. -/
def anyStation : Entity := ⟨"station", anywhere, .station⟩

def everyStation : Entity := ⟨"stations", everywhere, .group⟩

def isBroadcast (e : Entity) : Bool :=
  e.address == anywhere || e.address == everywhere

def isGroup (e : Entity) : Bool :=
  e.kind == .group

/-- The written form leaves the kind out. -/
def text (e : Entity) : String :=
  e.name ++ "@" ++ e.address

end Entity

end Courier
