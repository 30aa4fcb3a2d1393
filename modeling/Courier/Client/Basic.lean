import Courier.Delivery.Tracker
import Courier.Directory
import Courier.Envelope
import Courier.Freshness
import Courier.Session

/-!
# Clients

A client is a session together with the desk at which its messages are written and read. The
account on the desk outlives the session: its clock, its directory, the signed-in user and the
freshness records stay when the client connects anew.
-/

namespace Courier

structure Account where
  settings : Settings
  clock : Millis
  directory : Directory
  /-- Whether the client itself may change stored rosters. -/
  rostersWritable : Bool
  user : Option LocalUser
  codec : Codec
  freshness : Freshness
  /-- The serial numbers of the contents that the client makes itself, in the order in which it
  draws them. -/
  serials : Nat → Serial
  /-- How many of them are used up. -/
  drawn : Nat

/-- What is done with the commands of one tag. -/
inductive Handler where
  /-- What the protocol asks for. -/
  | standard
  /-- Always the same contents as answer. -/
  | answer (contents : List Content)
  /-- Fails as if no user were signed in. -/
  | refuse

abbrev Handlers := Table String Handler

namespace Handlers

def tags : List String :=
  ["handshake", "login", "report", "receipt", "meta", "document", "group.invite", "group.expel",
    "group.quit", "group.query"]

def standard : Handlers :=
  tags.foldl (fun hs tag => hs.insert tag .standard) .empty

end Handlers

structure Desk where
  account : Account
  tracker : DeliveryTracker
  handlers : Handlers
  /-- When the client last told that it is online. -/
  lastOnline : Option Millis

def Desk.new (account : Account) : Desk :=
  ⟨account, .new account.settings.deliveryCacheCapacity, .standard, none⟩

structure Client (τ : Type) where
  session : Session τ
  desk : Desk

/-- Something a client does. What it did before a failure stays done. -/
abbrev Action (τ ε α : Type) := ExceptT ε (StateM (Client τ)) α

namespace Client

variable {τ ε : Type}

def account (c : Client τ) : Account := c.desk.account

def modifyAccount (f : Account → Account) (c : Client τ) : Client τ :=
  { c with desk := { c.desk with account := f c.desk.account } }

def modifyDirectory (f : Directory → Directory) (c : Client τ) : Client τ :=
  c.modifyAccount fun a => { a with directory := f a.directory }

def register (c : Client τ) (tag : String) (h : Handler) : Client τ :=
  { c with desk := { c.desk with handlers := c.desk.handlers.insert tag h } }

def reduceMemory (c : Client τ) : Nat × Client τ :=
  let (dropped, tracker) := c.desk.tracker.reduce
  (dropped, { c with desk := { c.desk with tracker := tracker } })

/-- Does something to the end or to its failure, and forgets how it ended. -/
def doing {α : Type} (action : Action τ ε α) (c : Client τ) : Client τ :=
  (action.run.run c).2

/-- Sends something inside a group operation, whose failure it then is. -/
def messaging {α : Type} (action : Action τ MessengerError α) : Action τ GroupError α :=
  ExceptT.adapt GroupError.messenger action

def now : Action τ ε Millis :=
  return (← get).account.clock

def directory : Action τ ε Directory :=
  return (← get).account.directory

def currentUser : Action τ MessengerError LocalUser := do
  match (← get).account.user with
  | some user => return user
  | none => throw .missingIdentity

/-- A content with a serial of its own, dated now. -/
def newContent (body : Body) : Action τ ε Content := do
  let c ← get
  set (c.modifyAccount fun a => { a with drawn := a.drawn + 1 })
  return Content.new (c.account.serials c.account.drawn) body c.account.clock

/-- Whether a query may be sent now; if so, its cooldown starts. -/
def requestQuery (key : FreshnessKey) : Action τ ε Bool := do
  let c ← get
  let (granted, freshness) := c.account.freshness.request key c.account.clock false
  set (c.modifyAccount fun a => { a with freshness := freshness })
  return granted

/-- Records a time; also whether it is newer than the one recorded. -/
def observe (key : FreshnessKey) (time : Millis) : Action τ ε Bool := do
  let c ← get
  let (newer, freshness) := c.account.freshness.observe key time
  set (c.modifyAccount fun a => { a with freshness := freshness })
  return newer

/-- Stores a roster; also whether the client may do so. -/
def saveMembers (group : Entity) (members : List Entity) : Action τ ε Bool := do
  let c ← get
  if c.account.rostersWritable then
    set (c.modifyDirectory (·.saveMembers group members))
    return true
  else return false

end Client

end Courier
