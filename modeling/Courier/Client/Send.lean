import Courier.Client.Basic

/-!
# Sending

A content is packed and queued for the station. A group message waits until the group's card, its
roster and the key of every member are known; whatever is missing is asked for instead. The
assistants that are asked for a roster may be groups themselves, and then the question waits for
their rosters in turn. Such a chain ends because every group in it starts a cooldown first.
-/

namespace Courier.Client

variable {τ : Type}

/-- Packs and queues a message. Nothing is returned for a message that is queued already. -/
def sendInstant (m : Message) (priority : Priority) :
    Action τ MessengerError (Option MessageRef) := do
  let c ← get
  match c.account.codec.encode m with
  | .error e => throw (.codec e)
  | .ok payload =>
    let shipment : Shipment := ⟨payload, priority, some m.ref.id⟩
    let (queued, session) := c.session.enqueue m.ref shipment c.account.clock
    if queued then
      let (_, tracker) := c.desk.tracker.mark m.ref .queued
      set { c with session := session, desk := { c.desk with tracker := tracker } }
      return some m.ref
    else return none

def senderOr (sender : Option Entity) : Action τ MessengerError Entity := do
  match sender with
  | some sender => return sender
  | none => return (← currentUser).id

/-- Sends a command of the signed-in user to a receiver that needs no roster. -/
def announce (receiver : Entity) (command : Command) (priority : Priority) :
    Action τ MessengerError (Option MessageRef) := do
  let content ← newContent (.command command)
  let user ← currentUser
  sendInstant (Message.new user.id receiver content) priority

/-- Asks the station for a card; false while an equal query cools down. -/
def queryCard (id : Entity) : Action τ MessengerError Bool := do
  if ← requestQuery ⟨id, .card⟩ then
    let _ ← announce .anyStation (.card id none) .normal
    return true
  else return false

def queryDocument (id : Entity) : Action τ MessengerError Bool := do
  if ← requestQuery ⟨id, .document⟩ then
    let held := Document.newest? ((← directory).documents id)
    let _ ← announce .anyStation (.document id none [] held) .normal
    return true
  else return false

def queryDocuments : List Entity → Action τ MessengerError Unit
  | [] => return
  | id :: rest => do
    let _ ← queryDocument id
    queryDocuments rest

/-- Whether a group message can be sent now. If not, what is missing is asked for: rosters through
`query`. -/
def checkGroup (query : Entity → Action τ MessengerError Bool) (group : Entity) :
    Action τ MessengerError Bool := do
  let c ← get
  let d := c.account.directory
  if Freshness.needsCard group (d.card? group) then
    let _ ← queryCard group
    return false
  else if c.account.freshness.needsMembers group (some (d.members group)) none then
    let _ ← query group
    return false
  else
    let waiting := (d.members group).filter fun m => !d.hasEncryptionKey m
    queryDocuments waiting
    return waiting.isEmpty

/-- Sends a content, asking for missing rosters through `query`. Nothing is returned when the
message has to wait or is queued already. -/
def sendContentBy (query : Entity → Action τ MessengerError Bool) (sender : Option Entity)
    (receiver : Entity) (content : Content) (priority : Priority) :
    Action τ MessengerError (Option MessageRef) := do
  let sender ← senderOr sender
  if receiver.isGroup && !receiver.isBroadcast then
    if ← checkGroup query receiver then
      sendInstant (Message.new sender receiver content) priority
    else return none
  else sendInstant (Message.new sender receiver content) priority

def askAssistants (query : Entity → Action τ MessengerError Bool) (group : Entity)
    (command : Command) : List Entity → Action τ MessengerError Unit
  | [] => return
  | bot :: rest => do
    let content ← newContent (.command command)
    let _ ← sendContentBy query none bot (content.inGroup group) .normal
    askAssistants query group command rest

/-- Asks the assistants of a group for its roster, through at most `chain` groups that are
assistants of one another. -/
def queryMembersWithin : Nat → Entity → Action τ MessengerError Bool
  | 0, _ => return false
  | chain + 1, group => do
    if ← requestQuery ⟨group, .members⟩ then
      let c ← get
      let bots := c.account.directory.assistants group
      if bots.isEmpty then return false
      else
        let held := c.account.freshness.recent.latest? ⟨group, .history⟩
        askAssistants (queryMembersWithin chain) group (.group (.query group held)) bots
        return true
    else return false

/-- How many groups can be assistants of one another in a chain without a repetition. -/
def longestChain (c : Client τ) : Nat :=
  c.account.directory.helpers.size + 1

/-- Asks every assistant of a group for the roster; false while an equal query cools down or if
there is no assistant. -/
def queryMembers (group : Entity) : Action τ MessengerError Bool := do
  queryMembersWithin (← get).longestChain group

/-- Sends a content to anyone. Nothing is returned when the message has to wait or is queued
already. -/
def sendContent (sender : Option Entity) (receiver : Entity) (content : Content)
    (priority : Priority) : Action τ MessengerError (Option MessageRef) :=
  sendContentBy queryMembers sender receiver content priority

end Courier.Client
