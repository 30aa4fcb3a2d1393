import Courier.Client.Presence

/-!
# Inbound commands

Each command from the station has a handler, which may change what the client knows and returns
the contents to send back to the sender. A membership command takes effect only if it is newer
than the last one that did, and an unauthorised one leaves no trace.
-/

namespace Courier.Client

variable {τ : Type}

def acceptHistory (group : Entity) (m : Message) : Action τ MessengerError Bool :=
  observe ⟨group, .history⟩ m.content.time

def handleHandshake (title : HandshakeTitle) (key : Option String) :
    Action τ MessengerError Unit := do
  match title, key with
  | .again, some key => handshake (some key)
  | .success, some key => modify fun c => { c with session := (c.session.setKey (some key)).2 }
  | _, _ => return

/-- Whoever logs in may have newer documents than those at hand. -/
def handleLogin (did : Entity) (m : Message) : Action τ MessengerError Unit := do
  let _ ← observe ⟨did, .document⟩ m.content.time

def saveCard (id : Entity) (card : Option Card) : Action τ MessengerError Unit := do
  match card with
  | some card => modify fun c => c.modifyDirectory (·.saveCard id card)
  | none => return

/-- Stores the documents of an entity; one of somebody else is passed over. -/
def saveDocuments (did : Entity) : List Document → Action τ MessengerError Unit
  | [] => return
  | doc :: rest => do
    if doc.did = did then
      let _ ← observe ⟨did, .document⟩ doc.time
      modify fun c => c.modifyDirectory fun d => (d.saveDocument doc).2
    saveDocuments did rest

/-- The roster with those who are not in it yet behind it. -/
def joined (roster : List Entity) : List Entity → List Entity
  | [] => roster
  | e :: rest => joined (if roster.contains e then roster else roster ++ [e]) rest

def without (roster named : List Entity) : List Entity :=
  roster.filter fun e => !named.contains e

/-- An invitation to a group with a roster must come from a member or an admin. -/
def handleInvite (group : Entity) (named : List Entity) (m : Message) :
    Action τ MessengerError Unit := do
  let d ← directory
  let roster := d.members group
  if roster.isEmpty || roster.contains m.sender || d.isAdmin group m.sender then
    if ← acceptHistory group m then
      let grown := joined roster named
      if roster.length < grown.length then
        let _ ← saveMembers group grown

/-- Only an admin may expel. -/
def handleExpel (group : Entity) (named : List Entity) (m : Message) :
    Action τ MessengerError Unit := do
  let d ← directory
  if d.isAdmin group m.sender then
    if ← acceptHistory group m then
      let roster := d.members group
      let left := without roster named
      if left.length < roster.length then
        let _ ← saveMembers group left

/-- A member may quit, but not an admin. -/
def handleQuit (group : Entity) (m : Message) : Action τ MessengerError Unit := do
  let d ← directory
  let roster := d.members group
  if !d.isAdmin group m.sender && roster.contains m.sender then
    if ← acceptHistory group m then
      let _ ← saveMembers group (without roster [m.sender])

/-- Members and assistants are told the full roster, others that they may not ask. Without a roster
the assistants are asked for it. -/
def handleQuery (group : Entity) (m : Message) : Action τ MessengerError (List Content) := do
  let d ← directory
  let roster := d.members group
  if roster.isEmpty then
    let _ ← queryMembers group
    return []
  else if roster.contains m.sender || (d.assistants group).contains m.sender then
    let content ← newContent (.command (.group (.invite group roster)))
    return [content.inGroup group]
  else
    return [← newContent (.command (.receipt "Permission denied" (some m.content.serial)))]

def handleStandard (m : Message) : Command → Action τ MessengerError (List Content)
  | .handshake title key => do
    handleHandshake title key
    return []
  | .login did _ _ => do
    handleLogin did m
    return []
  | .report _ => return []
  | .receipt _ _ => return []
  | .card did card => do
    saveCard did card
    return []
  | .document did card docs _ => do
    saveCard did card
    saveDocuments did docs
    return []
  | .group (.invite group named) => do
    handleInvite group named m
    return []
  | .group (.expel group named) => do
    handleExpel group named m
    return []
  | .group (.quit group) => do
    handleQuit group m
    return []
  | .group (.query group _) => handleQuery group m

/-- Lets the handler of the command's tag answer it; without a handler there is no answer. -/
def dispatch (handlers : Handlers) (m : Message) (command : Command) :
    Action τ MessengerError (List Content) := do
  match handlers.get? command.tag with
  | none => return []
  | some .standard => handleStandard m command
  | some (.answer contents) => return contents
  | some .refuse => throw .missingIdentity

/-- Sends contents back, and counts those that were queued. -/
def sendBack (receiver : Entity) : List Content → Action τ MessengerError Nat
  | [] => return 0
  | content :: rest => do
    let queued ← sendContent none receiver content .normal
    let more ← sendBack receiver rest
    return (if queued.isSome then 1 else 0) + more

/-- Reads a packet, lets its command be handled and sends the answers back. Returns how many of
them were queued. -/
def receive (payload : Bytes) : Action τ MessengerError Nat := do
  let c ← get
  match c.account.codec.decode payload with
  | .error e => throw (.codec e)
  | .ok m =>
    match m.content.command? with
    | none => return 0
    | some command =>
      let contents ← dispatch c.desk.handlers m command
      sendBack m.sender contents

end Courier.Client
