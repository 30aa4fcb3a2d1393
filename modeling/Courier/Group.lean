import Courier.Client.Inbound

/-!
# Group membership

Every change of a group is computed first, then told to the assistants and the members concerned,
and stored last. In a group of up to two members an invitation tells everyone the full roster; in
a larger one the old members are told only who is new.
-/

namespace Courier.Group

open Client

variable {τ : Type}

/-- Broadcast addresses are no groups. -/
def ensureGroup (group : Entity) : Action τ GroupError Unit :=
  if group.isGroup && !group.isBroadcast then return else throw (.notAGroup group)

def sendToAll (group : Entity) (command : Command) : List Entity → Action τ GroupError Unit
  | [] => return
  | receiver :: rest => do
    let content ← newContent (.command command)
    let _ ← messaging (sendContent none receiver (content.inGroup group) .normal)
    sendToAll group command rest

/-- What a new member needs to know about the group itself. -/
def bundle (d : Directory) (group : Entity) (card : Card) : Command :=
  match d.documents group with
  | [] => .card group (some card)
  | docs => .document group (some card) docs none

/-- Asks for the roster and reports that nothing was done. -/
def deferred (group : Entity) : Action τ GroupError Bool := do
  let _ ← messaging (queryMembers group)
  return false

/-- Sends a content to the first of the assistants that takes it; also whether one did. -/
def sendToFirst (content : Content) : List Entity → Action τ GroupError Bool
  | [] => return false
  | bot :: rest => do
    match ← messaging (sendContent none bot content .normal) with
    | some _ => return true
    | none => sendToFirst content rest

def send (group : Entity) (content : Content) : Action τ GroupError Bool := do
  ensureGroup group
  let bots := (← directory).assistants group
  if bots.isEmpty then deferred group
  else sendToFirst (content.inGroup group) bots

/-- Those of the named who are not in the roster, each once. -/
def newcomers (roster named : List Entity) : List Entity :=
  named.foldl (fun found e =>
    if roster.contains e || found.contains e then found else found ++ [e]) []

def invite (group : Entity) (named : List Entity) : Action τ GroupError Bool := do
  ensureGroup group
  let d ← directory
  match d.card? group with
  | none =>
    let _ ← messaging (queryCard group)
    return false
  | some card =>
    match d.members? group with
    | none => deferred group
    | some members =>
      let bots := d.assistants group
      let added := newcomers members named
      if added.isEmpty then return false
      else
        let roster := members ++ added
        let whole : Command := .group (.invite group roster)
        if members.length ≤ 2 then
          sendToAll group (bundle d group card) bots
          sendToAll group whole bots
          sendToAll group whole roster
        else
          let news : Command := .group (.invite group added)
          sendToAll group (bundle d group card) added
          sendToAll group news bots
          sendToAll group news members
          sendToAll group whole added
        saveMembers group roster

/-- Tells the owner of a change if the roster does not list him. -/
def tellOwner (group : Entity) (command : Command) (owner : Entity) (roster : List Entity) :
    Action τ GroupError Unit :=
  if roster.contains owner then return else sendToAll group command [owner]

/-- Removes members from a group. Assistants and the owner cannot be removed. -/
def expel (group : Entity) (named : List Entity) : Action τ GroupError Bool := do
  ensureGroup group
  let d ← directory
  let bots := d.assistants group
  match named.find? bots.contains with
  | some bot => throw (.cannotExpelAssistant bot)
  | none =>
    match (d.owner? group).filter named.contains with
    | some owner => throw (.cannotExpelOwner owner)
    | none =>
      match d.owner? group, d.members? group with
      | some owner, some members =>
        let roster := without members named
        if roster.length = members.length then return false
        else
          let command : Command := .group (.expel group named)
          sendToAll group command bots
          sendToAll group command members
          tellOwner group command owner members
          saveMembers group roster
      | _, _ => deferred group

/-- Leaves a group. Assistants and the owner cannot leave. -/
def quit (group : Entity) : Action τ GroupError Bool := do
  ensureGroup group
  let user ← messaging currentUser
  let d ← directory
  let bots := d.assistants group
  if bots.contains user.id then throw (.assistantCannotQuit user.id)
  else if d.owner? group = some user.id then throw (.ownerCannotQuit user.id)
  else
    match d.owner? group, d.members? group with
    | some owner, some members =>
      let command : Command := .group (.quit group)
      let roster := without members [user.id]
      sendToAll group command bots
      sendToAll group command roster
      tellOwner group command owner roster
      saveMembers group roster
    | _, _ => deferred group

/-- Asks the assistants for the roster; false while an equal query cools down. -/
def query (group : Entity) : Action τ GroupError Bool := do
  ensureGroup group
  messaging (queryMembers group)

end Courier.Group
