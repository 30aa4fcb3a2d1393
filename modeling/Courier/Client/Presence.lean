import Courier.Client.Send

/-!
# Presence

The handshake that opens a session, and the reports by which others learn that the user is there.
-/

namespace Courier.Client

variable {τ : Type}

/-- Sends a handshake to the station. Without a key it is the first one and carries card and visa
of the user; with a key it is the retry that the station asked for. -/
def handshake (key : Option String) : Action τ MessengerError Unit := do
  let user ← currentUser
  let station := (← get).session.station
  match key with
  | none =>
    let content ← newContent (.command (.handshake .start none))
    let m := Message.new user.id station (content.inGroup .everyStation)
    let _ ← sendInstant { m with card := some user.card, visa := some user.visa } .handshake
  | some key =>
    let content ← newContent (.command (.handshake .restart (some key)))
    let _ ← sendInstant (Message.new user.id station content) .handshake

def broadcastDocument : Action τ MessengerError Unit := do
  let user ← currentUser
  let _ ← announce .everyone (.document user.id (some user.card) [user.visa] none) .broadcast

def markOnline : Action τ MessengerError Unit :=
  modify fun c => { c with desk := { c.desk with lastOnline := some c.account.clock } }

/-- The station accepted the session. -/
def handshakeSuccess : Action τ MessengerError Unit := do
  broadcastDocument
  markOnline

/-- Tells everyone at which station the user is. -/
def broadcastLogin (agent : String) : Action τ MessengerError Unit := do
  let user ← currentUser
  let s := (← get).session
  let _ ← announce .everyone (.login user.id (some agent) (some ⟨s.station, s.host, s.port⟩))
    .broadcast

def report (title : ReportTitle) : Action τ MessengerError Unit := do
  let _ ← announce .anyStation (.report title) .broadcast

/-- Refreshes the user's presence: stations report themselves, others log in again. -/
def keepOnline : Action τ MessengerError Unit := do
  let user ← currentUser
  if user.id.kind = .station then report .online
  else broadcastLogin (← get).account.settings.userAgent
  markOnline

end Courier.Client
