import Courier.Json.Reading
import Courier.Message

/-!
# Reading messages

One reader per kind of value in the JSON form of messages. Members may come in any order.
-/

namespace Courier.Envelope

open Json Json.Reader

def entityKind : Reader EntityKind := bare fun
  | "user" => some .user
  | "group" => some .group
  | "station" => some .station
  | "bot" => some .bot
  | _ => none

def entity : Reader Entity := fun depth t => do
  let m ← record ["name", "address", "kind"] 3 depth t
  return { name := ← m.need "name" text
           address := ← m.need "address" text
           kind := ← m.need "kind" entityKind }

def card : Reader Card := fun depth t => do
  let m ← record ["public_key", "seed"] 2 depth t
  return { publicKey := ← m.need "public_key" text
           seed := ← m.maybe "seed" text }

def documentKind : Reader DocumentKind := bare fun
  | "visa" => some .visa
  | "bulletin" => some .bulletin
  | "profile" => some .profile
  | _ => none

/-- The properties may be left out. -/
def document : Reader Document := fun depth t => do
  let m ← record ["did", "doc_type", "time", "properties"] 3 depth t
  let did ← m.need "did" entity
  let kind ← m.need "doc_type" documentKind
  let time ← m.need "time" word64
  match m.fields.lookup "properties" with
  | none => return ⟨did, kind, time, .empty⟩
  | some t => return ⟨did, kind, time, ← properties m.depth t⟩

def handshakeTitle : Reader HandshakeTitle := bare fun
  | "start" => some .start
  | "again" => some .again
  | "restart" => some .restart
  | "success" => some .success
  | _ => none

def reportTitle : Reader ReportTitle := bare fun
  | "online" => some .online
  | "offline" => some .offline
  | _ => none

def stationInfo : Reader StationInfo := fun depth t => do
  let m ← record ["did", "host", "port"] 3 depth t
  return { did := ← m.need "did" entity
           host := ← m.need "host" text
           port := ← m.need "port" word16 }

def groupCommand : Reader GroupCommand := fun depth t => do
  let (name, attached) ← choice depth t
  let (depth, t) ← attached
  match name with
  | "invite" =>
    let m ← record ["group", "members"] 2 depth t
    return .invite (← m.need "group" entity) (← m.need "members" (list entity))
  | "expel" =>
    let m ← record ["group", "members"] 2 depth t
    return .expel (← m.need "group" entity) (← m.need "members" (list entity))
  | "quit" =>
    let m ← record ["group"] 1 depth t
    return .quit (← m.need "group" entity)
  | "query" =>
    let m ← record ["group", "last_time"] 2 depth t
    return .query (← m.need "group" entity) (← m.maybe "last_time" word64)
  | _ => none

def command : Reader Command := fun depth t => do
  let (name, attached) ← choice depth t
  let (depth, t) ← attached
  match name with
  | "handshake" =>
    let m ← record ["title", "session"] 2 depth t
    return .handshake (← m.need "title" handshakeTitle) (← m.maybe "session" text)
  | "login" =>
    let m ← record ["did", "agent", "station"] 3 depth t
    return .login (← m.need "did" entity) (← m.maybe "agent" text) (← m.maybe "station" stationInfo)
  | "report" =>
    let m ← record ["title"] 1 depth t
    return .report (← m.need "title" reportTitle)
  | "meta" =>
    let m ← record ["did", "meta"] 2 depth t
    return .card (← m.need "did" entity) (← m.maybe "meta" card)
  | "document" =>
    let m ← record ["did", "meta", "documents", "last_time"] 4 depth t
    return .document (← m.need "did" entity) (← m.maybe "meta" card)
      (← m.need "documents" (list document)) (← m.maybe "last_time" word64)
  | "receipt" =>
    let m ← record ["text", "origin_sn"] 2 depth t
    return .receipt (← m.need "text" text) (← m.maybe "origin_sn" word64)
  | "group" => return .group (← groupCommand depth t)
  | _ => none

def body : Reader Body := fun depth t => do
  let (name, attached) ← choice depth t
  let (depth, t) ← attached
  match name with
  | "text" =>
    let m ← record ["text"] 1 depth t
    return .text (← m.need "text" text)
  | "command" => return .command (← command depth t)
  | _ => none

def content : Reader Content := fun depth t => do
  let m ← record ["sn", "time", "group", "body"] 4 depth t
  return { serial := ← m.need "sn" word64
           time := ← m.need "time" word64
           group := ← m.maybe "group" entity
           body := ← m.need "body" body }

def message : Reader Message := fun depth t => do
  let m ← record ["sender", "receiver", "time", "content", "meta", "visa"] 6 depth t
  return { sender := ← m.need "sender" entity
           receiver := ← m.need "receiver" entity
           time := ← m.need "time" word64
           content := ← m.need "content" content
           card := ← m.maybe "meta" card
           visa := ← m.maybe "visa" document }

end Courier.Envelope
