import Courier.Json.Printer
import Courier.Message

/-!
# The JSON form of messages

Records become objects with every member present, a missing one as null. A choice is the name of
the alternative in small letters, with its members attached to it.
-/

namespace Courier

namespace Json

def optional {α : Type} (form : α → Json) : Option α → Json
  | none => .null
  | some a => form a

def word (n : UInt64) : Json := .nat n.toNat

end Json

def EntityKind.form : EntityKind → Json
  | .user => .text "user"
  | .group => .text "group"
  | .station => .text "station"
  | .bot => .text "bot"

def Entity.form (e : Entity) : Json :=
  .object [("name", .text e.name), ("address", .text e.address), ("kind", e.kind.form)]

def Card.form (c : Card) : Json :=
  .object [("public_key", .text c.publicKey), ("seed", .optional .text c.seed)]

def DocumentKind.form : DocumentKind → Json
  | .visa => .text "visa"
  | .bulletin => .text "bulletin"
  | .profile => .text "profile"

def Document.form (d : Document) : Json :=
  .object [("did", d.did.form), ("doc_type", d.kind.form), ("time", .word d.time),
    ("properties", .object d.properties.fields)]

def HandshakeTitle.form : HandshakeTitle → Json
  | .start => .text "start"
  | .again => .text "again"
  | .restart => .text "restart"
  | .success => .text "success"

def ReportTitle.form : ReportTitle → Json
  | .online => .text "online"
  | .offline => .text "offline"

def StationInfo.form (s : StationInfo) : Json :=
  .object [("did", s.did.form), ("host", .text s.host), ("port", .nat s.port.toNat)]

def GroupCommand.form : GroupCommand → Json
  | .invite g ms => .object [("invite",
      .object [("group", g.form), ("members", .array (ms.map Entity.form))])]
  | .expel g ms => .object [("expel",
      .object [("group", g.form), ("members", .array (ms.map Entity.form))])]
  | .quit g => .object [("quit", .object [("group", g.form)])]
  | .query g t => .object [("query",
      .object [("group", g.form), ("last_time", .optional .word t)])]

def Command.form : Command → Json
  | .handshake title session => .object [("handshake",
      .object [("title", title.form), ("session", .optional .text session)])]
  | .login did agent station => .object [("login",
      .object [("did", did.form), ("agent", .optional .text agent),
        ("station", .optional StationInfo.form station)])]
  | .report title => .object [("report", .object [("title", title.form)])]
  | .card did c => .object [("meta",
      .object [("did", did.form), ("meta", .optional Card.form c)])]
  | .document did c docs t => .object [("document",
      .object [("did", did.form), ("meta", .optional Card.form c),
        ("documents", .array (docs.map Document.form)), ("last_time", .optional .word t)])]
  | .receipt s origin => .object [("receipt",
      .object [("text", .text s), ("origin_sn", .optional .word origin)])]
  | .group g => .object [("group", g.form)]

def Body.form : Body → Json
  | .text s => .object [("text", .object [("text", .text s)])]
  | .command c => .object [("command", c.form)]

def Content.form (c : Content) : Json :=
  .object [("sn", .word c.serial), ("time", .word c.time),
    ("group", .optional Entity.form c.group), ("body", c.body.form)]

def Message.form (m : Message) : Json :=
  .object [("sender", m.sender.form), ("receiver", m.receiver.form), ("time", .word m.time),
    ("content", m.content.form), ("meta", .optional Card.form m.card),
    ("visa", .optional Document.form m.visa)]

end Courier
