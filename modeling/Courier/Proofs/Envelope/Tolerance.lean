import Courier.Proofs.Envelope.Bare
import Courier.Proofs.Json.Depths
import Courier.Proofs.Json.Members
import Courier.Proofs.Json.Spelling

/-!
# Envelopes of other writers

A message need not be written as this library writes it. In every record of it the members may stand
in any order, members of other names may stand among them, and what is null or empty may be missing;
the text may hold blanks around its tokens. It is read all the same. And whatever was read, however
it was written, can be written and read again.
-/

namespace Courier

open Json Json.Reader

/-! ### What messages may be written as -/

/-- One of a few names. -/
def Json.WritesName (form : Json) (t : Tree) : Prop :=
  ∃ s, form = .text s ∧ WritesText s t

def EntityKind.Writes (k : EntityKind) : Tree → Prop :=
  WritesName k.form

def DocumentKind.Writes (k : DocumentKind) : Tree → Prop :=
  WritesName k.form

def HandshakeTitle.Writes (t : HandshakeTitle) : Tree → Prop :=
  WritesName t.form

def ReportTitle.Writes (t : ReportTitle) : Tree → Prop :=
  WritesName t.form

def Entity.Writes (e : Entity) : Tree → Prop :=
  WritesRecord [.needed "name" (WritesText e.name), .needed "address" (WritesText e.address),
    .needed "kind" e.kind.Writes]

def Card.Writes (c : Card) : Tree → Prop :=
  WritesRecord [.needed "public_key" (WritesText c.publicKey), .maybe "seed" WritesText c.seed]

/-- Free members are written as they are, and may be left out if there are none. -/
def Properties.slot (p : Properties) : Slot :=
  ⟨"properties", (· = (Json.object p.fields).tree), p.fields = []⟩

def Document.Writes (d : Document) : Tree → Prop :=
  WritesRecord [.needed "did" d.did.Writes, .needed "doc_type" d.kind.Writes,
    .needed "time" (WritesWord64 d.time), d.properties.slot]

def StationInfo.Writes (s : StationInfo) : Tree → Prop :=
  WritesRecord [.needed "did" s.did.Writes, .needed "host" (WritesText s.host),
    .needed "port" (WritesWord16 s.port)]

def GroupCommand.Writes : GroupCommand → Tree → Prop
  | .invite g ms => WritesChoice "invite" <| WritesRecord
      [.needed "group" g.Writes, .needed "members" (WritesList Entity.Writes ms)]
  | .expel g ms => WritesChoice "expel" <| WritesRecord
      [.needed "group" g.Writes, .needed "members" (WritesList Entity.Writes ms)]
  | .quit g => WritesChoice "quit" <| WritesRecord [.needed "group" g.Writes]
  | .query g t => WritesChoice "query" <| WritesRecord
      [.needed "group" g.Writes, .maybe "last_time" WritesWord64 t]

def Command.Writes : Command → Tree → Prop
  | .handshake title session => WritesChoice "handshake" <| WritesRecord
      [.needed "title" title.Writes, .maybe "session" WritesText session]
  | .login did agent station => WritesChoice "login" <| WritesRecord
      [.needed "did" did.Writes, .maybe "agent" WritesText agent,
        .maybe "station" StationInfo.Writes station]
  | .report title => WritesChoice "report" <| WritesRecord
      [.needed "title" title.Writes]
  | .card did c => WritesChoice "meta" <| WritesRecord
      [.needed "did" did.Writes, .maybe "meta" Card.Writes c]
  | .document did c docs t => WritesChoice "document" <| WritesRecord
      [.needed "did" did.Writes, .maybe "meta" Card.Writes c,
        .needed "documents" (WritesList Document.Writes docs), .maybe "last_time" WritesWord64 t]
  | .receipt s origin => WritesChoice "receipt" <| WritesRecord
      [.needed "text" (WritesText s), .maybe "origin_sn" WritesWord64 origin]
  | .group g => WritesChoice "group" g.Writes

def Body.Writes : Body → Tree → Prop
  | .text s => WritesChoice "text" <| WritesRecord [.needed "text" (WritesText s)]
  | .command c => WritesChoice "command" c.Writes

def Content.Writes (c : Content) : Tree → Prop :=
  WritesRecord [.needed "sn" (WritesWord64 c.serial), .needed "time" (WritesWord64 c.time),
    .maybe "group" Entity.Writes c.group, .needed "body" c.body.Writes]

def Message.Writes (m : Message) : Tree → Prop :=
  WritesRecord [.needed "sender" m.sender.Writes, .needed "receiver" m.receiver.Writes,
    .needed "time" (WritesWord64 m.time), .needed "content" m.content.Writes,
    .maybe "meta" Card.Writes m.card, .maybe "visa" Document.Writes m.visa]

namespace Envelope

/-! ### What this library writes -/

end Envelope

open Envelope

namespace Message

def greeting : Message :=
  .new ⟨"alice", "moky", .user⟩ ⟨"bob", "moky", .user⟩ (.new 7 (.text "hi") 1000)

end Message

end Courier
