import Courier.Decimal
import Courier.Entity
import Courier.Json.Value
import Courier.Time

/-!
# Messages

What clients and stations say to each other: texts and commands, each carried as a content with a
serial number from a sender to a receiver.
-/

namespace Courier

/-- The unchanging public description of an entity. -/
structure Card where
  publicKey : String
  seed : Option String
  deriving DecidableEq, Repr

inductive DocumentKind where
  | visa
  | bulletin
  | profile
  deriving DecidableEq, Repr

/-- A dated record about an entity. -/
structure Document where
  did : Entity
  kind : DocumentKind
  time : Millis
  properties : Properties

namespace Document

def new (did : Entity) (kind : DocumentKind) (time : Millis) : Document :=
  ⟨did, kind, time, .empty⟩

/-- Whether the document is a visa with a key for encrypting to its owner. -/
def hasEncryptionKey (d : Document) : Bool :=
  d.kind == .visa && d.properties.hasKey "key"

def newest? (docs : List Document) : Option Millis :=
  (docs.map Document.time).max?

end Document

inductive HandshakeTitle where
  | start
  | again
  | restart
  | success
  deriving DecidableEq, Repr

inductive ReportTitle where
  | online
  | offline
  deriving DecidableEq, Repr

structure StationInfo where
  did : Entity
  host : String
  port : UInt16
  deriving DecidableEq, Repr

/-- A membership command. The acting party is the sender of the message. -/
inductive GroupCommand where
  | invite (group : Entity) (members : List Entity)
  | expel (group : Entity) (members : List Entity)
  | quit (group : Entity)
  | query (group : Entity) (lastTime : Option Millis)
  deriving DecidableEq, Repr

namespace GroupCommand

def group : GroupCommand → Entity
  | .invite g _ => g
  | .expel g _ => g
  | .quit g => g
  | .query g _ => g

def members : GroupCommand → List Entity
  | .invite _ ms => ms
  | .expel _ ms => ms
  | .quit _ => []
  | .query _ _ => []

end GroupCommand

inductive Command where
  | handshake (title : HandshakeTitle) (session : Option String)
  | login (did : Entity) (agent : Option String) (station : Option StationInfo)
  | report (title : ReportTitle)
  /-- Asks for a card when there is none in it, and otherwise hands it out. -/
  | card (did : Entity) (card : Option Card)
  /-- Asks for documents when there are none in it, and otherwise hands them out. -/
  | document (did : Entity) (card : Option Card) (documents : List Document)
      (lastTime : Option Millis)
  | receipt (text : String) (origin : Option UInt64)
  | group (command : GroupCommand)

/-- The name under which handlers for a command are registered. -/
def Command.tag : Command → String
  | .handshake _ _ => "handshake"
  | .login _ _ _ => "login"
  | .report _ => "report"
  | .card _ _ => "meta"
  | .document _ _ _ _ => "document"
  | .receipt _ _ => "receipt"
  | .group (.invite _ _) => "group.invite"
  | .group (.expel _ _) => "group.expel"
  | .group (.quit _) => "group.quit"
  | .group (.query _ _) => "group.query"

inductive Body where
  | text (s : String)
  | command (c : Command)

abbrev Serial := UInt64

structure Content where
  serial : Serial
  time : Millis
  group : Option Entity
  body : Body

namespace Content

def new (serial : Serial) (body : Body) (time : Millis) : Content :=
  ⟨serial, time, none, body⟩

def inGroup (c : Content) (g : Entity) : Content :=
  { c with group := some g }

def command? (c : Content) : Option Command :=
  match c.body with
  | .text _ => none
  | .command cmd => some cmd

end Content

structure MessageRef where
  sender : Entity
  receiver : Entity
  serial : Serial
  deriving DecidableEq, Repr

/-- The text that queue and tracker know the message by. -/
def MessageRef.id (m : MessageRef) : String :=
  m.sender.text ++ ">" ++ m.receiver.text ++ "#" ++ Decimal.text m.serial.toNat

/-- A content on its way. Card and visa of the sender travel with a first handshake. -/
structure Message where
  sender : Entity
  receiver : Entity
  time : Millis
  content : Content
  card : Option Card
  visa : Option Document

namespace Message

def new (sender receiver : Entity) (content : Content) : Message :=
  ⟨sender, receiver, content.time, content, none, none⟩

def ref (m : Message) : MessageRef :=
  ⟨m.sender, m.receiver, m.content.serial⟩

end Message

end Courier
