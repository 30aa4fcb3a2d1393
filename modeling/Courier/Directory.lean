import Courier.Message
import Courier.Table

/-!
# Directory

What a client knows about entities and groups. A group without a stored roster but with a known
owner has the owner as its roster, and an owner who is listed is listed first.
-/

namespace Courier

/-- The signed-in user with the records it presents to a station. -/
structure LocalUser where
  id : Entity
  card : Card
  visa : Document

structure Directory where
  cards : Table Entity Card
  records : Table Entity (List Document)
  rosters : Table Entity (List Entity)
  helpers : Table Entity (List Entity)
  owners : Table Entity Entity

namespace Directory

def empty : Directory :=
  ⟨.empty, .empty, .empty, .empty, .empty⟩

def card? (d : Directory) (id : Entity) : Option Card :=
  d.cards.get? id

def documents (d : Directory) (id : Entity) : List Document :=
  (d.records.get? id).getD []

/-- Whether messages to the entity can be encrypted. -/
def hasEncryptionKey (d : Directory) (id : Entity) : Bool :=
  (d.documents id).any Document.hasEncryptionKey

def assistants? (d : Directory) (group : Entity) : Option (List Entity) :=
  d.helpers.get? group

def assistants (d : Directory) (group : Entity) : List Entity :=
  (d.assistants? group).getD []

def owner? (d : Directory) (group : Entity) : Option Entity :=
  d.owners.get? group

/-- Moves an entity that is listed to the front. -/
def bringForward (e : Entity) (members : List Entity) : List Entity :=
  if members.contains e then e :: members.erase e else members

def members? (d : Directory) (group : Entity) : Option (List Entity) :=
  match d.rosters.get? group, d.owner? group with
  | some (m :: ms), some owner => some (bringForward owner (m :: ms))
  | some (m :: ms), none => some (m :: ms)
  | _, some owner => some [owner]
  | _, none => none

/-- The roster, empty if it is not known. -/
def members (d : Directory) (group : Entity) : List Entity :=
  (d.members? group).getD []

def isAdmin (d : Directory) (group who : Entity) : Bool :=
  d.owner? group == some who || (d.assistants group).contains who

def setOwner (d : Directory) (group owner : Entity) : Directory :=
  { d with owners := d.owners.insert group owner }

def setAssistants (d : Directory) (group : Entity) (assistants : List Entity) : Directory :=
  { d with helpers := d.helpers.insert group assistants }

def saveCard (d : Directory) (id : Entity) (card : Card) : Directory :=
  { d with cards := d.cards.insert id card }

def saveMembers (d : Directory) (group : Entity) (members : List Entity) : Directory :=
  { d with rosters := d.rosters.insert group members }

/-- Replaces the document of the same kind by a newer one, or appends one of a new kind; nothing if
the one at hand is as new. -/
def upsert? (doc : Document) : List Document → Option (List Document)
  | [] => some [doc]
  | held :: rest =>
    if held.kind = doc.kind then
      if doc.time ≤ held.time then none else some (doc :: rest)
    else (upsert? doc rest).map (held :: ·)

/-- Keeps the newest document of each kind; also whether this one was kept. -/
def saveDocument (d : Directory) (doc : Document) : Bool × Directory :=
  match upsert? doc (d.documents doc.did) with
  | none => (false, d)
  | some docs => (true, { d with records := d.records.insert doc.did docs })

end Directory

end Courier
