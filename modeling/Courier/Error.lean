import Courier.Entity

/-!
# What can go wrong

One type of causes per layer; a layer wraps the causes of the layers below it, and a wrapped cause
keeps its text.
-/

namespace Courier

inductive TransportError where
  | connectFailed (remote : String)
  | connectionLost
  | closed
  deriving DecidableEq, Repr

inductive CodecError where
  | invalidJson
  | malformed (why : String)
  deriving DecidableEq, Repr

/-- The states that a session moves through. -/
inductive Phase where
  | default
  | connecting
  | connected
  | handshaking
  | running
  | error
  deriving DecidableEq, Repr

inductive SessionError where
  | invalidTransition (source target : Phase)
  | transport (cause : TransportError)
  deriving DecidableEq, Repr

inductive MessengerError where
  | missingIdentity
  | codec (cause : CodecError)
  | session (cause : SessionError)
  deriving DecidableEq, Repr

inductive GroupError where
  | notAGroup (id : Entity)
  | cannotExpelAssistant (id : Entity)
  | cannotExpelOwner (id : Entity)
  | assistantCannotQuit (id : Entity)
  | ownerCannotQuit (id : Entity)
  | messenger (cause : MessengerError)
  deriving DecidableEq, Repr

inductive TerminalError where
  | notConnected
  | transport (cause : TransportError)
  | session (cause : SessionError)
  | messenger (cause : MessengerError)
  | group (cause : GroupError)
  deriving DecidableEq, Repr

/-! ### Kinds

The name of a cause, behind the names of the layers that wrap it. -/

def TransportError.kind : TransportError → String
  | .connectFailed _ => "ConnectFailed"
  | .connectionLost => "ConnectionLost"
  | .closed => "Closed"

def CodecError.kind : CodecError → String
  | .invalidJson => "InvalidJson"
  | .malformed _ => "MalformedEnvelope"

def SessionError.kind : SessionError → String
  | .invalidTransition _ _ => "InvalidStateTransition"
  | .transport e => "TransportError/" ++ e.kind

def MessengerError.kind : MessengerError → String
  | .missingIdentity => "MissingIdentity"
  | .codec e => "CodecError/" ++ e.kind
  | .session e => "SessionError/" ++ e.kind

def GroupError.kind : GroupError → String
  | .notAGroup _ => "NotAGroup"
  | .cannotExpelAssistant _ => "CannotExpelAssistant"
  | .cannotExpelOwner _ => "CannotExpelOwner"
  | .assistantCannotQuit _ => "AssistantCannotQuit"
  | .ownerCannotQuit _ => "OwnerCannotQuit"
  | .messenger e => "MessengerError/" ++ e.kind

def TerminalError.kind : TerminalError → String
  | .notConnected => "NotConnected"
  | .transport e => "TransportError/" ++ e.kind
  | .session e => "SessionError/" ++ e.kind
  | .messenger e => "MessengerError/" ++ e.kind
  | .group e => "GroupError/" ++ e.kind

/-! ### Texts -/

def TransportError.message : TransportError → String
  | .connectFailed remote => "Failed to connect to station " ++ remote
  | .connectionLost => "Connection to station lost"
  | .closed => "Transport already closed"

def CodecError.message : CodecError → String
  | .invalidJson => "JSON processing error"
  | .malformed why => "Malformed envelope: " ++ why

def Phase.name : Phase → String
  | .default => "Default"
  | .connecting => "Connecting"
  | .connected => "Connected"
  | .handshaking => "Handshaking"
  | .running => "Running"
  | .error => "Error"

def SessionError.message : SessionError → String
  | .invalidTransition source target =>
    "Invalid state transition from " ++ source.name ++ " to " ++ target.name
  | .transport cause => cause.message

def MessengerError.message : MessengerError → String
  | .missingIdentity => "No user signed in"
  | .codec cause => cause.message
  | .session cause => cause.message

def GroupError.message : GroupError → String
  | .notAGroup id => id.text ++ " is not a group"
  | .cannotExpelAssistant id => "Cannot expel group assistant: " ++ id.text
  | .cannotExpelOwner id => "Cannot expel group owner: " ++ id.text
  | .assistantCannotQuit id => "Group assistant cannot quit: " ++ id.text
  | .ownerCannotQuit id => "Group owner cannot quit: " ++ id.text
  | .messenger cause => cause.message

/-- Whether the group protocol forbids the request outright. -/
def GroupError.isViolation : GroupError → Bool
  | .messenger _ => false
  | _ => true

def TerminalError.message : TerminalError → String
  | .notConnected => "Not connected to a station"
  | .transport cause => cause.message
  | .session cause => cause.message
  | .messenger cause => cause.message
  | .group cause => cause.message

end Courier
