import Courier.Settings
import Courier.Text.Blank
import Courier.Text.Quoted

/-!
# Settings from the environment

Variables of the environment override single settings and tell where the station is. A variable
is any byte string; the first one that cannot be read decides what is reported.
-/

namespace Courier

/-- The value of each variable that is set. -/
abbrev Environment := String → Option Bytes

/-- Why a text is not a number of a given range. -/
inductive NumberError where
  | empty
  | invalidDigit
  | tooLarge
  deriving DecidableEq, Repr

inductive EnvironmentError where
  | missing
  | notText (value : Bytes)
  deriving DecidableEq, Repr

inductive SettingsError where
  | notText (name : String) (value : Bytes)
  | notNumber (name value : String) (cause : NumberError)
  | tooManyRetries
  | notSet (name : String) (cause : EnvironmentError)
  | notPort (value : String) (cause : NumberError)
  deriving DecidableEq, Repr

def NumberError.message : NumberError → String
  | .empty => "cannot parse integer from empty string"
  | .invalidDigit => "invalid digit found in string"
  | .tooLarge => "number too large to fit in target type"

def EnvironmentError.message : EnvironmentError → String
  | .missing => "environment variable not found"
  | .notText value => "environment variable was not valid unicode: " ++ Text.quoted value

def SettingsError.message : SettingsError → String
  | .notText name value =>
    name ++ " is not valid unicode: " ++ (EnvironmentError.notText value).message
  | .notNumber name value cause =>
    "Failed to parse " ++ name ++ ": " ++ value ++ ": " ++ cause.message
  | .tooManyRetries => "MAX_RETRIES does not fit in u32: " ++ NumberError.tooLarge.message
  | .notSet name cause => name ++ " is not set: " ++ cause.message
  | .notPort value cause => "Failed to parse station port: " ++ value ++ ": " ++ cause.message

namespace Environment

/-- Reads digits behind those already read; the first that is wrong or too much decides. -/
def readDigits (bound : Nat) (n : Nat) : List Char → Except NumberError Nat
  | [] => .ok n
  | c :: rest =>
    if c.isDigit then
      let n := 10 * n + (c.toNat - '0'.toNat)
      if n ≤ bound then readDigits bound n rest else .error .tooLarge
    else .error .invalidDigit

/-- Reads a number from zero up to a bound, perhaps with a plus sign. -/
def readNumber (bound : Nat) (s : String) : Except NumberError Nat :=
  match s.toList with
  | [] => .error .empty
  | ['+'] => .error .invalidDigit
  | '+' :: digits => readDigits bound 0 digits
  | digits => readDigits bound 0 digits

def text (env : Environment) (name : String) : Except EnvironmentError String :=
  match env name with
  | none => .error .missing
  | some value =>
    match Bytes.text? value with
    | none => .error (.notText value)
    | some s => .ok s

/-- A variable that overrides a number, if it is set. Blanks around the number are ignored. -/
def number? (env : Environment) (name : String) : Except SettingsError (Option UInt64) :=
  match env.text name with
  | .error .missing => .ok none
  | .error (.notText value) => .error (.notText name value)
  | .ok s =>
    match readNumber (UInt64.size - 1) (Text.trim s) with
    | .error cause => .error (.notNumber name s cause)
    | .ok n => .ok (some n.toUInt64)

def required (env : Environment) (name : String) : Except SettingsError String :=
  (env.text name).mapError (.notSet name)

end Environment

/-- The standard settings, as far as the environment does not override them. -/
def Settings.ofEnvironment (env : Environment) (userAgent : String) :
    Except SettingsError Settings := do
  let s := Settings.standard userAgent
  let handshakeTimeout := (← env.number? "HANDSHAKE_TIMEOUT_MS").getD s.handshakeTimeout
  let queryCooldown := (← env.number? "QUERY_COOLDOWN_MS").getD s.queryCooldown
  let maxRetries ← match ← env.number? "MAX_RETRIES" with
    | none => pure s.maxRetries
    | some n => if n.toNat < UInt32.size then pure n.toUInt32 else throw .tooManyRetries
  let shipmentExpiry := (← env.number? "SHIPMENT_EXPIRY_MS").getD s.shipmentExpiry
  let keepOnlineInterval := (← env.number? "KEEP_ONLINE_INTERVAL_MS").getD s.keepOnlineInterval
  return { s with handshakeTimeout, queryCooldown, maxRetries, shipmentExpiry, keepOnlineInterval }

structure StationAddress where
  host : String
  port : UInt16
  deriving DecidableEq, Repr

/-- Both variables must be set; the port is taken as it stands, with no blanks around it. -/
def StationAddress.ofEnvironment (env : Environment) : Except SettingsError StationAddress := do
  let host ← env.required "STATION_HOST"
  let port ← env.required "STATION_PORT"
  match Environment.readNumber (UInt16.size - 1) port with
  | .error cause => throw (.notPort port cause)
  | .ok n => return ⟨host, n.toUInt16⟩

end Courier
