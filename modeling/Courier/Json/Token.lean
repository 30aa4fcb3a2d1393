import Courier.Decimal

/-!
# JSON tokens

The reader of tokens takes one byte at a time. It checks spelling only: what a text or a number
denotes is settled by whoever keeps it, so a token that is skipped is never decoded.
-/

namespace Courier.Json

/-- A piece of quoted text: a byte, or a UTF-16 unit written as an escape. -/
inductive Piece where
  | byte (b : UInt8)
  | unit (u : UInt16)
  deriving DecidableEq, Repr

/-- A number as written. The fraction is empty when there is no point. -/
structure Numeral where
  negative : Bool
  whole : List Nat
  fraction : List Nat
  exponent : Option (Bool × List Nat)
  deriving DecidableEq, Repr

inductive Token where
  | openObject
  | closeObject
  | openArray
  | closeArray
  | colon
  | comma
  | null
  | bool (b : Bool)
  | number (n : Numeral)
  | text (pieces : List Piece)
  deriving DecidableEq, Repr

/-- How far into a number the reader is. Digits are held last one first. -/
inductive Partial where
  | sign
  | zero (negative : Bool)
  | whole (negative : Bool) (digits : List Nat)
  | point (negative : Bool) (whole : List Nat)
  | fraction (negative : Bool) (whole digits : List Nat)
  | mark (negative : Bool) (whole fraction : List Nat)
  | markSign (negative : Bool) (whole fraction : List Nat) (below : Bool)
  | exponent (negative : Bool) (whole fraction : List Nat) (below : Bool) (digits : List Nat)

/-- What one more byte does to a number: nothing here fits, it goes on, or it ended before the
byte. -/
inductive Partial.Next where
  | refuse
  | more (p : Partial)
  | ended (n : Numeral)

namespace Partial

def isMark (b : UInt8) : Bool :=
  b == 0x65 || b == 0x45

def next : Partial → UInt8 → Next
  | .sign, b => start true b
  | .zero s, b =>
    match Decimal.digit? b with
    | some _ => .refuse
    | none => afterWhole s [0] b
  | .whole s ds, b =>
    match Decimal.digit? b with
    | some d => .more (.whole s (d :: ds))
    | none => afterWhole s ds b
  | .point s w, b =>
    match Decimal.digit? b with
    | some d => .more (.fraction s w [d])
    | none => .refuse
  | .fraction s w ds, b =>
    match Decimal.digit? b with
    | some d => .more (.fraction s w (d :: ds))
    | none => if isMark b then .more (.mark s w ds) else .ended ⟨s, w.reverse, ds.reverse, none⟩
  | .mark s w f, b =>
    match Decimal.digit? b with
    | some d => .more (.exponent s w f false [d])
    | none =>
      if b = 0x2B then .more (.markSign s w f false)
      else if b = 0x2D then .more (.markSign s w f true)
      else .refuse
  | .markSign s w f below, b =>
    match Decimal.digit? b with
    | some d => .more (.exponent s w f below [d])
    | none => .refuse
  | .exponent s w f below ds, b =>
    match Decimal.digit? b with
    | some d => .more (.exponent s w f below (d :: ds))
    | none => .ended ⟨s, w.reverse, f.reverse, some (below, ds.reverse)⟩
where
  /-- The first digit; a leading zero stands alone. -/
  start (negative : Bool) (b : UInt8) : Next :=
    match Decimal.digit? b with
    | some 0 => .more (.zero negative)
    | some d => .more (.whole negative [d])
    | none => .refuse
  afterWhole (negative : Bool) (ds : List Nat) (b : UInt8) : Next :=
    if b = 0x2E then .more (.point negative ds)
    else if isMark b then .more (.mark negative ds [])
    else .ended ⟨negative, ds.reverse, [], none⟩

/-- The number, if it may end here. -/
def close? : Partial → Option Numeral
  | .zero s => some ⟨s, [0], [], none⟩
  | .whole s ds => some ⟨s, ds.reverse, [], none⟩
  | .fraction s w ds => some ⟨s, w.reverse, ds.reverse, none⟩
  | .exponent s w f below ds => some ⟨s, w.reverse, f.reverse, some (below, ds.reverse)⟩
  | _ => none

end Partial

/-- What the reader is in the middle of. Pieces of a text are held last one first. -/
inductive Mode where
  | between
  | word (rest : Bytes) (token : Token)
  | number (p : Partial)
  | text (pieces : List Piece)
  | escape (pieces : List Piece)
  | hex (pieces : List Piece) (missing : Nat) (value : Nat)

/-- The reader with the tokens it has completed, last one first. -/
structure Lexer where
  mode : Mode
  tokens : List Token

def isBlank (b : UInt8) : Bool :=
  b == 0x20 || b == 0x09 || b == 0x0A || b == 0x0D

def hexDigit? (b : UInt8) : Option Nat :=
  if 0x30 ≤ b ∧ b ≤ 0x39 then some (b - 0x30).toNat
  else if 0x61 ≤ b ∧ b ≤ 0x66 then some (b - 0x57).toNat
  else if 0x41 ≤ b ∧ b ≤ 0x46 then some (b - 0x37).toNat
  else none

/-- The byte that a one-letter escape stands for. -/
def escaped? (b : UInt8) : Option UInt8 :=
  match b with
  | 0x22 => some 0x22
  | 0x5C => some 0x5C
  | 0x2F => some 0x2F
  | 0x62 => some 0x08
  | 0x66 => some 0x0C
  | 0x6E => some 0x0A
  | 0x72 => some 0x0D
  | 0x74 => some 0x09
  | _ => none

namespace Lexer

def start : Lexer := ⟨.between, []⟩

/-- A byte outside every token. -/
def open? (tokens : List Token) (b : UInt8) : Option Lexer :=
  if isBlank b then some ⟨.between, tokens⟩
  else
    match b with
    | 0x7B => some ⟨.between, .openObject :: tokens⟩
    | 0x7D => some ⟨.between, .closeObject :: tokens⟩
    | 0x5B => some ⟨.between, .openArray :: tokens⟩
    | 0x5D => some ⟨.between, .closeArray :: tokens⟩
    | 0x3A => some ⟨.between, .colon :: tokens⟩
    | 0x2C => some ⟨.between, .comma :: tokens⟩
    | 0x22 => some ⟨.text [], tokens⟩
    | 0x2D => some ⟨.number .sign, tokens⟩
    | 0x6E => some ⟨.word [0x75, 0x6C, 0x6C] .null, tokens⟩
    | 0x74 => some ⟨.word [0x72, 0x75, 0x65] (.bool true), tokens⟩
    | 0x66 => some ⟨.word [0x61, 0x6C, 0x73, 0x65] (.bool false), tokens⟩
    | _ =>
      match Partial.next.start false b with
      | .more p => some ⟨.number p, tokens⟩
      | _ => none

/-- One more byte, unless it cannot stand there. -/
def feed? (l : Lexer) (b : UInt8) : Option Lexer :=
  match l.mode with
  | .between => open? l.tokens b
  | .word [] token => open? (token :: l.tokens) b
  | .word (c :: rest) token => if b = c then some ⟨.word rest token, l.tokens⟩ else none
  | .number p =>
    match p.next b with
    | .refuse => none
    | .more p => some ⟨.number p, l.tokens⟩
    | .ended n => open? (.number n :: l.tokens) b
  | .text ps =>
    if b = 0x22 then some ⟨.between, .text ps.reverse :: l.tokens⟩
    else if b = 0x5C then some ⟨.escape ps, l.tokens⟩
    else if b < 0x20 then none
    else some ⟨.text (.byte b :: ps), l.tokens⟩
  | .escape ps =>
    if b = 0x75 then some ⟨.hex ps 4 0, l.tokens⟩
    else (escaped? b).map fun c => ⟨.text (.byte c :: ps), l.tokens⟩
  | .hex ps missing value =>
    (hexDigit? b).map fun d =>
      let value := 16 * value + d
      if missing ≤ 1 then ⟨.text (.unit value.toUInt16 :: ps), l.tokens⟩
      else ⟨.hex ps (missing - 1) value, l.tokens⟩

def feedAll? (l : Lexer) : Bytes → Option Lexer
  | [] => some l
  | b :: bs => (l.feed? b).bind fun l => l.feedAll? bs

def finish? (l : Lexer) : Option (List Token) :=
  match l.mode with
  | .between => some l.tokens.reverse
  | .word [] token => some (token :: l.tokens).reverse
  | .number p => p.close?.map fun n => (.number n :: l.tokens).reverse
  | _ => none

end Lexer

def tokens? (bs : Bytes) : Option (List Token) :=
  (Lexer.start.feedAll? bs).bind Lexer.finish?

end Courier.Json
