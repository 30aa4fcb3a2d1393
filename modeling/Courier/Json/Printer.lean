import Courier.Decimal.Shortest
import Courier.Json.Value

/-!
# JSON text

Values are written without blanks, members in the order of the list. In a text the quote, the
backslash and the control characters are escaped, and nothing else.
-/

namespace Courier.Json

/-- The escape of a byte of a text. Only ASCII bytes have one, so characters beyond ASCII keep
their bytes. -/
def escapeByte (b : UInt8) : Bytes :=
  match b with
  | 0x22 => [0x5C, 0x22]
  | 0x5C => [0x5C, 0x5C]
  | 0x08 => [0x5C, 0x62]
  | 0x0C => [0x5C, 0x66]
  | 0x0A => [0x5C, 0x6E]
  | 0x0D => [0x5C, 0x72]
  | 0x09 => [0x5C, 0x74]
  | b => if b < 0x20 then [0x5C, 0x75, 0x30, 0x30, hexDigit (b / 16), hexDigit (b % 16)] else [b]
where
  hexDigit (d : UInt8) : UInt8 :=
    if d < 10 then 0x30 + d else 0x57 + d

def quoted (s : String) : Bytes :=
  [0x22] ++ (Bytes.ofString s).flatMap escapeByte ++ [0x22]

/-- Numbers are positional from `1e-5` up to `1e16`. -/
def numberStyle : Binary64.Style := ⟨-4, 16⟩

def intBytes (n : Int) : Bytes :=
  if n < 0 then 0x2D :: Decimal.bytes n.natAbs else Decimal.bytes n.natAbs

mutual

def bytes : Json → Bytes
  | .null => [0x6E, 0x75, 0x6C, 0x6C]
  | .bool true => [0x74, 0x72, 0x75, 0x65]
  | .bool false => [0x66, 0x61, 0x6C, 0x73, 0x65]
  | .int n => intBytes n
  | .float x => x.bytes numberStyle
  | .text s => quoted s
  | .array items => 0x5B :: itemBytes items
  | .object fields => 0x7B :: fieldBytes fields

def itemBytes : List Json → Bytes
  | [] => [0x5D]
  | [v] => v.bytes ++ [0x5D]
  | v :: rest => v.bytes ++ 0x2C :: itemBytes rest

def fieldBytes : List (String × Json) → Bytes
  | [] => [0x7D]
  | [(k, v)] => quoted k ++ 0x3A :: v.bytes ++ [0x7D]
  | (k, v) :: rest => quoted k ++ 0x3A :: v.bytes ++ 0x2C :: fieldBytes rest

end

end Courier.Json
