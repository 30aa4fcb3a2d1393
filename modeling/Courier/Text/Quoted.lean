import Courier.Bytes
import Courier.Text.Hidden

/-!
# Quoted byte strings

Bytes that need not be a text, shown between double quotes. The double quote, the backslash and
what does not show are escaped; a byte that belongs to no character is shown as two hexadecimal
digits.
-/

namespace Courier.Text

/-- A character, or a byte that belongs to none. -/
inductive Glyph where
  | char (c : Char)
  | stray (b : UInt8)
  deriving DecidableEq, Repr

/-- The character that the bytes begin with, and how many bytes it takes. -/
def firstChar? (bs : Bytes) : Option (Char × Nat) :=
  [1, 2, 3, 4].findSome? fun n =>
    match Bytes.text? (bs.take n) with
    | some s =>
      match s.toList with
      | [c] => some (c, n)
      | _ => none
    | none => none

/-- The glyphs of the bytes behind the first `skip` ones. -/
def glyphsFrom : Nat → Bytes → List Glyph
  | _, [] => []
  | skip + 1, _ :: bs => glyphsFrom skip bs
  | 0, b :: bs =>
    match firstChar? (b :: bs) with
    | some (c, n) => .char c :: glyphsFrom (n - 1) bs
    | none => .stray b :: glyphsFrom 0 bs

def glyphs (bs : Bytes) : List Glyph :=
  glyphsFrom 0 bs

/-- The code point of a character in hexadecimal, between braces. -/
def escapeCode (c : Char) : List Char :=
  ['\\', 'u', '\x7b'] ++ Nat.toDigits 16 c.toNat ++ ['\x7d']

def escapeChar (c : Char) : List Char :=
  match c with
  | '\x00' => ['\\', '0']
  | '\t' => ['\\', 't']
  | '\n' => ['\\', 'n']
  | '\r' => ['\\', 'r']
  | '\\' => ['\\', '\\']
  | '"' => ['\\', '"']
  | c => if isHidden c then escapeCode c else [c]

def upperHex (d : Nat) : Char :=
  if d < 10 then Char.ofNat (0x30 + d) else Char.ofNat (0x37 + d)

def escapeGlyph : Glyph → List Char
  | .char c => escapeChar c
  | .stray b => ['\\', 'x', upperHex (b.toNat / 16), upperHex (b.toNat % 16)]

def quoted (bs : Bytes) : String :=
  String.ofList (['"'] ++ (glyphs bs).flatMap escapeGlyph ++ ['"'])

end Courier.Text
