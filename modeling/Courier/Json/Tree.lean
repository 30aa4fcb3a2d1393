import Courier.Json.Token

/-!
# JSON trees

The nesting of tokens, with every text and number still as written. Reading takes one token at a
time and holds the open arrays and objects on a stack, so nesting has no limit here.
-/

namespace Courier.Json

inductive Tree where
  | null
  | bool (b : Bool)
  | number (n : Numeral)
  | text (pieces : List Piece)
  | array (items : List Tree)
  | object (fields : List (List Piece × Tree))

/-- An array or object that is still open, with its finished members last one first. -/
inductive Frame where
  | array (items : List Tree)
  | object (fields : List (List Piece × Tree)) (key : List Piece)

/-- What may come next, inside the open frames, innermost first. -/
inductive Assembly where
  | value (stack : List Frame)
  | firstItem (stack : List Frame)
  | firstKey (stack : List Frame)
  | nextKey (fields : List (List Piece × Tree)) (stack : List Frame)
  | afterKey (key : List Piece) (fields : List (List Piece × Tree)) (stack : List Frame)
  | after (t : Tree) (stack : List Frame)

namespace Assembly

/-- A token that begins a value. -/
def begin? (stack : List Frame) : Token → Option Assembly
  | .null => some (.after .null stack)
  | .bool b => some (.after (.bool b) stack)
  | .number n => some (.after (.number n) stack)
  | .text ps => some (.after (.text ps) stack)
  | .openArray => some (.firstItem stack)
  | .openObject => some (.firstKey stack)
  | _ => none

/-- A token behind a finished value. -/
def continue? (t : Tree) : List Frame → Token → Option Assembly
  | .array items :: stack, .comma => some (.value (.array (t :: items) :: stack))
  | .array items :: stack, .closeArray => some (.after (.array (t :: items).reverse) stack)
  | .object fields key :: stack, .comma => some (.nextKey ((key, t) :: fields) stack)
  | .object fields key :: stack, .closeObject =>
    some (.after (.object ((key, t) :: fields).reverse) stack)
  | _, _ => none

def feed? : Assembly → Token → Option Assembly
  | .value stack, tok => begin? stack tok
  | .firstItem stack, .closeArray => some (.after (.array []) stack)
  | .firstItem stack, tok => begin? (.array [] :: stack) tok
  | .firstKey stack, .closeObject => some (.after (.object []) stack)
  | .firstKey stack, .text key => some (.afterKey key [] stack)
  | .firstKey _, _ => none
  | .nextKey fields stack, .text key => some (.afterKey key fields stack)
  | .nextKey _ _, _ => none
  | .afterKey key fields stack, .colon => some (.value (.object fields key :: stack))
  | .afterKey _ _ _, _ => none
  | .after t stack, tok => continue? t stack tok

def feedAll? (a : Assembly) : List Token → Option Assembly
  | [] => some a
  | tok :: toks => (a.feed? tok).bind fun a => a.feedAll? toks

end Assembly

namespace Tree

def ofTokens? (toks : List Token) : Option Tree :=
  match (Assembly.value []).feedAll? toks with
  | some (.after t []) => some t
  | _ => none

/-- The one value that the bytes spell, with blanks around it. -/
def ofBytes? (bs : Bytes) : Option Tree :=
  (tokens? bs).bind ofTokens?

end Tree

end Courier.Json
