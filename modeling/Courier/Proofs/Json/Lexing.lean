import Courier.Json.Printer
import Courier.Json.Reading
import Mathlib.Tactic.IntervalCases

/-!
# Reading what was printed, token by token

The tree that a value is written as, the tokens of a tree in their order, and the reader of tokens
on printed text. A number or a word is complete only when the byte behind it is seen, so what is
said of a value needs a byte behind it that cannot belong to a number.
-/

namespace Courier

namespace Decimal

theorem digits_eq_cons {n : Nat} (h : n ≠ 0) : ∃ d ds, digits n = d :: ds ∧ d ≠ 0 := by
  induction n using Nat.strongRecOn with
  | ind n ih =>
    rw [digits]
    split
    · exact ⟨n, [], rfl, h⟩
    · obtain ⟨d, ds, hds, hd⟩ := ih (n / 10) (by omega) (by omega)
      exact ⟨d, ds ++ [n % 10], by rw [hds]; rfl, hd⟩

end Decimal

namespace Json

/-! ### The tree of a value -/

/-- How the printer writes a byte of a text. -/
def pieceOf (b : UInt8) : Piece :=
  match b with
  | 0x08 | 0x0C | 0x0A | 0x0D | 0x09 => .byte b
  | b => if b < 0x20 then .unit b.toUInt16 else .byte b

def pieces (s : String) : List Piece :=
  (Bytes.ofString s).map pieceOf

def Numeral.ofInt (n : Int) : Numeral :=
  ⟨n < 0, Decimal.digits n.natAbs, [], none⟩

mutual

/-- The tree that the value is written as. Only values without non-integer numbers have one that
means anything. -/
def tree : Json → Tree
  | .null => .null
  | .bool b => .bool b
  | .int n => .number (.ofInt n)
  | .float _ => .null
  | .text s => .text (pieces s)
  | .array items => .array (itemTrees items)
  | .object fields => .object (fieldTrees fields)

def itemTrees : List Json → List Tree
  | [] => []
  | v :: rest => v.tree :: itemTrees rest

def fieldTrees : List (String × Json) → List (List Piece × Tree)
  | [] => []
  | (k, v) :: rest => (pieces k, v.tree) :: fieldTrees rest

end

mutual

/-- No number in the value is a non-integer one. -/
def Whole : Json → Prop
  | .float _ => False
  | .array items => ItemsWhole items
  | .object fields => FieldsWhole fields
  | _ => True

def ItemsWhole : List Json → Prop
  | [] => True
  | v :: rest => v.Whole ∧ ItemsWhole rest

def FieldsWhole : List (String × Json) → Prop
  | [] => True
  | (_, v) :: rest => v.Whole ∧ FieldsWhole rest

end

namespace Tree

mutual

/-- The tokens of the tree, in the order in which they are written. -/
def tokens : Tree → List Token
  | .null => [.null]
  | .bool b => [.bool b]
  | .number n => [.number n]
  | .text ps => [.text ps]
  | .array items => .openArray :: itemTokens items
  | .object fields => .openObject :: fieldTokens fields

def itemTokens : List Tree → List Token
  | [] => [.closeArray]
  | [t] => t.tokens ++ [.closeArray]
  | t :: rest => t.tokens ++ .comma :: itemTokens rest

def fieldTokens : List (List Piece × Tree) → List Token
  | [] => [.closeObject]
  | [(key, t)] => .text key :: .colon :: (t.tokens ++ [.closeObject])
  | (key, t) :: rest => .text key :: .colon :: (t.tokens ++ .comma :: fieldTokens rest)

end

end Tree

/-! ### One token -/

namespace Lexer

/-- The byte cannot belong to a number that has begun. -/
def Ends (b : UInt8) : Prop :=
  Decimal.digit? b = none ∧ b ≠ 0x2E ∧ Partial.isMark b = false

variable (ts : List Token) (r : Bytes)

theorem feedAll?_cons (l : Lexer) (b : UInt8) :
    l.feedAll? (b :: r) = (l.feed? b).bind fun l => l.feedAll? r := rfl

theorem hexDigit?_hexDigit {d : UInt8} (h : d < 16) :
    hexDigit? (escapeByte.hexDigit d) = some d.toNat := by
  have hall : ∀ e : Fin 16, hexDigit? (escapeByte.hexDigit (UInt8.ofNat e)) = some e.val := by
    decide
  have hlt : d.toNat < 16 := UInt8.lt_iff_toNat_lt.mp h
  have hd := hall ⟨d.toNat, hlt⟩
  rwa [UInt8.ofNat_toNat] at hd

/-- A control character without a letter of its own is written by its number. -/
theorem feedAll?_numbered {b : UInt8} (h : b < 0x20) (ps : List Piece) :
    feedAll? ⟨.text ps, ts⟩ ([0x5C, 0x75, 0x30, 0x30, escapeByte.hexDigit (b / 16),
        escapeByte.hexDigit (b % 16)] ++ r) =
      feedAll? ⟨.text (.unit b.toUInt16 :: ps), ts⟩ r := by
  have hb : b.toNat < 32 := UInt8.lt_iff_toNat_lt.mp h
  have hhigh : (b / 16).toNat = b.toNat / 16 := UInt8.toNat_div b 16
  have hlow : (b % 16).toNat = b.toNat % 16 := UInt8.toNat_mod b 16
  have hhigh' : b / 16 < 16 := by
    rw [UInt8.lt_iff_toNat_lt, hhigh]
    change b.toNat / 16 < 16
    omega
  have hlow' : b % 16 < 16 := by
    rw [UInt8.lt_iff_toNat_lt, hlow]
    change b.toNat % 16 < 16
    omega
  have hvalue : (16 * (b.toNat / 16) + b.toNat % 16).toUInt16 = b.toUInt16 := by
    rw [Nat.div_add_mod]
    exact UInt16.toNat_inj.mp (by simp)
  have hfirst : feed? ⟨.hex ps 2 0, ts⟩ (escapeByte.hexDigit (b / 16)) =
      some ⟨.hex ps 1 (b.toNat / 16), ts⟩ := by
    simp [feed?, hexDigit?_hexDigit hhigh', hhigh]
  have hsecond : feed? ⟨.hex ps 1 (b.toNat / 16), ts⟩ (escapeByte.hexDigit (b % 16)) =
      some ⟨.text (.unit b.toUInt16 :: ps), ts⟩ := by
    rw [← hvalue, ← hlow]
    simp only [feed?, hexDigit?_hexDigit hlow', Option.map_some, Nat.le_refl, if_true]
  calc
    _ = ((feed? ⟨.hex ps 2 0, ts⟩ (escapeByte.hexDigit (b / 16))).bind fun l =>
          (l.feed? (escapeByte.hexDigit (b % 16))).bind fun l => l.feedAll? r) := rfl
    _ = feedAll? ⟨.text (.unit b.toUInt16 :: ps), ts⟩ r := by
      rw [hfirst, Option.bind_some, hsecond, Option.bind_some]

theorem feedAll?_escapeByte (b : UInt8) (ps : List Piece) :
    feedAll? ⟨.text ps, ts⟩ (escapeByte b ++ r) = feedAll? ⟨.text (pieceOf b :: ps), ts⟩ r := by
  unfold escapeByte
  split
  any_goals rfl
  rename_i hquote hslash hback hform hline hreturn htab
  have hpiece : pieceOf b = if b < 0x20 then .unit b.toUInt16 else .byte b := by
    unfold pieceOf
    split <;> first | contradiction | rfl
  rw [hpiece]
  by_cases h : b < 0x20
  · rw [if_pos h, if_pos h]
    exact feedAll?_numbered ts r h ps
  · rw [if_neg h, if_neg h]
    have hquote : b ≠ 0x22 := hquote
    have hslash : b ≠ 0x5C := hslash
    simp [feedAll?_cons, feed?, hquote, hslash, h]

theorem feedAll?_quoted (s : String) :
    feedAll? ⟨.between, ts⟩ (quoted s ++ r) = feedAll? ⟨.between, .text (pieces s) :: ts⟩ r := by
  have hbytes (bs : Bytes) (ps : List Piece) :
      feedAll? ⟨.text ps, ts⟩ (bs.flatMap escapeByte ++ 0x22 :: r) =
        feedAll? ⟨.between, .text (ps.reverse ++ bs.map pieceOf) :: ts⟩ r := by
    induction bs generalizing ps with
    | nil => simp [feedAll?_cons, feed?]
    | cons b bs ih =>
      rw [List.flatMap_cons, List.append_assoc, feedAll?_escapeByte, ih]
      simp
  have hquoted : quoted s ++ r = 0x22 :: ((Bytes.ofString s).flatMap escapeByte ++ 0x22 :: r) := by
    simp [quoted]
  rw [hquoted, feedAll?_cons]
  exact hbytes _ []

/-! ### Numbers -/

theorem feedAll?_digits {ds : List Nat} (hds : ∀ d ∈ ds, d < 10) (s : Bool) (done : List Nat) :
    feedAll? ⟨.number (.whole s done), ts⟩ (ds.map Decimal.digitByte ++ r) =
      feedAll? ⟨.number (.whole s (ds.reverse ++ done)), ts⟩ r := by
  induction ds generalizing done with
  | nil => rfl
  | cons d ds ih =>
    have hd := Decimal.digit?_digitByte (hds d List.mem_cons_self)
    have hnext : feed? ⟨.number (.whole s done), ts⟩ (Decimal.digitByte d) =
        some ⟨.number (.whole s (d :: done)), ts⟩ := by
      simp [feed?, Partial.next, hd]
    rw [List.map_cons, List.cons_append, feedAll?_cons, hnext, Option.bind_some,
      ih fun e he => hds e (List.mem_cons_of_mem d he)]
    simp

section Numbers

variable {b : UInt8} (hb : Ends b)
include hb

theorem feed?_afterWhole (s : Bool) (ds : List Nat) :
    feed? ⟨.number (.whole s ds), ts⟩ b =
        feed? ⟨.between, .number ⟨s, ds.reverse, [], none⟩ :: ts⟩ b ∧
      feed? ⟨.number (.zero s), ts⟩ b =
        feed? ⟨.between, .number ⟨s, [0], [], none⟩ :: ts⟩ b := by
  obtain ⟨hdigit, hpoint, hmark⟩ := hb
  simp [feed?, Partial.next, Partial.next.afterWhole, hdigit, hpoint, hmark]

/-- The digits of a number, behind a sign or not. -/
theorem feedAll?_decimal (s : Bool) (n : Nat) {l : Lexer}
    (hstart : ∀ d < 10, d ≠ 0 ∨ n = 0 → l.feed? (Decimal.digitByte d) =
      some ⟨.number (if d = 0 then .zero s else .whole s [d]), ts⟩) :
    l.feedAll? (Decimal.bytes n ++ b :: r) =
      feedAll? ⟨.between, .number ⟨s, Decimal.digits n, [], none⟩ :: ts⟩ (b :: r) := by
  have hlt := Decimal.digits_lt n
  unfold Decimal.bytes
  by_cases hn : n = 0
  · have hdigits : Decimal.digits n = [0] := by rw [hn, Decimal.digits]; rfl
    rw [hdigits, List.map_singleton, List.singleton_append, feedAll?_cons,
      hstart 0 (by decide) (.inr hn), Option.bind_some, feedAll?_cons, if_pos rfl,
      (feed?_afterWhole ts hb s []).2, feedAll?_cons]
  · obtain ⟨d, ds, hdigits, hd⟩ := Decimal.digits_eq_cons hn
    rw [hdigits] at hlt ⊢
    rw [List.map_cons, List.cons_append, feedAll?_cons,
      hstart d (hlt d List.mem_cons_self) (.inl hd), Option.bind_some, if_neg hd,
      feedAll?_digits _ _ (fun e he => hlt e (List.mem_cons_of_mem d he)), feedAll?_cons,
      (feed?_afterWhole ts hb s _).1, feedAll?_cons]
    simp

theorem feedAll?_intBytes (n : Int) :
    feedAll? ⟨.between, ts⟩ (intBytes n ++ b :: r) =
      feedAll? ⟨.between, .number (.ofInt n) :: ts⟩ (b :: r) := by
  unfold intBytes Numeral.ofInt
  by_cases hn : n < 0
  · rw [if_pos hn, List.cons_append, feedAll?_cons]
    refine (feedAll?_decimal ts r hb true n.natAbs fun d hd hzero => ?_).trans (by simp [hn])
    interval_cases d <;> rfl
  · rw [if_neg hn]
    refine (feedAll?_decimal ts r hb false n.natAbs fun d hd hzero => ?_).trans (by simp [hn])
    interval_cases d <;> rfl

end Numbers

/-! ### Values -/

theorem ends_comma : Ends 0x2C := ⟨by decide, by decide, by decide⟩

theorem ends_closeArray : Ends 0x5D := ⟨by decide, by decide, by decide⟩

theorem ends_closeObject : Ends 0x7D := ⟨by decide, by decide, by decide⟩

mutual

theorem feedAll?_bytes (ts : List Token) (r : Bytes) {b : UInt8} (hb : Ends b) {v : Json}
    (hv : v.Whole) :
    feedAll? ⟨.between, ts⟩ (v.bytes ++ b :: r) =
      feedAll? ⟨.between, v.tree.tokens.reverse ++ ts⟩ (b :: r) := by
  cases v with
  | null => rfl
  | bool x => cases x <;> rfl
  | int n => exact feedAll?_intBytes ts r hb n
  | float x => exact absurd hv (by simp [Whole])
  | text s => exact feedAll?_quoted ts (b :: r) s
  | array items =>
    rw [Whole] at hv
    have hitems := feedAll?_itemBytes (.openArray :: ts) (b :: r) hv
    rw [bytes, tree, Tree.tokens, List.reverse_cons, List.append_assoc]
    exact hitems
  | object fields =>
    rw [Whole] at hv
    have hfields := feedAll?_fieldBytes (.openObject :: ts) (b :: r) hv
    rw [bytes, tree, Tree.tokens, List.reverse_cons, List.append_assoc]
    exact hfields

theorem feedAll?_itemBytes (ts : List Token) (r : Bytes) {items : List Json}
    (h : ItemsWhole items) :
    feedAll? ⟨.between, ts⟩ (itemBytes items ++ r) =
      feedAll? ⟨.between, (Tree.itemTokens (itemTrees items)).reverse ++ ts⟩ r := by
  match items with
  | [] => rfl
  | [v] =>
    have hv := feedAll?_bytes ts r ends_closeArray h.1
    simp only [itemBytes, itemTrees, Tree.itemTokens, List.append_assoc, List.singleton_append,
      List.reverse_append, List.reverse_singleton]
    exact hv
  | v :: w :: rest =>
    have hv := feedAll?_bytes ts (itemBytes (w :: rest) ++ r) ends_comma h.1
    have hrest := feedAll?_itemBytes (.comma :: (v.tree.tokens.reverse ++ ts)) r h.2
    simp only [itemBytes, itemTrees, Tree.itemTokens, List.append_assoc, List.cons_append,
      List.reverse_append, List.reverse_cons, List.nil_append] at hv hrest ⊢
    exact hv.trans hrest

theorem feedAll?_fieldBytes (ts : List Token) (r : Bytes) {fields : List (String × Json)}
    (h : FieldsWhole fields) :
    feedAll? ⟨.between, ts⟩ (fieldBytes fields ++ r) =
      feedAll? ⟨.between, (Tree.fieldTokens (fieldTrees fields)).reverse ++ ts⟩ r := by
  match fields with
  | [] => rfl
  | [(k, v)] =>
    have hk := feedAll?_quoted ts (0x3A :: (v.bytes ++ 0x7D :: r)) k
    have hv := feedAll?_bytes (.colon :: .text (pieces k) :: ts) r ends_closeObject h.1
    simp only [fieldBytes, fieldTrees, Tree.fieldTokens, List.append_assoc, List.cons_append,
      List.reverse_append, List.reverse_cons, List.nil_append]
    exact hk.trans hv
  | (k, v) :: p :: rest =>
    have hk := feedAll?_quoted ts (0x3A :: (v.bytes ++ 0x2C :: (fieldBytes (p :: rest) ++ r))) k
    have hv := feedAll?_bytes (.colon :: .text (pieces k) :: ts) (fieldBytes (p :: rest) ++ r)
      ends_comma h.1
    have hrest := feedAll?_fieldBytes
      (.comma :: (v.tree.tokens.reverse ++ .colon :: .text (pieces k) :: ts)) r h.2
    simp only [fieldBytes, fieldTrees, Tree.fieldTokens, List.append_assoc, List.cons_append,
      List.reverse_append, List.reverse_cons, List.nil_append] at hv hrest ⊢
    exact hk.trans (hv.trans hrest)

end

end Lexer

theorem tokens?_object {fields : List (String × Json)} (h : FieldsWhole fields) :
    tokens? (object fields).bytes = some (object fields).tree.tokens := by
  have hfields := Lexer.feedAll?_fieldBytes [.openObject] [] h
  rw [List.append_nil] at hfields
  have hall : Lexer.start.feedAll? (object fields).bytes =
      some ⟨.between, (Tree.fieldTokens (fieldTrees fields)).reverse ++ [.openObject]⟩ := by
    rw [bytes]
    exact hfields
  rw [tokens?, hall, tree, Tree.tokens]
  simp [Lexer.finish?]

end Json

end Courier
