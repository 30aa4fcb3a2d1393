import Courier.Proofs.Json.Nesting
import Mathlib.Data.List.Chain

/-!
# Spellings

Who writes JSON may put blanks around every token, escape what needs no escape, and write numbers
with decimals and exponents. How a value may be spelled is told here as a grammar, independently of
the reader of tokens, and the reader makes the same tree of every spelling of it. What the printer
writes is one of them.
-/

namespace Courier.Json

/-! ### The grammar -/

/-- The letters behind a backslash, with the bytes they stand for. -/
def shortEscapes : List (UInt8 × UInt8) :=
  [(0x22, 0x22), (0x5C, 0x5C), (0x2F, 0x2F), (0x62, 0x08), (0x66, 0x0C), (0x6E, 0x0A),
    (0x72, 0x0D), (0x74, 0x09)]

/-- The hexadecimal digits with their values. -/
def hexDigits : List (UInt8 × Nat) :=
  [(0x30, 0), (0x31, 1), (0x32, 2), (0x33, 3), (0x34, 4), (0x35, 5), (0x36, 6), (0x37, 7),
    (0x38, 8), (0x39, 9), (0x61, 10), (0x62, 11), (0x63, 12), (0x64, 13), (0x65, 14), (0x66, 15),
    (0x41, 10), (0x42, 11), (0x43, 12), (0x44, 13), (0x45, 14), (0x46, 15)]

def blanks : Bytes :=
  [0x20, 0x09, 0x0A, 0x0D]

inductive Piece.Spelled : Piece → Bytes → Prop where
  | plain {b : UInt8} (hcontrol : ¬b < 0x20) (hquote : b ≠ 0x22) (hslash : b ≠ 0x5C) :
    Spelled (.byte b) [b]
  | short {letter b : UInt8} (h : (letter, b) ∈ shortEscapes) : Spelled (.byte b) [0x5C, letter]
  | numbered {w x y z : UInt8} {i j k l : Nat} (hw : (w, i) ∈ hexDigits) (hx : (x, j) ∈ hexDigits)
      (hy : (y, k) ∈ hexDigits) (hz : (z, l) ∈ hexDigits) :
    Spelled (.unit (0x1000 * i + 0x100 * j + 0x10 * k + l).toUInt16) [0x5C, 0x75, w, x, y, z]

/-- The pieces of a text between the quotes. -/
inductive PiecesSpelled : List Piece → Bytes → Prop where
  | nil : PiecesSpelled [] []
  | cons {p : Piece} {ps : List Piece} {bs rest : Bytes} (hp : p.Spelled bs)
      (hps : PiecesSpelled ps rest) : PiecesSpelled (p :: ps) (bs ++ rest)

/-- Decimal digits, one at least. -/
structure Digits (ds : List Nat) : Prop where
  ne_nil : ds ≠ []
  lt : ∀ d ∈ ds, d < 10

/-- A number begins with a zero only if that is all there is in front of the point. -/
structure WholePart (ds : List Nat) : Prop extends Digits ds where
  lead : ds.head? = some 0 → ds = [0]

inductive FractionSpelled : List Nat → Bytes → Prop where
  | none : FractionSpelled [] []
  | some {ds : List Nat} (h : Digits ds) : FractionSpelled ds (0x2E :: ds.map Decimal.digitByte)

inductive ExponentSpelled : Option (Bool × List Nat) → Bytes → Prop where
  | none : ExponentSpelled .none []
  | unsigned {mark : UInt8} {ds : List Nat} (hmark : mark = 0x65 ∨ mark = 0x45) (h : Digits ds) :
    ExponentSpelled (.some (false, ds)) (mark :: ds.map Decimal.digitByte)
  | above {mark : UInt8} {ds : List Nat} (hmark : mark = 0x65 ∨ mark = 0x45) (h : Digits ds) :
    ExponentSpelled (.some (false, ds)) (mark :: 0x2B :: ds.map Decimal.digitByte)
  | below {mark : UInt8} {ds : List Nat} (hmark : mark = 0x65 ∨ mark = 0x45) (h : Digits ds) :
    ExponentSpelled (.some (true, ds)) (mark :: 0x2D :: ds.map Decimal.digitByte)

/-- A number behind its sign. -/
inductive MagnitudeSpelled (negative : Bool) : Numeral → Bytes → Prop where
  | intro {w f : List Nat} {e : Option (Bool × List Nat)} {fs es : Bytes} (hw : WholePart w)
      (hf : FractionSpelled f fs) (he : ExponentSpelled e es) :
    MagnitudeSpelled negative ⟨negative, w, f, e⟩ (w.map Decimal.digitByte ++ fs ++ es)

inductive Token.Spelled : Token → Bytes → Prop where
  | openObject : Spelled .openObject [0x7B]
  | closeObject : Spelled .closeObject [0x7D]
  | openArray : Spelled .openArray [0x5B]
  | closeArray : Spelled .closeArray [0x5D]
  | colon : Spelled .colon [0x3A]
  | comma : Spelled .comma [0x2C]
  | null : Spelled .null [0x6E, 0x75, 0x6C, 0x6C]
  | true : Spelled (.bool true) [0x74, 0x72, 0x75, 0x65]
  | false : Spelled (.bool false) [0x66, 0x61, 0x6C, 0x73, 0x65]
  | positive {n : Numeral} {bs : Bytes} (h : MagnitudeSpelled Bool.false n bs) :
    Spelled (.number n) bs
  | negative {n : Numeral} {bs : Bytes} (h : MagnitudeSpelled Bool.true n bs) :
    Spelled (.number n) (0x2D :: bs)
  | text {ps : List Piece} {bs : Bytes} (h : PiecesSpelled ps bs) :
    Spelled (.text ps) (0x22 :: (bs ++ [0x22]))

/-- Tokens in their order, with blanks in front of them, between them and behind them. -/
inductive Interspersed : List Token → Bytes → Prop where
  | done {gap : Bytes} (hgap : ∀ b ∈ gap, b ∈ blanks) : Interspersed [] gap
  | next {gap bs rest : Bytes} {tok : Token} {toks : List Token} (hgap : ∀ b ∈ gap, b ∈ blanks)
      (htok : tok.Spelled bs) (hrest : Interspersed toks rest) :
    Interspersed (tok :: toks) (gap ++ (bs ++ rest))

def Token.isNumber : Token → Bool
  | .number _ => true
  | _ => false

/-- The text spells a value as the tree. -/
def Tree.Spelled (t : Tree) (bs : Bytes) : Prop :=
  Interspersed t.tokens bs

/-! ### Reading one token -/

namespace Lexer

variable (ts : List Token)

variable {ts}

/-- The tokens were read. The last of them may be a number, and then only some bytes end it. -/
structure Stands (l : Lexer) (ts : List Token) (p : UInt8 → Prop) : Prop where
  finish : l.finish? = some ts.reverse
  feed : ∀ b, p b → l.feed? b = feed? ⟨.between, ts⟩ b

/-- A byte that may stand right behind the token, where it does not belong to it. -/
def Follows (tok : Token) (b : UInt8) : Prop :=
  tok.isNumber = true → Ends b

/-- Two numbers in a row could not be told from one. -/
def Apart (a b : Token) : Prop :=
  a.isNumber = true → b.isNumber = false

end Lexer

/-! ### Reading trees -/

namespace Tree

open Lexer

/-- Signs and words may stand in front of everything. -/
theorem isChain_cons {tok : Token} (h : tok.isNumber = false) {rest : List Token}
    (hrest : rest.IsChain Apart) : (tok :: rest).IsChain Apart :=
  hrest.cons fun _ _ hnumber => absurd hnumber (by simp [h])

mutual

theorem isChain_tokens (t : Tree) {tok : Token} (htok : tok.isNumber = false) {rest : List Token}
    (hrest : (tok :: rest).IsChain Apart) : (t.tokens ++ tok :: rest).IsChain Apart := by
  cases t with
  | number n =>
    refine hrest.cons fun tok' htok' _ => ?_
    cases htok'
    exact htok
  | array items => exact isChain_cons rfl (isChain_itemTokens items hrest)
  | object fields => exact isChain_cons rfl (isChain_fieldTokens fields hrest)
  | _ => exact isChain_cons rfl hrest

theorem isChain_itemTokens (items : List Tree) {rest : List Token} (hrest : rest.IsChain Apart) :
    (itemTokens items ++ rest).IsChain Apart := by
  match items with
  | [] => exact isChain_cons rfl hrest
  | [t] =>
    rw [itemTokens, List.append_assoc]
    exact isChain_tokens t rfl (isChain_cons rfl hrest)
  | t :: u :: more =>
    rw [itemTokens, List.append_assoc, List.cons_append]
    · exact isChain_tokens t rfl (isChain_cons rfl (isChain_itemTokens (u :: more) hrest))
    · exact nofun

theorem isChain_fieldTokens (fields : List (List Piece × Tree)) {rest : List Token}
    (hrest : rest.IsChain Apart) : (fieldTokens fields ++ rest).IsChain Apart := by
  match fields with
  | [] => exact isChain_cons rfl hrest
  | [(key, t)] =>
    simp only [fieldTokens, List.cons_append, List.append_assoc]
    refine isChain_cons rfl (isChain_cons rfl ?_)
    exact isChain_tokens t rfl (isChain_cons rfl hrest)
  | (key, t) :: q :: more =>
    simp only [fieldTokens, List.cons_append, List.append_assoc]
    refine isChain_cons rfl (isChain_cons rfl ?_)
    exact isChain_tokens t rfl (isChain_cons rfl (isChain_fieldTokens (q :: more) hrest))

end

end Tree

/-! ### What the printer writes -/

theorem spelled_escapeByte (b : UInt8) : (pieceOf b).Spelled (escapeByte b) := by
  unfold escapeByte
  split
  any_goals exact .short (by decide)
  rename_i hquote hslash hback hform hline hreturn htab
  have hpiece : pieceOf b = if b < 0x20 then .unit b.toUInt16 else .byte b := by
    unfold pieceOf
    split <;> first | contradiction | rfl
  rw [hpiece]
  by_cases h : b < 0x20
  · have hall : ∀ e : Fin 32, let c := UInt8.ofNat e
        (escapeByte.hexDigit (c / 16), (c / 16).toNat) ∈ hexDigits ∧
          (escapeByte.hexDigit (c % 16), (c % 16).toNat) ∈ hexDigits ∧
          (0x1000 * 0 + 0x100 * 0 + 0x10 * (c / 16).toNat + (c % 16).toNat).toUInt16 =
            c.toUInt16 := by
      decide
    have hb := hall ⟨b.toNat, UInt8.lt_iff_toNat_lt.mp h⟩
    rw [UInt8.ofNat_toNat] at hb
    obtain ⟨hhigh, hlow, hvalue⟩ := hb
    rw [if_pos h, if_pos h, ← hvalue]
    exact .numbered (by decide) (by decide) hhigh hlow
  · rw [if_neg h, if_neg h]
    exact .plain h hquote hslash

theorem spelled_pieces (s : String) :
    PiecesSpelled (pieces s) ((Bytes.ofString s).flatMap escapeByte) := by
  rw [pieces]
  induction Bytes.ofString s with
  | nil => exact .nil
  | cons b bs ih =>
    rw [List.map_cons, List.flatMap_cons]
    exact .cons (spelled_escapeByte b) ih

theorem spelled_quoted (s : String) : (Token.text (pieces s)).Spelled (quoted s) := by
  rw [quoted, List.append_assoc]
  exact .text (spelled_pieces s)

theorem spelled_intBytes (n : Int) : (Token.number (.ofInt n)).Spelled (intBytes n) := by
  have hwhole : WholePart (Decimal.digits n.natAbs) := by
    refine ⟨⟨Decimal.digits_ne_nil _, Decimal.digits_lt _⟩, fun hlead => ?_⟩
    by_cases hn : n.natAbs = 0
    · rw [hn, Decimal.digits]
      rfl
    · obtain ⟨d, ds, hdigits, hd⟩ := Decimal.digits_eq_cons hn
      rw [hdigits] at hlead
      exact absurd (Option.some.inj hlead) hd
  have hmagnitude (s : Bool) : MagnitudeSpelled s ⟨s, Decimal.digits n.natAbs, [], none⟩
      (Decimal.bytes n.natAbs) := by
    have h := @MagnitudeSpelled.intro s _ _ _ _ _ hwhole .none .none
    rwa [List.append_nil, List.append_nil] at h
  unfold intBytes Numeral.ofInt
  by_cases hn : n < 0
  · rw [if_pos hn, decide_eq_true hn]
    exact .negative (hmagnitude true)
  · rw [if_neg hn, decide_eq_false hn]
    exact .positive (hmagnitude false)

namespace Interspersed

theorem token {tok : Token} {bs : Bytes} (h : tok.Spelled bs) : Interspersed [tok] bs := by
  have hall := next (List.forall_mem_nil (· ∈ blanks)) h (done (List.forall_mem_nil (· ∈ blanks)))
  rwa [List.nil_append, List.append_nil] at hall

theorem blank_append {toks : List Token} {gap bs : Bytes} (hgap : ∀ b ∈ gap, b ∈ blanks)
    (h : Interspersed toks bs) : Interspersed toks (gap ++ bs) := by
  cases h with
  | done hgap' =>
    refine done fun b hb => ?_
    rcases List.mem_append.mp hb with hb | hb
    · exact hgap b hb
    · exact hgap' b hb
  | next hgap' htok hrest =>
    rw [← List.append_assoc]
    refine next (fun b hb => ?_) htok hrest
    rcases List.mem_append.mp hb with hb | hb
    · exact hgap b hb
    · exact hgap' b hb

theorem append {toks toks' : List Token} {bs bs' : Bytes} (h : Interspersed toks bs)
    (h' : Interspersed toks' bs') : Interspersed (toks ++ toks') (bs ++ bs') := by
  induction h with
  | done hgap => exact h'.blank_append hgap
  | next hgap htok _ ih =>
    rw [List.append_assoc, List.append_assoc]
    exact next hgap htok ih

theorem cons {tok : Token} {toks : List Token} {bs bs' : Bytes} (h : tok.Spelled bs)
    (h' : Interspersed toks bs') : Interspersed (tok :: toks) (bs ++ bs') :=
  (token h).append h'

end Interspersed

open Interspersed in
mutual

theorem spelled_tree {v : Json} (hv : v.Whole) : v.tree.Spelled v.bytes := by
  cases v with
  | null => exact token .null
  | bool b => cases b <;> first | exact token .true | exact token .false
  | int n => exact token (spelled_intBytes n)
  | float x => exact absurd hv (by simp [Whole])
  | text s => exact token (spelled_quoted s)
  | array items =>
    rw [Whole] at hv
    exact cons .openArray (interspersed_items hv)
  | object fields =>
    rw [Whole] at hv
    exact cons .openObject (interspersed_fields hv)

theorem interspersed_items {items : List Json} (h : ItemsWhole items) :
    Interspersed (Tree.itemTokens (itemTrees items)) (itemBytes items) := by
  match items with
  | [] => exact token .closeArray
  | [v] => exact (spelled_tree h.1).append (token .closeArray)
  | v :: w :: rest => exact (spelled_tree h.1).append (cons .comma (interspersed_items h.2))

theorem interspersed_fields {fields : List (String × Json)} (h : FieldsWhole fields) :
    Interspersed (Tree.fieldTokens (fieldTrees fields)) (fieldBytes fields) := by
  match fields with
  | [] => exact token .closeObject
  | [(k, v)] =>
    rw [fieldBytes, List.append_assoc, List.cons_append]
    exact cons (spelled_quoted k) (cons .colon ((spelled_tree h.1).append (token .closeObject)))
  | (k, v) :: q :: rest =>
    rw [fieldBytes, List.append_assoc, List.cons_append]
    · exact cons (spelled_quoted k)
        (cons .colon ((spelled_tree h.1).append (cons .comma (interspersed_fields h.2))))
    · exact nofun

end

end Courier.Json
