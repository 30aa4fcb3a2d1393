import Courier.Json.Number
import Courier.Json.Tree

/-!
# Reading values out of JSON trees

A reader takes the number of arrays and objects that may still be opened and a tree. Whatever it
keeps it checks strictly; members that a record does not know are dropped without a look at
their value.
-/

namespace Courier.Json

def isLead (u : UInt16) : Bool := 0xD800 ≤ u && u < 0xDC00

def isTrail (u : UInt16) : Bool := 0xDC00 ≤ u && u < 0xE000

def pairChar (lead trail : UInt16) : Char :=
  Char.ofNat (0x10000 + (lead.toNat - 0xD800) * 0x400 + (trail.toNat - 0xDC00))

/-- The bytes that the pieces stand for; a lead surrogate needs its trail right behind it. -/
def pieceBytes? : List Piece → Option Bytes
  | [] => some []
  | .byte b :: rest => (pieceBytes? rest).map (b :: ·)
  | .unit u :: .unit v :: rest =>
    if isLead u then
      if isTrail v then (pieceBytes? rest).map (String.utf8EncodeChar (pairChar u v) ++ ·) else none
    else if isTrail u then none
    else (pieceBytes? (.unit v :: rest)).map (String.utf8EncodeChar (Char.ofNat u.toNat) ++ ·)
  | .unit u :: rest =>
    if isLead u || isTrail u then none
    else (pieceBytes? rest).map (String.utf8EncodeChar (Char.ofNat u.toNat) ++ ·)

def text? (pieces : List Piece) : Option String :=
  (pieceBytes? pieces).bind Bytes.text?

/-- Reads a tree while the given number of arrays and objects may still be opened. -/
abbrev Reader (α : Type) := Nat → Tree → Option α

namespace Reader

/-- Opens an array or object: one less may be opened inside. -/
def enter? : Nat → Option Nat
  | 0 => none
  | depth + 1 => some depth

def text : Reader String := fun _ t =>
  match t with
  | .text ps => text? ps
  | _ => none

def natural (bound : Nat) : Reader Nat := fun _ t =>
  match t with
  | .number n => n.natural?.filter (· ≤ bound)
  | _ => none

def word64 : Reader UInt64 := fun depth t =>
  (natural (UInt64.size - 1) depth t).map Nat.toUInt64

def word16 : Reader UInt16 := fun depth t =>
  (natural (UInt16.size - 1) depth t).map Nat.toUInt16

def optional {α : Type} (read : Reader α) : Reader (Option α) := fun depth t =>
  match t with
  | .null => some none
  | t => (read depth t).map some

def list {α : Type} (read : Reader α) : Reader (List α) := fun depth t =>
  match t with
  | .array items => (enter? depth).bind fun depth => items.mapM (read depth)
  | _ => none

/-- The members of a record that are present, by name, and the depth left inside it. -/
structure Members where
  depth : Nat
  fields : List (String × Tree)

/-- The members with one of the names. A name that comes twice is refused, and so is a key that is
no text. -/
def known? (names : List String) : List (List Piece × Tree) → Option (List (String × Tree))
  | [] => some []
  | (key, t) :: rest =>
    match text? key, known? names rest with
    | some name, some found =>
      if !names.contains name then some found
      else if found.any (·.1 == name) then none
      else some ((name, t) :: found)
    | _, _ => none

/-- A record is an object, or an array of the members in the order of the names; the array may
stop early, but not before the first `required` members. -/
def record (names : List String) (required : Nat) : Reader Members := fun depth t =>
  match t with
  | .object fields => (enter? depth).bind fun depth =>
    (known? names fields).map fun found => ⟨depth, found⟩
  | .array items => (enter? depth).bind fun depth =>
    if required ≤ items.length ∧ items.length ≤ names.length then some ⟨depth, names.zip items⟩
    else none
  | _ => none

namespace Members

def need {α : Type} (m : Members) (name : String) (read : Reader α) : Option α :=
  (m.fields.lookup name).bind (read m.depth)

/-- A member that counts as absent when it is missing or null. -/
def maybe {α : Type} (m : Members) (name : String) (read : Reader α) : Option (Option α) :=
  match m.fields.lookup name with
  | none => some none
  | some t => optional read m.depth t

end Members

/-- A choice among alternatives: its name, and what is attached to it with the depth left inside. A
name alone is a text; with an attachment it is an object of one member. -/
def choice : Reader (String × Option (Nat × Tree)) := fun depth t =>
  match t with
  | .text ps => (text? ps).map fun name => (name, none)
  | .object [(key, v)] => (enter? depth).bind fun depth =>
    (text? key).map fun name => (name, some (depth, v))
  | _ => none

/-- A choice with nothing attached, or null. -/
def bare {α : Type} (pick : String → Option α) : Reader α := fun depth t =>
  match choice depth t with
  | some (name, none) => pick name
  | some (name, some (_, .null)) => pick name
  | _ => none

end Reader

namespace Tree

mutual

/-- Any value, canonical: later members of an object replace earlier ones of the same key. -/
def value? (depth : Nat) : Tree → Option Json
  | .null => some .null
  | .bool b => some (.bool b)
  | .number n => n.value?
  | .text ps => (text? ps).map .text
  | .array items =>
    match depth with
    | 0 => none
    | depth + 1 => (items? depth items).map .array
  | .object fields =>
    match depth with
    | 0 => none
    | depth + 1 => (fields? depth fields []).map .object

def items? (depth : Nat) : List Tree → Option (List Json)
  | [] => some []
  | t :: rest =>
    match value? depth t, items? depth rest with
    | some v, some vs => some (v :: vs)
    | _, _ => none

/-- Puts the members one after another into those already read. -/
def fields? (depth : Nat) : List (List Piece × Tree) → List (String × Json) →
    Option (List (String × Json))
  | [], done => some done
  | (key, t) :: rest, done =>
    match text? key, value? depth t with
    | some k, some v => fields? depth rest (insertField k v done)
    | _, _ => none

end

mutual

theorem canonical_of_value? {depth : Nat} {t : Tree} {v : Json} (h : t.value? depth = some v) :
    v.Canonical := by
  cases t with
  | null => simp only [value?] at h; cases h; simp [Canonical]
  | bool b => simp only [value?] at h; cases h; simp [Canonical]
  | number n => exact Numeral.canonical_of_value? h
  | text ps =>
    simp only [value?, Option.map_eq_some_iff] at h
    obtain ⟨s, _, rfl⟩ := h
    simp [Canonical]
  | array items =>
    cases depth with
    | zero => simp [value?] at h
    | succ depth =>
      simp only [value?, Option.map_eq_some_iff] at h
      obtain ⟨vs, hvs, rfl⟩ := h
      rw [Canonical, itemsCanonical_iff]
      exact canonical_of_items? hvs
  | object fields =>
    cases depth with
    | zero => simp [value?] at h
    | succ depth =>
      simp only [value?, Option.map_eq_some_iff] at h
      obtain ⟨fs, hfs, rfl⟩ := h
      exact canonical_of_fields? (by simp [Canonical, FieldsCanonical]) hfs

theorem canonical_of_items? {depth : Nat} {items : List Tree} {vs : List Json}
    (h : items? depth items = some vs) : ∀ v ∈ vs, v.Canonical := by
  cases items with
  | nil => simp only [items?] at h; cases h; simp
  | cons t rest =>
    rw [items?] at h
    split at h
    · rename_i v ws hv hws
      cases h
      intro w hw
      cases List.mem_cons.mp hw with
      | inl heq => exact heq ▸ canonical_of_value? hv
      | inr hmem => exact canonical_of_items? hws w hmem
    · cases h

theorem canonical_of_fields? {depth : Nat} {fields : List (List Piece × Tree)}
    {done fs : List (String × Json)} (hd : (Json.object done).Canonical)
    (h : fields? depth fields done = some fs) : (Json.object fs).Canonical := by
  match fields with
  | [] => simp only [fields?] at h; cases h; exact hd
  | (key, t) :: rest =>
    rw [fields?] at h
    split at h
    · rename_i k v hk hv
      exact canonical_of_fields? (canonical_insertField (canonical_of_value? hv) hd) h
    · cases h

end

end Tree

namespace Reader

/-- The members of an object, kept freely. -/
def properties : Reader Properties := fun depth t =>
  match t with
  | .object fields => (enter? depth).bind fun depth =>
    match h : Tree.fields? depth fields [] with
    | some fs => some ⟨fs, Tree.canonical_of_fields? (by simp [Canonical, FieldsCanonical]) h⟩
    | none => none
  | _ => none

end Reader

end Courier.Json
