import StreamTables.Error
import StreamTables.Json.Reader

/-!
# Reading values from JSON

A decoder goes through a tree from left to right and stops at the first thing that it does not
expect. It may look into so many brackets at most.

## What is here

* `Refusal`: why a text is not accepted.
* `Decoder`, and decoders of strings, integers, lists, pairs, optional values and structs.
* `Json.decodeStruct`: a struct is an object of its fields, or an array of them in order.
* `Json.decodeWithDefaults`: a struct whose fields may all be missing.
* `Decoder.ofText`: reading a whole text.
-/

set_option autoImplicit false

namespace StreamTables

/-- Why a text is not accepted. -/
inductive Refusal where
  /-- It is not JSON, or not of the form that is read. -/
  | form
  /-- It has the form, but what it says is not valid. -/
  | invalid (cause : Error)
  deriving DecidableEq, Inhabited

/-- Reads a tree that nests so many brackets at most. -/
abbrev Decoder (α : Type) := Nat → Json → Except Refusal α

namespace Json

/-! ## Parts -/

/-- The value, if there is one. -/
def orRefuse {α : Type} : Option α → Except Refusal α
  | some a => .ok a
  | none => .error .form

/-- Reads a string. -/
def decodeString : Decoder String
  | _, .string (some s) => .ok s
  | _, _ => .error .form

/-- Reads `true` or `false`. -/
def decodeBool : Decoder Bool
  | _, .bool b => .ok b
  | _, _ => .error .form

/-- Reads an integer from `low` up to below `high`. -/
def decodeInt (low high : Int) : Decoder Int
  | _, .number n =>
    match n.integer? with
    | some i => if low ≤ i ∧ i < high then .ok i else .error .form
    | none => .error .form
  | _, _ => .error .form

/-- Reads an integer of 32 signed bits. -/
def decodeInt32 : Decoder Int32 := fun depth j =>
  (decodeInt (-2 ^ 31) (2 ^ 31) depth j).map Int32.ofInt

/-- Reads an integer of 64 signed bits. -/
def decodeInt64 : Decoder Int64 := fun depth j =>
  (decodeInt (-2 ^ 63) (2 ^ 63) depth j).map Int64.ofInt

/-- Reads an integer of 64 bits. -/
def decodeUInt64 : Decoder UInt64 := fun depth j =>
  (decodeInt 0 (2 ^ 64) depth j).map fun i => UInt64.ofNat i.toNat

/-- Reads an integer of eight bits. -/
def decodeUInt8 : Decoder UInt8 := fun depth j =>
  (decodeInt 0 (2 ^ 8) depth j).map fun i => UInt8.ofNat i.toNat

/-- Reads the items of an array. -/
def decodeList {α : Type} (item : Decoder α) : Decoder (List α)
  | depth + 1, .array items => items.mapM (item depth)
  | _, _ => .error .form

/-- Reads an array of two items. -/
def decodePair {α β : Type} (first : Decoder α) (second : Decoder β) : Decoder (α × β)
  | depth + 1, .array [a, b] => do
    let a ← first depth a
    let b ← second depth b
    return (a, b)
  | _, _ => .error .form

/-- Reads a value or `null`. -/
def decodeOptional {α : Type} (value : Decoder α) : Decoder (Option α)
  | _, .null => .ok none
  | depth, j => (value depth j).map some

/-- Reads one of several names, in a string or as the only field of an object, with `null` for its
value. -/
def decodeName {α : Type} (ofName? : String → Option α) : Decoder α
  | _, .string (some s) => orRefuse (ofName? s)
  | _ + 1, .object [(s, .null)] => orRefuse (s.text?.bind ofName?)
  | _, _ => .error .form

/-! ## Structs -/

/-- Reads fields by name. Fields that are not known are passed over, and no known one may come
twice. -/
def decodeFields {σ : Type} (known : List String)
    (field : σ → String → Json → Except Refusal σ) :
    (seen : List String) → List (Literal × Json) → σ → Except Refusal σ
  | _, [], s => .ok s
  | seen, (name, j) :: rest, s =>
    match name.text? with
    | none => .error .form
    | some name =>
      if known.contains name then
        if seen.contains name then .error .form
        else do decodeFields known field (name :: seen) rest (← field s name j)
      else if j.isWellFormed then decodeFields known field seen rest s
      else .error .form

/-- Reads fields in order, up to the last item or the last name. -/
def decodeItems {σ : Type} (field : σ → String → Json → Except Refusal σ) :
    List String → List Json → σ → Except Refusal σ
  | name :: names, j :: items, s => do decodeItems field names items (← field s name j)
  | _, _, s => .ok s

/-- Reads a struct field by field. What was read of it is kept in a draft of type `σ`, and in the
end the draft makes the struct, unless a field is missing. An array has as many items as there are
fields. -/
def decodeStruct {σ α : Type} (names : List String)
    (field : Nat → σ → String → Json → Except Refusal σ) (empty : σ) (finish : σ → Option α) :
    Decoder α
  | depth + 1, .object fields => do
    orRefuse (finish (← decodeFields names (field depth) [] fields empty))
  | depth + 1, .array items => do
    let draft ← decodeItems (field depth) names items empty
    if items.length = names.length then orRefuse (finish draft) else .error .form
  | _, _ => .error .form

/-- Reads a struct into a value that holds the defaults of all its fields. An array may end before
the last field. -/
def decodeWithDefaults {α : Type} (names : List String)
    (field : Nat → α → String → Json → Except Refusal α) (defaults : α) : Decoder α
  | depth + 1, .object fields => decodeFields names (field depth) [] fields defaults
  | depth + 1, .array items => do
    let a ← decodeItems (field depth) names items defaults
    if items.length ≤ names.length then return a else throw .form
  | _, _ => .error .form

end Json

/-- The brackets that a text may nest. -/
def Decoder.maxDepth : Nat := 127

/-- Reads a text. -/
def Decoder.ofText {α : Type} (decode : Decoder α) (s : String) : Except Refusal α := do
  let doc := Document.ofText s
  let a ← decode maxDepth doc.tree
  if doc.ended then return a else throw .form

end StreamTables
