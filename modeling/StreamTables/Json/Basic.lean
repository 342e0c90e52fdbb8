import StreamTables.Json.Numeral

/-!
# JSON trees

A tree stands for a text that was read, and it keeps enough of the text to say where the text went
wrong. A reader that looks for a certain form goes through the tree from left to right, as it would
go through the text, so of two faults it meets the one that comes first.

## What is here

* `Literal`: a string literal, in which it is known whether it has escapes.
* `Json`: the tree. A text that stops being JSON has the leaf `malformed` at that point, and
  nothing after it.
* `Json.isWellFormed`: whether the text was JSON to the end. This is all that is asked of a part
  that nobody looks into.
* `Json.text`, `Json.int`, `Json.record`, `Json.orNull`: the trees that are written.
-/

set_option autoImplicit false

namespace StreamTables

/-- A string literal as it is written. -/
inductive Literal where
  /-- Every character stands for itself. -/
  | plain (s : String)
  /-- Some characters are given by escapes. -/
  | escaped (s : String)
  /-- One of the escapes is an unpaired surrogate. -/
  | broken
  deriving DecidableEq, Inhabited

/-- The text that a literal stands for, unless it is broken. -/
def Literal.text? : Literal → Option String
  | plain s => some s
  | escaped s => some s
  | broken => none

/-- A JSON tree. A string has no text if its literal is broken, and a field name is kept as it is
written. -/
inductive Json where
  | null
  | bool (b : Bool)
  | number (n : Numeral)
  | string (text : Option String)
  | array (items : List Json)
  | object (fields : List (Literal × Json))
  /-- The point at which the text is no longer JSON. -/
  | malformed
  deriving Inhabited

namespace Json

/-- The tree of a text. -/
def text (s : String) : Json := .string (some s)

/-- The tree of an integer. -/
def int (i : Int) : Json := .number (.ofInt i)

/-- The tree of named fields. Their names need no escapes. -/
def record (fields : List (String × Json)) : Json :=
  .object (fields.map fun (name, value) => (.plain name, value))

/-- The tree of a value that may be absent. -/
def orNull {α : Type} (tree : α → Json) : Option α → Json
  | none => .null
  | some a => tree a

mutual

/-- Whether the text of the tree was JSON to its end. -/
def isWellFormed : Json → Bool
  | .malformed => false
  | .array items => itemsWellFormed items
  | .object fields => fieldsWellFormed fields
  | _ => true

/-- Whether all items are well-formed. -/
def itemsWellFormed : List Json → Bool
  | [] => true
  | item :: items => item.isWellFormed && itemsWellFormed items

/-- Whether all field values are well-formed. -/
def fieldsWellFormed : List (Literal × Json) → Bool
  | [] => true
  | (_, value) :: fields => value.isWellFormed && fieldsWellFormed fields

end

end Json
end StreamTables
