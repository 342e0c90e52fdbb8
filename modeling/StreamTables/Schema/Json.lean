import StreamTables.Schema.Basic
import StreamTables.SqlType.Json

/-!
# Schemas in JSON

A schema is the array of its columns. A list of columns that is none of a schema is refused with
the reason for it.

## What is here

* `Column.json`, `Column.decode`: writing and reading columns.
* `Schema.json`, `Schema.decode`: writing and reading schemas.
* `Version.json`, `Version.decode`: writing and reading versions.
-/

set_option autoImplicit false

namespace StreamTables

/-- The tree of a namespace. -/
def Namespace.json (n : Namespace) : Json := .text n.name

/-- Reads a namespace. -/
def Namespace.decode : Decoder Namespace := Json.decodeName Namespace.ofName?

namespace Column

/-- The tree of a column. -/
def json (c : Column) : Json :=
  .record [("name", .text c.name), ("type", c.type.json), ("namespace", c.part.json),
    ("index", .int c.index)]

/-- A column, as far as it was read. -/
structure Draft where
  name : Option String := none
  type : Option SqlType := none
  part : Option Namespace := none
  index : Option Nat := none

/-- Reads one field of a column. -/
def Draft.field (depth : Nat) (d : Draft) (name : String) (j : Json) : Except Refusal Draft :=
  match name with
  | "name" => do return { d with name := some (← Json.decodeString depth j) }
  | "type" => do return { d with type := some (← SqlType.decode depth j) }
  | "namespace" => do return { d with part := some (← Namespace.decode depth j) }
  | _ => do return { d with index := some (← Json.decodeInt 0 (2 ^ 64) depth j).toNat }

/-- Reads a column. -/
def decode : Decoder Column :=
  Json.decodeStruct ["name", "type", "namespace", "index"] Draft.field {} fun d => do
    return ⟨← d.name, ← d.type, ← d.part, ← d.index⟩

end Column

namespace Schema

/-- The tree of a schema. -/
def json (s : Schema) : Json := .array (s.columns.map Column.json)

/-- Reads a schema. -/
def decode : Decoder Schema := fun depth j => do
  let cs ← Json.decodeList Column.decode depth j
  (ofColumns cs).mapError .invalid

end Schema

namespace Version

/-- The tree of a version. -/
def json (v : Version) : Json := .int v

/-- Reads a version. -/
def decode : Decoder Version := fun depth j => do
  let n ← Json.decodeInt (-2 ^ 63) (2 ^ 63) depth j
  (ofNumber n).mapError .invalid

end Version
end StreamTables
