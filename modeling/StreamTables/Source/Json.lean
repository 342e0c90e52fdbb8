import StreamTables.Codec.Json
import StreamTables.Schema.Json
import StreamTables.Source.Basic

/-!
# Sources in JSON

Sources are kept in JSON between runs of the program. A source is refused if its schema is none, or
if its version is not registered.

## What is here

* `TableSource.json`, `TableSource.decode`: writing and reading.
-/

set_option autoImplicit false

namespace StreamTables
namespace TableSource

/-- The tree of a source. -/
def json (s : TableSource) : Json :=
  .record
    [("topic", .text s.topic), ("formats", s.formats.json), ("source_schema", s.schema.json),
      ("pseudo_column_version", s.version.json), ("window", .orNull Window.json s.window),
      ("context", s.path.json)]

/-- A source, as far as it was read. -/
structure Draft where
  topic : Option String := none
  formats : Option Formats := none
  schema : Option Schema := none
  version : Option Version := none
  window : Option Window := none
  path : Option PlanPath := none

/-- The names of the fields, in order. -/
def fieldNames : List String :=
  ["topic", "formats", "source_schema", "pseudo_column_version", "window", "context"]

/-- Reads one field. -/
def Draft.field (depth : Nat) (d : Draft) (name : String) (j : Json) : Except Refusal Draft :=
  match name with
  | "topic" => do return { d with topic := some (← Json.decodeString depth j) }
  | "formats" => do return { d with formats := some (← Formats.decode depth j) }
  | "source_schema" => do return { d with schema := some (← Schema.decode depth j) }
  | "pseudo_column_version" => do return { d with version := some (← Version.decode depth j) }
  | "window" => do return { d with window := ← Json.decodeOptional Window.decode depth j }
  | _ => do return { d with path := some (← PlanPath.decode depth j) }

/-- Reads a source. -/
def decode : Decoder TableSource :=
  Json.decodeStruct fieldNames Draft.field {} fun d => do
    return ⟨← d.topic, ← d.formats, ← d.schema, ← d.version, d.window, ← d.path⟩

end TableSource
end StreamTables
