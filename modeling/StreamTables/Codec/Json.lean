import StreamTables.Codec.Format
import StreamTables.Json.Decode

/-!
# Formats in JSON

## What is here

* `Features.json`, `Window.json`, `Formats.json`: writing.
* `Features.decode`, `Window.decode`, `Formats.decode`: reading.
-/

set_option autoImplicit false

namespace StreamTables

namespace Features

/-- The tree of a set of features. -/
def json (fs : Features) : Json := .array (fs.toList.map fun f => .text f.name)

/-- Reads a set of features. They may come in any order, and more than once. -/
def decode : Decoder Features := fun depth j =>
  (Json.decodeList (Json.decodeName Feature.ofName?) depth j).map ofList

end Features

namespace Window

/-- The tree of a window. -/
def json (w : Window) : Json :=
  .record [("type", .text w.kind.name), ("size", .orNull (fun n => .int n.toNat) w.size)]

/-- A window, as far as it was read. -/
structure Draft where
  kind : Option WindowKind := none
  size : Option UInt64 := none

/-- Reads one field of a window. -/
def Draft.field (depth : Nat) (d : Draft) (name : String) (j : Json) : Except Refusal Draft :=
  match name with
  | "type" => do return { d with kind := some (← Json.decodeName WindowKind.ofName? depth j) }
  | _ => do return { d with size := ← Json.decodeOptional Json.decodeUInt64 depth j }

/-- Reads a window. -/
def decode : Decoder Window :=
  Json.decodeStruct ["type", "size"] Draft.field {} fun d => do return ⟨← d.kind, d.size⟩

end Window

namespace Formats

/-- The tree of the name of a format. -/
def formatJson (format : String) : Json := .record [("format", .text format)]

/-- Reads the name of a format. -/
def decodeFormat : Decoder String :=
  Json.decodeStruct ["format"]
    (fun depth _ _ j => (Json.decodeString depth j).map some) none id

/-- The tree of formats. -/
def json (f : Formats) : Json :=
  .record
    [("key_format", formatJson f.keyFormat), ("value_format", formatJson f.valueFormat),
      ("key_features", f.keyFeatures.json), ("value_features", f.valueFeatures.json)]

/-- Formats, as far as they were read. -/
structure Draft where
  keyFormat : Option String := none
  valueFormat : Option String := none
  keyFeatures : Option Features := none
  valueFeatures : Option Features := none

/-- Reads one field of formats. -/
def Draft.field (depth : Nat) (d : Draft) (name : String) (j : Json) : Except Refusal Draft :=
  match name with
  | "key_format" => do return { d with keyFormat := some (← decodeFormat depth j) }
  | "value_format" => do return { d with valueFormat := some (← decodeFormat depth j) }
  | "key_features" => do return { d with keyFeatures := some (← Features.decode depth j) }
  | _ => do return { d with valueFeatures := some (← Features.decode depth j) }

/-- Reads formats. -/
def decode : Decoder Formats :=
  Json.decodeStruct ["key_format", "value_format", "key_features", "value_features"] Draft.field {}
    fun d => do return ⟨← d.keyFormat, ← d.valueFormat, ← d.keyFeatures, ← d.valueFeatures⟩

end Formats
end StreamTables
