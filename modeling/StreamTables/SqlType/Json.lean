import StreamTables.Json.Decode
import StreamTables.Json.Writer

/-!
# SQL types in JSON

A primitive type is its name; any other type is an object with the name of its kind and the
parameters under it.

## What is here

* `SqlType.json`, `SqlType.decode`: writing and reading types.
* `BaseType.json`, `BaseType.decode`: writing and reading kinds of types.
-/

set_option autoImplicit false

namespace StreamTables

/-- The tree of a kind of type. -/
def BaseType.json (b : BaseType) : Json := .text b.name

/-- Reads a kind of type. -/
def BaseType.decode : Decoder BaseType := Json.decodeName BaseType.ofName?

namespace SqlType

/-! ## Writing -/

mutual

/-- The tree of a type. -/
def json : SqlType → Json
  | .primitive p => p.baseType.json
  | .decimal precision scale =>
    .record [("Decimal",
      .record [("precision", .int precision.toNat), ("scale", .int scale.toNat)])]
  | .array element => .record [("Array", element.json)]
  | .map key value => .record [("Map", .array [key.json, value.json])]
  | .struct fields => .record [("Struct", .array (fieldsJson fields))]

/-- The trees of the fields of a struct. -/
def fieldsJson : List (String × SqlType) → List Json
  | [] => []
  | (name, type) :: fields =>
    .record [("name", .text name), ("type", type.json)] :: fieldsJson fields

end

/-! ## Reading -/

/-- The parameters of a decimal type, as far as they were read. -/
structure DecimalDraft where
  precision : Option UInt8 := none
  scale : Option UInt8 := none

/-- Reads the parameters of a decimal type. They are not checked against each other. -/
def decodeDecimal : Decoder SqlType :=
  Json.decodeStruct ["precision", "scale"]
    (fun depth (d : DecimalDraft) name j => do
      let n ← Json.decodeUInt8 depth j
      return if name = "precision" then { d with precision := some n }
        else { d with scale := some n })
    {} fun d => do return .decimal (← d.precision) (← d.scale)

/-- A name with a type, as far as it was read. -/
structure NamedDraft where
  name : Option String := none
  type : Option SqlType := none

/-- Reads a name with a type. -/
def decodeNamed (type : Decoder SqlType) : Decoder (String × SqlType) :=
  Json.decodeStruct ["name", "type"]
    (fun depth (d : NamedDraft) name j =>
      if name = "name" then do return { d with name := some (← Json.decodeString depth j) }
      else do return { d with type := some (← type depth j) })
    {} fun d => do return (← d.name, ← d.type)

/-- The primitive type of a name. -/
def primitiveOfName? (s : String) : Option SqlType :=
  (BaseType.ofName? s).bind fun b => b.primitive?.map primitive

/-- Reads a type at most as deep as the fuel, which is the depth allowed for it. -/
def decodeFuel : Nat → Decoder SqlType
  | fuel + 1, depth + 1, .object [(kind, j)] =>
    match kind.text? with
    | some "Decimal" => decodeDecimal depth j
    | some "Array" => (decodeFuel fuel depth j).map .array
    | some "Map" =>
      (Json.decodePair (decodeFuel fuel) (decodeFuel fuel) depth j).map fun (k, v) => .map k v
    | some "Struct" => (Json.decodeList (decodeNamed (decodeFuel fuel)) depth j).map .struct
    | _ => Json.decodeName primitiveOfName? (depth + 1) (.object [(kind, j)])
  | _, depth, j => Json.decodeName primitiveOfName? depth j

/-- Reads a type. -/
def decode : Decoder SqlType := fun depth j => decodeFuel depth depth j

end SqlType
end StreamTables
