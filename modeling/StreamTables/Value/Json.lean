import StreamTables.SqlType.Json
import StreamTables.Value.Basic

/-!
# Values in JSON

A value is an object with the name of its kind and the value under it; null is its name alone.

## What is here

* `Value.json`: writing. Doubles that are not finite become `null`, which is not read back.
* `Value.decode`: reading. A decimal may stand in objects that mark it as a number.
-/

set_option autoImplicit false

namespace StreamTables
namespace Value

/-! ## Writing -/

/-- The tree of a value under the name of its kind. -/
def tagged (kind : BaseType) (j : Json) : Json := .record [(kind.name, j)]

/-- The name of null. -/
def nullName : String := "Null"

mutual

/-- The tree of a value. -/
def json : Value → Json
  | null => .text nullName
  | boolean b => tagged .boolean (.bool b)
  | integer i => tagged .integer (.int i.toInt)
  | bigint i => tagged .bigint (.int i.toInt)
  | decimal d => tagged .decimal (.text d.text)
  | double d => tagged .double (if d.isFinite then .number (.ofDouble d) else .null)
  | string s => tagged .string (.text s)
  | bytes bs => tagged .bytes (.array (bs.map fun b => .int b.toNat))
  | date i => tagged .date (.int i.toInt)
  | time i => tagged .time (.int i.toInt)
  | timestamp i => tagged .timestamp (.int i.toInt)
  | array items => tagged .array (.array (listJson items))
  | map entries => tagged .map (.array (entriesJson entries))
  | struct fields => tagged .struct (.array (fieldsJson fields))

/-- The trees of values. -/
def listJson : List Value → List Json
  | [] => []
  | v :: vs => v.json :: listJson vs

/-- The trees of a map's entries. -/
def entriesJson : List (Value × Value) → List Json
  | [] => []
  | (k, v) :: entries => .array [k.json, v.json] :: entriesJson entries

/-- The trees of a struct's fields. -/
def fieldsJson : List (String × Value) → List Json
  | [] => []
  | (name, v) :: fields => .array [.text name, v.json] :: fieldsJson fields

end

/-! ## Reading -/

/-- The field name that marks a number. -/
def numberName : String := "$serde_json::private::Number"

/-- Reads a decimal from a string or a number, or from an object that marks a decimal as a number.
The mark is the only field of its object, and its name is written without escapes. -/
def decodeDecimal : Decoder Decimal
  | _, .string (some s) => Json.orRefuse (Decimal.ofText? s)
  | _, .number n => Json.orRefuse n.decimal?
  | depth + 1, .object [(.plain name, j)] =>
    if name = numberName then decodeDecimal depth j else .error .form
  | _, _ => .error .form

/-- Reads a double from a number. -/
def decodeDouble : Decoder Double
  | _, .number n => Json.orRefuse n.double?
  | _, _ => .error .form

/-- Reads null by its name. -/
def decodeNull : Decoder Value :=
  Json.decodeName fun s => if s = nullName then some null else none

/-- Reads a value that has a kind at most as deep as the fuel. -/
def decodeFuel : Nat → Decoder Value
  | fuel + 1, depth + 1, .object [(name, j)] =>
    match name.text?.bind BaseType.ofName? with
    | some .boolean => (Json.decodeBool depth j).map .boolean
    | some .integer => (Json.decodeInt32 depth j).map .integer
    | some .bigint => (Json.decodeInt64 depth j).map .bigint
    | some .decimal => (decodeDecimal depth j).map .decimal
    | some .double => (decodeDouble depth j).map .double
    | some .string => (Json.decodeString depth j).map .string
    | some .bytes => (Json.decodeList Json.decodeUInt8 depth j).map .bytes
    | some .date => (Json.decodeInt32 depth j).map .date
    | some .time => (Json.decodeInt64 depth j).map .time
    | some .timestamp => (Json.decodeInt64 depth j).map .timestamp
    | some .array => (Json.decodeList (decodeFuel fuel) depth j).map .array
    | some .map =>
      (Json.decodeList (Json.decodePair (decodeFuel fuel) (decodeFuel fuel)) depth j).map .map
    | some .struct =>
      (Json.decodeList (Json.decodePair Json.decodeString (decodeFuel fuel)) depth j).map .struct
    | none => decodeNull (depth + 1) (.object [(name, j)])
  | _, depth, j => decodeNull depth j

/-- Reads a value. -/
def decode : Decoder Value := fun depth j => decodeFuel depth depth j

end Value
end StreamTables
