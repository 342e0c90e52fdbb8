import StreamTables.Text.Digits

/-!
# SQL types

## What is here

* `Primitive`: the types without parameters.
* `SqlType`: primitive types, decimals, and the types built from others.
* `BaseType`: the kind of a type. The numbers among the kinds are in the order in which they widen.
* `SqlType.text`: how a type is written.
-/

set_option autoImplicit false

namespace StreamTables

/-- The types that have no parameters. -/
inductive Primitive where
  | boolean
  /-- Integers of 32 signed bits. -/
  | integer
  /-- Integers of 64 signed bits. -/
  | bigint
  | double
  | string
  | bytes
  /-- Days since the epoch. -/
  | date
  /-- Milliseconds since midnight. -/
  | time
  /-- Milliseconds since the epoch. -/
  | timestamp
  deriving DecidableEq

/-- The type of a column. -/
inductive SqlType where
  | primitive (p : Primitive)
  /-- Decimals of `precision` digits in all, `scale` of them behind the point. -/
  | decimal (precision scale : UInt8)
  | array (element : SqlType)
  | map (key value : SqlType)
  | struct (fields : List (String × SqlType))

/-! ## Equality -/

mutual

/-- Whether two types are the same. -/
def SqlType.same : SqlType → SqlType → Bool
  | .primitive p, .primitive q => p = q
  | .decimal p s, .decimal p' s' => p = p' && s = s'
  | .array t, .array t' => t.same t'
  | .map k v, .map k' v' => k.same k' && v.same v'
  | .struct fs, .struct fs' => sameFields fs fs'
  | _, _ => false

/-- Whether two lists of fields are the same. -/
def SqlType.sameFields : List (String × SqlType) → List (String × SqlType) → Bool
  | [], [] => true
  | (n, t) :: fs, (n', t') :: fs' => n = n' && t.same t' && sameFields fs fs'
  | _, _ => false

end

mutual

theorem SqlType.same_iff : ∀ {a b : SqlType}, a.same b = true ↔ a = b
  | .primitive p, b => by cases b <;> simp [SqlType.same]
  | .decimal p s, b => by cases b <;> simp [SqlType.same]
  | .array t, b => by cases b <;> simp [SqlType.same, SqlType.same_iff (a := t)]
  | .map k v, b => by
    cases b <;> simp [SqlType.same, SqlType.same_iff (a := k), SqlType.same_iff (a := v)]
  | .struct fs, b => by cases b <;> simp [SqlType.same, SqlType.sameFields_iff (f := fs)]

theorem SqlType.sameFields_iff :
    ∀ {f g : List (String × SqlType)}, SqlType.sameFields f g = true ↔ f = g
  | [], g => by cases g <;> simp [SqlType.sameFields]
  | (n, t) :: f, g => by
    cases g with
    | nil => simp [SqlType.sameFields]
    | cons head g =>
      obtain ⟨m, u⟩ := head
      simp [SqlType.sameFields, SqlType.same_iff (a := t), SqlType.sameFields_iff (f := f)]

end

instance : DecidableEq SqlType := fun _ _ => decidable_of_iff _ SqlType.same_iff

/-! ## Kinds of types -/

/-- The kind of a type, without its parameters. -/
inductive BaseType where
  | boolean
  | integer
  | bigint
  | decimal
  | double
  | string
  | bytes
  | date
  | time
  | timestamp
  | array
  | map
  | struct
  deriving DecidableEq

namespace BaseType

/-- All kinds, in order. -/
def all : List BaseType :=
  [boolean, integer, bigint, decimal, double, string, bytes, date, time, timestamp, array, map,
    struct]

/-- The place of a kind in the order. -/
def rank (b : BaseType) : Nat := all.idxOf b

/-- Whether values of this kind are numbers. -/
def isNumber (b : BaseType) : Bool := [integer, bigint, decimal, double].contains b

/-- The name of a kind. -/
def name : BaseType → String
  | boolean => "Boolean"
  | integer => "Integer"
  | bigint => "Bigint"
  | decimal => "Decimal"
  | double => "Double"
  | string => "String"
  | bytes => "Bytes"
  | date => "Date"
  | time => "Time"
  | timestamp => "Timestamp"
  | array => "Array"
  | map => "Map"
  | struct => "Struct"

/-- The kind of a name. -/
def ofName? (s : String) : Option BaseType := all.find? fun b => b.name = s

theorem mem_all (b : BaseType) : b ∈ all := by cases b <;> decide

end BaseType

/-- The kind of a primitive type. -/
def Primitive.baseType : Primitive → BaseType
  | .boolean => .boolean
  | .integer => .integer
  | .bigint => .bigint
  | .double => .double
  | .string => .string
  | .bytes => .bytes
  | .date => .date
  | .time => .time
  | .timestamp => .timestamp

/-- The primitive type of a kind that has one. -/
def BaseType.primitive? : BaseType → Option Primitive
  | .boolean => some .boolean
  | .integer => some .integer
  | .bigint => some .bigint
  | .double => some .double
  | .string => some .string
  | .bytes => some .bytes
  | .date => some .date
  | .time => some .time
  | .timestamp => some .timestamp
  | .decimal | .array | .map | .struct => none

namespace SqlType

/-- The kind of a type. -/
def baseType : SqlType → BaseType
  | primitive p => p.baseType
  | decimal _ _ => .decimal
  | array _ => .array
  | map _ _ => .map
  | struct _ => .struct

/-- Whether values of this type are numbers. -/
def isNumber (t : SqlType) : Bool := t.baseType.isNumber

end SqlType

/-! ## Writing -/

/-- How a primitive type is written. -/
def Primitive.text : Primitive → String
  | .boolean => "BOOLEAN"
  | .integer => "INTEGER"
  | .bigint => "BIGINT"
  | .double => "DOUBLE"
  | .string => "STRING"
  | .bytes => "BYTES"
  | .date => "DATE"
  | .time => "TIME"
  | .timestamp => "TIMESTAMP"

mutual

/-- How a type is written. -/
def SqlType.text : SqlType → String
  | .primitive p => p.text
  | .decimal precision scale =>
    "DECIMAL(" ++ Digits.natText precision.toNat ++ ", " ++ Digits.natText scale.toNat ++ ")"
  | .array element => "ARRAY<" ++ element.text ++ ">"
  | .map key value => "MAP<" ++ key.text ++ ", " ++ value.text ++ ">"
  | .struct fields => "STRUCT<" ++ String.intercalate ", " (fieldTexts fields) ++ ">"

/-- How the fields of a struct are written, each with its name in backticks. -/
def SqlType.fieldTexts : List (String × SqlType) → List String
  | [] => []
  | (name, type) :: fields => ("`" ++ name ++ "` " ++ type.text) :: fieldTexts fields

end

end StreamTables
