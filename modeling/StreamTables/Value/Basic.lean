import StreamTables.Decimal.Text
import StreamTables.Double.Text
import StreamTables.SqlType.Basic

/-!
# Values

The value of a cell of a row.

## What is here

* `Value`: a value of any type, or null.
* `Value.baseType?`: the kind of type that a value has.
* `Value.equal`: equality of values. Decimals and doubles are compared as numbers, and values of
  different kinds are never equal.
-/

set_option autoImplicit false

namespace StreamTables

/-- The value of a cell. -/
inductive Value where
  | null
  | boolean (b : Bool)
  | integer (i : Int32)
  | bigint (i : Int64)
  | decimal (d : Decimal)
  | double (d : Double)
  | string (s : String)
  | bytes (bs : List UInt8)
  /-- Days since the epoch. -/
  | date (days : Int32)
  /-- Milliseconds since midnight. -/
  | time (millis : Int64)
  /-- Milliseconds since the epoch. -/
  | timestamp (millis : Int64)
  | array (items : List Value)
  | map (entries : List (Value × Value))
  | struct (fields : List (String × Value))

namespace Value

/-- The kind of a value's type; null has none. -/
def baseType? : Value → Option BaseType
  | null => none
  | boolean _ => some .boolean
  | integer _ => some .integer
  | bigint _ => some .bigint
  | decimal _ => some .decimal
  | double _ => some .double
  | string _ => some .string
  | bytes _ => some .bytes
  | date _ => some .date
  | time _ => some .time
  | timestamp _ => some .timestamp
  | array _ => some .array
  | map _ => some .map
  | struct _ => some .struct

mutual

/-- Whether two values are equal. -/
def equal : Value → Value → Bool
  | null, null => true
  | boolean a, boolean b => a = b
  | integer a, integer b => a = b
  | bigint a, bigint b => a = b
  | decimal a, decimal b => a.equal b
  | double a, double b => a.equal b
  | string a, string b => a = b
  | bytes a, bytes b => a = b
  | date a, date b => a = b
  | time a, time b => a = b
  | timestamp a, timestamp b => a = b
  | array as, array bs => listEqual as bs
  | map as, map bs => entriesEqual as bs
  | struct as, struct bs => fieldsEqual as bs
  | _, _ => false

/-- Whether two lists of values are equal, one by one. -/
def listEqual : List Value → List Value → Bool
  | [], [] => true
  | a :: as, b :: bs => a.equal b && listEqual as bs
  | _, _ => false

/-- Whether two lists of entries are equal, one by one. -/
def entriesEqual : List (Value × Value) → List (Value × Value) → Bool
  | [], [] => true
  | (k, v) :: as, (l, w) :: bs => k.equal l && v.equal w && entriesEqual as bs
  | _, _ => false

/-- Whether two lists of fields are equal, one by one. -/
def fieldsEqual : List (String × Value) → List (String × Value) → Bool
  | [], [] => true
  | (n, v) :: as, (m, w) :: bs => n = m && v.equal w && fieldsEqual as bs
  | _, _ => false

end

/-- Equal values are of one kind. -/
theorem baseType?_eq_of_equal {a b : Value} (h : a.equal b = true) :
    a.baseType? = b.baseType? := by
  cases a <;> cases b <;> simp_all [equal, baseType?]

end Value
end StreamTables
