import StreamTables.SystemColumn
import StreamTables.Value.Json
import StreamTables.Value.Text

/-!
# Records

A record is a key and a row, and it comes with metadata that say where it was read. A record
without a row is a *tombstone*: it deletes its key.

## What is here

* `Key`, `Row`: the cells of a record, in the order of the columns.
* `RecordMetadata`: where a record was read, and its window.
* `RecordMetadata.value`, `RecordMetadata.valueOf`: what a system column shows of a record.
-/

set_option autoImplicit false

namespace StreamTables

/-- The cells of a record's key. -/
abbrev Key := List Value

/-- The cells of a record's value. -/
abbrev Row := List Value

/-- How a key is shown. -/
def Key.text (key : Key) : String := "(" ++ Value.listText key ++ ")"

/-- How a row is shown. -/
def Row.text (row : Row) : String := "[" ++ Value.listText row ++ "]"

/-- The tree of the cells of a key or a row. -/
def Row.json (row : Row) : Json := .array (Value.listJson row)

/-- The span of time of a window, in milliseconds since the epoch. -/
structure WindowBounds where
  start : Int64
  finish : Int64
  deriving DecidableEq

/-- What is known about a record besides its contents. -/
structure RecordMetadata where
  /-- Milliseconds since the epoch. -/
  timestamp : Int64
  partition : Int32
  /-- The place of the record in its partition. -/
  offset : Int64
  /-- The window of a record of a windowed table. -/
  window : Option WindowBounds
  deriving DecidableEq

namespace RecordMetadata

/-- A bound of the window, which a column asks for. -/
def bound (m : RecordMetadata) (c : SystemColumn) (side : WindowBounds → Int64) :
    Except Error Value :=
  match m.window with
  | some w => .ok (.bigint (side w))
  | none => .error (.missingWindow c.name)

/-- The value of a system column for a record. Window bounds have none if there is no window. -/
def value (m : RecordMetadata) : SystemColumn → Except Error Value
  | .rowTime => .ok (.bigint m.timestamp)
  | .rowPartition => .ok (.integer m.partition)
  | .rowOffset => .ok (.bigint m.offset)
  | .windowStart => m.bound .windowStart WindowBounds.start
  | .windowEnd => m.bound .windowEnd WindowBounds.finish

/-- The value of the system column of a name. -/
def valueOf (m : RecordMetadata) (name : String) : Except Error Value :=
  match SystemColumn.ofName? name with
  | some c => m.value c
  | none => .error (.internal (.notSystemColumn name))

theorem valueOf_name (m : RecordMetadata) (c : SystemColumn) : m.valueOf c.name = m.value c := by
  simp [valueOf, SystemColumn.ofName?_name]

/-- A column that is no window bound has a value for every record. -/
theorem value_isOk (m : RecordMetadata) {c : SystemColumn} (h : c ∉ SystemColumn.windowBounds) :
    ∃ v, m.value c = .ok v := by
  cases c <;> simp_all [value, SystemColumn.windowBounds]

end RecordMetadata
end StreamTables
