import StreamTables.Error
import StreamTables.VersionTable

/-!
# System columns

Columns that the engine adds to every table: *pseudocolumns* that tell where a record comes from,
and the bounds of the window of a windowed record.

Every stored table remembers the version of the set of pseudocolumns that it was built with. The
version says which of them there are, and in which order they stand in stored rows.

## What is here

* `SystemColumn`: the columns, with their names and types.
* `Version`: a registered version, with `Version.legacy` and `Version.current`.
* `Version.columns`, `Version.storedColumns`, `Version.systemColumns`: what a version consists of.
-/

set_option autoImplicit false

namespace StreamTables

/-- A column that the engine adds to a table. -/
inductive SystemColumn where
  /-- The timestamp of the record. -/
  | rowTime
  /-- The partition that the record was read from. -/
  | rowPartition
  /-- The offset of the record in its partition. -/
  | rowOffset
  /-- The start of the record's window. -/
  | windowStart
  /-- The end of the record's window. -/
  | windowEnd
  deriving DecidableEq

namespace SystemColumn

/-- All system columns. -/
def all : List SystemColumn := [rowTime, rowPartition, rowOffset, windowStart, windowEnd]

/-- The name of a system column. -/
def name : SystemColumn → String
  | rowTime => "ROWTIME"
  | rowPartition => "ROWPARTITION"
  | rowOffset => "ROWOFFSET"
  | windowStart => "WINDOWSTART"
  | windowEnd => "WINDOWEND"

/-- The system column of a name. -/
def ofName? (s : String) : Option SystemColumn := all.find? fun c => c.name = s

/-- The type of a system column. -/
def type : SystemColumn → SqlType
  | rowPartition => .primitive .integer
  | rowTime | rowOffset | windowStart | windowEnd => .primitive .bigint

/-- The bounds of a window. -/
def windowBounds : List SystemColumn := [windowStart, windowEnd]

/-- The pseudocolumns of all versions. Versions are only ever appended. The timestamp of a record
is known whenever a row is read, so it is not stored. -/
def versions : VersionTable SystemColumn where
  rows := [[rowTime], [rowTime, rowPartition, rowOffset]]
  bounds := windowBounds
  readTime := [rowTime]

theorem versions_isAdditive : versions.isAdditive = true := by decide

theorem name_inj {a b : SystemColumn} (h : a.name = b.name) : a = b := by
  cases a <;> cases b <;> simp_all [name]

theorem ofName?_name (c : SystemColumn) : ofName? c.name = some c := by
  cases c <;> simp [ofName?, all, name]

end SystemColumn

/-- A registered version of the pseudocolumns. -/
abbrev Version := Fin SystemColumn.versions.rows.length

namespace Version

/-- The version of tables older than all pseudocolumns but the timestamp. -/
def legacy : Version := ⟨0, by decide⟩

/-- The newest version. -/
def current : Version := ⟨1, by decide⟩

/-- All versions, oldest first. -/
def all : List Version := List.finRange _

/-- The version of a number. -/
def ofNumber (n : Int) : Except Error Version :=
  if h : n.toNat < SystemColumn.versions.rows.length ∧ 0 ≤ n then .ok ⟨n.toNat, h.1⟩
  else .error (.internal (.unknownVersion n))

/-- The pseudocolumns of a version, in order. -/
def columns (v : Version) : List SystemColumn := SystemColumn.versions.columns v

/-- The pseudocolumns of a version that are stored, in order. -/
def storedColumns (v : Version) : List SystemColumn := SystemColumn.versions.storedColumns v

/-- The pseudocolumns of a version with the window bounds behind them. -/
def systemColumns (v : Version) : List SystemColumn := SystemColumn.versions.systemColumns v

/-- Whether a name is that of a pseudocolumn of a version. -/
def isPseudoColumn (v : Version) (name : String) : Bool := v.columns.any fun c => c.name = name

/-- Whether a name is that of a system column of a version. -/
def isSystemColumn (v : Version) (name : String) : Bool :=
  v.systemColumns.any fun c => c.name = name

theorem columns_current : columns current = [.rowTime, .rowPartition, .rowOffset] := by decide

theorem storedColumns_legacy : storedColumns legacy = [] := by decide

theorem storedColumns_current : storedColumns current = [.rowPartition, .rowOffset] := by decide

theorem nodup_names_storedColumns (v : Version) :
    (v.storedColumns.map SystemColumn.name).Nodup := by
  revert v
  decide

theorem storedColumns_subset (v : Version) : ∀ c ∈ v.storedColumns, c ∈ v.systemColumns := by
  revert v
  decide

theorem isSystemColumn_of_mem_storedColumns (v : Version) {c : SystemColumn}
    (h : c ∈ v.storedColumns) : v.isSystemColumn c.name = true :=
  List.any_eq_true.2 ⟨c, storedColumns_subset v c h, by simp⟩

end Version

/-- Whether a name is that of a window bound. -/
def SystemColumn.isWindowBound (name : String) : Bool := windowBounds.any fun c => c.name = name

end StreamTables
