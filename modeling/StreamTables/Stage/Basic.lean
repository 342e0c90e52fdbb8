import StreamTables.Schema.Projection
import StreamTables.Stage.Layout

/-!
# Stages

A stage changes the rows of a table, one at a time. It sees the key and the metadata of the record
as well. Tombstones pass every stage.

## What is here

* `Stage`: the stages there are.
* `Stage.project?`, `appendStored`, `serveStored`, `completeWindowed`: the stages of a version of
  the pseudocolumns.
* `Stage.name`: how a stage is called.
* `Stage.row`, `Stage.apply`: what a stage does to a row, and to a record.
-/

set_option autoImplicit false

namespace StreamTables

/-- A step that the rows of a table go through. -/
inductive Stage where
  /-- Changes nothing. It is a place for a store. -/
  | identity
  /-- Keeps the genuine cells of a row. -/
  | project (p : Projection)
  /-- Appends the columns that are stored. -/
  | append (columns : List SystemColumn)
  /-- Completes a row with the pseudocolumns that were not stored, and appends the key. -/
  | serve (layout : Layout SystemColumn)
  /-- Appends the pseudocolumns, the key and the window bounds. -/
  | complete (pseudocolumns bounds : List SystemColumn)

namespace Stage

/-- The stage that keeps the genuine columns of a schema, if there are others. -/
def project? (s : Schema) (v : Version) : Option Stage := (s.projection? v).map project

/-- The stage in front of a store that is recorded under a version. -/
def appendStored (v : Version) : Stage := append v.storedColumns

/-- The stage behind a store that was recorded under a version. -/
def serveStored (v : Version) : Stage := serve (.served v)

/-- The stage that completes the rows of a windowed table. -/
def completeWindowed (v : Version) : Stage := complete v.columns SystemColumn.windowBounds

/-- How a stage is called. -/
def name : Stage → String
  | identity => "identity"
  | project _ => "project_genuine_value_columns"
  | append _ => "add_pseudo_columns_to_materialize"
  | serve _ => "add_remaining_pseudo_and_key_columns"
  | complete .. => "add_key_and_pseudo_columns"

/-- What a stage does to the row of a record. -/
def row (stage : Stage) (key : Key) (m : RecordMetadata) (row : Row) : Except Error Row :=
  match stage with
  | identity => .ok row
  | project p =>
    if row.length = p.width then .ok (p.cells row)
    else .error (.widthMismatch stage.name p.width row.length)
  | append columns => do
    return row ++ (← columns.mapM m.value)
  | serve layout =>
    let stored := layout.stored.length
    if row.length < stored then .error (.shortStoredRow stored row.length)
    else do
      let user := row.length - stored
      let cells ← Layout.fill m.value (layout.stored.zip (row.drop user)) layout.target
      return row.take user ++ cells ++ key
  | complete pseudocolumns bounds => do
    let cells ← pseudocolumns.mapM m.value
    return row ++ cells ++ key ++ (← bounds.mapM m.value)

/-- What a stage does to a record. -/
def apply (stage : Stage) (key : Key) (m : RecordMetadata) :
    Option Row → Except Error (Option Row)
  | none => .ok none
  | some r => (stage.row key m r).map some

end Stage
end StreamTables
