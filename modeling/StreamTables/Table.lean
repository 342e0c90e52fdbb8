import StreamTables.Stage.Basic
import StreamTables.Store.Basic

/-!
# Tables

A table reads the records of a topic. Each record goes through the stages of the table, and where a
stage has a store, the record is written to it and goes on as what is read back. What comes out at
the end is emitted.

## What is here

* `Step`: a stage with its store.
* `Table`: the steps of a table, the store in front of them, and what was emitted so far.
* `Table.process`: the way of one record. If it fails, what was written so far stays written, and
  nothing is emitted.
* `Table.latest`: what was last emitted for a key.
* `Table.put?`: writing to one of the stores without a record.
-/

set_option autoImplicit false

namespace StreamTables

/-- A stage, and the store that its rows are written to. -/
structure Step where
  stage : Stage
  store : Option Store

/-- A table that reads a topic. -/
structure Table where
  /-- The codecs of the records that are read. -/
  codecs : Codecs
  /-- The store that records are written to as they are read. -/
  source : Option Store
  steps : List Step
  /-- What was emitted, in order. -/
  output : List (Key × Option Row)

/-- Sends a row through a store, if there is one. -/
def Store.pass (s : Option Store) (key : Key) (row : Option Row) :
    Option Store × Except Error (Option Row) :=
  match s with
  | none => (none, .ok row)
  | some s =>
    let (s, held) := s.put key row
    (some s, held)

namespace Step

/-- Sends a row through one step. -/
def run (step : Step) (key : Key) (m : RecordMetadata) (row : Option Row) :
    Step × Except Error (Option Row) :=
  match step.stage.apply key m row with
  | .error e => (step, .error e)
  | .ok row =>
    let (store, row) := Store.pass step.store key row
    ({ step with store }, row)

/-- Sends a row through steps, up to the first that fails. -/
def runAll (key : Key) (m : RecordMetadata) :
    List Step → Option Row → List Step × Except Error (Option Row)
  | [], row => ([], .ok row)
  | step :: steps, row =>
    match step.run key m row with
    | (step, .error e) => (step :: steps, .error e)
    | (step, .ok row) =>
      let (steps, row) := runAll key m steps row
      (step :: steps, row)

/-- Writes a row straight to the first store of a name, if there is one. -/
def put? (name : String) (key : Key) (row : Option Row) :
    List Step → Option (List Step × Except Error (Option Row))
  | [] => none
  | step :: steps =>
    match step.store.filter fun s => s.name = name with
    | some s =>
      let (s, held) := s.put key row
      some ({ step with store := some s } :: steps, held)
    | none => (put? name key row steps).map fun (steps, held) => (step :: steps, held)

end Step

namespace Table

/-- A table without steps, which has emitted nothing. -/
def new (codecs : Codecs) (source : Option Store) : Table := ⟨codecs, source, [], []⟩

/-- A table with one more step at its end. -/
def addStep (t : Table) (stage : Stage) (store : Option Store) : Table :=
  { t with steps := t.steps ++ [⟨stage, store⟩] }

/-- The names of the stages, in order. -/
def stageNames (t : Table) : List String := t.steps.map fun step => step.stage.name

/-- The stores, in the order in which records reach them. -/
def stores (t : Table) : List Store := t.source.toList ++ t.steps.filterMap Step.store

/-- The key and the row of a record. -/
def read (t : Table) (key : ByteArray) (value : Option ByteArray) :
    Except Error (Key × Option Row) := do
  let key ← t.codecs.key.decode key
  let row ← value.mapM t.codecs.row.decode
  return (key, row)

/-- Sends a key and a row through the source store and the steps, and emits what comes out. -/
def run (t : Table) (key : Key) (m : RecordMetadata) (row : Option Row) :
    Table × Except Error Unit :=
  match Store.pass t.source key row with
  | (source, .error e) => ({ t with source }, .error e)
  | (source, .ok row) =>
    match Step.runAll key m t.steps row with
    | (steps, .error e) => ({ t with source, steps }, .error e)
    | (steps, .ok row) => ({ t with source, steps, output := t.output ++ [(key, row)] }, .ok ())

/-- The way of one record through a table. -/
def process (t : Table) (key : ByteArray) (value : Option ByteArray) (m : RecordMetadata) :
    Table × Except Error Unit :=
  match t.read key value with
  | .error e => (t, .error e)
  | .ok (key, row) => t.run key m row

/-- The row that was last emitted for a key. -/
def latest (t : Table) (key : Key) : Option Row :=
  (t.output.reverse.find? fun r => Value.listEqual r.1 key).bind (·.2)

/-- Writes a row straight to the first store of a name, if the table has one. -/
def put? (t : Table) (name : String) (key : Key) (row : Option Row) :
    Option (Table × Except Error (Option Row)) :=
  match t.source.filter fun s => s.name = name with
  | some s =>
    let (s, held) := s.put key row
    some ({ t with source := some s }, held)
  | none => (Step.put? name key row t.steps).map fun (steps, held) => ({ t with steps }, held)

end Table
end StreamTables
