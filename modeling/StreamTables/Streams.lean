import StreamTables.Table

/-!
# Streams

All tables of an application, each with the topic that it reads.

## What is here

* `Streams`: the tables, in the order in which they were registered.
* `Streams.pipe`: delivers a record to the tables of its topic, up to the first one that fails.
* `Streams.store?`, `Streams.put?`: finding a store by its name, and writing to it. Of several
  stores of one name it is the first that is found.
-/

set_option autoImplicit false

namespace StreamTables

/-- The tables of an application, with their topics. -/
structure Streams where
  tables : List (String × Table)

namespace Streams

/-- No tables. -/
def empty : Streams := ⟨[]⟩

/-- Registers a table with its topic. -/
def register (s : Streams) (topic : String) (t : Table) : Streams := ⟨s.tables ++ [(topic, t)]⟩

/-- Delivers a record to those of the tables that read its topic, up to the first that fails. -/
def deliver (topic : String) (key : ByteArray) (value : Option ByteArray) (m : RecordMetadata) :
    List (String × Table) → List (String × Table) × Except Error Unit
  | [] => ([], .ok ())
  | (reads, t) :: tables =>
    if reads = topic then
      match t.process key value m with
      | (t, .error e) => ((reads, t) :: tables, .error e)
      | (t, .ok ()) =>
        let (tables, result) := deliver topic key value m tables
        ((reads, t) :: tables, result)
    else
      let (tables, result) := deliver topic key value m tables
      ((reads, t) :: tables, result)

/-- Delivers a record to a topic. -/
def pipe (s : Streams) (topic : String) (key : ByteArray) (value : Option ByteArray)
    (m : RecordMetadata) : Streams × Except Error Unit :=
  let (tables, result) := deliver topic key value m s.tables
  (⟨tables⟩, result)

/-- The first store of a name. -/
def store? (s : Streams) (name : String) : Option Store :=
  (s.tables.flatMap fun t => t.2.stores).find? fun store => store.name = name

/-- Writes a row straight to the first store of a name among tables, if there is one. -/
def putAmong? (name : String) (key : Key) (row : Option Row) :
    List (String × Table) → Option (List (String × Table) × Except Error (Option Row))
  | [] => none
  | (topic, t) :: tables =>
    match t.put? name key row with
    | some (t, held) => some ((topic, t) :: tables, held)
    | none => (putAmong? name key row tables).map fun (tables, held) => ((topic, t) :: tables, held)

/-- Writes a row straight to the first store of a name, if there is one. -/
def put? (s : Streams) (name : String) (key : Key) (row : Option Row) :
    Option (Streams × Except Error (Option Row)) :=
  (putAmong? name key row s.tables).map fun (tables, held) => (⟨tables⟩, held)

/-- The table of a number, in the order of registration. -/
def table? (s : Streams) (index : Nat) : Option Table := (s.tables[index]?).map (·.2)

/-- Replaces the table of a number. -/
def modifyTable (s : Streams) (index : Nat) (f : Table → Table) : Streams :=
  ⟨s.tables.modify index fun (topic, t) => (topic, f t)⟩

end Streams
end StreamTables
