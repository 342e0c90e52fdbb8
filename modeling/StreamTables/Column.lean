import StreamTables.SqlType.Cast

/-!
# Columns

A record has a key and a value. Each is a row of columns of its own, and the two parts are the
namespaces of column names.

## What is here

* `Namespace`: the part of a record that a column belongs to.
* `Column`: a name, a type and a place.
* `Column.text`: how a column is written.
-/

set_option autoImplicit false

namespace StreamTables

/-- The part of a record that a column belongs to. -/
inductive Namespace where
  | key
  | value
  deriving DecidableEq

namespace Namespace

/-- How a namespace is written. -/
def text : Namespace → String
  | key => "KEY"
  | value => "VALUE"

/-- The name of a namespace. -/
def name : Namespace → String
  | key => "Key"
  | value => "Value"

/-- The namespace of a name. -/
def ofName? (s : String) : Option Namespace := [key, value].find? fun n => n.name = s

/-- The place of a namespace in the order in which names are looked up: a key column hides a value
column of its name. -/
def rank : Namespace → Nat
  | key => 0
  | value => 1

end Namespace

/-- A column of a record: its index is its place within its namespace. -/
structure Column where
  name : String
  type : SqlType
  part : Namespace
  index : Nat
  deriving DecidableEq

namespace Column

/-- Whether two columns have one name and one namespace. -/
def sameName (a b : Column) : Bool := a.name = b.name && a.part = b.part

/-- How a column is written: its name in backticks, its type, and a mark on key columns. -/
def text (c : Column) : String :=
  "`" ++ c.name ++ "` " ++ c.type.text ++
    match c.part with
    | .key => " KEY"
    | .value => ""

/-- How columns are written. -/
def listText (cs : List Column) : String := String.intercalate ", " (cs.map text)

end Column
end StreamTables
