import StreamTables.SqlType.Basic

/-!
# Diagnostics

A diagnostic reports a failure and the failures that led to it, from the last one to the first.

## What is here

* `Finding`: one failure, with all that is said about it.
* `Diagnostic`: a finding and its chain of causes.
* `Diagnostic.lines`, `Diagnostic.render`: the report. Each cause is indented by two more spaces
  than what it caused.
-/

set_option autoImplicit false

namespace StreamTables

/-- One failure. -/
structure Finding where
  code : String
  /-- The statement that failed. -/
  statement : Option String
  message : String
  /-- The column that is to blame, with its type. -/
  column : Option (String × SqlType)
  label : Option String
  help : Option String
  notes : List String
  deriving DecidableEq

/-- A failure and what caused it, the closest cause first. -/
structure Diagnostic where
  top : Finding
  causes : List Finding
  deriving DecidableEq

/-- A finding with a code and a message and nothing else. -/
def Finding.plain (code message : String) : Finding :=
  ⟨code, none, message, none, none, none, []⟩

/-- The code of the failures that are the program's own fault. -/
def internalCode : String := "INTERNAL_ERROR"

/-- Whether the failure is the program's own fault. -/
def Diagnostic.isInternal (d : Diagnostic) : Bool := d.top.code = internalCode

/-! ## Rendering -/

namespace Finding

/-- The indentation of a finding that lies `depth` causes deep. -/
def indent (depth : Nat) : String := String.ofList (List.replicate (2 * depth) ' ')

/-- The first line of a finding. -/
def header (depth : Nat) (f : Finding) : String :=
  (if depth = 0 then "error[" else indent depth ++ "caused by [") ++ f.code ++ "]: " ++ f.message

/-- A remark, set off by a blank line. -/
def remark (depth : Nat) (text : String) : List String := ["", indent depth ++ text]

/-- The note on the column that is to blame. -/
def columnNote (column : String × SqlType) : String :=
  "note: column `" ++ column.1 ++ "` is of type `" ++ column.2.text ++ "`"

/-- The lines of a finding that lies `depth` causes deep. -/
def lines (depth : Nat) (f : Finding) : List String :=
  header depth f ::
    (f.statement.toList.map fun s => indent depth ++ "  --> " ++ s) ++
    (f.label.toList.map fun s => indent depth ++ "   = " ++ s) ++
    (f.column.toList.flatMap fun c => remark depth (columnNote c)) ++
    (f.help.toList.flatMap fun s => remark depth ("help: " ++ s)) ++
    f.notes.flatMap fun s => remark depth ("note: " ++ s)

end Finding

namespace Diagnostic

/-- The lines of causes, each set off by a blank line, from a depth on. -/
def causeLines (depth : Nat) : List Finding → List String
  | [] => []
  | f :: fs => "" :: (f.lines depth ++ causeLines (depth + 1) fs)

/-- The lines of a diagnostic. -/
def lines (d : Diagnostic) : List String := d.top.lines 0 ++ causeLines 1 d.causes

/-- The report of a diagnostic. Every line ends with a line feed. -/
def render (d : Diagnostic) : String := String.join (d.lines.map fun line => line ++ "\n")

end Diagnostic
end StreamTables
