import StreamTables.Column
import StreamTables.Diagnostic.Internal

/-!
# Errors

An error is its cause. What is said about it is derived from the cause.

## What is here

* `Inconsistency`: contradictions in stored definitions, which are reported as internal errors.
* `Error`: everything that can fail.
* `Error.code`, `Error.message`, `Error.summary`, `Error.diagnostic`: what is said about an error.
-/

set_option autoImplicit false

namespace StreamTables

/-- A contradiction in a stored definition. -/
inductive Inconsistency where
  | unknownVersion (number : Int)
  | keyAfterValue (name : String)
  /-- The indexes of the columns are not their places. -/
  | sparseIndexes (columns : List Column)
  | notSystemColumn (name : String)
  /-- A column stored under one version has no place in order among those of another. -/
  | outOfOrder (name : String) (recorded current : Nat)
  deriving DecidableEq

/-- What a contradiction consists of. -/
def Inconsistency.reason : Inconsistency → String
  | unknownVersion number => "unknown pseudocolumn version: " ++ Digits.intText number
  | keyAfterValue name => "key column " ++ name ++ " follows value columns"
  | sparseIndexes columns =>
    "column indexes of schema " ++ Column.listText columns ++ " are not dense"
  | notSystemColumn name => name ++ " is not a system column"
  | outOfOrder name recorded current =>
    "pseudocolumn " ++ name ++ " stored under version " ++ Digits.natText recorded ++
      " is out of order in version " ++ Digits.natText current

/-- What can fail. -/
inductive Error where
  /-- No type has this name. -/
  | unknownType (name : String)
  /-- The name is taken in the namespace; the type is that of the column that was to be added. -/
  | duplicateColumn (part : Namespace) (name : String) (type : SqlType)
  /-- A column asks for the window of a record that has none. -/
  | missingWindow (column : String)
  /-- A stored row has fewer cells than pseudocolumns were stored. -/
  | shortStoredRow (expected actual : Nat)
  /-- A row has another number of cells than there are columns. -/
  | widthMismatch (context : String) (expected actual : Nat)
  /-- A payload cannot be written or read. -/
  | payload (context message : String)
  | unsupportedFormat (format : String)
  | internal (what : Inconsistency)
  deriving DecidableEq

namespace Error

/-- The code of an error. -/
def code : Error → String
  | unknownType _ => "TYPE_001"
  | duplicateColumn .. => "SCHEMA_001"
  | missingWindow _ => "STREAM_001"
  | shortStoredRow .. => "STREAM_002"
  | widthMismatch .. => "STREAM_003"
  | payload .. => "STREAM_004"
  | unsupportedFormat _ => "STREAM_005"
  | internal _ => internalCode

/-- The message of an error. An internal error is told by its reason. -/
def message : Error → String
  | unknownType name => "unknown type `" ++ name ++ "`"
  | duplicateColumn part name _ => "Duplicate " ++ part.text ++ " column `" ++ name ++ "`"
  | missingWindow column => "Cannot resolve " ++ column ++ " without window bounds"
  | shortStoredRow expected actual =>
    "Stored row has " ++ Digits.natText actual ++ " columns, fewer than the " ++
      Digits.natText expected ++ " materialized pseudocolumns"
  | widthMismatch context expected actual =>
    context ++ ": expected " ++ Digits.natText expected ++ " columns, found " ++
      Digits.natText actual
  | payload context message => context ++ ": " ++ message
  | unsupportedFormat format => "Unsupported format " ++ format
  | internal what => what.reason

/-- The error in one line, for those who do not look at its diagnostic. -/
def summary : Error → String
  | missingWindow column =>
    "Record of a windowed source carries no window bounds for " ++ column
  | e => e.message

/-- The diagnostic of an error. -/
def diagnostic (host : Host) (e : Error) : Diagnostic :=
  let plain := Finding.plain e.code e.message
  match e with
  | unknownType _ =>
    ⟨{ plain with
        label := some "not a primitive SQL type"
        help := some ("use one of BOOLEAN, INTEGER, BIGINT, DECIMAL(p, s), DOUBLE, STRING, " ++
          "BYTES, DATE, TIME, TIMESTAMP") }, []⟩
  | duplicateColumn part name type =>
    ⟨{ plain with
        column := some (name, type)
        label := some
          ("column `" ++ name ++ "` is already declared in the " ++ part.text ++ " namespace")
        help := some "Rename or remove one of the columns"
        notes :=
          ["Column names must be unique within the KEY and within the VALUE namespace",
            "The same name may appear once as a KEY and once as a VALUE column"] }, []⟩
  | missingWindow _ =>
    ⟨{ plain with
        label := some "record metadata has no window"
        help := some "Windowed tables must be consumed with a windowed key format" }, []⟩
  | shortStoredRow .. =>
    ⟨{ plain with
        label := some "row read back from the state store is too short"
        notes :=
          ["The pseudocolumn version recorded on the source does not match the stored data"] },
      []⟩
  | widthMismatch .. =>
    ⟨{ plain with label := some "row width does not match the physical schema" }, []⟩
  | payload .. => ⟨plain, []⟩
  | unsupportedFormat _ =>
    ⟨{ plain with help := some "Use a format the configured serde factory supports" }, []⟩
  | internal what => .internal what.reason .unknown host

end Error
end StreamTables
