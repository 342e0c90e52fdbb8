import StreamTables.SqlType.Json

/-!
# Diagnostics in JSON

A diagnostic is an object of everything that is said about its last failure, with the diagnostic
of the cause inside it.

## What is here

* `Diagnostic.json`, `Diagnostic.decode`: writing and reading.
-/

set_option autoImplicit false

namespace StreamTables
namespace Diagnostic

/-! ## Writing -/

/-- The tree of a name with a type. -/
def columnJson (column : String × SqlType) : Json :=
  .record [("name", .text column.1), ("type", column.2.json)]

/-- The tree of a finding and of the tree of its cause. -/
def findingJson (f : Finding) (cause : Json) : Json :=
  .record
    [("code", .text f.code), ("statement", .orNull .text f.statement),
      ("message", .text f.message), ("column", .orNull columnJson f.column),
      ("label", .orNull .text f.label), ("help", .orNull .text f.help),
      ("notes", .array (f.notes.map .text)), ("cause", cause)]

/-- The tree of a chain of causes. -/
def causesJson (causes : List Finding) : Json := causes.foldr findingJson .null

/-- The tree of a diagnostic. -/
def json (d : Diagnostic) : Json := findingJson d.top (causesJson d.causes)

/-! ## Reading -/

/-- A diagnostic, as far as it was read. Of what may be absent, the draft keeps that it was
there. -/
structure Draft where
  code : Option String := none
  statement : Option String := none
  message : Option String := none
  column : Option (String × SqlType) := none
  label : Option String := none
  help : Option String := none
  notes : Option (List String) := none
  cause : Option Diagnostic := none

/-- The names of the fields, in order. -/
def fieldNames : List String :=
  ["code", "statement", "message", "column", "label", "help", "notes", "cause"]

/-- Reads one field. -/
def Draft.field (diagnostic : Decoder Diagnostic) (depth : Nat) (d : Draft) (name : String)
    (j : Json) : Except Refusal Draft :=
  let optionalText := Json.decodeOptional Json.decodeString depth j
  match name with
  | "code" => do return { d with code := some (← Json.decodeString depth j) }
  | "statement" => do return { d with statement := ← optionalText }
  | "message" => do return { d with message := some (← Json.decodeString depth j) }
  | "column" => do
    return { d with
      column := ← Json.decodeOptional (SqlType.decodeNamed SqlType.decode) depth j }
  | "label" => do return { d with label := ← optionalText }
  | "help" => do return { d with help := ← optionalText }
  | "notes" => do return { d with notes := some (← Json.decodeList Json.decodeString depth j) }
  | _ => do return { d with cause := ← Json.decodeOptional diagnostic depth j }

/-- The diagnostic of a draft that has a code, a message and notes. -/
def Draft.finish (d : Draft) : Option Diagnostic := do
  let top :=
    { code := ← d.code, statement := d.statement, message := ← d.message, column := d.column,
      label := d.label, help := d.help, notes := ← d.notes }
  return ⟨top, (d.cause.map fun c => c.top :: c.causes).getD []⟩

/-- Reads a diagnostic with fewer causes than the fuel. -/
def decodeFuel : Nat → Decoder Diagnostic
  | 0 => fun _ _ => .error .form
  | fuel + 1 =>
    Json.decodeStruct fieldNames (Draft.field (decodeFuel fuel)) {} Draft.finish

/-- Reads a diagnostic. -/
def decode : Decoder Diagnostic := fun depth j => decodeFuel (depth + 1) depth j

end Diagnostic
end StreamTables
