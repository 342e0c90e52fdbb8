import StreamTables.Codec.Format
import StreamTables.PlanPath
import StreamTables.Record

/-!
# Payloads

A payload is the bytes that the cells of a key or a row are written as: the list of the cells in
JSON, in UTF-8. A single cell may be written alone, without a list around it.

## What is here

* `Codec`: how the payloads of one step are written and read.
* `Codec.ofFormat`: the codec of a format. The only one that there is a codec for is JSON.
* `Codec.encode`, `Codec.decode`: writing and reading. Both fail if the number of cells is not
  that of the columns; writing fails before it writes, and reading after it has read all cells.
* `Codecs`: the codecs of keys and rows.
* `CodecRequest`: what a codec is asked for, which is worth knowing even if there is none.
-/

set_option autoImplicit false

namespace StreamTables

/-- Writes and reads the payloads of a step. -/
structure Codec where
  /-- The step, for error messages. -/
  context : String
  /-- The number of columns. -/
  width : Nat
  /-- Whether the only cell stands alone. -/
  bare : Bool
  deriving DecidableEq

namespace Codec

/-- The name of the format that there is a codec for. -/
def jsonFormat : String := "JSON"

/-- The codec of a format for a number of columns. A single cell stands alone if the features ask
for that and do not ask for the opposite. -/
def ofFormat (format : String) (path : PlanPath) (width : Nat) (features : Features) :
    Except Error Codec :=
  if format = jsonFormat then
    .ok ⟨path.operatorName, width,
      width = 1 && features.has .unwrapSingles && !features.has .wrapSingles⟩
  else .error (.unsupportedFormat format)

/-- Refuses a number of cells that is not that of the columns. -/
def checkWidth (c : Codec) (cells : List Value) : Except Error Unit :=
  if cells.length = c.width then .ok ()
  else .error (.widthMismatch c.context c.width cells.length)

/-- The tree that cells are written as. -/
def tree (c : Codec) (cells : List Value) : Json :=
  match c.bare, cells with
  | true, [cell] => cell.json
  | _, cells => Row.json cells

/-- Reads the cells from a tree. -/
def decodeTree (c : Codec) : Decoder (List Value) := fun depth j =>
  if c.bare then (Value.decode depth j).map fun v => [v]
  else Json.decodeList Value.decode depth j

/-- The payload of cells. -/
def encode (c : Codec) (cells : List Value) : Except Error ByteArray := do
  c.checkWidth cells
  return (c.tree cells).render.toUTF8

/-- The cells of a text, if it is the payload of any. -/
def cellsOfText? (c : Codec) (s : String) : Option (List Value) :=
  (c.decodeTree.ofText s).toOption

/-- The cells of a payload. -/
def decode (c : Codec) (payload : ByteArray) : Except Error (List Value) :=
  match (String.fromUTF8? payload).bind c.cellsOfText? with
  | some cells => do
    c.checkWidth cells
    return cells
  | none => .error (.payload c.context "not a payload of this step")

/-- What is read has as many cells as there are columns. -/
theorem length_of_decode {c : Codec} {cells : List Value} {payload : ByteArray}
    (h : c.decode payload = .ok cells) : cells.length = c.width := by
  unfold decode checkWidth at h
  split at h
  · split at h
    · cases h
      assumption
    · cases h
  · cases h

end Codec

/-- The codecs of keys and rows. -/
structure Codecs where
  key : Codec
  row : Codec
  deriving DecidableEq

/-- What a codec is asked for. -/
inductive CodecRequest where
  /-- Keys of a schema, for a step of a plan. -/
  | key (format : KeyFormat) (schema : PayloadSchema) (path : PlanPath)
  /-- Rows of a schema, for a step of a plan. -/
  | row (format : String) (schema : PayloadSchema) (path : PlanPath)

/-- The codec that is asked for. -/
def CodecRequest.codec : CodecRequest → Except Error Codec
  | key format s path => Codec.ofFormat format.format path s.schema.key.length s.keyFeatures
  | row format s path => Codec.ofFormat format path s.schema.value.length s.valueFeatures

/-- The codecs of the keys and rows of a step are asked for one after the other. -/
structure CodecRequests where
  keyFormat : KeyFormat
  rowFormat : String
  schema : PayloadSchema
  path : PlanPath

namespace CodecRequests

/-- The codec that is asked for first. -/
def key (r : CodecRequests) : CodecRequest := .key r.keyFormat r.schema r.path

/-- The codec that is asked for second. -/
def row (r : CodecRequests) : CodecRequest := .row r.rowFormat r.schema r.path

/-- The codecs that are asked for. -/
def codecs (r : CodecRequests) : Except Error Codecs := do
  return ⟨← r.key.codec, ← r.row.codec⟩

end CodecRequests
end StreamTables
