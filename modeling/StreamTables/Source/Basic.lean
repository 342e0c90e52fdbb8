import StreamTables.Codec.Payload
import StreamTables.Schema.Rebuild

/-!
# Sources

A source says how a topic is read as a table. It is kept with the query plan, and with it the
version of the pseudocolumns that its store was created with.

## What is here

* `TableSource`: a source.
* `TableSource.emittedSchema`: the schema of the rows that its table emits. It is that of the
  current version, whatever version the source was recorded with.
* `TableSource.storedSchema`: the schema of the rows in its store. A windowed table is stored as it
  is read, and any other with the pseudocolumns that are stored under its version.
* `Plan`: what is known about the plan that a source is part of.
* `TableSource.isStored`: whether there is a store. A table that is repartitioned later needs none,
  unless it is windowed.
* `TableSource.consumed`, `TableSource.materialized?`: the codecs of the topic and of the store.
-/

set_option autoImplicit false

namespace StreamTables

/-- How a topic is read as a table. -/
structure TableSource where
  topic : String
  formats : Formats
  /-- The columns of the records of the topic. -/
  schema : Schema
  /-- The version that was current when the store of the table was created. -/
  version : Version
  /-- The windows of a windowed table. -/
  window : Option Window
  path : PlanPath
  deriving DecidableEq

/-- What is known about a query plan. -/
structure Plan where
  /-- Topics whose records are repartitioned further down the plan. -/
  repartitioned : List String

namespace TableSource

/-- Whether the table is windowed. -/
def isWindowed (s : TableSource) : Bool := s.window.isSome

/-- How the keys of the topic are written. -/
def keyFormat (s : TableSource) : KeyFormat :=
  ⟨s.formats.keyFormat, s.formats.keyFeatures, s.window⟩

/-- The schema of the rows that the table emits. -/
def emittedSchema (s : TableSource) : Except Error Schema := s.schema.served s.isWindowed .current

/-- The schema of the rows in the store. -/
def storedSchema (s : TableSource) : Schema :=
  if s.isWindowed then s.schema else s.schema.stored s.version

/-- The name of the store. -/
def storeName (s : TableSource) : String := s.path.operatorName ++ "-Reduce"

/-- Whether the table has a store. -/
def isStored (s : TableSource) (plan : Plan) : Bool :=
  s.isWindowed || !plan.repartitioned.contains s.topic

/-! ## Codecs -/

/-- The codecs for payloads of a schema, for a step of the plan. -/
def requests (s : TableSource) (schema : Schema) (path : PlanPath) : CodecRequests where
  keyFormat := s.keyFormat
  rowFormat := s.formats.valueFormat
  schema := ⟨schema, s.formats.keyFeatures, s.formats.valueFeatures⟩
  path := path

/-- The codecs of the topic. -/
def consumed (s : TableSource) : CodecRequests := s.requests s.schema s.path

/-- The codecs of the store, if there is one. -/
def materialized? (s : TableSource) (plan : Plan) : Option CodecRequests :=
  if s.isStored plan then some (s.requests s.storedSchema (s.path.child "Materialize")) else none

end TableSource
end StreamTables
