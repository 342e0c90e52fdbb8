import StreamTables.Settings
import StreamTables.Source.Basic
import StreamTables.Streams

/-!
# Building tables

The rows of a table that is not windowed go through these stages:

* the projection onto the genuine columns, if there are others;
* appending the pseudocolumns that are stored;
* a stage that changes nothing and has the store, if there is one;
* completing the row with the other pseudocolumns and the key.

A windowed table is stored as it is read. Its rows are projected, if need be, and completed.

## What is here

* `TableSource.steps`, `TableSource.table`: the table of a source.
* `TableSource.requestsMade`: the codecs that are asked for when a table is built, up to the first
  that there is none of.
* `Streams.build`: builds the table of a source and registers it. The schema of its rows is worked
  out last, so a table without one has been registered all the same.
-/

set_option autoImplicit false

namespace StreamTables
namespace TableSource

/-- The version whose columns are taken out of the rows that are read. -/
def projectedVersion (s : TableSource) : Version := if s.isWindowed then .current else s.version

/-- The stages that complete rows. The store, if it is among them, is that of the table. -/
def completion (s : TableSource) (store : Option Store) : List Step :=
  if s.isWindowed then [⟨.completeWindowed .current, none⟩]
  else [⟨.appendStored s.version, none⟩, ⟨.identity, store⟩, ⟨.serveStored s.version, none⟩]

/-- The steps of the table of a source. -/
def steps (s : TableSource) (store : Option Store) : List Step :=
  (Stage.project? s.schema s.projectedVersion).toList.map (⟨·, none⟩) ++ s.completion store

/-- The table of a source, before any record. -/
def table (s : TableSource) (plan : Plan) : Except Error Table := do
  let codecs ← s.consumed.codecs
  let store ← (s.materialized? plan).mapM fun r => do return Store.new s.storeName (← r.codecs)
  return { codecs, source := if s.isWindowed then store else none, steps := s.steps store,
           output := [] }

/-- The first requests of a list, up to one that fails. -/
def untilRefused : List CodecRequest → List CodecRequest
  | [] => []
  | r :: rs =>
    match r.codec with
    | .ok _ => r :: untilRefused rs
    | .error _ => [r]

/-- The codecs that are asked for when the table of a source is built. -/
def requestsMade (s : TableSource) (plan : Plan) : List CodecRequest :=
  untilRefused ((s.consumed :: (s.materialized? plan).toList).flatMap fun r => [r.key, r.row])

end TableSource

/-- What is known of a table that was built. -/
structure BuiltTable where
  /-- The number of the table, in the order of registration. -/
  index : Nat
  /-- The schema of the rows that it emits. -/
  schema : Schema
  storeName : String
  /-- The topic that backs the store. -/
  changelogTopic : String
  /-- Whether it has a store. -/
  isStored : Bool
  deriving DecidableEq

/-- Builds the table of a source and registers it. -/
def Streams.build (streams : Streams) (settings : Settings) (plan : Plan) (source : TableSource) :
    Streams × Except Error BuiltTable :=
  match source.table plan with
  | .error e => (streams, .error e)
  | .ok table =>
    (streams.register source.topic table, do
      return {
        index := streams.tables.length
        schema := ← source.emittedSchema
        storeName := source.storeName
        changelogTopic := settings.changelogTopic source.storeName
        isStored := source.isStored plan })

end StreamTables
