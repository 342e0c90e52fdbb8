import StreamTables.Json.Decode
import StreamTables.SystemColumn

/-!
# Settings

What an application may choose about how its tables are built.

## What is here

* `Settings`: the settings, with their defaults.
* `Settings.versionOfNewSources`: the version that is recorded on a new source.
* `Settings.changelogTopic`: the topic that backs a store.
* `Settings.decode`: settings in JSON. Those that are missing have their defaults.
-/

set_option autoImplicit false

namespace StreamTables

/-- The settings of an application. -/
structure Settings where
  /-- The name of the application, with which its topics begin. -/
  applicationId : String := "rowflow"
  /-- Whether new sources record where in their topic a record stood. -/
  recordsPosition : Bool := true
  deriving DecidableEq

namespace Settings

/-- The version of the pseudocolumns that is recorded on a source which is new. A source that
exists keeps its own. -/
def versionOfNewSources (s : Settings) : Version :=
  if s.recordsPosition then .current else .legacy

/-- The topic that backs a store. -/
def changelogTopic (s : Settings) (store : String) : String :=
  s.applicationId ++ "-" ++ store ++ "-changelog"

/-- Reads one setting. -/
def field (depth : Nat) (s : Settings) (name : String) (j : Json) : Except Refusal Settings :=
  match name with
  | "application_id" => do return { s with applicationId := ← Json.decodeString depth j }
  | _ => do return { s with recordsPosition := ← Json.decodeBool depth j }

/-- Reads settings. -/
def decode : Decoder Settings :=
  Json.decodeWithDefaults ["application_id", "rowpartition_rowoffset_enabled"] field {}

end Settings
end StreamTables
