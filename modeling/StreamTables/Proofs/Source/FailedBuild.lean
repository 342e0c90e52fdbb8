import StreamTables.Proofs.Codec.Request
import StreamTables.Proofs.Schema.Serving
import StreamTables.Proofs.Streams.Run

/-!
# Builds that fail

A table can be built if there are codecs for its formats.  It is registered then, and only after
that the schema of its rows is worked out, which fails if the key has a column of a name that the
system uses itself.  So there are two kinds of builds that fail: those that left no trace, and those
that left a table behind which nobody knows of, but which reads its topic like any other.

## What is here

* `Formats.AreJson`: whether there are codecs for the formats of a source.
* `TableSource.exists_table_iff`: there is a table of a source if there are.
* `Streams.build_of_not_areJson`, `Streams.build_of_areJson`: the two kinds of builds.
* `Streams.unchanged_iff_of_build_error`: a build that fails leaves no trace if and only if there
  are no codecs.
-/

set_option autoImplicit false

namespace StreamTables

/-- Whether there are codecs for the formats of a source. -/
def Formats.AreJson (f : Formats) : Prop :=
  f.keyFormat = Codec.jsonFormat ∧ f.valueFormat = Codec.jsonFormat

instance (f : Formats) : Decidable f.AreJson := inferInstanceAs (Decidable (_ ∧ _))

namespace TableSource

variable {s : TableSource} {plan : Plan}

/-- All codecs that a source asks for are of its formats. -/
theorem exists_codecs_requests {schema : Schema} {path : PlanPath} :
    (∃ cs, (s.requests schema path).codecs = .ok cs) ↔ s.formats.AreJson :=
  CodecRequests.exists_codecs_iff

/-- **There is a table of a source if there are codecs for its formats**, and only then. -/
theorem exists_table_iff : (∃ t, s.table plan = .ok t) ↔ s.formats.AreJson := by
  constructor
  · rintro ⟨t, h⟩
    obtain ⟨cs, hcs, -⟩ := Except.bind_eq_ok_iff.1 h
    exact exists_codecs_requests.1 ⟨cs, hcs⟩
  · intro h
    obtain ⟨cs, hcs⟩ := exists_codecs_requests.2 h
    rw [table, consumed, hcs, materialized?]
    split
    · obtain ⟨cs', hcs'⟩ : ∃ cs', (s.requests s.storedSchema (s.path.child "Materialize")).codecs
          = .ok cs' := exists_codecs_requests.2 h
      rw [Option.mapM_some, hcs']
      exact ⟨_, rfl⟩
    · exact ⟨_, rfl⟩

/-- If there is none, a format is to blame. -/
theorem exists_of_table_eq_error {e : Error} (h : s.table plan = .error e) :
    ∃ format, e = .unsupportedFormat format := by
  rcases Except.bind_eq_error_iff.1 h with h | ⟨_, -, h⟩
  · exact CodecRequests.exists_of_codecs_eq_error h
  rcases Except.bind_eq_error_iff.1 h with h | ⟨_, -, h⟩
  · rw [materialized?] at h
    split at h
    · rcases Except.bind_eq_error_iff.1 h with h | ⟨_, -, h⟩
      · rcases Except.bind_eq_error_iff.1 h with h | ⟨_, -, h⟩
        · exact CodecRequests.exists_of_codecs_eq_error h
        · exact nomatch h
      · exact nomatch h
    · exact nomatch h
  · exact nomatch h

end TableSource

namespace Streams

variable {streams : Streams} {settings : Settings} {plan : Plan} {source : TableSource} {e : Error}

/-- **Without codecs a build leaves no trace**, and says that a format is to blame. -/
theorem build_of_not_areJson (streams : Streams) (settings : Settings) (plan : Plan)
    (h : ¬ source.formats.AreJson) :
    ∃ format,
      streams.build settings plan source = (streams, .error (.unsupportedFormat format)) := by
  cases ht : source.table plan with
  | ok t => exact absurd (TableSource.exists_table_iff.1 ⟨t, ht⟩) h
  | error e =>
    obtain ⟨format, rfl⟩ := TableSource.exists_of_table_eq_error ht
    exact ⟨format, by rw [build, ht]⟩

/-- **With codecs a build registers a table**, whether or not it fails.  It fails if the key has a
column that is named like a system column of the rows. -/
theorem build_of_areJson (streams : Streams) (settings : Settings) (plan : Plan)
    (h : source.formats.AreJson) :
    ∃ t, source.table plan = .ok t ∧
      (streams.build settings plan source).1 = streams.register source.topic t ∧
      ((∃ built, (streams.build settings plan source).2 = .ok built) ↔
        ∀ c ∈ Version.current.servedColumns source.isWindowed, source.schema.isKey c.name = false) ∧
      ∀ e, (streams.build settings plan source).2 = .error e →
        ∃ f : Field, e = .duplicateColumn .value f.name f.type := by
  obtain ⟨t, ht⟩ := TableSource.exists_table_iff.2 h
  refine ⟨t, ht, ?_⟩
  rw [build, ht]
  dsimp only
  refine ⟨rfl, ?_, fun e he => ?_⟩
  · rw [← Schema.exists_served_iff]
    constructor
    · rintro ⟨built, hbuilt⟩
      obtain ⟨schema, hschema, -⟩ := Except.bind_eq_ok_iff.1 hbuilt
      exact ⟨schema, hschema⟩
    · rintro ⟨schema, hschema⟩
      exact ⟨_, Except.bind_eq_ok_iff.2 ⟨schema, hschema, rfl⟩⟩
  · rcases Except.bind_eq_error_iff.1 he with he | ⟨_, -, he⟩
    · exact Schema.exists_of_served_eq_error he
    · cases he

theorem register_ne (streams : Streams) (topic : String) (t : Table) :
    streams.register topic t ≠ streams := by
  intro h
  have hlen := congrArg (fun s : Streams => s.tables.length) h
  dsimp only [register] at hlen
  rw [List.length_append, List.length_singleton] at hlen
  omega

/-- **A build that fails leaves the streams as they were if and only if there are no codecs for the
formats of the source.**  If there are, the key of the source has a column that is named like a
system column, and the table of the source has been registered all the same. -/
theorem unchanged_iff_of_build_error (h : (streams.build settings plan source).2 = .error e) :
    ((streams.build settings plan source).1 = streams ↔ ¬ source.formats.AreJson) ∧
      (¬ source.formats.AreJson → e.code = "STREAM_005") ∧
      (source.formats.AreJson → e.code = "SCHEMA_001" ∧
        (∃ t, source.table plan = .ok t ∧
          (streams.build settings plan source).1 = streams.register source.topic t) ∧
        ∃ c ∈ Version.current.servedColumns source.isWindowed,
          source.schema.isKey c.name = true) := by
  by_cases hjson : source.formats.AreJson
  · obtain ⟨t, ht, hregister, hok, herror⟩ := build_of_areJson streams settings plan hjson
    obtain ⟨f, rfl⟩ := herror e h
    have hchanged : (streams.build settings plan source).1 ≠ streams :=
      hregister ▸ register_ne streams source.topic t
    refine ⟨iff_of_false hchanged fun hnot => hnot hjson, fun hnot => absurd hjson hnot,
      fun _ => ⟨rfl, ⟨t, ht, hregister⟩, ?_⟩⟩
    refine Classical.byContradiction fun hnone => ?_
    obtain ⟨built, hbuilt⟩ := hok.2 fun c hc =>
      Bool.eq_false_iff.2 fun hkey => hnone ⟨c, hc, hkey⟩
    exact nomatch h.symm.trans hbuilt
  · obtain ⟨format, hbuild⟩ := build_of_not_areJson streams settings plan hjson
    rw [hbuild] at h ⊢
    cases h
    exact ⟨iff_of_true rfl hjson, fun _ => rfl, fun h => absurd h hjson⟩

end Streams

/-! ## Logins, with a key that has a column named like a pseudocolumn -/

namespace Logins

/-- A topic of logins. -/
def source : TableSource where
  topic := "logins"
  formats := ⟨"JSON", "JSON", ⟨false, false⟩, ⟨false, false⟩⟩
  schema := ⟨[⟨"LOGIN", .primitive .integer⟩], [⟨"NAME", .primitive .string⟩], by decide, by decide⟩
  version := .current
  window := none
  path := ⟨["Logins", "Source"]⟩

/-- The same with values in a format that there is no codec for. -/
def avroSource : TableSource :=
  { source with formats := { source.formats with valueFormat := "AVRO" } }

/-- The same with a key that has a column named like a pseudocolumn. -/
def timedSource : TableSource :=
  { source with
    schema := ⟨[⟨"LOGIN", .primitive .integer⟩, ⟨"ROWTIME", .primitive .bigint⟩],
      [⟨"NAME", .primitive .string⟩], by decide, by decide⟩ }

/-- A login. -/
def message : Message where
  key := "[\x7b\"Integer\":1\x7d]".toUTF8
  value := some "[\x7b\"String\":\"alice\"\x7d]".toUTF8
  metadata := ⟨1000, 0, 7, none⟩

end Logins

open Logins in
/-- The format leaves no trace, and the key does. -/
theorem Streams.unchanged_iff_of_build_error_logins :
    (empty.build {} ⟨[]⟩ avroSource).1 = empty ∧ (empty.build {} ⟨[]⟩ timedSource).1 ≠ empty ∧
      ∃ t, timedSource.table ⟨[]⟩ = .ok t ∧
        (empty.build {} ⟨[]⟩ timedSource).1 = empty.register "logins" t := by
  have havro : (empty.build {} ⟨[]⟩ avroSource).2 = .error (.unsupportedFormat "AVRO") := by
    decide +kernel
  have htimed : (empty.build {} ⟨[]⟩ timedSource).2
      = .error (.duplicateColumn .value "ROWTIME" (.primitive .bigint)) := by decide +kernel
  obtain ⟨hunchanged, -, -⟩ := unchanged_iff_of_build_error havro
  obtain ⟨hchanged, -, hregister⟩ := unchanged_iff_of_build_error htimed
  exact ⟨hunchanged.2 (by decide), fun h => hchanged.1 h (by decide), (hregister (by decide)).2.1⟩

open Logins in
/-- A build fails, and a login that the table built after it would read is refused, because the
table that was left behind is in front of it. -/
theorem Streams.refused_after_failed_build :
    (empty.build {} ⟨[]⟩ timedSource).2
        = .error (.duplicateColumn .value "ROWTIME" (.primitive .bigint)) ∧
      (empty.build {} ⟨[]⟩ timedSource).1.tables.length = 1 ∧
      ((empty.after [.build {} ⟨[]⟩ timedSource, .build {} ⟨[]⟩ source]).pipe "logins" message.key
        message.value message.metadata).2 = .error (.widthMismatch "Logins-Source" 2 1) ∧
      ((empty.after [.build {} ⟨[]⟩ source]).pipe "logins" message.key message.value
        message.metadata).2 = .ok () := by
  decide +kernel

end StreamTables
