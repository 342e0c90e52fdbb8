import StreamTables.Proofs.Schema.Clash
import StreamTables.Proofs.Schema.Projection
import StreamTables.Proofs.Source.FailedBuild
import StreamTables.Proofs.Source.Stored

/-!
# Sources that a table can be built of

Building a table takes many steps, and most of them could fail: codecs are asked for twice, a layout
is checked, schemas are rebuilt.  Two things can really go wrong.  There may be no codec of a
format, which is found out at once, for the keys first.  Or the key has a column of a name that is
put around it, which is found out at the end.  Neither has to do with the version that the source
was recorded with, the columns of its value, or the plan.  What these decide is which stages and
whether a store the table has.

## What is here

* `TableSource.map_stage_steps`, `Stage.isSome_project?_iff`: the stages of a table.
* `Streams.build_of_codecs_eq_error`, `Streams.build_eq_error_iff`: the error of a build.
* `Streams.exists_build_iff`: the sources that a table can be built of.
* `Streams.exists_stages_of_build`: what is built of them.
* `Streams.build_exact`: all of this together.
-/

set_option autoImplicit false

namespace StreamTables

/-! ## Stages -/

namespace TableSource

variable {s : TableSource} {plan : Plan}

/-- **The stages of a table**, with or without a store. -/
theorem map_stage_steps (s : TableSource) (store : Option Store) :
    (s.steps store).map Step.stage = (Stage.project? s.schema s.projectedVersion).toList ++
      if s.isWindowed then [.completeWindowed .current]
      else [.appendStored s.version, .identity, .serveStored s.version] := by
  rw [steps, completion, List.map_append, List.map_map]
  refine congrArg₂ (· ++ ·) (List.map_id _) ?_
  split <;> rfl

theorem isStored_eq_true_iff :
    s.isStored plan = true ↔ s.isWindowed = true ∨ s.topic ∉ plan.repartitioned := by
  rw [isStored, Bool.or_eq_true, Bool.not_eq_true', List.contains_eq_mem, decide_eq_false_iff_not]

end TableSource

/-- **Rows are projected if a column of the value is not genuine**, and only then. -/
theorem Stage.isSome_project?_iff {s : Schema} {v : Version} :
    (Stage.project? s v).isSome = true ↔
      ∃ f ∈ s.value, f.name ∈ v.systemColumns.map SystemColumn.name ∨
        f.name ∈ s.key.map Field.name := by
  rw [project?, Option.isSome_map, Option.isSome_iff_ne_none, Ne, Schema.projection?_eq_none_iff,
    Schema.genuine_eq_self_iff]
  simp only [Schema.isGenuine_iff_names, not_forall, not_and_or, not_not, exists_prop]

namespace Streams

variable {streams : Streams} {settings : Settings} {plan : Plan} {source : TableSource}
  {built : BuiltTable} {e : Error}

/-! ## Builds -/

/-- **Without the codecs of its topic nothing is built of a source.** -/
theorem build_of_codecs_eq_error (h : source.consumed.codecs = .error e) :
    streams.build settings plan source = (streams, .error e) := by
  rw [build, TableSource.table, h]
  rfl

/-- With codecs, all that can go wrong is the schema of the rows. -/
theorem build_eq_error_iff (h : source.formats.AreJson) :
    (streams.build settings plan source).2 = .error e ↔ source.emittedSchema = .error e := by
  obtain ⟨t, ht⟩ := TableSource.exists_table_iff.2 h
  rw [build, ht]
  refine Except.bind_eq_error_iff.trans (or_iff_left ?_)
  rintro ⟨schema, -, h⟩
  cases h

/-- **The sources that a table can be built of.** -/
theorem exists_build_iff :
    (∃ built, (streams.build settings plan source).2 = .ok built) ↔
      source.formats.AreJson ∧ ∃ schema, source.emittedSchema = .ok schema := by
  by_cases h : source.formats.AreJson
  · obtain ⟨t, -, -, hok, -⟩ := build_of_areJson streams settings plan h
    exact (hok.trans Schema.exists_served_iff.symm).trans (and_iff_right h).symm
  · obtain ⟨format, hbuild⟩ := build_of_not_areJson streams settings plan h
    rw [hbuild]
    exact iff_of_false (fun ⟨_, h⟩ => nomatch h) fun hand => h hand.1

/-- **What a build that succeeds comes to**: a table with the stages of its source, which has a
store if that is what is said of it. -/
theorem exists_stages_of_build (h : (streams.build settings plan source).2 = .ok built) :
    ∃ t, (streams.build settings plan source).1.table? built.index = some t ∧
      (t.stores ≠ [] ↔ source.isStored plan = true) ∧ built.isStored = source.isStored plan ∧
      t.steps.map Step.stage
        = (Stage.project? source.schema source.projectedVersion).toList ++
          if source.isWindowed then [.completeWindowed .current]
          else [.appendStored source.version, .identity, .serveStored source.version] := by
  obtain ⟨codecs, store, hopens, -, hregistered, -⟩ := exists_of_build h
  have hstored : built.isStored = source.isStored plan := by
    rw [build] at h
    split at h
    · cases h
    · obtain ⟨schema, -, h⟩ := Except.bind_eq_ok_iff.1 h
      cases h
      rfl
  refine ⟨source.tableWith codecs store [], by rw [table?, hregistered]; rfl, ?_, hstored,
    source.map_stage_steps _⟩
  rw [TableSource.stores_tableWith, ← hopens.isSome_store]
  cases store <;> simp

/-- **When a source can be built, and what of.**  A build succeeds if there are codecs of both
formats and the key avoids the names of the current pseudocolumns, and those of the window bounds if
there are windows: nothing else of the source, the plan or the settings matters, and no layout of a
version is refused.  If a format is wrong, it is reported, that of the keys first.  Otherwise a
build fails at the column that is in the way.  A table that was built has a store if it is windowed
or not repartitioned, and says so.  Its rows are projected if a column of the value is not genuine,
and then they are completed, in one stage if there are windows and in three if there are none. -/
theorem build_exact (streams : Streams) (settings : Settings) (plan : Plan)
    (source : TableSource) :
    ((∃ built, (streams.build settings plan source).2 = .ok built) ↔
      source.formats.keyFormat = "JSON" ∧ source.formats.valueFormat = "JSON" ∧
        (∀ f ∈ source.schema.key, f.name ∉ Version.current.columns.map SystemColumn.name) ∧
        (source.isWindowed = true →
          ∀ f ∈ source.schema.key, f.name ≠ "WINDOWSTART" ∧ f.name ≠ "WINDOWEND")) ∧
    Layout.ofVersions source.version .current = .ok (.served source.version) ∧
    (source.formats.keyFormat ≠ "JSON" → (streams.build settings plan source).2
      = .error (.unsupportedFormat source.formats.keyFormat)) ∧
    (source.formats.keyFormat = "JSON" → source.formats.valueFormat ≠ "JSON" →
      (streams.build settings plan source).2
        = .error (.unsupportedFormat source.formats.valueFormat)) ∧
    (source.formats.keyFormat = "JSON" → source.formats.valueFormat = "JSON" →
      ∀ e, (streams.build settings plan source).2 = .error e ↔
        ∃ f, source.schema.clash? source.isWindowed .current = some f ∧
          e = .duplicateColumn .value f.name f.type) ∧
    (∀ e, (streams.build settings plan source).2 = .error e →
      e.code = if source.formats.keyFormat = "JSON" ∧ source.formats.valueFormat = "JSON"
        then "SCHEMA_001" else "STREAM_005") ∧
    ∀ built, (streams.build settings plan source).2 = .ok built →
      ∃ t, (streams.build settings plan source).1.table? built.index = some t ∧
        (t.stores ≠ [] ↔ source.isWindowed = true ∨ source.topic ∉ plan.repartitioned) ∧
        (built.isStored = true ↔ source.isWindowed = true ∨ source.topic ∉ plan.repartitioned) ∧
        (source.isWindowed = true → t.steps.map Step.stage
          = (Stage.project? source.schema .current).toList ++ [.completeWindowed .current]) ∧
        (source.isWindowed = false → t.steps.map Step.stage
          = (Stage.project? source.schema source.version).toList
            ++ [.appendStored source.version, .identity, .serveStored source.version]) ∧
        ∀ v, (Stage.project? source.schema v).isSome = true ↔
          ∃ f ∈ source.schema.value, f.name ∈ v.systemColumns.map SystemColumn.name ∨
            f.name ∈ source.schema.key.map Field.name := by
  refine ⟨?_, Layout.ofVersions_current source.version, fun hkey => ?_, fun hkey hvalue => ?_,
    fun hkey hvalue e => ?_, fun e he => ?_, fun built hbuilt => ?_⟩
  · rw [exists_build_iff, TableSource.emittedSchema, Schema.exists_served_iff_names]
    exact and_assoc
  · rw [build_of_codecs_eq_error (CodecRequests.codecs_eq_error_of_key hkey)]
    rfl
  · rw [build_of_codecs_eq_error (CodecRequests.codecs_eq_error_of_row hkey hvalue)]
    rfl
  · exact (build_eq_error_iff ⟨hkey, hvalue⟩).trans Schema.served_eq_error_iff
  · split
    · next hjson =>
      obtain ⟨f, -, rfl⟩ := Schema.served_eq_error_iff.1 ((build_eq_error_iff hjson).1 he)
      rfl
    · next hjson =>
      obtain ⟨format, hbuild⟩ := build_of_not_areJson streams settings plan hjson
      rw [hbuild] at he
      cases he
      rfl
  · obtain ⟨t, ht, hstores, hstored, hstages⟩ := exists_stages_of_build hbuilt
    refine ⟨t, ht, hstores.trans TableSource.isStored_eq_true_iff, ?_, fun hw => ?_, fun hw => ?_,
      fun v => Stage.isSome_project?_iff⟩
    · rw [hstored, TableSource.isStored_eq_true_iff]
    · rw [hstages, TableSource.projectedVersion, hw]
      rfl
    · rw [hstages, TableSource.projectedVersion, hw]
      rfl

end Streams

/-- Logins by the minute, with the login in the value as well. -/
def Logins.minuteSource : TableSource :=
  { source with
    schema := { source.schema with
      value := [⟨"LOGIN", .primitive .integer⟩, ⟨"NAME", .primitive .string⟩]
      nodup_value := by decide }
    window := some ⟨.tumbling, some 60000⟩ }

open Logins in
/-- If logins are repartitioned later, those by the minute are stored all the same, without the copy
of the login.  An unknown format and a key column of a reserved name are reported. -/
theorem Streams.build_exact_logins :
    (∃ built t, (empty.build {} ⟨["logins"]⟩ minuteSource).2 = .ok built ∧
      (empty.build {} ⟨["logins"]⟩ minuteSource).1.table? built.index = some t ∧ t.stores ≠ [] ∧
      built.isStored = true ∧
      t.steps.map Step.stage = [.project ⟨2, [1]⟩, .completeWindowed .current]) ∧
    (∃ built t, (empty.build {} ⟨["logins"]⟩ source).2 = .ok built ∧
      (empty.build {} ⟨["logins"]⟩ source).1.table? built.index = some t ∧ t.stores = [] ∧
      t.steps.map Step.stage = [.appendStored .current, .identity, .serveStored .current]) ∧
    (empty.build {} ⟨[]⟩ avroSource).2 = .error (.unsupportedFormat "AVRO") ∧
    (empty.build {} ⟨[]⟩ timedSource).2
      = .error (.duplicateColumn .value "ROWTIME" (.primitive .bigint)) := by
  refine ⟨?_, ?_, ?_, ?_⟩
  · have hprojection : minuteSource.schema.projection? .current = some ⟨2, [1]⟩ := by decide
    obtain ⟨hiff, -, -, -, -, -, hof⟩ := build_exact empty {} ⟨["logins"]⟩ minuteSource
    obtain ⟨built, hbuilt⟩ := hiff.2 ⟨rfl, rfl, by decide, by decide⟩
    obtain ⟨t, ht, hstores, hstored, hwindowed, -, -⟩ := hof built hbuilt
    refine ⟨built, t, hbuilt, ht, hstores.2 (.inl rfl), hstored.2 (.inl rfl), ?_⟩
    rw [hwindowed rfl, Stage.project?, hprojection]
    rfl
  · have hprojection : source.schema.projection? source.version = none := by decide
    obtain ⟨hiff, -, -, -, -, -, hof⟩ := build_exact empty {} ⟨["logins"]⟩ source
    obtain ⟨built, hbuilt⟩ := hiff.2 ⟨rfl, rfl, by decide, by decide⟩
    obtain ⟨t, ht, hstores, -, -, hplain, -⟩ := hof built hbuilt
    refine ⟨built, t, hbuilt, ht, not_not.1 fun h => ?_, ?_⟩
    · exact absurd (hstores.1 h) (by decide)
    · rw [hplain rfl, Stage.project?, hprojection]
      rfl
  · obtain ⟨-, -, -, hvalue, -⟩ := build_exact empty {} ⟨[]⟩ avroSource
    exact hvalue rfl (by decide)
  · obtain ⟨-, -, -, -, herror, -⟩ := build_exact empty {} ⟨[]⟩ timedSource
    exact (herror rfl rfl _).2 ⟨⟨"ROWTIME", _⟩, by decide, rfl⟩

end StreamTables
