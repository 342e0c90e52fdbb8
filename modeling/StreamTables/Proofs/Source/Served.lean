import StreamTables.Proofs.Schema.Serving
import StreamTables.Proofs.Source.Built

/-!
# Rows under the schema that is advertised

With a table that was built comes the schema of its rows.  It is worked out for the current version,
and the rows come from stages that take out the system columns of the version that the source was
recorded with.  So rows and schema fit together only if it makes no difference which of the two
versions is asked: a source recorded under an old version may have a column of its own that is named
like a pseudocolumn which came later.  Its rows keep the column, and the schema does not have it.

## What is here

* `TableSource.Shows`: what the cell of a column has to be, by the name of the column.
* `TableSource.Fits`: rows that are as wide as a schema and have the right cell in every place.
* `TableSource.fits_completed_iff`: when the rows of a source fit.
* `Streams.fits_iff_of_build`: when they fit.
-/

set_option autoImplicit false

namespace StreamTables
namespace TableSource

/-- What the cell of a column has to be, by the name of the column: the cell of the key column of
that name, or else what a system column shows of the record, or else the cell of the user's own
column of that name, as far as it survives the store. -/
inductive Shows (s : TableSource) (stored : Bool) (key : Key) (m : RecordMetadata) (row : Row) :
    String → Value → Prop where
  | key {f : Field} {cell : Value} (mem : (f, cell) ∈ s.schema.key.zip key) :
    Shows s stored key m row f.name cell
  | system {c : SystemColumn} {cell : Value} (not_key : s.schema.isKey c.name = false)
    (value : m.value c = .ok cell) : Shows s stored key m row c.name cell
  | user {f : Field} {c cell : Value} (genuine : s.schema.isGenuine .current f.name = true)
    (mem : (f, c) ∈ s.schema.value.zip row) (restores : c.Restores stored cell) :
    Shows s stored key m row f.name cell

/-- Whether a row is as wide as a schema, and the cell in the place of every column is what the name
of the column says. -/
def Fits (s : TableSource) (stored : Bool) (schema : Schema) (key : Key) (m : RecordMetadata)
    (row r : Row) : Prop :=
  List.Forall₂ (fun f cell => s.Shows stored key m row f.name cell) schema.value r

variable {s : TableSource} {stored : Bool} {key : Key} {m : RecordMetadata} {row g : Row}
  {schema : Schema}

/-! ## The schema -/

/-- **The columns that are advertised**, in order. -/
theorem value_of_emittedSchema (h : s.emittedSchema = .ok schema) :
    schema.value = (s.schema.genuine .current).value
      ++ Version.current.columns.map SystemColumn.field ++ s.schema.key
      ++ if s.isWindowed then SystemColumn.windowBounds.map SystemColumn.field else [] :=
  (Schema.of_served h).2

/-- No system column that is advertised is named like a column of the key. -/
theorem isKey_eq_false (h : s.emittedSchema = .ok schema) :
    ∀ c ∈ Version.current.servedColumns s.isWindowed, s.schema.isKey c.name = false :=
  Schema.exists_served_iff.1 ⟨schema, h⟩

/-! ## The parts of a row -/

theorem shows_genuine (hrow : row.length = s.schema.value.length)
    (hg : Row.Restores stored (s.schema.genuineCells .current row) g) :
    List.Forall₂ (fun f cell => s.Shows stored key m row f.name cell)
      (s.schema.genuine .current).value g := by
  rw [Row.Restores, Schema.genuineCells, List.forall₂_map_left_iff] at hg
  rw [← Schema.map_fst_filter_zip hrow, List.forall₂_map_left_iff]
  have hmem : ∀ p ∈ (s.schema.value.zip row).filter (fun p => s.schema.isGenuine .current p.1.name),
      p ∈ s.schema.value.zip row ∧ s.schema.isGenuine .current p.1.name = true :=
    fun p hp => List.mem_filter.1 hp
  exact ((List.forall₂_and_left _ _).2 ⟨hmem, hg⟩).imp fun p cell h => .user h.1.2 h.1.1 h.2

theorem shows_system {cs : List SystemColumn} {cells : Row}
    (hkey : ∀ c ∈ cs, s.schema.isKey c.name = false) (h : cs.mapM m.value = .ok cells) :
    List.Forall₂ (fun f cell => s.Shows stored key m row f.name cell)
      (cs.map SystemColumn.field) cells := by
  rw [List.forall₂_map_left_iff]
  exact ((List.forall₂_and_left _ _).2 ⟨hkey, List.mapM_eq_ok_iff.1 h⟩).imp
    fun c cell h => .system h.1 h.2

theorem shows_key (h : key.length = s.schema.key.length) :
    List.Forall₂ (fun f cell => s.Shows stored key m row f.name cell) s.schema.key key :=
  List.forall₂_iff_zip.2 ⟨h.symm, fun hmem => .key hmem⟩

/-! ## Whole rows -/

/-- Whether it makes no difference for the columns of a source if the version that it was recorded
with or the current one is asked for system columns. -/
def AgreesWithCurrent (s : TableSource) : Prop :=
  s.isWindowed = true ∨ ∀ f ∈ s.schema.value, Version.current.isSystemColumn f.name = true →
    s.schema.isKey f.name = true ∨ s.version.isSystemColumn f.name = true

instance (s : TableSource) : Decidable s.AgreesWithCurrent :=
  inferInstanceAs (Decidable (_ ∨ _))

/-- What a source takes out of its rows is what the schema leaves out if the versions agree. -/
theorem agreesWithCurrent_iff :
    s.AgreesWithCurrent ↔ ∀ f ∈ s.schema.value,
      s.schema.isGenuine s.projectedVersion f.name = true →
        s.schema.isGenuine .current f.name = true := by
  rw [AgreesWithCurrent, projectedVersion]
  cases hw : s.isWindowed with
  | true => simp
  | false =>
    simp only [Bool.false_eq_true, false_or, if_false]
    refine forall₂_congr fun f _ => ?_
    simp only [Schema.isGenuine, Bool.not_eq_true', Bool.or_eq_false_iff]
    cases Version.current.isSystemColumn f.name <;> cases s.version.isSystemColumn f.name <;>
      cases s.schema.isKey f.name <;> simp

/-- If the versions agree, the cells that are taken out of a row are those of the columns that the
schema leaves out. -/
theorem genuineCells_of_agrees (h : s.AgreesWithCurrent) (row : Row) :
    s.schema.genuineCells s.projectedVersion row = s.schema.genuineCells .current row := by
  rw [Schema.genuineCells, Schema.genuineCells]
  refine congrArg (List.map Prod.snd) (List.filter_congr fun p hp => Bool.eq_iff_iff.2 ⟨?_, ?_⟩)
  · exact agreesWithCurrent_iff.1 h p.1 (List.of_mem_zip hp).1
  · exact Schema.isGenuine_anti (Version.le_current _)

/-- If as many cells are taken out as columns are left out, the versions agree. -/
theorem agrees_of_length (h : (s.schema.genuine .current).value.length
    = (s.schema.genuine s.projectedVersion).value.length) : s.AgreesWithCurrent := by
  have hnarrow : (s.schema.genuine .current).value
      = (s.schema.genuine s.projectedVersion).value.filter
          fun f => s.schema.isGenuine .current f.name := by
    rw [Schema.value_genuine, Schema.value_genuine, List.filter_filter]
    refine List.filter_congr fun f _ => ?_
    rw [Bool.eq_iff_iff, Bool.and_eq_true]
    exact ⟨fun hf => ⟨hf, Schema.isGenuine_anti (Version.le_current _) hf⟩, And.left⟩
  rw [hnarrow, List.length_filter_eq_length_iff] at h
  exact agreesWithCurrent_iff.2 fun f hf hgen => h f (List.mem_filter.2 ⟨hf, hgen⟩)

/-- **When the rows of a source fit the schema that is advertised.** -/
theorem fits_completed_iff (hschema : s.emittedSchema = .ok schema)
    (hrow : row.length = s.schema.value.length) (hkey : key.length = s.schema.key.length)
    (hwindow : s.isWindowed = true → m.window.isSome = true)
    (hg : Row.Restores stored (s.schema.genuineCells s.projectedVersion row) g) :
    s.Fits stored schema key m row (s.completed key m g) ↔ s.AgreesWithCurrent := by
  have hpseudo : List.Forall₂ (fun f cell => s.Shows stored key m row f.name cell)
      (Version.current.columns.map SystemColumn.field) m.pseudocolumns :=
    shows_system (fun c hc => isKey_eq_false hschema c (List.mem_append_left _ hc)) m.mapM_current
  have hbounds : List.Forall₂ (fun f cell => s.Shows stored key m row f.name cell)
      (if s.isWindowed then SystemColumn.windowBounds.map SystemColumn.field else [])
      (if s.isWindowed then m.windowCells else []) := by
    split
    · next hw =>
      have hserved : ∀ c ∈ SystemColumn.windowBounds,
          c ∈ Version.current.servedColumns s.isWindowed := by
        rw [Version.servedColumns, if_pos hw]
        exact fun c hc => List.mem_append_right _ hc
      exact shows_system (fun c hc => isKey_eq_false hschema c (hserved c hc))
        (RecordMetadata.mapM_windowBounds.2 ⟨hwindow hw, rfl⟩)
    · exact .nil
  rw [Fits, value_of_emittedSchema hschema, completed]
  constructor
  · intro hfits
    have hlen := hfits.length_eq
    rw [List.length_append, List.length_append, List.length_append, List.length_append,
      List.length_append, List.length_append, hbounds.length_eq, hpseudo.length_eq, hkey,
      ← hg.length_eq, s.schema.length_genuineCells hrow] at hlen
    exact agrees_of_length (by omega)
  · intro hagrees
    rw [genuineCells_of_agrees hagrees] at hg
    exact .append (.append (.append (shows_genuine hrow hg) hpseudo) (shows_key hkey)) hbounds

end TableSource

/-! ## Runs -/

namespace Streams

variable {streams : Streams} {settings : Settings} {plan : Plan} {source : TableSource}
  {built : BuiltTable}

/-- **When the rows of a table that was built fit the schema that was advertised with it**: if the
source is windowed, or has no columns of its own that are named like system columns of the current
version, except for those of the version that it was recorded with and for copies of the key. -/
theorem fits_iff_of_build (hbuild : (streams.build settings plan source).2 = .ok built)
    (calls : List Call) {t : Table}
    (ht : ((streams.build settings plan source).1.after calls).table? built.index = some t)
    {k : Key} {r : Row} (hr : (k, some r) ∈ t.output) :
    ∃ msg row, .pipe source.topic msg ∈ calls ∧
      t.read msg.key msg.value = .ok (k, some row) ∧
      (source.Fits (source.isStored plan) built.schema k msg.metadata row r ↔
        source.AgreesWithCurrent) := by
  obtain ⟨-, -, -, -, -, hschema⟩ := exists_of_build hbuild
  obtain ⟨codecs, store, output, hopens, rfl, hemitted⟩ := isTable_after hbuild calls ht
  obtain ⟨msg, row, g, hmsg, hkey, hrow, hwindow, hg, rfl⟩ := hemitted k r hr
  obtain ⟨payload, -, hdecode⟩ := TableSource.exists_of_mapM_decode hrow
  refine ⟨msg, row, hmsg, TableSource.read_eq_ok_iff.2 ⟨hkey, hrow⟩,
    TableSource.fits_completed_iff hschema ?_ ?_ hwindow hg⟩
  · exact (Codec.decode_eq_ok_iff.1 hdecode).1.trans hopens.width_row
  · exact (Codec.decode_eq_ok_iff.1 hkey).1.trans hopens.width_key

end Streams

/-! ## Users with a column named like a pseudocolumn -/

namespace Users

/-- A topic of users with a column of their own that is named like a pseudocolumn, recorded under a
version. -/
def source (v : Version) : TableSource where
  topic := "users"
  formats := ⟨"JSON", "JSON", ⟨false, false⟩, ⟨false, false⟩⟩
  schema := ⟨[⟨"ID", .primitive .integer⟩],
    [⟨"NAME", .primitive .string⟩, ⟨"ROWPARTITION", .primitive .integer⟩], by decide, by decide⟩
  version := v
  window := none
  path := ⟨["Users", "Source"]⟩

/-- A user. -/
def message : Message where
  key := "[\x7b\"Integer\":1\x7d]".toUTF8
  value := some "[\x7b\"String\":\"alice\"\x7d,\x7b\"Integer\":3\x7d]".toUTF8
  metadata := ⟨1000, 0, 7, none⟩

/-- The streams with the table of users alone. -/
def streams (v : Version) : Streams := (Streams.empty.build {} ⟨[]⟩ (source v)).1

end Users

open Users in
/-- Under the current version the column is one of the system's, and rows fit. -/
theorem Streams.fits_user :
    ∃ built t k r row, (empty.build {} ⟨[]⟩ (source .current)).2 = .ok built ∧
      ((Users.streams .current).after [.pipe "users" message]).table? built.index = some t ∧
      (k, some r) ∈ t.output ∧ t.read message.key message.value = .ok (k, some row) ∧
      (source .current).Fits true built.schema k message.metadata row r := by
  obtain ⟨built, hbuilt, hindex⟩ : ∃ built ∈ (empty.build {} ⟨[]⟩ (source .current)).2.toOption,
      built.index = 0 := by decide +kernel
  obtain ⟨t, ht, ⟨k, out⟩, hout, r, hr, -⟩ : ∃ t ∈ ((Users.streams .current).after
      [.pipe "users" message]).table? 0, ∃ out ∈ t.output, ∃ r ∈ out.2, True := by decide +kernel
  have hagrees : (source .current).AgreesWithCurrent := by decide
  rw [Option.mem_def, Except.toOption_eq_some_iff] at hbuilt
  rw [← hindex] at ht
  obtain rfl : out = some r := hr
  obtain ⟨msg, row, hmsg, hread, hfits⟩ := fits_iff_of_build hbuilt [.pipe "users" message] ht hout
  cases List.mem_singleton.1 hmsg
  exact ⟨built, t, k, r, row, hbuilt, ht, hout, hread, hfits.2 hagrees⟩

open Users in
/-- Under the version before it, the row keeps the column, and the schema does not have it. -/
theorem Streams.user_wider_than_schema :
    ∃ built ∈ (empty.build {} ⟨[]⟩ (source .legacy)).2.toOption,
      ∃ t ∈ ((Users.streams .legacy).after [.pipe "users" message]).table? built.index,
        ∃ out ∈ t.output, ∃ r ∈ out.2, built.schema.value.length < r.length := by
  decide +kernel

end StreamTables
