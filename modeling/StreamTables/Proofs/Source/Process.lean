import StreamTables.Proofs.Source.Rows

/-!
# The way of a record through the table of a source

## What is here

* `TableSource.Opens`: what is known of the codecs and the store of a source.
* `TableSource.Outcome`, `TableSource.Opens.outcome`: all that may become of a table that reads a
  record.
* `TableSource.of_process_eq_ok`: what became of the row of a record that was processed.
* `TableSource.Opens.exists_process`, `TableSource.exists_of_process_eq_error`: what became of the
  table, whatever happened, and if the record was not processed.
* `TableSource.exists_process_eq_ok`: the records that are processed.
-/

set_option autoImplicit false

namespace StreamTables

/-- The store of a source after a record. -/
def TableSource.storeAfter (s : TableSource) (store : Option Store) (key : Key) (m : RecordMetadata)
    (row : Option Row) : Option Store :=
  store.map fun t => t.record key (row.map (s.storedRow m))

namespace TableSource

/-- What is known of the codecs and the store of a source: they are as wide as the rows that they
are for. -/
structure Opens (s : TableSource) (plan : Plan) (codecs : Codecs) (store : Option Store) :
    Prop where
  codecs_eq : s.consumed.codecs = .ok codecs
  width_key : codecs.key.width = s.schema.key.length
  width_row : codecs.row.width = s.schema.value.length
  isSome_store : store.isSome = s.isStored plan
  isProper : ∀ t ∈ store, t.codecs.IsProper
  store_width_key : ∀ t ∈ store, t.codecs.key.width = s.schema.key.length
  store_width_row : ∀ t ∈ store, t.codecs.row.width = s.storedSchema.value.length

variable {s : TableSource} {plan : Plan} {codecs : Codecs} {store : Option Store}
  {output : List (Key × Option Row)} {key : ByteArray} {value : Option ByteArray}
  {m : RecordMetadata} {k : Key} {row : Option Row}

/-- What is known of a store does not depend on what it holds. -/
theorem Opens.map {f : Store → Store} (h : s.Opens plan codecs store)
    (hf : ∀ t, (f t).codecs = t.codecs) : s.Opens plan codecs (store.map f) := by
  cases store with
  | none => exact h
  | some t =>
    have hmap : ∀ {p : Codecs → Prop}, (∀ u ∈ some t, p u.codecs) →
        ∀ u ∈ (some t).map f, p u.codecs := by
      intro p hp u hu
      cases hu
      rw [hf]
      exact hp t rfl
    exact {
      codecs_eq := h.codecs_eq
      width_key := h.width_key
      width_row := h.width_row
      isSome_store := h.isSome_store
      isProper := hmap h.isProper
      store_width_key := hmap (p := fun cs => cs.key.width = s.schema.key.length) h.store_width_key
      store_width_row := hmap (p := fun cs => cs.row.width = s.storedSchema.value.length)
        h.store_width_row }

/-! ## One record -/

/-- A record is read with the codecs of the topic. -/
theorem read_eq_ok_iff :
    (s.tableWith codecs store output).read key value = .ok (k, row) ↔
      codecs.key.decode key = .ok k ∧ value.mapM codecs.row.decode = .ok row := by
  rw [Table.read, Except.bind_eq_ok_iff]
  constructor
  · rintro ⟨k', hk, h⟩
    obtain ⟨row', hrow, h⟩ := Except.bind_eq_ok_iff.1 h
    cases h
    exact ⟨hk, hrow⟩
  · rintro ⟨hk, hrow⟩
    exact ⟨k, hk, Except.bind_eq_ok_iff.2 ⟨row, hrow, rfl⟩⟩

/-- What is known of the row of a record, if it has one. -/
theorem exists_of_mapM_decode {c : Codec} {row : Row} (h : value.mapM c.decode = .ok (some row)) :
    ∃ payload, value = some payload ∧ c.decode payload = .ok row := by
  cases value with
  | none => exact nomatch Except.ok.inj h
  | some payload =>
    obtain ⟨row', hrow, h⟩ := Except.bind_eq_ok_iff.1 h
    cases h
    exact ⟨payload, rfl, hrow⟩

theorem isReadable_storedRow {row : Row} (h : Row.IsReadable row) :
    Row.IsReadable (s.storedRow m row) := fun v hv =>
  (mem_storedRow hv).elim (h v) fun hposition => (RecordMetadata.position_cell hposition).1

/-- What may become of a table that reads a record, and with which result.  In all cases the row is
written to the store, if there is one. -/
inductive Outcome (s : TableSource) (plan : Plan) (codecs : Codecs) (store : Option Store)
    (output : List (Key × Option Row)) (m : RecordMetadata) (k : Key) :
    Option Row → Table × Except Error Unit → Prop where
  /-- A tombstone is emitted as one. -/
  | erased :
    s.Outcome plan codecs store output m k none
      (s.tableWith codecs (s.storeAfter store k m none) (output ++ [(k, none)]), .ok ())
  /-- What the store gives back of the genuine cells of a row is completed and emitted. -/
  | emitted {row g : Row}
    (restores : Row.Restores (s.isStored plan) (s.schema.genuineCells s.projectedVersion row) g)
    (window : s.isWindowed = true → m.window.isSome = true)
    (keeps : ∀ st ∈ store, ∃ held, st.codecs.row.Keeps (s.storedRow m row) held) :
    s.Outcome plan codecs store output m k (some row)
      (s.tableWith codecs (s.storeAfter store k m (some row))
        (output ++ [(k, some (s.completed k m g))]), .ok ())
  /-- The store does not give the row back. -/
  | unreadable {row : Row} {st : Store} {e : Error} (mem : st ∈ store)
    (decode : st.codecs.row.decode (st.codecs.row.payload (s.storedRow m row)) = .error e) :
    s.Outcome plan codecs store output m k (some row)
      (s.tableWith codecs (s.storeAfter store k m (some row)) output, .error e)
  /-- The source is windowed, and the record has no window. -/
  | windowless {row : Row} (windowed : s.isWindowed = true) (no_window : m.window = none) :
    s.Outcome plan codecs store output m k (some row)
      (s.tableWith codecs (s.storeAfter store k m (some row)) output,
        .error (.missingWindow SystemColumn.windowStart.name))

/-- A row that was read has the width of the rows that are stored. -/
theorem Opens.width_storedRow (h : s.Opens plan codecs store) {payload : ByteArray} {row : Row}
    (hdecode : codecs.row.decode payload = .ok row) :
    row.length = s.schema.value.length ∧
      ∀ st ∈ store, (s.storedRow m row).length = st.codecs.row.width := by
  have hlen : row.length = s.schema.value.length :=
    (Codec.length_of_decode hdecode).trans h.width_row
  exact ⟨hlen, fun st hst => (length_storedRow hlen).trans (h.store_width_row st hst).symm⟩

/-- **What becomes of a table that reads a record.**  All that is known of a table after a record
follows from this. -/
theorem Opens.outcome (h : s.Opens plan codecs store)
    (hread : (s.tableWith codecs store output).read key value = .ok (k, row)) :
    s.Outcome plan codecs store output m k row
      ((s.tableWith codecs store output).process key value m) := by
  obtain ⟨hk, hrow⟩ := read_eq_ok_iff.1 hread
  have hkey : k.length = s.schema.key.length := (Codec.length_of_decode hk).trans h.width_key
  have hwidth : ∀ st ∈ store, k.length = st.codecs.key.width := fun st hst =>
    hkey.trans (h.store_width_key st hst).symm
  rw [Table.process, hread]
  dsimp only
  rw [run_eq]
  cases row with
  | none =>
    have hpass : Store.pass store k none = (s.storeAfter store k m none, .ok none) :=
      Store.pass_none hwidth
    rw [Stage.applyAll_none]
    dsimp only
    rw [hpass]
    dsimp only
    rw [Stage.applyAll_none]
    exact .erased
  | some row =>
    obtain ⟨payload, rfl, hdecode⟩ := exists_of_mapM_decode hrow
    obtain ⟨hlen, hstored⟩ := h.width_storedRow (m := m) hdecode
    have hpass : Store.pass store k (some (s.storedRow m row))
        = (s.storeAfter store k m (some row),
          (Store.readBack store (s.storedRow m row)).map some) :=
      Store.pass_some hwidth hstored
    rw [applyAll_before hlen]
    dsimp only
    rw [hpass]
    cases hback : Store.readBack store (s.storedRow m row) with
    | error e =>
      cases store with
      | none => cases hback
      | some st => exact .unreadable rfl hback
    | ok held =>
      dsimp only [Except.map]
      obtain ⟨hrestores, hkeeps⟩ := Store.keeps_of_readBack h.isProper hstored
        (isReadable_storedRow (Codec.of_decode hdecode).1) hback
      cases hafter : Stage.applyAll k m s.after (some held) with
      | error e =>
        obtain ⟨hw, hnone, rfl⟩ := applyAll_after_eq_error hlen hrestores hafter
        exact .windowless hw hnone
      | ok out =>
        obtain ⟨g, hg, hcompleted⟩ := applyAll_after hlen hrestores
        obtain ⟨hwindow, rfl⟩ := (hcompleted out).1 hafter
        rw [h.isSome_store] at hg
        exact .emitted hg hwindow fun st hst => ⟨held, hkeeps st hst⟩

/-- The row of a record that was read is written to the store, whatever the result is. -/
theorem Outcome.exists_eq {r : Table × Except Error Unit}
    (h : s.Outcome plan codecs store output m k row r) :
    ∃ output', r.1 = s.tableWith codecs (s.storeAfter store k m row) output' ∧
      (output' = output ∨ r.2 = .ok ()) := by
  cases h with
  | erased => exact ⟨_, rfl, .inr rfl⟩
  | emitted => exact ⟨_, rfl, .inr rfl⟩
  | unreadable => exact ⟨_, rfl, .inl rfl⟩
  | windowless => exact ⟨_, rfl, .inl rfl⟩

/-- A record that is not read changes nothing. -/
theorem process_of_read_eq_error {e : Error}
    (h : (s.tableWith codecs store output).read key value = .error e) :
    (s.tableWith codecs store output).process key value m
      = (s.tableWith codecs store output, .error e) := by
  rw [Table.process, h]

/-- **What became of the row of a record that was processed.**  It was recorded in the store, if
there is one, and what became of its genuine cells there was completed and emitted. -/
theorem of_process_eq_ok (h : s.Opens plan codecs store) {t : Table}
    (hprocess : (s.tableWith codecs store output).process key value m = (t, .ok ())) :
    ∃ k row out, codecs.key.decode key = .ok k ∧ value.mapM codecs.row.decode = .ok row ∧
      t = s.tableWith codecs (s.storeAfter store k m row) (output ++ [(k, out)]) ∧
      Option.Rel (fun row r => ∃ g,
        Row.Restores (s.isStored plan) (s.schema.genuineCells s.projectedVersion row) g ∧
        (s.isWindowed = true → m.window.isSome = true) ∧ r = s.completed k m g) row out ∧
      ∀ st ∈ store, ∀ r ∈ row, ∃ held, st.codecs.row.Keeps (s.storedRow m r) held := by
  cases hread : (s.tableWith codecs store output).read key value with
  | error e =>
    rw [process_of_read_eq_error hread] at hprocess
    cases hprocess
  | ok r =>
    obtain ⟨k, row⟩ := r
    obtain ⟨hk, hrow⟩ := read_eq_ok_iff.1 hread
    have houtcome := h.outcome (m := m) hread
    rw [hprocess] at houtcome
    cases houtcome with
    | erased => exact ⟨k, none, none, hk, hrow, rfl, .none, fun _ _ _ hr => by cases hr⟩
    | @emitted row g hg hwindow hkeeps =>
      refine ⟨k, some row, _, hk, hrow, rfl, .some ⟨g, hg, hwindow, rfl⟩, fun st hst r hr => ?_⟩
      cases hr
      exact hkeeps st hst

/-- **Whatever happens to a record**, the table is one of its source, and it has emitted something
only if the record was processed. -/
theorem Opens.exists_process (h : s.Opens plan codecs store) (output : List (Key × Option Row))
    (key : ByteArray) (value : Option ByteArray) (m : RecordMetadata) :
    ∃ store' output', s.Opens plan codecs store' ∧
      ((s.tableWith codecs store output).process key value m).1
        = s.tableWith codecs store' output' ∧
      (output' = output ∨ ((s.tableWith codecs store output).process key value m).2 = .ok ()) := by
  cases hread : (s.tableWith codecs store output).read key value with
  | error e =>
    rw [process_of_read_eq_error hread]
    exact ⟨store, output, h, rfl, .inl rfl⟩
  | ok r =>
    obtain ⟨k, row⟩ := r
    obtain ⟨output', heq, houtput⟩ := (h.outcome (m := m) hread).exists_eq
    have hopens : s.Opens plan codecs (s.storeAfter store k m row) := h.map fun _ => rfl
    exact ⟨_, output', hopens, heq, houtput⟩

/-- A record that fails may have changed the store, and nothing else. -/
theorem exists_of_process_eq_error (h : s.Opens plan codecs store) {t : Table} {e : Error}
    (hprocess : (s.tableWith codecs store output).process key value m = (t, .error e)) :
    ∃ store', s.Opens plan codecs store' ∧ t = s.tableWith codecs store' output := by
  obtain ⟨store', output', hopens, heq, houtput⟩ := h.exists_process output key value m
  rw [hprocess] at heq houtput
  obtain rfl : output' = output := houtput.resolve_right fun hok => nomatch hok
  exact ⟨store', hopens, heq⟩

/-- The cells that are stored of a row nest no deeper than its payload. -/
theorem depth_storedRow_lt {c : Codec} {payload : ByteArray} {row : Row}
    (hdecode : c.decode payload = .ok row) (hdepth : payloadDepth payload < Decoder.maxDepth) :
    ∀ v ∈ s.storedRow m row, v.json.depth < Decoder.maxDepth := by
  intro v hv
  rcases mem_storedRow hv with hv | hv
  · have htree := (Codec.of_decode hdecode).2
    exact Nat.lt_of_le_of_lt (Nat.le_trans (Codec.depth_json_le hv) htree) hdepth
  · rw [(RecordMetadata.position_cell hv).2.2]
    decide

/-- **The records that are processed**: those whose payloads are read and do not nest too deep, and
that have a window if they need one. -/
theorem exists_process_eq_ok (h : s.Opens plan codecs store) (output : List (Key × Option Row))
    (hk : codecs.key.decode key = .ok k) (hrow : value.mapM codecs.row.decode = .ok row)
    (hdepth : ∀ payload ∈ value, payloadDepth payload < Decoder.maxDepth)
    (hwindow : s.isWindowed = true → value.isSome = true → m.window.isSome = true) :
    ∃ t, (s.tableWith codecs store output).process key value m = (t, .ok ()) := by
  have houtcome : s.Outcome plan codecs store output m k row
      ((s.tableWith codecs store output).process key value m) :=
    h.outcome (read_eq_ok_iff.2 ⟨hk, hrow⟩)
  generalize (s.tableWith codecs store output).process key value m = r at *
  cases houtcome with
  | erased => exact ⟨_, rfl⟩
  | emitted => exact ⟨_, rfl⟩
  | @unreadable row st e hst herror =>
    obtain ⟨payload, rfl, hdecode⟩ := exists_of_mapM_decode hrow
    obtain ⟨held, hheld⟩ := Store.exists_readBack h.isProper (h.width_storedRow (m := m) hdecode).2
      (isReadable_storedRow (Codec.of_decode hdecode).1)
      (depth_storedRow_lt hdecode (hdepth payload rfl))
    obtain rfl : store = some st := hst
    cases herror.symm.trans hheld
  | windowless hw hnone =>
    obtain ⟨payload, rfl, -⟩ := exists_of_mapM_decode hrow
    rw [hnone] at hwindow
    exact absurd (hwindow hw rfl) Bool.false_ne_true

end TableSource
end StreamTables
