import StreamTables.Proofs.Source.Depth
import StreamTables.Proofs.Source.Stored

/-!
# What a record writes

A record that can be read goes into the store before anything else can be found wrong with it.  So a
record is refused in one of two ways: it is not read and nothing changes, or it is read, its row
stands in the store, and it is emitted nowhere.  The second happens to records of a windowed source
that have no window, and to rows that outgrow the store, and to no others.

## What is here

* `TableSource.Rejects`: why a record that was read is refused.
* `TableSource.Outcome.rejects`: there are no other reasons.
* `TableSource.HoldsRecords`: whether all that a store holds are rows of records of a run.
* `Streams.holdsRecords_of_mem_after`, `Streams.holdsRecords_after`: so it is in every run.
-/

set_option autoImplicit false

namespace StreamTables

namespace TableSource

/-- Why a record that was read is refused. -/
inductive Rejects (s : TableSource) (m : RecordMetadata) (row : Row) : Error → Prop where
  /-- The source is windowed, and the record has no window. -/
  | window (windowed : s.isWindowed = true) (no_window : m.window = none) :
    s.Rejects m row (.missingWindow SystemColumn.windowStart.name)
  /-- What was stored of the row cannot be read back. -/
  | payload (outgrows : s.Outgrows row) (context message : String) :
    s.Rejects m row (.payload context message)

variable {s : TableSource} {plan : Plan} {codecs : Codecs} {store : Option Store}
  {output : List (Key × Option Row)} {key : ByteArray} {value : Option ByteArray}
  {m : RecordMetadata} {k : Key} {row : Option Row}

/-- **Why a record that was read is refused.** -/
theorem Outcome.rejects (h : s.Opens plan codecs store)
    (hstored : ∀ st ∈ store, s.stored.codecs = .ok st.codecs)
    (hrow : value.mapM codecs.row.decode = .ok row) {t : Table} {e : Error}
    (houtcome : s.Outcome plan codecs store output m k row (t, .error e)) :
    ∃ r, row = some r ∧ store.isSome = true ∧
      t = s.tableWith codecs (s.storeAfter store k m (some r)) output ∧ s.Rejects m r e := by
  cases houtcome with
  | @unreadable row st _ hst herror =>
    obtain rfl : store = some st := hst
    obtain ⟨payload, -, hdecode⟩ := exists_of_mapM_decode hrow
    have houtgrows : s.Outgrows row := by
      by_contra hfits
      obtain ⟨held, hheld⟩ :=
        (exists_decode_storedRow_iff (m := m) h.codecs_eq (hstored st rfl) hdecode).2 hfits
      cases herror.symm.trans hheld
    obtain ⟨message, rfl⟩ := Codec.exists_of_decode_payload_eq_error (h.isProper st rfl).2
      ((h.width_storedRow hdecode).2 st rfl) (isReadable_storedRow (Codec.of_decode hdecode).1)
      herror
    exact ⟨row, rfl, rfl, rfl, .payload houtgrows _ message⟩
  | windowless hw hnone =>
    have hsome : store.isSome = true := by rw [h.isSome_store, isStored, hw]; rfl
    exact ⟨_, rfl, hsome, rfl, .window hw hnone⟩

/-! ## All that a store holds -/

/-- Whether a payload is that of the row of a record of a run, under the payload of its key. -/
def Wrote (s : TableSource) (codecs cs : Codecs) (calls : List Streams.Call)
    (keyPayload payload : ByteArray) : Prop :=
  ∃ msg k row, .pipe s.topic msg ∈ calls ∧ codecs.Reads msg ⟨k, some row, msg.metadata⟩ ∧
    cs.key.payload k = keyPayload ∧ cs.row.payload (s.storedRow msg.metadata row) = payload

/-- Whether a table is one of a source, and all that its store holds are rows of records of a
run. -/
def HoldsRecords (s : TableSource) (plan : Plan) (calls : List Streams.Call) (t : Table) : Prop :=
  ∃ codecs store output, s.Opens plan codecs store ∧ t = s.tableWith codecs store output ∧
    ∀ st ∈ store, s.stored.codecs = .ok st.codecs ∧
      ∀ keyPayload payload, st.entries.get? keyPayload = some payload →
        s.Wrote codecs st.codecs calls keyPayload payload

variable {calls : List Streams.Call} {msg : Message}

/-- The codecs of the store are those that the source asks for. -/
theorem codecs_of_table {t : Table} (h : s.table plan = .ok t) :
    ∀ st ∈ t.stores, s.stored.codecs = .ok st.codecs := by
  obtain ⟨codecs, -, h⟩ := Except.bind_eq_ok_iff.1 h
  obtain ⟨store, hstore, h⟩ := Except.bind_eq_ok_iff.1 h
  cases h
  have hstores : (s.tableWith codecs store []).stores = store.toList := stores_tableWith
  intro st hst
  rw [tableWith] at hstores
  rw [hstores, Option.mem_toList] at hst
  subst hst
  rw [materialized?] at hstore
  split at hstore
  · obtain ⟨st', hst', hsome⟩ := Except.bind_eq_ok_iff.1 hstore
    cases hsome
    obtain ⟨cs, hcs, hst'⟩ := Except.bind_eq_ok_iff.1 hst'
    cases hst'
    exact hcs
  · cases hstore

/-- A table that was just made holds nothing. -/
theorem holdsRecords_of_table {t : Table} (h : s.table plan = .ok t) :
    s.HoldsRecords plan calls t := by
  have hcodecs := codecs_of_table h
  obtain ⟨codecs, store, hopens, hempty, rfl⟩ := exists_of_table h
  refine ⟨codecs, store, [], hopens, rfl, fun st hst => ⟨hcodecs st ?_, ?_⟩⟩
  · rwa [stores_tableWith, Option.mem_toList]
  · intro keyPayload payload hget
    rw [hempty st hst] at hget
    exact nomatch hget

/-- What is written for a record that was read is its row. -/
theorem wrote_record {st : Store} {keyPayload payload : ByteArray}
    (hmsg : .pipe s.topic msg ∈ calls) (hreads : codecs.Reads msg ⟨k, row, msg.metadata⟩)
    (hholds : ∀ keyPayload payload, st.entries.get? keyPayload = some payload →
      s.Wrote codecs st.codecs calls keyPayload payload)
    (hget : (st.record k (row.map (s.storedRow msg.metadata))).entries.get? keyPayload
      = some payload) :
    s.Wrote codecs st.codecs calls keyPayload payload := by
  rw [Store.record] at hget
  dsimp only at hget
  rw [Entries.get?_set] at hget
  split at hget
  · next hkey =>
    obtain ⟨r, hr, rfl⟩ := Option.map_eq_some_iff.1 hget
    obtain ⟨r, rfl, rfl⟩ := Option.map_eq_some_iff.1 hr
    exact ⟨msg, k, r, hmsg, hreads, hkey, rfl⟩
  · exact hholds keyPayload payload hget

/-- **A record of the run leaves nothing but rows of records in the store**, whether or not it is
refused. -/
theorem holdsRecords_process {t : Table} (hmsg : .pipe s.topic msg ∈ calls)
    (h : s.HoldsRecords plan calls t) :
    s.HoldsRecords plan calls (t.process msg.key msg.value msg.metadata).1 := by
  obtain ⟨codecs, store, output, hopens, rfl, hholds⟩ := h
  cases hread : (s.tableWith codecs store output).read msg.key msg.value with
  | error e =>
    rw [process_of_read_eq_error hread]
    exact ⟨codecs, store, output, hopens, rfl, hholds⟩
  | ok r =>
    obtain ⟨k, row⟩ := r
    obtain ⟨hk, hrow⟩ := read_eq_ok_iff.1 hread
    obtain ⟨output', heq, -⟩ := (hopens.outcome (m := msg.metadata) hread).exists_eq
    have hopens' : s.Opens plan codecs (s.storeAfter store k msg.metadata row) :=
      hopens.map fun _ => rfl
    refine ⟨codecs, _, output', hopens', heq, fun st' hst' => ?_⟩
    obtain ⟨st, hst, rfl⟩ := Option.map_eq_some_iff.1 hst'
    exact ⟨(hholds st hst).1, fun _ _ => wrote_record hmsg ⟨hk, hrow, rfl⟩ (hholds st hst).2⟩

end TableSource

/-! ## In every state -/

namespace Streams

variable {s : Streams} {settings : Settings} {plan : Plan} {source : TableSource}
  {built : BuiltTable}

/-- Whether a table that reads a topic is one of a source that calls build, and holds rows of
records of the calls. -/
def HoldsRecords (calls : List Call) (reads : String) (t : Table) : Prop :=
  ∃ settings plan source, .build settings plan source ∈ calls ∧ source.topic = reads ∧
    source.HoldsRecords plan calls t

/-- **In every run all tables hold rows of its records**, and nothing else. -/
theorem holdsRecords_of_mem_after (calls : List Call) :
    ∀ entry ∈ (empty.after calls).tables, HoldsRecords calls entry.1 entry.2 := by
  refine forall_mem_after (fun settings plan source t hc ht => ?_) (fun topic msg t hc ht => ?_)
    (List.forall_mem_nil _)
  · exact ⟨settings, plan, source, hc, rfl, TableSource.holdsRecords_of_table ht⟩
  · obtain ⟨settings, plan, source, hbuild, rfl, hholds⟩ := ht
    exact ⟨settings, plan, source, hbuild, rfl, TableSource.holdsRecords_process hc hholds⟩

/-- **A table that was built holds rows of the records after it**, and nothing else. -/
theorem holdsRecords_after (h : (s.build settings plan source).2 = .ok built)
    (calls : List Call) :
    ∃ t, ((s.build settings plan source).1.after calls).tables[built.index]?
        = some (source.topic, t) ∧ source.HoldsRecords plan calls t := by
  obtain ⟨t, ht, hindex, hregister⟩ := table_of_build h
  have hbuilt : (s.build settings plan source).1.tables[built.index]? = some (source.topic, t) := by
    simp [hregister, register, hindex]
  exact after_induction (fun _ _ hmsg => TableSource.holdsRecords_process hmsg) hbuilt
    (TableSource.holdsRecords_of_table ht)

end Streams
end StreamTables
