import StreamTables.Proofs.Source.Pipeline

/-!
# What a store holds after a run

A store is written to by one record after the other, and each write is followed by a read.  After
a run in which no pipe to the topic failed, what a store holds can be told from the records alone:
for each key that was written to, it is the row of its last record.

## What is here

* `ReadRecord`, `Codecs.Reads`: what is read of the records of a run.
* `Codec.lastRecord?`, `Codec.liveKeys`: the last record of a key, and the keys that have a row.
* `TableSource.exists_emitted_of_processAll`: a table after the records of a run.
* `Streams.store_of_build`: what it holds.
-/

set_option autoImplicit false

namespace StreamTables

/-! ## The records of a run -/

/-- A record as it was read. -/
structure ReadRecord where
  key : Key
  row : Option Row
  metadata : RecordMetadata

/-- What is read of a record. -/
def Codecs.Reads (cs : Codecs) (msg : Message) (e : ReadRecord) : Prop :=
  cs.key.decode msg.key = .ok e.key ∧ msg.value.mapM cs.row.decode = .ok e.row ∧
    msg.metadata = e.metadata

namespace Codec

/-- The last of some records whose key has a payload. -/
def lastRecord? (c : Codec) (log : List ReadRecord) (payload : ByteArray) : Option ReadRecord :=
  log.reverse.find? fun e => c.payload e.key = payload

/-- The payloads of keys whose last record is no tombstone. -/
def liveKeys (c : Codec) (log : List ReadRecord) : List ByteArray :=
  (log.map fun e => c.payload e.key).dedup.filter fun payload =>
    ((c.lastRecord? log payload).bind ReadRecord.row).isSome

end Codec

namespace TableSource

variable {s : TableSource} {plan : Plan} {codecs : Codecs} {store : Store}
  {output : List (Key × Option Row)}

/-- What a record writes to the store of a source: its row, or nothing if it is a tombstone. -/
def write (s : TableSource) (cs : Codecs) (e : ReadRecord) : ByteArray × Option ByteArray :=
  (cs.key.payload e.key, (e.row.map (s.storedRow e.metadata)).map cs.row.payload)

/-- The last write to a key is that of its last record. -/
theorem lastWrite_map_write (cs : Codecs) (log : List ReadRecord) (payload : ByteArray) :
    Entries.lastWrite (log.map (s.write cs)) payload
      = (cs.key.lastRecord? log payload).map fun e => (s.write cs e).2 := by
  rw [Entries.lastWrite, ← List.map_reverse, List.find?_map, Option.map_map]
  rfl

/-- The keys that have a row are those that were not erased last. -/
theorem liveKeys_eq (cs : Codecs) (log : List ReadRecord) :
    cs.key.liveKeys log = ((log.map (s.write cs)).map Prod.fst).dedup.filter fun k =>
      ((Entries.lastWrite (log.map (s.write cs)) k).getD none).isSome := by
  rw [Codec.liveKeys, List.map_map]
  refine List.filter_congr fun payload _ => ?_
  rw [lastWrite_map_write]
  cases cs.key.lastRecord? log payload with
  | none => rfl
  | some e =>
    dsimp only [Option.bind_some, Option.map_some, Option.getD_some, write]
    rw [Option.isSome_map, Option.isSome_map]

/-- A store after records. -/
def storeAfterAll (s : TableSource) (store : Store) (log : List ReadRecord) : Store :=
  { store with entries := store.entries.setAll (log.map (s.write store.codecs)) }

/-- **A table after the records of a run.**  Each row that was written could be read, and something
was emitted for each record: a row unless it is a tombstone. -/
theorem exists_emitted_of_processAll {msgs : List Message} {t : Table}
    (hopens : s.Opens plan codecs (some store))
    (h : (s.tableWith codecs (some store) output).ProcessAll msgs t) :
    ∃ log emitted,
      t = s.tableWith codecs (some (s.storeAfterAll store log)) (output ++ emitted) ∧
      List.Forall₂ codecs.Reads msgs log ∧
      (∀ e ∈ log, ∀ row ∈ e.row,
        ∃ held, store.codecs.row.Keeps (s.storedRow e.metadata row) held) ∧
      List.Forall₂ (fun e out => out.1 = e.key ∧ out.2.isSome = e.row.isSome) log emitted := by
  induction msgs generalizing store output with
  | nil =>
    obtain rfl : s.tableWith codecs (some store) output = t := h
    exact ⟨[], [], by rw [List.append_nil]; rfl, .nil, List.forall_mem_nil _, .nil⟩
  | cons msg msgs ih =>
    obtain ⟨u, hprocess, hrest⟩ := h
    obtain ⟨k, row, out, hkey, hrow, rfl, hout, hkeeps⟩ := of_process_eq_ok hopens hprocess
    have hopens' : s.Opens plan codecs (s.storeAfter (some store) k msg.metadata row) :=
      hopens.map fun _ => rfl
    obtain ⟨log, emitted, rfl, hreads, hkept, hemitted⟩ := ih hopens' hrest
    have hsame : out.isSome = row.isSome := by cases hout <;> rfl
    refine ⟨⟨k, row, msg.metadata⟩ :: log, (k, out) :: emitted, ?_,
      .cons ⟨hkey, hrow, rfl⟩ hreads, List.forall_mem_cons.2 ⟨hkeeps store rfl, hkept⟩,
      .cons ⟨rfl, hsame⟩ hemitted⟩
    rw [List.append_assoc]
    rfl

/-- A store after the records of a run. -/
theorem exists_log_of_processAll {msgs : List Message} {t : Table}
    (hopens : s.Opens plan codecs (some store))
    (h : (s.tableWith codecs (some store) output).ProcessAll msgs t) :
    ∃ log output', t = s.tableWith codecs (some (s.storeAfterAll store log)) output' ∧
      List.Forall₂ codecs.Reads msgs log ∧
      ∀ e ∈ log, ∀ row ∈ e.row,
        ∃ held, store.codecs.row.Keeps (s.storedRow e.metadata row) held := by
  obtain ⟨log, emitted, ht, hreads, hkept, -⟩ := exists_emitted_of_processAll hopens h
  exact ⟨log, _, ht, hreads, hkept⟩

/-- The table of a source has no other store than that of the source. -/
theorem stores_tableWith {store : Option Store} :
    (s.tableWith codecs store output).stores = store.toList := by
  have hnone : ∀ stages : List Stage, (Step.storeless stages).filterMap Step.store = [] := by
    intro stages
    rw [Step.storeless, List.filterMap_map]
    exact List.filterMap_eq_nil_iff.2 fun _ _ => rfl
  rw [Table.stores, tableWith]
  cases h : s.isWindowed with
  | true =>
    dsimp only
    rw [steps_of_windowed h, hnone, List.append_nil]
    rfl
  | false =>
    dsimp only
    rw [steps_of_not_windowed h, List.filterMap_append, hnone, List.filterMap_cons]
    cases store with
    | none => exact hnone _
    | some store =>
      dsimp only
      rw [hnone]
      rfl

/-- What is held for a key is what became of the row of its last record. -/
theorem get_storeAfterAll (hempty : store.entries = .empty) {r : Row → Row → Prop}
    {log : List ReadRecord}
    (hkept : ∀ e ∈ log, ∀ row ∈ e.row.map (s.storedRow e.metadata),
      ∃ held, store.codecs.row.decode (store.codecs.row.payload row) = .ok held ∧ r row held)
    {k : Key} (hk : k.length = store.codecs.key.width) :
    ∃ held, (s.storeAfterAll store log).get k = .ok held ∧
      Option.Rel r
        ((store.codecs.key.lastRecord? log (store.codecs.key.payload k)).bind
          fun e => e.row.map (s.storedRow e.metadata)) held := by
  have hentry : (s.storeAfterAll store log).entries.get? (store.codecs.key.payload k)
      = (store.codecs.key.lastRecord? log (store.codecs.key.payload k)).bind
          fun e => (s.write store.codecs e).2 := by
    rw [storeAfterAll, Entries.get?_setAll, lastWrite_map_write, hempty, Entries.get?_empty]
    cases store.codecs.key.lastRecord? log (store.codecs.key.payload k) <;> rfl
  have hget : (s.storeAfterAll store log).get k
      = (s.storeAfterAll store log).read (store.codecs.key.payload k) := Store.get_eq hk
  rw [hget, Store.read, hentry]
  cases hlast : store.codecs.key.lastRecord? log (store.codecs.key.payload k) with
  | none => exact ⟨none, rfl, .none⟩
  | some e =>
    have hmem : e ∈ log := List.mem_reverse.1 (List.mem_of_find?_eq_some hlast)
    dsimp only [Option.bind_some, write]
    cases hrow : e.row.map (s.storedRow e.metadata) with
    | none => exact ⟨none, rfl, .none⟩
    | some row =>
      obtain ⟨held, hdecode, hr⟩ := hkept e hmem row hrow
      exact ⟨some held, Except.map_eq_ok_iff.2 ⟨held, hdecode, rfl⟩, .some hr⟩

theorem isReadable_of_reads {msg : Message} {e : ReadRecord} (h : codecs.Reads msg e) :
    ∀ row ∈ e.row, Row.IsReadable row := by
  obtain ⟨-, hrow, -⟩ := h
  intro row hmem
  rw [Option.mem_def.1 hmem] at hrow
  obtain ⟨payload, -, hdecode⟩ := exists_of_mapM_decode hrow
  exact (Codec.of_decode hdecode).1

end TableSource

/-! ## Tables that were built -/

namespace Streams

variable {streams : Streams} {settings : Settings} {plan : Plan} {source : TableSource}
  {built : BuiltTable} {calls : List Call}

/-- **What the store of a table holds after a run** in which no pipe to its topic failed.  For a key
it is the row of the last record that has the key, as the source stores it, and nothing if there is
no such record or it is a tombstone.  Rows come back equal if their doubles are read back.  The
store has as many entries as there are keys whose last record is no tombstone. -/
theorem store_of_build (hbuild : (streams.build settings plan source).2 = .ok built)
    (hstored : source.isStored plan = true)
    (hpiped : (streams.build settings plan source).1.AllPiped source.topic calls) :
    ∃ t store log,
      ((streams.build settings plan source).1.after calls).table? built.index = some t ∧
      t.stores = [store] ∧
      List.Forall₂ t.codecs.Reads (calls.filterMap (Call.message? source.topic)) log ∧
      (∀ k : Key, k.length = source.schema.key.length → ∃ held, store.get k = .ok held ∧
        Option.Rel
          (fun row held => Row.DoublesReadBack row → Value.listEqual held row = true)
          ((store.codecs.key.lastRecord? log (store.codecs.key.payload k)).bind
            fun e => e.row.map (source.storedRow e.metadata)) held) ∧
      store.size = (store.codecs.key.liveKeys log).length := by
  obtain ⟨codecs, store?, hopens, hempty, hregistered, -⟩ := exists_of_build hbuild
  obtain ⟨store, rfl⟩ := Option.isSome_iff_exists.1 (hopens.isSome_store.trans hstored)
  obtain ⟨t, ht, hall⟩ := processAll_of_allPiped hregistered hpiped
  obtain ⟨log, output, rfl, hreads, hkept⟩ := TableSource.exists_log_of_processAll hopens hall
  refine ⟨_, source.storeAfterAll store log, log, by rw [table?, ht]; rfl,
    TableSource.stores_tableWith, hreads, fun k hk => ?_, ?_⟩
  · refine TableSource.get_storeAfterAll (hempty store rfl) (fun e he r hr => ?_)
      (hk.trans (hopens.store_width_key store rfl).symm)
    obtain ⟨row, hrow, rfl⟩ := Option.map_eq_some_iff.1 hr
    obtain ⟨held, hdecode, hrestores⟩ := hkept e he row hrow
    obtain ⟨msg, -, hmsg⟩ := hreads.flip.exists_of_mem he
    have hreadable : Row.IsReadable row := TableSource.isReadable_of_reads hmsg row hrow
    exact ⟨held, hdecode, fun hback =>
      hrestores.listEqual (TableSource.isReadable_storedRow hreadable) fun _ => hback⟩
  · rw [Store.size, TableSource.storeAfterAll, hempty store rfl, Entries.size_setAll]
    exact congrArg List.length (TableSource.liveKeys_eq store.codecs log).symm

end Streams

open Prices in
/-- Of two prices of one key the store holds the second. -/
theorem Streams.store_of_build_price :
    ∃ t store k row held, (Prices.streams.after [record "2.25", record "1.5"]).table? 0 = some t ∧
      t.stores = [store] ∧ codec.decode key = .ok k ∧ codec.decode (payload "1.5") = .ok row ∧
      store.get k = .ok (some held) ∧
      Value.listEqual held (source.storedRow metadata row) = true := by
  obtain ⟨built, hbuilt, hindex⟩ := exists_built
  obtain ⟨k, hkey, hwidth⟩ := exists_key
  obtain ⟨row, hrow, -, hback⟩ := exists_row
  have hpiped : Prices.streams.AllPiped "prices" [record "2.25", record "1.5"] := by decide +kernel
  obtain ⟨t, store, log, ht, hstores, hreads, hget, -⟩ :=
    store_of_build hbuilt (by decide +kernel) hpiped
  rw [hindex] at ht
  obtain ⟨t', ht', hcodecs⟩ : ∃ t' ∈ (Prices.streams.after [record "2.25", record "1.5"]).table? 0,
      t'.codecs = ⟨codec, codec⟩ := by decide +kernel
  obtain rfl : t = t' := Option.some.inj (ht.symm.trans ht')
  rw [hcodecs] at hreads
  obtain ⟨held, hheld, hrel⟩ := hget k hwidth
  -- the second of the two records is the last one of its key
  cases hreads with
  | @cons _ e _ _ _ hreads =>
  cases hreads with
  | @cons _ e' _ _ he' hreads =>
  cases hreads
  obtain ⟨k', r, m⟩ := e'
  obtain ⟨hk, hr, rfl⟩ := he'
  obtain rfl : k = k' := Except.ok.inj (hkey.symm.trans hk)
  have hvalue : (some (payload "1.5")).mapM codec.decode = .ok (some row) :=
    Except.bind_eq_ok_iff.2 ⟨row, hrow, rfl⟩
  obtain rfl : some row = r := Except.ok.inj (hvalue.symm.trans hr)
  have hlast : store.codecs.key.lastRecord? [e, ⟨k, some row, metadata⟩]
      (store.codecs.key.payload k) = some ⟨k, some row, metadata⟩ :=
    List.find?_cons_of_pos (decide_eq_true rfl)
  rw [hlast] at hrel
  cases hrel with
  | some h => exact ⟨t, store, k, row, _, ht, hstores, hkey, hrow, hheld, h hback⟩

end StreamTables
