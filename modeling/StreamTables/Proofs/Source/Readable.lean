import StreamTables.Proofs.Source.Refusal
import StreamTables.Proofs.Source.Writes

/-!
# What a store holds can be read

A store reads what it holds with the codecs that it was written with, and it holds nothing but rows
of records.  All of these can be read, except those that outgrow the store: they were written before
they were read back, the record was refused for them, and they stay until the key is written again.

## What is here

* `TableSource.exists_get_iff`: the keys that can be read from a store.
* `Streams.exists_get_iff_of_run`: so it is for all tables, in every run.
* `Nested.tree`: values that nest as deep as one likes, and one of them that outgrows its store.
-/

set_option autoImplicit false

namespace StreamTables
namespace TableSource

variable {s : TableSource} {codecs : Codecs} {st : Store} {calls : List Streams.Call} {k : Key}

/-- Whether the entry of a key is the row of a record of a run, and outgrows the store. -/
def HoldsTooDeep (s : TableSource) (codecs : Codecs) (calls : List Streams.Call) (st : Store)
    (k : Key) : Prop :=
  ∃ msg k' row, .pipe s.topic msg ∈ calls ∧ codecs.Reads msg ⟨k', some row, msg.metadata⟩ ∧
    st.codecs.key.payload k' = st.codecs.key.payload k ∧ s.Outgrows row ∧
    st.entries.get? (st.codecs.key.payload k)
      = some (st.codecs.row.payload (s.storedRow msg.metadata row))

/-- **The keys that can be read from a store**: those under which there is no row that outgrows
it. -/
theorem exists_get_iff (hconsumed : s.consumed.codecs = .ok codecs)
    (hstored : s.stored.codecs = .ok st.codecs)
    (hholds : ∀ keyPayload payload, st.entries.get? keyPayload = some payload →
      s.Wrote codecs st.codecs calls keyPayload payload)
    (hk : k.length = st.codecs.key.width) :
    (∃ held, st.get k = .ok held) ↔ ¬ s.HoldsTooDeep codecs calls st k := by
  rw [Store.get_eq hk, Store.read]
  constructor
  · rintro ⟨held, hheld⟩ ⟨msg, k', row, -, ⟨-, hrow, -⟩, -, houtgrows, hentry⟩
    obtain ⟨payload, -, hdecode⟩ := exists_of_mapM_decode hrow
    rw [hentry] at hheld
    obtain ⟨held, hheld, -⟩ := Except.map_eq_ok_iff.1 hheld
    exact (exists_decode_storedRow_iff hconsumed hstored hdecode).1 ⟨held, hheld⟩ houtgrows
  · intro hdeep
    cases hentry : st.entries.get? (st.codecs.key.payload k) with
    | none => exact ⟨none, rfl⟩
    | some payload =>
      obtain ⟨msg, k', row, hmsg, hreads, hkey, rfl⟩ := hholds _ _ hentry
      obtain ⟨payload, -, hdecode⟩ := exists_of_mapM_decode hreads.2.1
      obtain ⟨held, hheld⟩ := (exists_decode_storedRow_iff (m := msg.metadata) hconsumed hstored
        hdecode).2 fun houtgrows => hdeep ⟨msg, k', row, hmsg, hreads, hkey, houtgrows, hentry⟩
      exact ⟨some held, Except.map_eq_ok_iff.2 ⟨held, hheld, rfl⟩⟩

/-- A row that outgrows the store leaves its key unreadable. -/
theorem exists_get_record_eq_error {payload : ByteArray} {row : Row} {m : RecordMetadata}
    (hconsumed : s.consumed.codecs = .ok codecs) (hstored : s.stored.codecs = .ok st.codecs)
    (hrow : codecs.row.decode payload = .ok row) (houtgrows : s.Outgrows row)
    (hk : k.length = st.codecs.key.width) :
    ∃ e, (st.record k (some (s.storedRow m row))).get k = .error e := by
  have hget : (st.record k (some (s.storedRow m row))).get k
      = (st.record k (some (s.storedRow m row))).read (st.codecs.key.payload k) := Store.get_eq hk
  rw [hget, Store.read, Store.record_codecs, Store.record]
  dsimp only
  rw [Entries.get?_set, if_pos rfl, Option.map_some]
  dsimp only
  cases hdecode : st.codecs.row.decode (st.codecs.row.payload (s.storedRow m row)) with
  | error e => exact ⟨e, rfl⟩
  | ok held =>
    have hfits := (exists_decode_storedRow_iff hconsumed hstored hrow).1 ⟨held, hdecode⟩
    exact absurd houtgrows hfits

end TableSource

namespace Streams

/-- **What a store holds can be read**, in whatever state a run of builds and pipes has left the
streams, and whether or not they failed: of every store of every table, and for every key of the
right width, unless the row that is held for the key outgrows the store. -/
theorem exists_get_iff_of_run (calls : List Call) {topic : String} {t : Table} {st : Store}
    {k : Key} (ht : (topic, t) ∈ (empty.after calls).tables) (hst : st ∈ t.stores)
    (hk : k.length = st.codecs.key.width) :
    ∃ settings plan source, .build settings plan source ∈ calls ∧ source.topic = topic ∧
      source.consumed.codecs = .ok t.codecs ∧ source.stored.codecs = .ok st.codecs ∧
      ((∃ held, st.get k = .ok held) ↔ ¬ source.HoldsTooDeep t.codecs calls st k) := by
  obtain ⟨settings, plan, source, hbuild, htopic, codecs, store, output, hopens, rfl, hholds⟩ :=
    holdsRecords_of_mem_after calls (topic, t) ht
  rw [TableSource.stores_tableWith, Option.mem_toList] at hst
  obtain ⟨hstored, hwrote⟩ := hholds st hst
  exact ⟨settings, plan, source, hbuild, htopic, hopens.codecs_eq, hstored,
    TableSource.exists_get_iff hopens.codecs_eq hstored hwrote hk⟩

end Streams

/-! ## Clicks that were refused -/

open Clicks in
/-- A click that was refused for want of a window can be read from the store. -/
theorem Streams.exists_get_iff_of_run_clicks :
    ∃ t st held, ("clicks", t) ∈ (empty.after (calls ++ [.pipe "clicks" message])).tables ∧
      st ∈ t.stores ∧ st.get [.integer 1] = .ok held := by
  obtain ⟨⟨topic, t⟩, ht, htopic, st, hst, hwidth⟩ :
      ∃ entry ∈ (empty.after (calls ++ [.pipe "clicks" message])).tables, entry.1 = "clicks" ∧
        ∃ st ∈ entry.2.stores, st.codecs.key.width = 1 := by decide +kernel
  cases htopic
  obtain ⟨_, _, source, hbuild, -, -, -, hiff⟩ :=
    exists_get_iff_of_run _ ht hst (k := [.integer 1]) hwidth.symm
  obtain ⟨-, -, hsource⟩ : _ ∧ _ ∧ source = Clicks.source := by simpa [calls] using hbuild
  obtain ⟨held, hheld⟩ := hiff.2 fun ⟨_, _, _, _, _, _, houtgrows, _⟩ => by
    have hw := houtgrows.not_windowed
    rw [hsource] at hw
    exact nomatch hw
  exact ⟨t, st, held, ht, hst, hheld⟩

/-! ## Trees that outgrow their store -/

namespace Nested

/-- A topic of trees, each in a payload by itself. -/
def source : TableSource where
  topic := "trees"
  formats := ⟨"JSON", "JSON", ⟨false, false⟩, ⟨true, false⟩⟩
  schema := ⟨[⟨"NODE", .primitive .integer⟩], [⟨"TREE", .array (.primitive .integer)⟩], by decide,
    by decide⟩
  version := .current
  window := none
  path := ⟨["Trees", "Source"]⟩

/-- A tree of arrays in arrays. -/
def tree : Nat → Value
  | 0 => .integer 1
  | n + 1 => .array [tree n]

theorem depth_tree (n : Nat) : (tree n).json.depth = 2 * n + 1 := by
  induction n with
  | zero => rfl
  | succ n ih =>
    rw [tree, Value.json, Value.depth_tagged, Json.depth, Value.listJson, Value.listJson,
      Json.itemsDepth, Json.itemsDepth, ih]
    omega

theorem decodeFuel_tree {n fuel depth : Nat} (hdepth : 2 * n + 1 ≤ depth) (hfuel : depth ≤ fuel) :
    Value.decodeFuel fuel depth (tree n).json = .ok (tree n) := by
  induction n generalizing fuel depth with
  | zero =>
    obtain ⟨d, rfl⟩ := Nat.exists_eq_add_one_of_ne_zero (by omega : depth ≠ 0)
    obtain ⟨f, rfl⟩ := Nat.exists_eq_add_one_of_ne_zero (by omega : fuel ≠ 0)
    have hone : Json.decodeInt32 d (.int (Int32.toInt 1)) = .ok 1 := Json.decodeInt32_int 1
    rw [tree, Value.json, Value.decodeFuel_tagged, Value.decodeAs]
    dsimp only
    rw [hone]
    rfl
  | succ n ih =>
    obtain ⟨d, rfl⟩ := Nat.exists_eq_add_of_le' (by omega : 2 ≤ depth)
    obtain ⟨f, rfl⟩ := Nat.exists_eq_add_one_of_ne_zero (by omega : fuel ≠ 0)
    have hitem : Value.decodeFuel f d (tree n).json = .ok (tree n) := ih (by omega) (by omega)
    rw [tree, Value.json, Value.decodeFuel_tagged, Value.decodeAs, Value.listJson, Value.listJson]
    exact congrArg (Except.map Value.array)
      (Json.decodeList_eq_ok_iff.2 ⟨d, _, rfl, rfl, .cons hitem .nil⟩)

/-- The key of a tree. -/
def key : ByteArray := "[\x7b\"Integer\":1\x7d]".toUTF8

/-- A record of a tree. -/
def message (n : Nat) : Message := ⟨key, some (tree n).json.render.toUTF8, ⟨1000, 0, 7, none⟩⟩

/-- The codecs of the topic, in which a tree stands alone. -/
def codecs : Codecs := ⟨⟨"Trees-Source", 1, false⟩, ⟨"Trees-Source", 1, true⟩⟩

/-- The codecs of the store, which has two pseudocolumns more. -/
def storeCodecs : Codecs :=
  ⟨⟨"Trees-Source-Materialize", 1, false⟩, ⟨"Trees-Source-Materialize", 3, false⟩⟩

theorem codecs_consumed : source.consumed.codecs = .ok codecs := by decide

theorem codecs_stored : source.stored.codecs = .ok storeCodecs := by decide

theorem decode_tree {n : Nat} (h : 2 * n + 1 ≤ Decoder.maxDepth) :
    codecs.row.decode (tree n).json.render.toUTF8 = .ok [tree n] := by
  have hproper : codecs.row.IsProper := fun _ => rfl
  have hcells : codecs.row.decodeTree Decoder.maxDepth (tree n).json = .ok [tree n] :=
    congrArg (Except.map fun v => [v]) (decodeFuel_tree h (Nat.le_refl _))
  have hdecode : codecs.row.decode (codecs.row.tree [tree n]).render.toUTF8 = .ok [tree n] :=
    (Codec.decode_toUTF8 hproper rfl).2 ⟨rfl, hcells⟩
  exact hdecode

theorem decode_value {n : Nat} (h : 2 * n + 1 ≤ Decoder.maxDepth) :
    (message n).value.mapM codecs.row.decode = .ok (some [tree n]) :=
  Except.bind_eq_ok_iff.2 ⟨[tree n], decode_tree h, rfl⟩

theorem outgrows_tree {n : Nat} (h : 2 * n + 1 = Decoder.maxDepth) : source.Outgrows [tree n] :=
  ⟨rfl, rfl, rfl, rfl, tree n, rfl, rfl, (depth_tree n).trans h⟩

theorem exists_key : ∃ k : Key, k.length = 1 ∧ codecs.key.decode key = .ok k ∧
    storeCodecs.key.decode key = .ok k := by
  have h : ∃ k ∈ (codecs.key.decode key).toOption, k.length = 1 := by decide +kernel
  obtain ⟨k, hk, hlen⟩ := h
  have hdecode : codecs.key.decode key = .ok k := Except.toOption_eq_some_iff.1 hk
  -- the two codecs differ only in the name that stands in their errors
  obtain ⟨hwidth, hreads⟩ := Codec.decode_eq_ok_iff.1 hdecode
  exact ⟨k, hlen, hdecode, Codec.decode_eq_ok_iff.2 ⟨hwidth, hreads⟩⟩

/-- The table of trees is built, and gets a tree. -/
def calls (n : Nat) : List Streams.Call := [.build {} ⟨[]⟩ source, .pipe "trees" (message n)]

/-- The table of trees after it got one. -/
theorem tables_after_calls {t : Table} (h : source.table ⟨[]⟩ = .ok t) (n : Nat) :
    (Streams.empty.after (calls n)).tables
      = [("trees", (t.process key (message n).value (message n).metadata).1)] := by
  have hbuild : (Streams.empty.build {} ⟨[]⟩ source).1.tables = [("trees", t)] := by
    rw [Streams.build, h]
    rfl
  show (Streams.deliver "trees" key (message n).value (message n).metadata
    (Streams.empty.build {} ⟨[]⟩ source).1.tables).1 = _
  rw [hbuild, Streams.deliver, if_pos rfl]
  rcases t.process key (message n).value (message n).metadata with ⟨t', e | _⟩ <;> rfl

end Nested

open Nested in
/-- A tree as deep as a reader looks stands in a list in its store, and cannot be read there. -/
theorem Streams.tree_not_read_back :
    ∃ t st k e, ("trees", t) ∈ (empty.after (Nested.calls 63)).tables ∧ st ∈ t.stores ∧
      k.length = st.codecs.key.width ∧ st.codecs.key.decode Nested.key = .ok k ∧
      st.get k = .error e := by
  have htable : ∃ t ∈ (source.table ⟨[]⟩).toOption, t.output = [] := by decide +kernel
  obtain ⟨t, ht, -⟩ := htable
  replace ht : source.table ⟨[]⟩ = .ok t := Except.toOption_eq_some_iff.1 ht
  have hcodecs := TableSource.codecs_of_table ht
  have htables := tables_after_calls ht 63
  obtain ⟨cs, store, hopens, -, rfl⟩ := TableSource.exists_of_table ht
  obtain rfl : codecs = cs := Except.ok.inj (codecs_consumed.symm.trans hopens.codecs_eq)
  obtain ⟨st, rfl⟩ := Option.isSome_iff_exists.1 (hopens.isSome_store : store.isSome = true)
  rw [TableSource.stores_tableWith] at hcodecs
  have hstored := hcodecs st (List.mem_singleton_self st)
  have hst : st.codecs = storeCodecs := Except.ok.inj (hstored.symm.trans codecs_stored)
  obtain ⟨k, hlen, hk, hk'⟩ := exists_key
  have hrow := decode_tree (by decide : 2 * 63 + 1 ≤ Decoder.maxDepth)
  have hread : (source.tableWith codecs (some st) []).read key (message 63).value
      = .ok (k, some [tree 63]) :=
    TableSource.read_eq_ok_iff.2 ⟨hk, decode_value (by decide)⟩
  have hwidth : k.length = st.codecs.key.width := by rw [hlen, hst]; rfl
  obtain ⟨e, he⟩ := TableSource.exists_get_record_eq_error (m := (message 63).metadata)
    hopens.codecs_eq hstored hrow (outgrows_tree (by decide)) hwidth
  have hstores : ∃ t, (empty.after (Nested.calls 63)).tables = [("trees", t)] ∧
      t.stores = [st.record k (some (source.storedRow (message 63).metadata [tree 63]))] := by
    refine ⟨_, htables, ?_⟩
    obtain ⟨output, heq, -⟩ := (hopens.outcome (m := (message 63).metadata) hread).exists_eq
    rw [heq]
    exact TableSource.stores_tableWith
  obtain ⟨t, ht, hstores⟩ := hstores
  refine ⟨t, _, k, e, ht ▸ List.mem_singleton_self _, hstores ▸ List.mem_singleton_self _, ?_, ?_,
    he⟩
  · exact hwidth
  · rw [Store.record_codecs, hst]
    exact hk'

end StreamTables
