import StreamTables.Proofs.Source.Built

/-!
# From the topic to the output

Between the row that is read from a topic and the row that is emitted there are projections, columns
that are appended, and perhaps a store which holds rows of yet another layout.  None of this can be
seen from outside: what is emitted depends on the record alone.

The one exception are doubles.  A store holds text, and reading a double from text rounds twice, so
there are doubles that come out of a store as others.

## What is here

* `Streams.process_of_build`: a table that was built emits `TableSource.emittedRow`.
* `Streams.price_changed_by_store`: a price that comes out of its store as another.
-/

set_option autoImplicit false

namespace StreamTables

namespace Streams

variable {streams : Streams} {settings : Settings} {plan : Plan} {source : TableSource}
  {built : BuiltTable}

/-- **What a table that was built emits.**  In every state, a record whose payloads are read and do
not nest too deep, and which has a window if it needs one, is processed.  A tombstone is emitted as
one, and a row as its genuine cells with the pseudocolumns, the key and the window bounds behind
them.  It makes no difference whether there is a store, if the doubles of the genuine cells are read
back from it.  Of the other cells that a store may hold nothing is asked, since none is emitted. -/
theorem process_of_build (hbuild : (streams.build settings plan source).2 = .ok built)
    (calls : List Call) {t : Table}
    (ht : ((streams.build settings plan source).1.after calls).table? built.index = some t)
    {codecs : Codecs} (hcodecs : source.consumed.codecs = .ok codecs)
    {key : ByteArray} {value : Option ByteArray} {m : RecordMetadata} {k : Key} {row : Option Row}
    (hkey : codecs.key.decode key = .ok k) (hrow : value.mapM codecs.row.decode = .ok row)
    (hdepth : ∀ payload ∈ value, payloadDepth payload ≤ 126)
    (hwindow : source.isWindowed = true → value.isSome = true → m.window.isSome = true)
    (hback : source.isStored plan = true →
      ∀ r ∈ row, Row.DoublesReadBack (source.schema.genuineCells source.projectedVersion r)) :
    ∃ t' out, t.process key value m = (t', .ok ()) ∧ t'.output = t.output ++ [(k, out)] ∧
      Option.Rel (fun row r => Value.listEqual r (source.emittedRow k m row) = true ∧
        (source.isStored plan = false → r = source.emittedRow k m row)) row out := by
  obtain ⟨codecs', store, output, hopens, rfl, -⟩ := isTable_after hbuild calls ht
  obtain rfl : codecs' = codecs := Except.ok.inj (hopens.codecs_eq.symm.trans hcodecs)
  obtain ⟨t', hprocess⟩ := TableSource.exists_process_eq_ok hopens output hkey hrow
    (fun payload hp => Nat.lt_succ_of_le (hdepth payload hp)) hwindow
  obtain ⟨k', row', out, hkey', hrow', rfl, hout, -⟩ := TableSource.of_process_eq_ok hopens hprocess
  obtain rfl : k = k' := Except.ok.inj (hkey.symm.trans hkey')
  obtain rfl : row = row' := Except.ok.inj (hrow.symm.trans hrow')
  refine ⟨_, out, hprocess, rfl, ?_⟩
  cases hout with
  | none => exact .none
  | @some row r hr =>
    obtain ⟨g, hg, -, rfl⟩ := hr
    obtain ⟨payload, -, hdecode⟩ := TableSource.exists_of_mapM_decode hrow
    have hreadable : Row.IsReadable (source.schema.genuineCells source.projectedVersion row) :=
      fun v hv => (Codec.of_decode hdecode).1 v (Schema.mem_of_mem_genuineCells hv)
    have hequal : Value.listEqual g
        (source.schema.genuineCells source.projectedVersion row) = true :=
      hg.listEqual hreadable fun hs => hback hs row rfl
    refine .some ⟨TableSource.listEqual_completed hequal (Codec.of_decode hkey).1, fun hns => ?_⟩
    rw [hns] at hg
    rw [hg.eq, TableSource.emittedRow]

end Streams

/-! ## Prices -/

namespace Prices

/-- A topic of prices, which has a store. -/
def source : TableSource where
  topic := "prices"
  formats := ⟨"JSON", "JSON", ⟨false, false⟩, ⟨false, false⟩⟩
  schema := ⟨[⟨"ITEM", .primitive .integer⟩], [⟨"PRICE", .primitive .double⟩], by decide, by decide⟩
  version := .current
  window := none
  path := ⟨["Prices", "Source"]⟩

/-- Writes and reads the keys and the prices of the topic. -/
def codec : Codec := ⟨"Prices-Source", 1, false⟩

/-- The streams with the table of prices alone. -/
def streams : Streams := (Streams.empty.build {} ⟨[]⟩ source).1

/-- The key of a price. -/
def key : ByteArray := "[\x7b\"Integer\":1\x7d]".toUTF8

/-- The payload of a price, which is the text of a double. -/
def payload (text : String) : ByteArray := ("[\x7b\"Double\":" ++ text ++ "\x7d]").toUTF8

/-- Where prices were read. -/
def metadata : RecordMetadata := ⟨1000, 0, 7, none⟩

/-- A price is piped. -/
def record (text : String) : Streams.Call := .pipe "prices" ⟨key, some (payload text), metadata⟩

theorem exists_built :
    ∃ built, (Streams.empty.build {} ⟨[]⟩ source).2 = .ok built ∧ built.index = 0 := by
  have h : ∃ built ∈ (Streams.empty.build {} ⟨[]⟩ source).2.toOption, built.index = 0 := by
    decide +kernel
  simpa only [Option.mem_def, Except.toOption_eq_some_iff] using h

theorem exists_key : ∃ k, codec.decode key = .ok k ∧ k.length = 1 := by
  have h : ∃ k ∈ (codec.decode key).toOption, k.length = 1 := by decide +kernel
  simpa only [Option.mem_def, Except.toOption_eq_some_iff] using h

/-- The price of this payload is read back, and so is all that is stored with it. -/
theorem exists_row :
    ∃ row, codec.decode (payload "1.5") = .ok row ∧
      Row.DoublesReadBack (source.schema.genuineCells source.projectedVersion row) ∧
      Row.DoublesReadBack (source.storedRow metadata row) := by
  have h : ∃ row ∈ (codec.decode (payload "1.5")).toOption,
      Row.DoublesReadBack (source.schema.genuineCells source.projectedVersion row) ∧
      Row.DoublesReadBack (source.storedRow metadata row) := by
    decide +kernel
  simpa only [Option.mem_def, Except.toOption_eq_some_iff] using h

end Prices

open Prices in
/-- A price behind another. -/
theorem Streams.process_of_build_price :
    ∃ t ∈ (Prices.streams.after [record "2.25"]).table? 0,
      ∃ k row t' r, codec.decode key = .ok k ∧ codec.decode (payload "1.5") = .ok row ∧
        t.process key (some (payload "1.5")) metadata = (t', .ok ()) ∧
        t'.output = t.output ++ [(k, some r)] ∧
        Value.listEqual r (source.emittedRow k metadata row) = true := by
  obtain ⟨built, hbuilt, hindex⟩ := exists_built
  obtain ⟨k, hkey, -⟩ := exists_key
  obtain ⟨row, hrow, hback, -⟩ := exists_row
  have htable : ((Prices.streams.after [record "2.25"]).table? 0).isSome = true := by decide +kernel
  obtain ⟨t, ht⟩ := Option.isSome_iff_exists.1 htable
  have hcodecs : source.consumed.codecs = .ok ⟨codec, codec⟩ := by decide +kernel
  have hdepth : payloadDepth (payload "1.5") ≤ 126 := by decide +kernel
  have hvalue : (some (payload "1.5")).mapM codec.decode = .ok (some row) :=
    Except.bind_eq_ok_iff.2 ⟨row, hrow, rfl⟩
  obtain ⟨t', out, hprocess, houtput, hout⟩ := process_of_build hbuilt [record "2.25"] (hindex ▸ ht)
    hcodecs hkey hvalue (fun p hp => Option.some.inj hp ▸ hdepth)
    (fun hw => absurd hw Bool.false_ne_true) (fun _ r hr => Option.some.inj hr ▸ hback)
  cases hout with
  | some hr => exact ⟨t, ht, k, row, t', _, hkey, hrow, hprocess, houtput, hr.1⟩

open Prices in
/-- A price that comes out of the store as another. -/
theorem Streams.price_changed_by_store :
    ∃ t ∈ Prices.streams.table? 0, ∃ k row t',
      t.read key (some (payload "1e-24")) = .ok (k, some row) ∧
        payloadDepth (payload "1e-24") ≤ 126 ∧
        t.process key (some (payload "1e-24")) metadata = (t', .ok ()) ∧
        ∃ out ∈ t'.output, ∃ r ∈ out.2,
          Value.listEqual r (source.emittedRow k metadata row) = false := by
  obtain ⟨t, ht, hok, hdepth, ⟨k, row⟩, hread, row', hrow, hout⟩ :
    ∃ t ∈ Prices.streams.table? 0,
      (t.process key (some (payload "1e-24")) metadata).2 = .ok () ∧
      payloadDepth (payload "1e-24") ≤ 126 ∧
      ∃ kr ∈ (t.read key (some (payload "1e-24"))).toOption, ∃ row ∈ kr.2,
        ∃ out ∈ (t.process key (some (payload "1e-24")) metadata).1.output, ∃ r ∈ out.2,
          Value.listEqual r (source.emittedRow kr.1 metadata row) = false := by
    decide +kernel
  obtain rfl : row = some row' := hrow
  exact ⟨t, ht, k, row', _, Except.toOption_eq_some_iff.1 hread, hdepth, Prod.ext rfl hok, hout⟩

end StreamTables
