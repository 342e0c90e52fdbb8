import StreamTables.Proofs.Source.Stored
import StreamTables.Proofs.Value.Identity

/-!
# Which keys are live

There are two places to look a key up: in what a table has emitted, where keys are compared, and in
its store, where it is their payloads that are compared.  The first finds the last record whose key
equals the one that is looked up, and the second the last record whose key is written as it is.
Keys that are written alike are equal, so that both agree unless the last record of an equal key has
it in other words, as `1.00` for `1.0`.

## What is here

* `Codec.listEqual_of_payload_eq`, `Codec.payload_eq_of_listEqual`: how cells and payloads compare.
* `ReadRecord.lastEqual?`: the last record of a key, by comparison.
* `TableSource.isSome_latest`: it decides whether a key has a row in what was emitted.
* `Streams.isSome_latest_eq_isSome_get`: which keys are live in both places or in none.
-/

set_option autoImplicit false

namespace StreamTables

/-! ## Keys and their payloads -/

theorem Json.eq_of_render_eq {i j : Json} (hi : i.IsWritten) (hj : j.IsWritten)
    (h : i.render = j.render) : i = j := by
  have hdoc : (⟨i, true⟩ : Document) = ⟨j, true⟩ := by
    rw [← Document.ofText_render hi, h, Document.ofText_render hj]
  simpa using hdoc

namespace Codec

variable {c : Codec} {k l : List Value}

/-- Cells have one payload if and only if each is written as the other. -/
theorem payload_eq_iff (hc : c.IsProper) (hk : k.length = c.width) (hl : l.length = c.width) :
    c.payload k = c.payload l ↔ Value.listJson k = Value.listJson l := by
  have htree : c.tree k = c.tree l ↔ Value.listJson k = Value.listJson l := by
    cases hbare : c.bare with
    | true =>
      obtain ⟨v, rfl⟩ := exists_cell hc hbare hk
      obtain ⟨w, rfl⟩ := exists_cell hc hbare hl
      simp [tree_of_bare hbare, Value.listJson]
    | false => simp [tree_of_not_bare hbare, Row.json]
  rw [← htree]
  constructor
  · intro h
    have htext : some (c.tree k).render = some (c.tree l).render := by
      rw [← fromUTF8?_toUTF8, ← fromUTF8?_toUTF8 (c.tree l).render]
      exact congrArg String.fromUTF8? h
    exact Json.eq_of_render_eq (isWritten_tree hc hk) (isWritten_tree hc hl)
      (Option.some.inj htext)
  · intro h
    rw [payload, payload, h]

/-- **Cells of one payload are equal.** -/
theorem listEqual_of_payload_eq (hc : c.IsProper) (hk : k.length = c.width)
    (hl : l.length = c.width) (hread : Row.IsReadable k) (h : c.payload k = c.payload l) :
    Value.listEqual k l = true := by
  refine Value.listEqual_of_json_eq (fun a ha => ?_) ((payload_eq_iff hc hk hl).1 h)
  obtain ⟨v, hv, ha⟩ := Value.mem_listAtoms.1 ha
  exact hread v hv a ha

/-- **Equal cells have one payload** if they are written in one way. -/
theorem payload_eq_of_listEqual (hc : c.IsProper) (hk : k.length = c.width)
    (hl : l.length = c.width) (hone : ∀ v ∈ l, v.IsWrittenOneWay)
    (h : Value.listEqual k l = true) : c.payload k = c.payload l := by
  refine (payload_eq_iff hc hk hl).2 (Value.listJson_eq_of_listEqual (fun a ha => ?_) h)
  obtain ⟨v, hv, ha⟩ := Value.mem_listAtoms.1 ha
  exact hone v hv a ha

end Codec

/-! ## The last record of a key -/

/-- The last of some records whose key equals another. -/
def ReadRecord.lastEqual? (log : List ReadRecord) (k : Key) : Option ReadRecord :=
  log.reverse.find? fun e => Value.listEqual e.key k

theorem ReadRecord.of_mem_lastEqual? {log : List ReadRecord} {k : Key} {e : ReadRecord}
    (h : e ∈ lastEqual? log k) : e ∈ log ∧ Value.listEqual e.key k = true := by
  have hfind : (log.reverse.find? fun e => Value.listEqual e.key k) = some e := h
  exact ⟨List.mem_reverse.1 (List.mem_of_find?_eq_some hfind), by simpa using List.find?_some hfind⟩

namespace TableSource

variable {s : TableSource} {codecs : Codecs} {store : Option Store} {st : Store}
  {log : List ReadRecord} {output : List (Key × Option Row)} {k : Key}

/-- **The last record of an equal key decides** whether there is a row of a key in what was
emitted. -/
theorem isSome_latest
    (h : List.Forall₂ (fun e out => out.1 = e.key ∧ out.2.isSome = e.row.isSome) log output)
    (k : Key) :
    ((s.tableWith codecs store output).latest k).isSome
      = ((ReadRecord.lastEqual? log k).bind ReadRecord.row).isSome := by
  show ((output.reverse.find? fun out => Value.listEqual out.1 k).bind Prod.snd).isSome = _
  rw [ReadRecord.lastEqual?]
  replace h := List.forall₂_reverse_iff.2 h
  generalize log.reverse = log at *
  generalize output.reverse = output at *
  induction h with
  | nil => rfl
  | @cons e out _ _ hout _ ih =>
    obtain ⟨hkey, hrow⟩ := hout
    rw [List.find?_cons, List.find?_cons, hkey]
    cases Value.listEqual e.key k with
    | true => exact hrow
    | false => exact ih

/-- **The last record of a payload decides** whether there is a row of a key in the store. -/
theorem exists_isSome_get (hempty : st.entries = .empty)
    (hkept : ∀ e ∈ log, ∀ row ∈ e.row,
      ∃ held, st.codecs.row.Keeps (s.storedRow e.metadata row) held)
    (hk : k.length = st.codecs.key.width) :
    ∃ held, (s.storeAfterAll st log).get k = .ok held ∧
      held.isSome = ((st.codecs.key.lastRecord? log (st.codecs.key.payload k)).bind
        ReadRecord.row).isSome := by
  obtain ⟨held, hget, hrel⟩ := get_storeAfterAll hempty (fun e he r hr => by
    obtain ⟨row, hrow, rfl⟩ := Option.map_eq_some_iff.1 hr
    exact hkept e he row hrow) hk
  refine ⟨held, hget, ?_⟩
  rw [← hrel.isSome_eq]
  cases st.codecs.key.lastRecord? log (st.codecs.key.payload k) <;> simp

/-- Both ways to look a key up find the same record, unless the last record of an equal key has
another payload. -/
theorem lastEqual?_eq_lastRecord? {c : Codec} (hc : c.IsProper) (hk : k.length = c.width)
    (hlog : ∀ e ∈ log, e.key.length = c.width ∧ Row.IsReadable e.key)
    (hlast : ∀ e ∈ ReadRecord.lastEqual? log k, c.payload e.key = c.payload k) :
    ReadRecord.lastEqual? log k = c.lastRecord? log (c.payload k) := by
  refine List.find?_eq_of_imp (fun e he hsame => ?_) fun e he => decide_eq_true (hlast e he)
  obtain ⟨hwidth, hread⟩ := hlog e (List.mem_reverse.1 he)
  exact Codec.listEqual_of_payload_eq hc hwidth hk hread (of_decide_eq_true hsame)

end TableSource

/-! ## Tables that were built -/

namespace Streams

variable {streams : Streams} {settings : Settings} {plan : Plan} {source : TableSource}
  {built : BuiltTable} {calls : List Call}

/-- **Which keys are live in both places or in none**, after a run in which no pipe to the topic of
a table with a store failed: all but those that the last record of an equal key has with another
payload.  There are no such records for keys that are written in one way. -/
theorem isSome_latest_eq_isSome_get
    (hbuild : (streams.build settings plan source).2 = .ok built)
    (hstored : source.isStored plan = true)
    (hpiped : (streams.build settings plan source).1.AllPiped source.topic calls) :
    ∃ t st log,
      ((streams.build settings plan source).1.after calls).table? built.index = some t ∧
      t.stores = [st] ∧
      List.Forall₂ t.codecs.Reads (calls.filterMap (Call.message? source.topic)) log ∧
      ∀ k : Key, k.length = source.schema.key.length → ∃ held, st.get k = .ok held ∧
        ((∀ e ∈ ReadRecord.lastEqual? log k,
            st.codecs.key.payload e.key = st.codecs.key.payload k) →
          (t.latest k).isSome = held.isSome) ∧
        ((∀ v ∈ k, v.IsWrittenOneWay) → (t.latest k).isSome = held.isSome) := by
  obtain ⟨codecs, store?, hopens, hempty, hregistered, -⟩ := exists_of_build hbuild
  obtain ⟨st, rfl⟩ := Option.isSome_iff_exists.1 (hopens.isSome_store.trans hstored)
  obtain ⟨t, ht, hall⟩ := processAll_of_allPiped hregistered hpiped
  obtain ⟨log, emitted, rfl, hreads, hkept, hemitted⟩ :=
    TableSource.exists_emitted_of_processAll hopens hall
  refine ⟨_, source.storeAfterAll st log, log, by rw [table?, ht]; rfl,
    TableSource.stores_tableWith, hreads, fun k hk => ?_⟩
  have hwidth := hopens.store_width_key st rfl
  have hproper := (hopens.isProper st rfl).1
  have hlog : ∀ e ∈ log, e.key.length = st.codecs.key.width ∧ Row.IsReadable e.key := by
    intro e he
    obtain ⟨msg, -, hkey, -⟩ := hreads.flip.exists_of_mem he
    have hlen := (Codec.length_of_decode hkey).trans hopens.width_key
    exact ⟨hlen.trans hwidth.symm, (Codec.of_decode hkey).1⟩
  have hk' := hk.trans hwidth.symm
  obtain ⟨held, hget, hheld⟩ := TableSource.exists_isSome_get (hempty st rfl) hkept hk'
  have hagree : (∀ e ∈ ReadRecord.lastEqual? log k,
      st.codecs.key.payload e.key = st.codecs.key.payload k) →
      ((source.tableWith codecs (some (source.storeAfterAll st log)) ([] ++ emitted)).latest
        k).isSome = held.isSome := by
    intro hlast
    rw [hheld, ← TableSource.lastEqual?_eq_lastRecord? hproper hk' hlog hlast]
    exact TableSource.isSome_latest hemitted k
  refine ⟨held, hget, hagree, fun hone => hagree fun e he => ?_⟩
  obtain ⟨hmem, hequal⟩ := ReadRecord.of_mem_lastEqual? he
  exact Codec.payload_eq_of_listEqual hproper (hlog e hmem).1 hk' hone hequal

end Streams

/-! ## Rates by amount -/

namespace Rates

/-- A topic of rates for amounts, which has a store. -/
def source : TableSource where
  topic := "rates"
  formats := ⟨"JSON", "JSON", ⟨false, false⟩, ⟨false, false⟩⟩
  schema := ⟨[⟨"AMOUNT", .decimal 10 2⟩], [⟨"RATE", .primitive .integer⟩], by decide, by decide⟩
  version := .current
  window := none
  path := ⟨["Rates", "Source"]⟩

/-- The streams with the table of rates alone. -/
def streams : Streams := (Streams.empty.build {} ⟨[]⟩ source).1

/-- The payload of an amount, which is the text of a decimal. -/
def key (text : String) : ByteArray := ("[\x7b\"Decimal\":\"" ++ text ++ "\"\x7d]").toUTF8

/-- The payload of a rate. -/
def payload : ByteArray := "[\x7b\"Integer\":7\x7d]".toUTF8

/-- A rate is piped, or a tombstone. -/
def record (text : String) (value : Option ByteArray) : Streams.Call :=
  .pipe "rates" ⟨key text, value, ⟨1000, 0, 7, none⟩⟩

end Rates

open Rates in
/-- A tombstone for `1.00` erases the rate for `1.0` from what is emitted, and leaves it in the
store. -/
theorem Streams.rate_live_in_store_alone :
    Rates.streams.AllPiped "rates" [record "1.0" (some payload), record "1.00" none] ∧
      ∃ t st k row,
        (Rates.streams.after [record "1.0" (some payload), record "1.00" none]).table? 0 = some t ∧
        t.stores = [st] ∧ st.codecs.key.decode (key "1.0") = .ok k ∧
        t.latest k = none ∧ st.get k = .ok (some row) := by
  have hpiped : Rates.streams.AllPiped "rates" [record "1.0" (some payload), record "1.00" none] ∧
      ∃ t ∈ (Rates.streams.after [record "1.0" (some payload), record "1.00" none]).table? 0,
        t.stores.length = 1 ∧
        ∃ st ∈ t.stores, ∃ k ∈ (st.codecs.key.decode (key "1.0")).toOption,
          (t.latest k).isNone = true ∧
            ∃ held ∈ (st.get k).toOption, held.isSome = true := by decide +kernel
  obtain ⟨hpiped, t, ht, hlen, st, hst, k, hk, hlatest, held, hheld, hsome⟩ := hpiped
  obtain ⟨st', hstores⟩ := List.length_eq_one_iff.1 hlen
  obtain rfl : st = st' := by simpa [hstores] using hst
  obtain ⟨row, rfl⟩ := Option.isSome_iff_exists.1 hsome
  exact ⟨hpiped, t, st, k, row, ht, hstores, Except.toOption_eq_some_iff.1 hk,
    Option.isNone_iff_eq_none.1 hlatest, Except.toOption_eq_some_iff.1 hheld⟩

/-- A price is erased. -/
def Prices.tombstone : Streams.Call := .pipe "prices" ⟨key, none, metadata⟩

open Prices in
/-- A price that a tombstone erased from what is emitted is not in the store either. -/
theorem Streams.isSome_latest_eq_isSome_get_price :
    ∃ t st, (Prices.streams.after [record "2.25", tombstone]).table? 0 = some t ∧
      t.stores = [st] ∧ t.latest [.integer 1] = none ∧ st.get [.integer 1] = .ok none := by
  obtain ⟨built, hbuilt, hindex⟩ := exists_built
  have hpiped : Prices.streams.AllPiped "prices" [record "2.25", tombstone] := by decide +kernel
  obtain ⟨t, st, log, ht, hstores, -, hlive⟩ :=
    isSome_latest_eq_isSome_get hbuilt (by decide +kernel) hpiped
  rw [hindex] at ht
  obtain ⟨held, hget, -, hagree⟩ := hlive [.integer 1] rfl
  have hlatest : ∃ t ∈ (Prices.streams.after [record "2.25", tombstone]).table? 0,
      (t.latest [.integer 1]).isSome = false := by decide +kernel
  obtain ⟨t', ht', hlatest⟩ := hlatest
  obtain rfl : t = t' := Option.some.inj (ht.symm.trans ht')
  have hheld := hagree (by decide)
  rw [hlatest] at hheld
  refine ⟨t, st, ht, hstores, by simpa using hlatest, ?_⟩
  rw [hget]
  cases held with
  | none => rfl
  | some row => exact nomatch hheld

end StreamTables
