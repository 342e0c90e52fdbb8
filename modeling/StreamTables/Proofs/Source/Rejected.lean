import StreamTables.Proofs.Source.Writes
import StreamTables.Proofs.Streams.Isolation

/-!
# Records that are refused

It is tempting to say that a record which is refused changes nothing.  A store is written to before
the record has passed, though, and what was written is not taken back.  So the statement is true of
what a table emits, and it is true of the store unless the record is found wrong only after it was
written: if it has no window where it needs one, or if its row outgrows the store.

All this is about a table that is the only one on its topic.  A record that is refused by another
table may well have been processed by this one before.

## What is here

* `Streams.IsAlone`: whether no other table reads the topic of a table.
* `Streams.getElem?_pipe_of_isAlone`: a pipe to the topic of such a table is a step of the table.
* `Streams.unchanged_or_written_of_pipe_eq_error`: what a pipe that fails leaves behind.
-/

set_option autoImplicit false

namespace StreamTables
namespace Streams

variable {s streams : Streams} {topic : String} {i : Nat} {t : Table} {msg : Message} {e : Error}
  {settings : Settings} {plan : Plan} {source : TableSource} {built : BuiltTable}

/-- Whether no table but that of a number reads a topic. -/
def IsAlone (s : Streams) (topic : String) (i : Nat) : Prop :=
  ∀ j ∈ List.range s.tables.length, (s.tables[j]?.map Prod.fst = some topic) → j = i

instance (s : Streams) (topic : String) (i : Nat) : Decidable (s.IsAlone topic i) :=
  inferInstanceAs (Decidable
    (∀ j ∈ List.range s.tables.length, (s.tables[j]?.map Prod.fst = some topic) → j = i))

theorem IsAlone.eq (h : s.IsAlone topic i) {j : Nat} (hj : s.tables[j]? = some (topic, t)) :
    j = i := by
  refine h j (List.mem_range.2 (List.getElem?_eq_some_iff.1 hj).1) ?_
  simp [hj]

/-- **A pipe to the topic of a table that is alone there is a step of the table**, and has its
result. -/
theorem getElem?_pipe_of_isAlone (msg : Message) (halone : s.IsAlone topic i)
    (h : s.tables[i]? = some (topic, t)) :
    (s.pipe topic msg.key msg.value msg.metadata).1.tables[i]?
        = some (topic, (t.process msg.key msg.value msg.metadata).1) ∧
      ∀ e, (s.pipe topic msg.key msg.value msg.metadata).2 = .error e →
        (t.process msg.key msg.value msg.metadata).2 = .error e := by
  constructor
  · refine getElem?_deliver_of_reaches h ?_
    -- no table in front of it reads the topic, so that nothing can fail there
    cases hfront : (deliver topic msg.key msg.value msg.metadata (s.tables.take i)).2 with
    | ok _ => rfl
    | error e =>
      obtain ⟨u, hu, -⟩ := exists_of_deliver_eq_error hfront
      obtain ⟨j, hj⟩ := List.mem_iff_getElem?.1 hu
      obtain ⟨hlt, hj⟩ : j < i ∧ s.tables[j]? = some (topic, u) := by
        simpa [List.getElem?_take] using hj
      exact absurd (halone.eq hj) hlt.ne
  · intro e he
    obtain ⟨u, hu, herror⟩ := exists_of_deliver_eq_error he
    obtain ⟨j, hj⟩ := List.mem_iff_getElem?.1 hu
    obtain rfl := halone.eq hj
    obtain rfl : u = t := by simpa [hj] using h
    exact herror

/-- **What a pipe that fails leaves behind**, in whatever state a run has left the streams, for a
table that is alone on its topic.  The table has emitted nothing, and either nothing has changed,
and if the record was one for the table it could not be read, or the row of the record was written.
In the second case the record has no window and the source is windowed, or the row outgrows the
store. -/
theorem unchanged_or_written_of_pipe_eq_error
    (hbuild : (streams.build settings plan source).2 = .ok built) (calls : List Call)
    (halone : ((streams.build settings plan source).1.after calls).IsAlone source.topic built.index)
    (herror : (((streams.build settings plan source).1.after calls).pipe topic msg.key msg.value
      msg.metadata).2 = .error e) :
    ∃ t t', ((streams.build settings plan source).1.after calls).table? built.index = some t ∧
      (((streams.build settings plan source).1.after calls).pipe topic msg.key msg.value
        msg.metadata).1.table? built.index = some t' ∧
      t'.output = t.output ∧
      (t' = t ∧ (source.topic = topic → t.read msg.key msg.value = .error e) ∨
        ∃ k row st, source.topic = topic ∧ t.read msg.key msg.value = .ok (k, some row) ∧
          t.stores = [st] ∧
          t'.stores = [st.record k (some (source.storedRow msg.metadata row))] ∧
          source.Rejects msg.metadata row e) := by
  obtain ⟨t, ht, codecs, store, output, hopens, rfl, hholds⟩ := holdsRecords_after hbuild calls
  generalize (streams.build settings plan source).1.after calls = s at *
  by_cases htopic : source.topic = topic
  · subst htopic
    obtain ⟨ht', hresult⟩ := getElem?_pipe_of_isAlone msg halone ht
    have hprocess := hresult e herror
    refine ⟨_, _, by rw [table?, ht]; rfl, by rw [table?, ht']; rfl, ?_⟩
    cases hread : (source.tableWith codecs store output).read msg.key msg.value with
    | error e' =>
      rw [TableSource.process_of_read_eq_error hread] at hprocess ⊢
      cases hprocess
      exact ⟨rfl, .inl ⟨rfl, fun _ => rfl⟩⟩
    | ok r =>
      obtain ⟨k, row⟩ := r
      have houtcome := hopens.outcome (m := msg.metadata) hread
      generalize (source.tableWith codecs store output).process msg.key msg.value msg.metadata = r
        at *
      obtain ⟨t', result⟩ := r
      obtain rfl : result = .error e := hprocess
      obtain ⟨row, rfl, hsome, rfl, hrejects⟩ := houtcome.rejects hopens
        (fun st hst => (hholds st hst).1) (TableSource.read_eq_ok_iff.1 hread).2
      obtain ⟨st, rfl⟩ := Option.isSome_iff_exists.1 hsome
      exact ⟨rfl, .inr ⟨k, row, st, rfl, rfl, TableSource.stores_tableWith,
        TableSource.stores_tableWith, hrejects⟩⟩
  · obtain ⟨t', ht', hbecome, -⟩ := getElem?_call (.pipe topic msg) ht
    have hsame : t' = source.tableWith codecs store output := hbecome.resolve_right (by
      rintro ⟨_, hmsg, -⟩
      cases hmsg
      exact htopic rfl)
    subst hsame
    exact ⟨_, _, by rw [table?, ht]; rfl, by rw [table?]; exact congrArg _ ht', rfl,
      .inl ⟨rfl, fun h => absurd h htopic⟩⟩

end Streams

open Clicks in
/-- A click without a window is refused, and it is in the store. -/
theorem Streams.click_refused_and_stored :
    (empty.build {} ⟨[]⟩ source).2.toOption.map BuiltTable.index = some 0 ∧
      (empty.build {} ⟨[]⟩ source).1.IsAlone "clicks" 0 ∧
      ((empty.build {} ⟨[]⟩ source).1.pipe "clicks" message.key message.value message.metadata).2
        = .error (.missingWindow "WINDOWSTART") ∧
      ((empty.build {} ⟨[]⟩ source).1.table? 0).map (fun t => t.stores.map Store.size)
        = some [0] ∧
      (((empty.build {} ⟨[]⟩ source).1.pipe "clicks" message.key message.value
        message.metadata).1.table? 0).map (fun t => t.stores.map Store.size) = some [1] := by
  decide +kernel

open Clicks in
/-- A click with two cells in its key is not read, and it changes nothing. -/
theorem Streams.unchanged_or_written_of_pipe_eq_error_click :
    ∃ t, (empty.build {} ⟨[]⟩ source).1.table? 0 = some t ∧
      ((empty.build {} ⟨[]⟩ source).1.pipe "clicks" wideMessage.key wideMessage.value
        wideMessage.metadata).1.table? 0 = some t := by
  obtain ⟨built, hbuilt, hindex⟩ :
      ∃ built ∈ (empty.build {} ⟨[]⟩ source).2.toOption, built.index = 0 := by decide +kernel
  rw [Option.mem_def, Except.toOption_eq_some_iff] at hbuilt
  have halone : ((empty.build {} ⟨[]⟩ source).1.after []).IsAlone "clicks" 0 := by decide +kernel
  have herror : (((empty.build {} ⟨[]⟩ source).1.after []).pipe "clicks" wideMessage.key
      wideMessage.value wideMessage.metadata).2 = .error (.widthMismatch "Clicks-Source" 1 2) := by
    decide +kernel
  obtain ⟨t, t', ht, ht', -, hsame | ⟨_, _, _, -, -, -, -, hrejects⟩⟩ :=
    unchanged_or_written_of_pipe_eq_error hbuilt [] (hindex ▸ halone) herror
  · rw [hindex] at ht ht'
    exact ⟨t, ht, hsame.1 ▸ ht'⟩
  · exact nomatch hrejects

end StreamTables
