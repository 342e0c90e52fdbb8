import StreamTables.Proofs.Source.Built

/-!
# Why records are refused

On its way a record meets widths that were all worked out separately: those of the codecs of its
topic, of the projection, of the columns that are appended, of the codecs of the store, and of the
layout of stored rows.  If two of them disagreed, a record that is as it should be would be refused.
None do: whatever was built before, a record that is refused is at fault itself.

## What is here

* `TableSource.Refuses`: what may be at fault with a record, and the error that says so.
* `TableSource.payload_or_window_of_process`: once a record is read, widths are no matter.
* `TableSource.refuses_of_process`: a table refuses no other records.
* `TableSource.Makes`, `TableSource.makes_process`: the tables that the table of a source may
  become.
* `Streams.IsBuilt`: whether a table is such a table.
* `Streams.isBuilt_after`: in every run all tables are.
* `Streams.refuses_of_pipe`: a pipe refuses no other records.
-/

set_option autoImplicit false

namespace StreamTables
namespace TableSource

/-- What may be at fault with a record, and the error that says so. -/
inductive Refuses (s : TableSource) (msg : Message) : Error → Prop where
  /-- A payload of the record cannot be read, or what was stored of it cannot be read back. -/
  | payload (context message : String) : s.Refuses msg (.payload context message)
  /-- The key does not have as many cells as the source has columns in the key. -/
  | key {c : Codec} {cells : List Value} (codec : s.consumed.key.codec = .ok c)
    (reads : c.Reads msg.key cells) (width : cells.length ≠ s.schema.key.length) :
    s.Refuses msg (.widthMismatch s.path.operatorName s.schema.key.length cells.length)
  /-- The row does not have as many cells as the source has columns in the value. -/
  | row {c : Codec} {payload : ByteArray} {cells : List Value}
    (codec : s.consumed.row.codec = .ok c) (value : msg.value = some payload)
    (reads : c.Reads payload cells) (width : cells.length ≠ s.schema.value.length) :
    s.Refuses msg (.widthMismatch s.path.operatorName s.schema.value.length cells.length)
  /-- The source is windowed, and a record with a row has no window. -/
  | window (windowed : s.isWindowed = true) (value : msg.value.isSome = true)
    (no_window : msg.metadata.window = none) :
    s.Refuses msg (.missingWindow SystemColumn.windowStart.name)

variable {s : TableSource} {plan : Plan} {codecs : Codecs} {store : Option Store}
  {output : List (Key × Option Row)} {msg : Message} {e : Error}

/-- The codes of the errors: unreadable payloads, wrong numbers of cells, and missing windows. -/
theorem Refuses.code_mem (h : s.Refuses msg e) :
    e.code ∈ ["STREAM_004", "STREAM_003", "STREAM_001"] := by
  cases h <;> simp [Error.code]

/-! ## One record -/

/-- A codec of the topic refuses a payload because it cannot be read, or for the number of its
cells. -/
theorem payload_or_width_of_decode {r : CodecRequest} {c : Codec} {payload : ByteArray}
    (hc : r.codec = .ok c) (h : c.decode payload = .error e) :
    (∃ context message, e = .payload context message) ∨
      ∃ cells, c.Reads payload cells ∧ cells.length ≠ r.fields.length ∧
        e = .widthMismatch r.path.operatorName r.fields.length cells.length := by
  obtain ⟨hcontext, hwidth, -⟩ := CodecRequest.of_codec hc
  rw [← hcontext, ← hwidth]
  exact (Codec.decode_eq_error h).imp_left fun hpayload => ⟨_, hpayload⟩

/-- **A record that is not read** is at fault. -/
theorem refuses_of_read (h : s.Opens plan codecs store)
    (hread : (s.tableWith codecs store output).read msg.key msg.value = .error e) :
    s.Refuses msg e := by
  obtain ⟨hkey, hrow⟩ := CodecRequests.codecs_eq_ok_iff.1 h.codecs_eq
  rcases Except.bind_eq_error_iff.1 hread with hread | ⟨k, -, hread⟩
  · rcases payload_or_width_of_decode hkey hread with ⟨_, _, rfl⟩ | ⟨cells, hreads, hwidth, rfl⟩
    · exact .payload _ _
    · exact .key hkey hreads hwidth
  rcases Except.bind_eq_error_iff.1 hread with hread | ⟨row, -, hread⟩
  · cases hvalue : msg.value with
    | none =>
      rw [hvalue] at hread
      exact nomatch hread
    | some payload =>
      rw [hvalue] at hread
      rcases Except.bind_eq_error_iff.1 hread with hread | ⟨_, -, hread⟩
      · rcases payload_or_width_of_decode hrow hread with
          ⟨_, _, rfl⟩ | ⟨cells, hreads, hwidth, rfl⟩
        · exact .payload _ _
        · exact .row hrow hvalue hreads hwidth
      · exact nomatch hread
  · exact nomatch hread

/-- **A record that was read is refused for a payload of the store or for its window**, and not for
a width.  A row that was read is as wide as the projection, what is made of it is as wide as the
store, and what is held of it is as wide as the layout. -/
theorem payload_or_window_of_process (h : s.Opens plan codecs store) {k : Key} {row : Option Row}
    (hread : (s.tableWith codecs store output).read msg.key msg.value = .ok (k, row))
    (he : ((s.tableWith codecs store output).process msg.key msg.value msg.metadata).2 = .error e) :
    (∃ context message, e = .payload context message) ∨
      s.isWindowed = true ∧ msg.value.isSome = true ∧ msg.metadata.window = none ∧
        e = .missingWindow SystemColumn.windowStart.name := by
  obtain ⟨-, hrow⟩ := read_eq_ok_iff.1 hread
  have houtcome := h.outcome (m := msg.metadata) hread
  generalize (s.tableWith codecs store output).process msg.key msg.value msg.metadata = r at *
  cases houtcome with
  | erased => cases he
  | emitted => cases he
  | unreadable hst herror =>
    cases he
    obtain ⟨payload, -, hdecode⟩ := exists_of_mapM_decode hrow
    exact .inl ⟨_, Codec.exists_of_decode_payload_eq_error (h.isProper _ hst).2
      ((h.width_storedRow hdecode).2 _ hst) (isReadable_storedRow (Codec.of_decode hdecode).1)
      herror⟩
  | windowless hw hnone =>
    cases he
    obtain ⟨payload, hvalue, -⟩ := exists_of_mapM_decode hrow
    exact .inr ⟨hw, hvalue ▸ rfl, hnone, rfl⟩

/-- **A table refuses no record that is not at fault**, and if it is the width of a record that is
refused, the record was not read. -/
theorem refuses_of_process (h : s.Opens plan codecs store)
    (he : ((s.tableWith codecs store output).process msg.key msg.value msg.metadata).2 = .error e) :
    s.Refuses msg e ∧ (e.code = "STREAM_003" →
      (s.tableWith codecs store output).read msg.key msg.value = .error e) := by
  cases hread : (s.tableWith codecs store output).read msg.key msg.value with
  | error e' =>
    rw [process_of_read_eq_error hread] at he
    cases he
    exact ⟨refuses_of_read h hread, fun _ => rfl⟩
  | ok r =>
    rcases payload_or_window_of_process h hread he with
      ⟨_, _, rfl⟩ | ⟨hwindowed, hvalue, hnone, rfl⟩
    · exact ⟨.payload _ _, by simp [Error.code]⟩
    · exact ⟨.window hwindowed hvalue hnone, by simp [Error.code]⟩

/-! ## The tables of a source -/

/-- Whether a table is one that the table of a source may become. -/
def Makes (s : TableSource) (plan : Plan) (t : Table) : Prop :=
  ∃ codecs store output, s.Opens plan codecs store ∧ t = s.tableWith codecs store output

/-- No record makes it any other. -/
theorem makes_process {t : Table} (h : s.Makes plan t) (msg : Message) :
    s.Makes plan (t.process msg.key msg.value msg.metadata).1 := by
  obtain ⟨codecs, store, output, hopens, rfl⟩ := h
  obtain ⟨store', output', hopens', heq, -⟩ :=
    hopens.exists_process output msg.key msg.value msg.metadata
  exact ⟨codecs, store', output', hopens', heq⟩

end TableSource

namespace Streams

/-! ## In every state -/

/-- Whether a table that reads a topic is one of a source that calls build. -/
def IsBuilt (calls : List Call) (reads : String) (t : Table) : Prop :=
  ∃ settings plan source, .build settings plan source ∈ calls ∧ source.topic = reads ∧
    source.Makes plan t

/-- **In every run all tables are built by its calls**, also by those that fail. -/
theorem isBuilt_after (calls : List Call) :
    ∀ entry ∈ (empty.after calls).tables, IsBuilt calls entry.1 entry.2 := by
  refine forall_mem_after (fun settings plan source t hc ht => ?_) (fun topic msg t _ ht => ?_)
    (List.forall_mem_nil _)
  · obtain ⟨codecs, store, hopens, -, rfl⟩ := TableSource.exists_of_table ht
    exact ⟨settings, plan, source, hc, rfl, codecs, store, [], hopens, rfl⟩
  · obtain ⟨settings, plan, source, hbuild, htopic, hmakes⟩ := ht
    exact ⟨settings, plan, source, hbuild, htopic, TableSource.makes_process hmakes msg⟩

/-- **A pipe refuses no record that is not at fault**, in whatever state a run of builds and pipes
has left the streams.  The error is that of a table that reads the topic, made of a source that was
built, and if it is one of widths, the table could not read the record.  So a stored row is never
too short, and no stage and no store is ever given a row of the wrong width. -/
theorem refuses_of_pipe (calls : List Call) {topic : String} {msg : Message} {e : Error}
    (h : ((empty.after calls).pipe topic msg.key msg.value msg.metadata).2 = .error e) :
    ∃ settings plan source t, .build settings plan source ∈ calls ∧ source.topic = topic ∧
      (topic, t) ∈ (empty.after calls).tables ∧ source.Makes plan t ∧
      (t.process msg.key msg.value msg.metadata).2 = .error e ∧ source.Refuses msg e ∧
      e.code ∈ ["STREAM_004", "STREAM_003", "STREAM_001"] ∧
      (e.code = "STREAM_003" → t.read msg.key msg.value = .error e) := by
  obtain ⟨t, ht, herror⟩ := exists_of_deliver_eq_error h
  obtain ⟨settings, plan, source, hbuild, htopic, hmakes⟩ :=
    isBuilt_after calls (topic, t) ht
  obtain ⟨codecs, store, output, hopens, rfl⟩ := hmakes
  obtain ⟨hrefuses, hread⟩ := TableSource.refuses_of_process hopens herror
  exact ⟨settings, plan, source, _, hbuild, htopic, ht, ⟨codecs, store, output, hopens, rfl⟩,
    herror, hrefuses, hrefuses.code_mem, hread⟩

end Streams

/-! ## Clicks without a window, and with a key too many -/

namespace Clicks

/-- A topic of clicks, by the minute. -/
def source : TableSource where
  topic := "clicks"
  formats := ⟨"JSON", "JSON", ⟨false, false⟩, ⟨false, false⟩⟩
  schema :=
    ⟨[⟨"VISITOR", .primitive .integer⟩], [⟨"PAGE", .primitive .string⟩], by decide, by decide⟩
  version := .current
  window := some ⟨.tumbling, some 60000⟩
  path := ⟨["Clicks", "Source"]⟩

/-- A click without a window. -/
def message : Message where
  key := "[\x7b\"Integer\":1\x7d]".toUTF8
  value := some "[\x7b\"String\":\"home\"\x7d]".toUTF8
  metadata := ⟨1000, 0, 7, none⟩

/-- The same, with two cells in its key. -/
def wideMessage : Message :=
  { message with key := "[\x7b\"Integer\":1\x7d,\x7b\"Integer\":2\x7d]".toUTF8 }

/-- The build of the table of clicks. -/
def calls : List Streams.Call := [.build {} ⟨[]⟩ source]

end Clicks

open Clicks in
/-- Either of the two is refused for what is at fault with it. -/
theorem Streams.refuses_of_pipe_click :
    ((empty.after calls).pipe "clicks" message.key message.value message.metadata).2
        = .error (.missingWindow "WINDOWSTART") ∧
      source.Refuses message (.missingWindow "WINDOWSTART") ∧
      ((empty.after calls).pipe "clicks" wideMessage.key wideMessage.value wideMessage.metadata).2
        = .error (.widthMismatch "Clicks-Source" 1 2) ∧
      source.Refuses wideMessage (.widthMismatch "Clicks-Source" 1 2) := by
  have hwindow : ((empty.after calls).pipe "clicks" message.key message.value message.metadata).2
      = .error (.missingWindow "WINDOWSTART") := by decide +kernel
  have hwide : ((empty.after calls).pipe "clicks" wideMessage.key wideMessage.value
      wideMessage.metadata).2 = .error (.widthMismatch "Clicks-Source" 1 2) := by decide +kernel
  obtain ⟨_, _, _, _, hbuild, -, -, -, -, hrefuses, -⟩ := refuses_of_pipe calls hwindow
  cases List.mem_singleton.1 hbuild
  obtain ⟨_, _, _, _, hbuild', -, -, -, -, hrefuses', -⟩ := refuses_of_pipe calls hwide
  cases List.mem_singleton.1 hbuild'
  exact ⟨hwindow, hrefuses, hwide, hrefuses'⟩

end StreamTables
