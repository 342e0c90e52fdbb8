import StreamTables.Proofs.Source.Refusal

/-!
# Tables do not see each other

Tables share their streams, and they may share a topic, a step of the plan and the name of a store
as well.  They still do not share state: every table has its codecs, its stages and its store for
itself.  All that a table notices of the tables in front of it is that a record which fails there
never comes.

So of a run of builds and pipes a table is a function of the records that reach it, and it might as
well be alone.

## What is here

* `Table.afterAll`: a table after records, whether or not it processes them.
* `Streams.AllReach`: whether no record of a topic fails in front of a table.
* `Streams.getElem?_call_of_reaches`, `Streams.getElem?_after`: what one call and a whole run do to
  a table that all records reach.
* `Streams.table?_eq_alone`: the table is what it would be if it were alone.
-/

set_option autoImplicit false

namespace StreamTables

/-- A table after messages, one after the other, whether or not it processes them. -/
def Table.afterAll (t : Table) (msgs : List Message) : Table :=
  msgs.foldl (fun t msg => (t.process msg.key msg.value msg.metadata).1) t

namespace Streams

/-! ## Records that reach a table -/

/-- The streams with those tables alone that stand in front of one. -/
def inFrontOf (s : Streams) (i : Nat) : Streams := ⟨s.tables.take i⟩

/-- Whether a call is not a pipe to a topic that fails in front of a table. -/
def Call.Reaches (topic : String) (i : Nat) (s : Streams) : Call → Prop
  | .build .. => True
  | .pipe t msg => t = topic → ((s.inFrontOf i).pipe t msg.key msg.value msg.metadata).2 = .ok ()

/-- Whether no pipe to a topic fails in front of a table. -/
def AllReach (topic : String) (i : Nat) : Streams → List Call → Prop
  | _, [] => True
  | s, c :: calls => c.Reaches topic i s ∧ AllReach topic i (s.call c).1 calls

instance decidableReaches (topic : String) (i : Nat) (s : Streams) :
    (c : Call) → Decidable (c.Reaches topic i s)
  | .build .. => .isTrue trivial
  | .pipe t msg =>
    inferInstanceAs (Decidable
      (t = topic → ((s.inFrontOf i).pipe t msg.key msg.value msg.metadata).2 = .ok ()))

instance decidableAllReach (topic : String) (i : Nat) :
    (s : Streams) → (calls : List Call) → Decidable (s.AllReach topic i calls)
  | _, [] => .isTrue trivial
  | s, c :: calls =>
    have := decidableAllReach topic i (s.call c).1 calls
    inferInstanceAs (Decidable (c.Reaches topic i s ∧ AllReach topic i (s.call c).1 calls))

variable {topic : String} {msg : Message} {i : Nat} {t : Table} {s : Streams}

/-- **A delivery that does not fail in front of a table gets to the table.** -/
theorem getElem?_deliver_of_reaches {tables : List (String × Table)}
    (h : tables[i]? = some (topic, t))
    (hfront : (deliver topic msg.key msg.value msg.metadata (tables.take i)).2 = .ok ()) :
    (deliver topic msg.key msg.value msg.metadata tables).1[i]?
      = some (topic, (t.process msg.key msg.value msg.metadata).1) := by
  induction tables generalizing i with
  | nil => simp at h
  | cons entry tables ih =>
    obtain ⟨reads, u⟩ := entry
    rcases i with _ | i
    · obtain ⟨rfl, rfl⟩ : reads = topic ∧ u = t := by simpa using h
      rw [deliver, if_pos rfl]
      rcases u.process msg.key msg.value msg.metadata with ⟨u', e | _⟩ <;> rfl
    · rw [List.take_succ_cons, deliver] at hfront
      rw [deliver]
      split at hfront
      · next htopic =>
        rw [if_pos htopic]
        -- the record passes the table in front, or it would not have been delivered there
        rcases hu : u.process msg.key msg.value msg.metadata with ⟨u', e | _⟩
        · simp [hu] at hfront
        · rw [hu] at hfront
          exact ih h hfront
      · next htopic =>
        rw [if_neg htopic]
        exact ih h hfront

/-- **What one call does to a table** if no record of its topic fails in front of it: the table
takes the record of the call, if the call has one for it. -/
theorem getElem?_call_of_reaches {c : Call} (h : s.tables[i]? = some (topic, t))
    (hreach : c.Reaches topic i s) :
    (s.call c).1.tables[i]? = some (topic, t.afterAll (c.message? topic).toList) := by
  obtain ⟨t', ht', hbecome, -⟩ := getElem?_call c h
  cases c with
  | build settings plan source =>
    have hsame : t' = t := hbecome.resolve_right (by
      rintro ⟨_, hc, -⟩
      cases hc)
    rw [ht', hsame]
    rfl
  | pipe reads msg =>
    by_cases htopic : reads = topic
    · subst htopic
      have hfront := hreach rfl
      simp only [Call.message?, if_pos]
      exact getElem?_deliver_of_reaches h hfront
    · simp only [Call.message?, if_neg htopic]
      have hsame : t' = t := hbecome.resolve_right (by
        rintro ⟨_, hc, -⟩
        cases hc
        exact htopic rfl)
      rw [ht', hsame]
      rfl

/-- **What a run makes of a table** if no record of its topic fails in front of it: the table has
taken all of them, one after the other, and nothing else. -/
theorem getElem?_after {calls : List Call} (h : s.tables[i]? = some (topic, t))
    (hreach : s.AllReach topic i calls) :
    (s.after calls).tables[i]?
      = some (topic, t.afterAll (calls.filterMap (Call.message? topic))) := by
  induction calls generalizing s t with
  | nil => exact h
  | cons c calls ih =>
    have hrest := ih (getElem?_call_of_reaches h hreach.1) hreach.2
    rw [show s.after (c :: calls) = (s.call c).1.after calls from rfl, hrest]
    cases hmsg : c.message? topic <;> simp [Table.afterAll, hmsg]

/-- Nothing stands in front of the first table. -/
theorem allReach_zero (s : Streams) (calls : List Call) : s.AllReach topic 0 calls := by
  induction calls generalizing s with
  | nil => trivial
  | cons c calls ih =>
    refine ⟨?_, ih _⟩
    cases c with
    | build => trivial
    | pipe reads msg =>
      intro _
      simp [inFrontOf, pipe, deliver]

/-! ## Tables that were built -/

variable {streams : Streams} {settings : Settings} {plan : Plan} {source : TableSource}
  {built : BuiltTable}

/-- **A table that was built is what it would be if it were alone**: built in streams without any
other table, and given the records of its topic that came after it was built, in their order.  The
other tables may be of the same topic, the same step of the plan and the same name of a store, and
records may fail in them or in the table itself, as long as none fails in front of it. -/
theorem table?_eq_alone (hbuild : (streams.build settings plan source).2 = .ok built)
    (calls : List Call)
    (hreach : (streams.build settings plan source).1.AllReach source.topic built.index calls) :
    ∃ t, ((streams.build settings plan source).1.after calls).table? built.index = some t ∧
      ((empty.build settings plan source).1.after
        ((calls.filterMap (Call.message? source.topic)).map (.pipe source.topic))).table? 0
        = some t := by
  obtain ⟨t, -, hindex, hregister⟩ := table_of_build hbuild
  have hamong : (streams.build settings plan source).1.tables[built.index]?
      = some (source.topic, t) := by
    simp [hregister, register, hindex]
  have halone : (empty.build settings plan source).1.tables[0]? = some (source.topic, t) := by
    simp [hregister, register, empty]
  have hsame : ((calls.filterMap (Call.message? source.topic)).map
      (Call.pipe source.topic)).filterMap (Call.message? source.topic)
        = calls.filterMap (Call.message? source.topic) := by
    simp [List.filterMap_map, Function.comp_def, Call.message?]
  refine ⟨_, by rw [table?, getElem?_after hamong hreach]; rfl, ?_⟩
  rw [table?, getElem?_after halone (allReach_zero _ _), hsame]
  rfl

end Streams

/-! ## Clicks behind other clicks -/

namespace Clicks

/-- The same topic without windows, which has a store of the same name. -/
def plainSource : TableSource := { source with window := none }

/-- A click with a window. -/
def windowedMessage : Message :=
  { message with metadata := { message.metadata with window := some ⟨0, 60000⟩ } }

/-- Two clicks, and in between the table of prices is built and gets a price. -/
def mixedCalls : List Streams.Call :=
  [.pipe "clicks" message, .build {} ⟨[]⟩ { source with topic := "prices" },
    .pipe "prices" windowedMessage, .pipe "clicks" windowedMessage]

end Clicks

open Clicks in
/-- The first of two clicks fails in the table of clicks, and not in the table in front of it. -/
theorem Streams.table?_eq_alone_clicks :
    ∃ t, (((empty.build {} ⟨[]⟩ plainSource).1.build {} ⟨[]⟩ source).1.after mixedCalls).table? 1
        = some t ∧
      ((empty.build {} ⟨[]⟩ source).1.after
        [.pipe "clicks" message, .pipe "clicks" windowedMessage]).table? 0 = some t := by
  obtain ⟨built, hbuilt, hindex⟩ : ∃ built ∈
      ((empty.build {} ⟨[]⟩ plainSource).1.build {} ⟨[]⟩ source).2.toOption, built.index = 1 := by
    decide +kernel
  rw [Option.mem_def, Except.toOption_eq_some_iff] at hbuilt
  have hreach : ((empty.build {} ⟨[]⟩ plainSource).1.build {} ⟨[]⟩ source).1.AllReach "clicks" 1
      mixedCalls := by decide +kernel
  obtain ⟨t, ht, halone⟩ := table?_eq_alone hbuilt mixedCalls (hindex ▸ hreach)
  exact ⟨t, hindex ▸ ht, halone⟩

end StreamTables
