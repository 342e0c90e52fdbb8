import StreamTables.Proofs.Table.Process

/-!
# Runs

An application builds tables and pipes records, in any order.  Its tables share nothing but the
records that are piped to them, and a record that fails in one table does not reach those behind
it.  So of a run a single table sees some of the records of its topic, and if no pipe to the
topic failed, it sees all of them.

## What is here

* `Streams.Call`, `Streams.after`: what is asked of streams, one after the other.
* `Streams.AllPiped`: whether no pipe to a topic failed.
* `Streams.after_induction`: what a table keeps while it processes records, it keeps in every run.
* `Streams.forall_mem_after`: and what all tables keep, they have in every run.
* `Streams.processAll_of_allPiped`: a run without failing pipes to its topic is a run of the table.
-/

set_option autoImplicit false

namespace StreamTables

/-- A record as it is piped. -/
structure Message where
  key : ByteArray
  value : Option ByteArray
  metadata : RecordMetadata

/-- Whether a table processes all messages, one after the other, and becomes another in the end. -/
def Table.ProcessAll : Table → List Message → Table → Prop
  | t, [], t' => t = t'
  | t, msg :: msgs, t' =>
    ∃ u, t.process msg.key msg.value msg.metadata = (u, .ok ()) ∧ u.ProcessAll msgs t'

namespace Streams

/-- What may be asked of streams. -/
inductive Call where
  | build (settings : Settings) (plan : Plan) (source : TableSource)
  | pipe (topic : String) (message : Message)

/-- What becomes of streams if something is asked of them, and whether it was done. -/
def call (s : Streams) : Call → Streams × Except Error Unit
  | .build settings plan source =>
    ((s.build settings plan source).1, (s.build settings plan source).2.map fun _ => ())
  | .pipe topic msg => s.pipe topic msg.key msg.value msg.metadata

/-- Streams after calls, one after the other.  What fails may have changed something all the
same. -/
def after (s : Streams) (calls : List Call) : Streams := calls.foldl (fun s c => (s.call c).1) s

/-- The record of a call that pipes to a topic. -/
def Call.message? (topic : String) : Call → Option Message
  | .build .. => none
  | .pipe t msg => if t = topic then some msg else none

/-- Whether a call is not a pipe to a topic that fails. -/
def Call.Piped (topic : String) (s : Streams) : Call → Prop
  | .build .. => True
  | .pipe t msg => t = topic → (s.pipe t msg.key msg.value msg.metadata).2 = .ok ()

/-- Whether no pipe to a topic failed. -/
def AllPiped (topic : String) : Streams → List Call → Prop
  | _, [] => True
  | s, c :: calls => c.Piped topic s ∧ AllPiped topic (s.call c).1 calls

instance decidablePiped (topic : String) (s : Streams) : (c : Call) → Decidable (c.Piped topic s)
  | .build .. => .isTrue trivial
  | .pipe t msg =>
    inferInstanceAs
      (Decidable (t = topic → (s.pipe t msg.key msg.value msg.metadata).2 = .ok ()))

instance decidableAllPiped (topic : String) :
    (s : Streams) → (calls : List Call) → Decidable (s.AllPiped topic calls)
  | _, [] => .isTrue trivial
  | s, c :: calls =>
    have := decidableAllPiped topic (s.call c).1 calls
    inferInstanceAs (Decidable (c.Piped topic s ∧ AllPiped topic (s.call c).1 calls))

/-! ## One table among others -/

variable {topic : String} {msg : Message} {i : Nat} {reads : String} {t : Table}

/-- What a message may do to a table that reads `reads`, if it is delivered to `topic` with a
result: the table processes it, or it does not reach the table. -/
def MayBecome (reads topic : String) (msg : Message) (t t' : Table) (result : Except Error Unit) :
    Prop :=
  (t' = t ∨ reads = topic ∧ t' = (t.process msg.key msg.value msg.metadata).1) ∧
    (result = .ok () → reads = topic → t.process msg.key msg.value msg.metadata = (t', .ok ()))

/-- **What a delivery does to each table.** -/
theorem getElem?_deliver (topic : String) (msg : Message) {tables : List (String × Table)}
    (h : tables[i]? = some (reads, t)) :
    ∃ t', (deliver topic msg.key msg.value msg.metadata tables).1[i]? = some (reads, t') ∧
      MayBecome reads topic msg t t' (deliver topic msg.key msg.value msg.metadata tables).2 := by
  induction tables generalizing i with
  | nil => exact nomatch h
  | cons entry tables ih =>
    obtain ⟨reads₀, t₀⟩ := entry
    rw [deliver]
    split
    · next htopic =>
      rcases hprocess : t₀.process msg.key msg.value msg.metadata with ⟨t₀', e | _⟩
      · -- the record fails in this table, and does not reach those behind it
        cases i with
        | zero =>
          cases h
          exact ⟨t₀', rfl, .inr ⟨htopic, by rw [hprocess]⟩, fun hok => nomatch hok⟩
        | succ i => exact ⟨t, h, .inl rfl, fun hok => nomatch hok⟩
      · cases i with
        | zero =>
          cases h
          exact ⟨t₀', rfl, .inr ⟨htopic, by rw [hprocess]⟩, fun _ _ => hprocess⟩
        | succ i => exact ih h
    · next htopic =>
      cases i with
      | zero =>
        cases h
        exact ⟨t, rfl, .inl rfl, fun _ hreads => absurd hreads htopic⟩
      | succ i => exact ih h

/-- What holds of all tables, and is kept by each of the topic that processes a record, holds of all
tables after a delivery. -/
theorem forall_mem_deliver {P : String → Table → Prop}
    (hstep : ∀ t : Table, P topic t → P topic (t.process msg.key msg.value msg.metadata).1)
    {tables : List (String × Table)} (h : ∀ entry ∈ tables, P entry.1 entry.2) :
    ∀ entry ∈ (deliver topic msg.key msg.value msg.metadata tables).1, P entry.1 entry.2 := by
  induction tables with
  | nil => exact fun _ h => nomatch h
  | cons entry tables ih =>
    obtain ⟨reads, t⟩ := entry
    obtain ⟨ht, htables⟩ := List.forall_mem_cons.1 h
    rw [deliver]
    split
    · next htopic =>
      cases htopic
      have ht' := hstep t ht
      rcases hprocess : t.process msg.key msg.value msg.metadata with ⟨t', e | _⟩
      · rw [hprocess] at ht'
        exact List.forall_mem_cons.2 ⟨ht', htables⟩
      · rw [hprocess] at ht'
        exact List.forall_mem_cons.2 ⟨ht', ih htables⟩
    · exact List.forall_mem_cons.2 ⟨ht, ih htables⟩

/-- **A delivery fails with the error of a table of the topic.** -/
theorem exists_of_deliver_eq_error {tables : List (String × Table)} {e : Error}
    (h : (deliver topic msg.key msg.value msg.metadata tables).2 = .error e) :
    ∃ t, (topic, t) ∈ tables ∧ (t.process msg.key msg.value msg.metadata).2 = .error e := by
  induction tables with
  | nil => exact nomatch h
  | cons entry tables ih =>
    obtain ⟨reads, t⟩ := entry
    rw [deliver] at h
    split at h
    · next htopic =>
      cases htopic
      rcases hprocess : t.process msg.key msg.value msg.metadata with ⟨t', e' | _⟩
      · rw [hprocess] at h
        exact ⟨t, List.mem_cons_self .., (congrArg Prod.snd hprocess).trans h⟩
      · rw [hprocess] at h
        obtain ⟨u, hu, herror⟩ := ih h
        exact ⟨u, List.mem_cons_of_mem _ hu, herror⟩
    · obtain ⟨u, hu, herror⟩ := ih h
      exact ⟨u, List.mem_cons_of_mem _ hu, herror⟩

/-- What a call does to the table of a number. -/
theorem getElem?_call {s : Streams} (c : Call) (h : s.tables[i]? = some (reads, t)) :
    ∃ t', (s.call c).1.tables[i]? = some (reads, t') ∧
      (t' = t ∨ ∃ msg : Message, c = .pipe reads msg ∧
        t' = (t.process msg.key msg.value msg.metadata).1) ∧
      (c.Piped reads s →
        match c.message? reads with
        | some msg => t.process msg.key msg.value msg.metadata = (t', .ok ())
        | none => t' = t) := by
  cases c with
  | build settings plan source =>
    refine ⟨t, ?_, .inl rfl, fun _ => rfl⟩
    rw [call, build]
    split
    · exact h
    · rw [register, List.getElem?_append_left (List.getElem?_eq_some_iff.1 h).1]
      exact h
  | pipe topic msg =>
    obtain ⟨t', ht', hbecome, hpiped⟩ := getElem?_deliver topic msg h
    refine ⟨t', ht', hbecome.imp_right fun ⟨htopic, hb⟩ => ⟨msg, htopic ▸ rfl, hb⟩, fun hok => ?_⟩
    rw [Call.message?]
    by_cases htopic : topic = reads
    · rw [if_pos htopic]
      exact hpiped (hok htopic) htopic.symm
    · rw [if_neg htopic]
      exact hbecome.resolve_right fun h => htopic h.1.symm

/-- **What a table keeps while it processes the records of a run**, it keeps in that run. -/
theorem after_induction {P : Table → Prop} {s : Streams} {calls : List Call}
    (hstep : ∀ (t : Table) (msg : Message), .pipe reads msg ∈ calls → P t →
      P (t.process msg.key msg.value msg.metadata).1)
    (h : s.tables[i]? = some (reads, t)) (ht : P t) :
    ∃ t', (s.after calls).tables[i]? = some (reads, t') ∧ P t' := by
  induction calls generalizing s t with
  | nil => exact ⟨t, h, ht⟩
  | cons c calls ih =>
    obtain ⟨t', h', hbecome, -⟩ := getElem?_call c h
    refine ih (fun t msg hmsg => hstep t msg (List.mem_cons_of_mem _ hmsg)) h' ?_
    rcases hbecome with rfl | ⟨msg, rfl, rfl⟩
    · exact ht
    · exact hstep t msg (List.mem_cons_self ..) ht

/-- What one call keeps of what is true of all tables. -/
theorem forall_mem_call {P : String → Table → Prop} {s : Streams} {c : Call}
    (hbuild : ∀ settings plan source t, c = .build settings plan source →
      source.table plan = .ok t → P source.topic t)
    (hpipe : ∀ topic msg t, c = .pipe topic msg → P topic t →
      P topic (t.process msg.key msg.value msg.metadata).1)
    (h : ∀ entry ∈ s.tables, P entry.1 entry.2) :
    ∀ entry ∈ (s.call c).1.tables, P entry.1 entry.2 := by
  cases c with
  | build settings plan source =>
    rw [call, build]
    split
    · exact h
    · next t ht =>
      intro entry hentry
      rcases List.mem_append.1 hentry with hentry | hentry
      · exact h entry hentry
      · cases List.mem_singleton.1 hentry
        exact hbuild settings plan source t rfl ht
  | pipe topic msg => exact forall_mem_deliver (fun t => hpipe topic msg t rfl) h

/-- **What is true of all tables as they are registered**, and is kept by each that processes a
record of its topic, is true of all tables in every run, whether or not its calls fail. -/
theorem forall_mem_after {P : String → Table → Prop} {s : Streams} {calls : List Call}
    (hbuild : ∀ settings plan source t, .build settings plan source ∈ calls →
      source.table plan = .ok t → P source.topic t)
    (hpipe : ∀ topic msg t, .pipe topic msg ∈ calls → P topic t →
      P topic (t.process msg.key msg.value msg.metadata).1)
    (h : ∀ entry ∈ s.tables, P entry.1 entry.2) :
    ∀ entry ∈ (s.after calls).tables, P entry.1 entry.2 := by
  induction calls generalizing s with
  | nil => exact h
  | cons c calls ih =>
    refine ih (fun _ _ _ t hc => hbuild _ _ _ t (List.mem_cons_of_mem _ hc))
      (fun _ _ t hc => hpipe _ _ t (List.mem_cons_of_mem _ hc)) ?_
    refine forall_mem_call (fun settings plan source t hc => ?_) (fun topic msg t hc => ?_) h
    · exact hbuild settings plan source t (hc ▸ List.mem_cons_self ..)
    · exact hpipe topic msg t (hc ▸ List.mem_cons_self ..)

/-- **If no pipe to its topic fails, a table processes all records of the topic.** -/
theorem processAll_of_allPiped {s : Streams} (h : s.tables[i]? = some (reads, t))
    {calls : List Call} (hpiped : s.AllPiped reads calls) :
    ∃ t', (s.after calls).tables[i]? = some (reads, t') ∧
      t.ProcessAll (calls.filterMap (Call.message? reads)) t' := by
  induction calls generalizing s t with
  | nil => exact ⟨t, h, rfl⟩
  | cons c calls ih =>
    obtain ⟨u, hu, -, hdone⟩ := getElem?_call c h
    obtain ⟨t', ht', hall⟩ := ih hu hpiped.2
    refine ⟨t', ht', ?_⟩
    have hstep := hdone hpiped.1
    rw [List.filterMap_cons]
    cases hmsg : c.message? reads with
    | none =>
      rw [hmsg] at hstep
      cases hstep
      exact hall
    | some msg =>
      rw [hmsg] at hstep
      exact ⟨u, hstep, hall⟩

end Streams
end StreamTables
