import StreamTables.Proofs.Codec.Request
import StreamTables.Proofs.Source.Process
import StreamTables.Proofs.Streams.Run

/-!
# Tables that were built

## What is here

* `TableSource.exists_of_table`: what a source makes a table of.
* `Streams.exists_of_build`: a build that succeeds registers such a table.
* `Streams.table_of_build`: it depends on nothing that was built before it.
* `Streams.IsTable`: the tables that it may become in a run.
* `Streams.isTable_after`: it becomes no other.
-/

set_option autoImplicit false

namespace StreamTables

namespace TableSource

variable {s : TableSource} {plan : Plan} {codecs : Codecs} {store : Option Store}

theorem key_storedSchema (s : TableSource) : s.storedSchema.key = s.schema.key := by
  rw [storedSchema]
  split <;> rfl

/-- The codecs that are asked for are as wide as the schema. -/
theorem width_of_codecs {schema : Schema} {path : PlanPath} {cs : Codecs}
    (h : (s.requests schema path).codecs = .ok cs) :
    cs.key.width = schema.key.length ∧ cs.row.width = schema.value.length ∧ cs.IsProper := by
  obtain ⟨hkey, hrow⟩ := CodecRequests.codecs_eq_ok_iff.1 h
  obtain ⟨-, hwidth, hproper⟩ := CodecRequest.of_codec hkey
  obtain ⟨-, hwidth', hproper'⟩ := CodecRequest.of_codec hrow
  exact ⟨hwidth, hwidth', hproper, hproper'⟩

/-- The store that a source starts with. -/
theorem store_of_materialized? {store : Option Store}
    (h : ((s.materialized? plan).mapM fun r => do
      return Store.new s.storeName (← r.codecs)) = .ok store) :
    store.isSome = s.isStored plan ∧ ∀ st ∈ store, st.entries = .empty ∧ st.codecs.IsProper ∧
      st.codecs.key.width = s.schema.key.length ∧
      st.codecs.row.width = s.storedSchema.value.length := by
  rw [materialized?] at h
  split at h
  · next hstored =>
    obtain ⟨st, hst, hsome⟩ := Except.bind_eq_ok_iff.1 h
    cases hsome
    obtain ⟨cs, hcs, hst⟩ := Except.bind_eq_ok_iff.1 hst
    cases hst
    obtain ⟨hkey, hrow, hproper⟩ := width_of_codecs hcs
    rw [key_storedSchema] at hkey
    refine ⟨hstored.symm, fun st' hst' => ?_⟩
    cases hst'
    exact ⟨rfl, hproper, hkey, hrow⟩
  · next hstored =>
    cases h
    exact ⟨(Bool.eq_false_iff.2 hstored).symm, fun _ h => nomatch h⟩

/-- **What a source makes a table of**: codecs, and a store that holds nothing, if there is one. -/
theorem exists_of_table {t : Table} (h : s.table plan = .ok t) :
    ∃ codecs store, s.Opens plan codecs store ∧ (∀ st ∈ store, st.entries = .empty) ∧
      t = s.tableWith codecs store [] := by
  obtain ⟨codecs, hcodecs, h⟩ := Except.bind_eq_ok_iff.1 h
  obtain ⟨store, hstore, h⟩ := Except.bind_eq_ok_iff.1 h
  cases h
  obtain ⟨hkey, hrow, -⟩ := width_of_codecs hcodecs
  obtain ⟨hsome, hall⟩ := store_of_materialized? hstore
  refine ⟨codecs, store, ?_, fun st hst => (hall st hst).1, rfl⟩
  exact {
    codecs_eq := hcodecs
    width_key := hkey
    width_row := hrow
    isSome_store := hsome
    isProper := fun st hst => (hall st hst).2.1
    store_width_key := fun st hst => (hall st hst).2.2.1
    store_width_row := fun st hst => (hall st hst).2.2.2 }

end TableSource

/-! ## Builds -/

namespace Streams

variable {streams : Streams} {settings : Settings} {plan : Plan} {source : TableSource}
  {built : BuiltTable}

/-- **What a build that succeeds registers**, and what it says about it. -/
theorem exists_of_build (h : (streams.build settings plan source).2 = .ok built) :
    ∃ codecs store, source.Opens plan codecs store ∧ (∀ st ∈ store, st.entries = .empty) ∧
      (streams.build settings plan source).1.tables[built.index]?
        = some (source.topic, source.tableWith codecs store []) ∧
      source.emittedSchema = .ok built.schema := by
  rw [build] at h ⊢
  split at h
  · cases h
  · next t ht =>
    obtain ⟨codecs, store, hopens, hempty, rfl⟩ := TableSource.exists_of_table ht
    obtain ⟨schema, hschema, h⟩ := Except.bind_eq_ok_iff.1 h
    cases h
    refine ⟨codecs, store, hopens, hempty, ?_, hschema⟩
    dsimp only [register]
    rw [List.getElem?_concat_length]

/-- What a build registers depends on nothing that was built before it. -/
theorem table_of_build (h : (streams.build settings plan source).2 = .ok built) :
    ∃ t, source.table plan = .ok t ∧ built.index = streams.tables.length ∧
      ∀ s : Streams, (s.build settings plan source).1 = s.register source.topic t := by
  rw [build] at h
  split at h
  · cases h
  · next t ht =>
    obtain ⟨schema, -, h⟩ := Except.bind_eq_ok_iff.1 h
    refine ⟨t, ht, ?_, fun s => by rw [build, ht]⟩
    cases h
    rfl

/-! ## In every state -/

/-- Whether a row that was emitted is that of a record of a run, completed from what became of its
genuine cells. -/
def IsEmitted (source : TableSource) (plan : Plan) (codecs : Codecs) (calls : List Call) (k : Key)
    (r : Row) : Prop :=
  ∃ msg row g, .pipe source.topic msg ∈ calls ∧ codecs.key.decode msg.key = .ok k ∧
    msg.value.mapM codecs.row.decode = .ok (some row) ∧
    (source.isWindowed = true → msg.metadata.window.isSome = true) ∧
    Row.Restores (source.isStored plan)
      (source.schema.genuineCells source.projectedVersion row) g ∧
    r = source.completed k msg.metadata g

/-- A table that the table of a source may become in a run: it has the codecs and the stages of the
source, a store if the source has one, and has emitted no rows but those of records of the run. -/
def IsTable (source : TableSource) (plan : Plan) (codecs : Codecs) (calls : List Call) (t : Table) :
    Prop :=
  ∃ store output, source.Opens plan codecs store ∧ t = source.tableWith codecs store output ∧
    ∀ k r, (k, some r) ∈ output → IsEmitted source plan codecs calls k r

/-- **No record makes the table of a source anything else.** -/
theorem isTable_process {codecs : Codecs} {calls : List Call} {t : Table} {msg : Message}
    (hmsg : .pipe source.topic msg ∈ calls) (h : IsTable source plan codecs calls t) :
    IsTable source plan codecs calls (t.process msg.key msg.value msg.metadata).1 := by
  obtain ⟨store, output, hopens, rfl, hemitted⟩ := h
  cases hresult : ((source.tableWith codecs store output).process msg.key msg.value
      msg.metadata).2 with
  | error e =>
    obtain ⟨store', hopens', heq⟩ :=
      TableSource.exists_of_process_eq_error hopens (Prod.ext rfl hresult)
    exact ⟨store', output, hopens', heq, hemitted⟩
  | ok _ =>
    obtain ⟨k, row, out, hkey, hrow, heq, hout, -⟩ :=
      TableSource.of_process_eq_ok hopens (Prod.ext rfl hresult)
    have hopens' : source.Opens plan codecs (source.storeAfter store k msg.metadata row) :=
      hopens.map fun t => rfl
    refine ⟨_, _, hopens', heq, fun k' r hr => ?_⟩
    rcases List.mem_append.1 hr with hr | hr
    · exact hemitted k' r hr
    · cases List.mem_singleton.1 hr
      cases hout with
      | some hcompleted =>
        obtain ⟨g, hg, hwindow, rfl⟩ := hcompleted
        exact ⟨msg, _, g, hmsg, hkey, hrow, hwindow, hg, rfl⟩

/-- **A table that was built remains one of its source** in every run. -/
theorem isTable_after (h : (streams.build settings plan source).2 = .ok built) (calls : List Call)
    {t : Table}
    (ht : ((streams.build settings plan source).1.after calls).table? built.index = some t) :
    ∃ codecs, IsTable source plan codecs calls t := by
  obtain ⟨codecs, store, hopens, -, hregistered, -⟩ := exists_of_build h
  obtain ⟨t', ht', hstate⟩ := after_induction (P := IsTable source plan codecs calls)
    (fun _ msg hmsg hstep => isTable_process hmsg hstep) hregistered
    ⟨store, [], hopens, rfl, fun _ _ h => nomatch h⟩
  rw [table?, ht'] at ht
  cases ht
  exact ⟨codecs, hstate⟩

end Streams
end StreamTables
