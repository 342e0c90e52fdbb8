import StreamTables.Proofs.Schema.ColumnList

/-!
# Every schema is in order, however it was made

Schemas are made in many ways: a builder takes columns one by one or in bulk, a finished schema
goes back into a builder, it is rebuilt for a store or for serving, or it is read from a list of
columns or from JSON.  This file follows all of these operations, in any order and with any input,
once on schemas and once on plain lists of columns, to which the rebuilds append without asking
whether a name is taken.  The lists stay those of the schemas, and so the columns of whatever comes
out are in order.

## What is here

* `Columns.InOrder`: what it means for columns to be in order.
* `Schema.ofColumns_columns`: a schema is made again from its columns.
* `Schema.find?_eq_some_iff`: the one column that a name stands for.
* `Workbench.apply`, `Workbench.applyColumns`: what an operation does to schemas, and to lists of
  columns.  One that fails changes nothing.
* `Workbench.columns_apply`, `Workbench.runColumns_eq`: the lists stay those of the schemas.
* `Workbench.made_canonical`: the theorem for all lists that were made on the way.
-/

set_option autoImplicit false

namespace StreamTables

/-- Columns of a key and of a value are in order: each stands in its own namespace, at the place
that its index says, and under a name of its own. -/
structure Columns.InOrder (key value : List Column) : Prop where
  part_key : ∀ c ∈ key, c.part = .key
  part_value : ∀ c ∈ value, c.part = .value
  index_key : ∀ (i : Nat) (c : Column), key[i]? = some c → c.index = i
  index_value : ∀ (i : Nat) (c : Column), value[i]? = some c → c.index = i
  nodup_key : (key.map Column.name).Nodup
  nodup_value : (value.map Column.name).Nodup

namespace Schema

/-! ## The columns of a schema -/

theorem part_of_mem_place {part : Namespace} {index : Nat} {fs : List Field} {c : Column}
    (h : c ∈ place part index fs) : c.part = part := by
  obtain ⟨i, hi⟩ := List.mem_iff_getElem?.1 h
  rw [getElem?_place, Option.map_eq_some_iff] at hi
  obtain ⟨f, -, rfl⟩ := hi
  rfl

theorem index_of_getElem?_place {part : Namespace} {fs : List Field} {i : Nat} {c : Column}
    (h : (place part 0 fs)[i]? = some c) : c.index = i := by
  rw [getElem?_place, Option.map_eq_some_iff] at h
  obtain ⟨f, -, rfl⟩ := h
  exact Nat.zero_add i

theorem inOrder (s : Schema) : Columns.InOrder s.keyColumns s.valueColumns where
  part_key _ h := part_of_mem_place h
  part_value _ h := part_of_mem_place h
  index_key _ _ h := index_of_getElem?_place h
  index_value _ _ h := index_of_getElem?_place h
  nodup_key := by rw [keyColumns, map_name_place]; exact s.nodup_key
  nodup_value := by rw [valueColumns, map_name_place]; exact s.nodup_value

/-! ## Making a schema again from its columns -/

/-- The key of a schema is added to an empty one first, and then its value. -/
theorem addAll_key_value (s : Schema) :
    ∃ t, empty.addAll .key s.key = .ok t ∧ t.addAll .value s.value = .ok s := by
  refine ⟨⟨s.key, [], s.nodup_key, List.nodup_nil⟩, addAll_eq_of_fields rfl ?_,
    addAll_eq_of_fields rfl ?_⟩
  · intro other h
    cases other with
    | key => exact absurd rfl h
    | value => rfl
  · intro other h
    cases other with
    | key => rfl
    | value => exact absurd rfl h

theorem addColumns_key (s : Schema) (index : Nat) (fs : List Field) (cs : List Column) :
    addColumns false s (place .key index fs ++ cs)
      = (s.addAll .key fs).bind fun t => addColumns false t cs := by
  induction fs generalizing s index with
  | nil => rfl
  | cons f fs ih =>
    rw [place, List.cons_append, addColumns, addAll_cons]
    cases hadd : s.add .key f with
    | error e => simp only [Column.field, hadd]; rfl
    | ok t => simp only [Column.field, hadd]; exact ih t (index + 1)

theorem addColumns_value (inValue : Bool) (s : Schema) (index : Nat) (fs : List Field) :
    addColumns inValue s (place .value index fs) = s.addAll .value fs := by
  induction fs generalizing s inValue index with
  | nil => rw [place, addColumns, addAll_nil]
  | cons f fs ih =>
    rw [place, addColumns, addAll_cons]
    exact congrArg (Except.bind (s.add .value f)) (funext fun t => ih true t (index + 1))

/-- **The columns of a schema make that schema.** -/
theorem ofColumns_columns (s : Schema) : ofColumns s.columns = .ok s := by
  obtain ⟨t, hkey, hvalue⟩ := s.addAll_key_value
  have hadd : addColumns false empty s.columns = .ok s := by
    rw [columns, keyColumns, valueColumns, addColumns_key, hkey]
    exact (addColumns_value false t 0 s.value).trans hvalue
  rw [ofColumns, hadd]
  exact if_pos rfl

/-! ## Looking a name up -/

/-- Among columns with names of their own, the one that is found is the one there is. -/
theorem find?_name_eq_some_iff {cs : List Column} (h : (cs.map Column.name).Nodup) {name : String}
    {c : Column} : (cs.find? fun d => d.name = name) = some c ↔ c ∈ cs ∧ c.name = name := by
  induction cs with
  | nil => simp
  | cons d cs ih =>
    rw [List.map_cons, List.nodup_cons] at h
    by_cases hd : d.name = name
    · rw [List.find?_cons_of_pos (by simpa using hd), Option.some.injEq, List.mem_cons]
      refine ⟨fun hc => ⟨.inl hc.symm, hc ▸ hd⟩, fun ⟨hmem, hc⟩ => ?_⟩
      rcases hmem with rfl | hmem
      · rfl
      · exact absurd (List.mem_map.2 ⟨c, hmem, hc.trans hd.symm⟩) h.1
    · rw [List.find?_cons_of_neg (by simpa using hd), ih h.2, List.mem_cons]
      refine ⟨fun ⟨hmem, hc⟩ => ⟨.inr hmem, hc⟩, fun ⟨hmem, hc⟩ => ⟨?_, hc⟩⟩
      exact hmem.resolve_left fun hcd => hd (hcd ▸ hc)

/-- **A name stands for the key column of that name, or else for the value column.** -/
theorem find?_eq_some_iff (s : Schema) {name : String} {c : Column} :
    s.find? name = some c ↔ c.name = name ∧
      (c ∈ s.keyColumns ∨ c ∈ s.valueColumns ∧ ∀ k ∈ s.keyColumns, k.name ≠ name) := by
  rw [find?, columns, List.find?_append, Option.or_eq_some_iff,
    find?_name_eq_some_iff s.inOrder.nodup_key, find?_name_eq_some_iff s.inOrder.nodup_value,
    List.find?_eq_none]
  simp only [decide_eq_true_eq]
  constructor
  · rintro (⟨hmem, hc⟩ | ⟨hnone, hmem, hc⟩)
    · exact ⟨hc, .inl hmem⟩
    · exact ⟨hc, .inr ⟨hmem, hnone⟩⟩
  · rintro ⟨hc, hmem | ⟨hmem, hnone⟩⟩
    · exact .inl ⟨hmem, hc⟩
    · exact .inr ⟨hnone, hmem, hc⟩

end Schema

/-! ## Operations, one after the other -/

/-- An operation on a builder or on one of the schemas made so far, which go by their numbers. -/
inductive SchemaOperation where
  | newBuilder
  | add (part : Namespace) (name : String) (type : SqlType)
  /-- Only the names and types of the columns count. -/
  | addColumns (part : Namespace) (columns : List Column)
  | build
  | asBuilder (schema : Nat)
  | keyOnly (schema : Nat)
  | genuine (schema : Nat) (version : Version)
  | stored (schema : Nat) (version : Version)
  | served (schema : Nat) (windowed : Bool) (version : Version)
  | ofColumns (columns : List Column)
  | ofJson (text : String)

/-- A builder, and what was made so far. -/
structure Workbench (β σ : Type) where
  builder : β
  made : List σ

namespace Workbench

variable {β σ : Type}

/-- A builder takes the place of the old one, unless it could not be made. -/
def hold (w : Workbench β σ) (r : Except Error β) : Workbench β σ :=
  match r with
  | .ok b => { w with builder := b }
  | .error _ => w

/-- Something is put to what was made so far, unless it could not be made. -/
def keep (w : Workbench β σ) (r : Option σ) : Workbench β σ := { w with made := w.made ++ r.toList }

/-! ### Schemas -/

/-- What an operation does to schemas.  A schema is its own builder. -/
def apply (w : Workbench Schema Schema) : SchemaOperation → Workbench Schema Schema
  | .newBuilder => w.hold (.ok .empty)
  | .add part name type => w.hold (w.builder.add part ⟨name, type⟩)
  | .addColumns part columns => w.hold (w.builder.addAll part (columns.map Column.field))
  | .build => w.keep (some w.builder)
  | .asBuilder i =>
    match w.made[i]? with
    | some s => w.hold (.ok s)
    | none => w
  | .keyOnly i => w.keep (w.made[i]?.map Schema.keyOnly)
  | .genuine i v => w.keep (w.made[i]?.map fun s => s.genuine v)
  | .stored i v => w.keep (w.made[i]?.map fun s => s.stored v)
  | .served i windowed v => w.keep (w.made[i]?.bind fun s => (s.served windowed v).toOption)
  | .ofColumns columns => w.keep (Schema.ofColumns columns).toOption
  | .ofJson text => w.keep (Schema.decode.ofText text).toOption

/-- Operations on schemas, one after the other. -/
def run (ops : List SchemaOperation) : Workbench Schema Schema := ops.foldl apply ⟨.empty, []⟩

/-! ### Lists of columns -/

/-- What an operation does to lists of columns. -/
def applyColumns (w : Workbench ColumnBuilder ColumnList) :
    SchemaOperation → Workbench ColumnBuilder ColumnList
  | .newBuilder => w.hold (.ok .empty)
  | .add part name type => w.hold (w.builder.add part ⟨name, type⟩)
  | .addColumns part columns => w.hold (w.builder.addAll part (columns.map Column.field))
  | .build => w.keep (some w.builder.build)
  | .asBuilder i =>
    match w.made[i]? with
    | some l => w.hold (.ok l.asBuilder)
    | none => w
  | .keyOnly i => w.keep (w.made[i]?.map ColumnList.keyOnly)
  | .genuine i v => w.keep (w.made[i]?.map fun l => l.genuine v)
  | .stored i v => w.keep (w.made[i]?.map fun l => l.stored v)
  | .served i windowed v => w.keep (w.made[i]?.bind fun l => (l.served windowed v).toOption)
  | .ofColumns columns => w.keep (ColumnList.ofColumns columns).toOption
  | .ofJson text => w.keep (ColumnList.decode.ofText text).toOption

/-- Operations on lists of columns, one after the other. -/
def runColumns (ops : List SchemaOperation) : Workbench ColumnBuilder ColumnList :=
  ops.foldl applyColumns ⟨.empty, []⟩

/-! ### The lists stay those of the schemas -/

/-- The columns of what is on a workbench. -/
def columns (w : Workbench Schema Schema) : Workbench ColumnBuilder ColumnList :=
  ⟨w.builder.builder, w.made.map Schema.list⟩

theorem made_columns (w : Workbench Schema Schema) (i : Nat) :
    w.columns.made[i]? = w.made[i]?.map Schema.list :=
  List.getElem?_map

theorem columns_hold (w : Workbench Schema Schema) (r : Except Error Schema) :
    (w.hold r).columns = w.columns.hold (r.map Schema.builder) := by
  cases r <;> rfl

theorem columns_keep (w : Workbench Schema Schema) (r : Option Schema) :
    (w.keep r).columns = w.columns.keep (r.map Schema.list) := by
  have hmade : (w.made ++ r.toList).map Schema.list
      = w.made.map Schema.list ++ (r.map Schema.list).toList := by
    rw [List.map_append]
    cases r <;> rfl
  exact congrArg (Workbench.mk _) hmade

theorem toOption_map {ε α γ : Type} (x : Except ε α) (f : α → γ) :
    (x.map f).toOption = x.toOption.map f := by
  cases x <;> rfl

/-- A rebuild that cannot fail, of a schema that was made so far. -/
theorem columns_keep_rebuild (w : Workbench Schema Schema) (i : Nat) {f : Schema → Schema}
    {g : ColumnList → ColumnList} (h : ∀ s : Schema, g s.list = (f s).list) :
    (w.keep (w.made[i]?.map f)).columns = w.columns.keep (w.columns.made[i]?.map g) := by
  rw [columns_keep, made_columns, Option.map_map, Option.map_map]
  exact congrArg (fun k => keep _ (w.made[i]?.map k)) (funext fun s => (h s).symm)

/-- **Every operation does to the columns of schemas what it does to the schemas.** -/
theorem columns_apply (w : Workbench Schema Schema) (op : SchemaOperation) :
    (w.apply op).columns = w.columns.applyColumns op := by
  cases op with
  | newBuilder => rfl
  | add part name type =>
    rw [apply, columns_hold, applyColumns, columns, Schema.add_builder]
  | addColumns part columns =>
    rw [apply, columns_hold, applyColumns, Workbench.columns, Schema.addAll_builder]
  | build =>
    rw [apply, columns_keep, applyColumns, columns, Schema.build_builder, Option.map_some]
  | asBuilder i =>
    rw [apply, applyColumns, made_columns]
    cases w.made[i]? with
    | none => rfl
    | some s =>
      dsimp only [Option.map_some]
      rw [columns_hold, Schema.asBuilder_list]
      rfl
  | keyOnly i => exact columns_keep_rebuild w i Schema.keyOnly_list
  | genuine i v => exact columns_keep_rebuild w i fun s => s.genuine_list v
  | stored i v => exact columns_keep_rebuild w i fun s => s.stored_list v
  | served i windowed v =>
    rw [apply, columns_keep, applyColumns, made_columns]
    cases w.made[i]? with
    | none => rfl
    | some s =>
      dsimp only [Option.map_some, Option.bind_some]
      rw [Schema.served_list, toOption_map]
  | ofColumns columns =>
    rw [apply, columns_keep, applyColumns, Schema.ofColumns_list, toOption_map]
  | ofJson text =>
    rw [apply, columns_keep, applyColumns, Schema.ofText_decode_list, toOption_map]

/-- **The lists of columns after a run are those of the schemas after the run.** -/
theorem runColumns_eq (ops : List SchemaOperation) : runColumns ops = (run ops).columns := by
  have hstart : (⟨.empty, []⟩ : Workbench ColumnBuilder ColumnList)
      = columns ⟨Schema.empty, []⟩ := rfl
  rw [runColumns, hstart, run]
  exact List.foldl_hom columns fun w op => (columns_apply w op).symm

/-- A list of columns that operations make is that of a schema. -/
theorem exists_list_of_mem_made {ops : List SchemaOperation} {l : ColumnList}
    (h : l ∈ (runColumns ops).made) : ∃ s ∈ (run ops).made, s.list = l := by
  rw [runColumns_eq] at h
  exact List.mem_map.1 h

/-- **Every list of columns that operations make is in order**, and is that of the schema that they
make.  All key columns come before all value columns, each at its place and under a name of its
own; the columns make the same list again, in a builder and one by one; and a name stands for at
most one column, that of the key if there is one. -/
theorem made_canonical (ops : List SchemaOperation) {l : ColumnList}
    (h : l ∈ (runColumns ops).made) :
    (∃ s ∈ (run ops).made, s.list = l) ∧
      l.columns = l.key ++ l.value ∧
      Columns.InOrder l.key l.value ∧
      l.asBuilder.build = l ∧
      ColumnList.ofColumns l.columns = .ok l ∧
      ∀ name c, l.find? name = some c ↔ c.name = name ∧
        (c ∈ l.key ∨ c ∈ l.value ∧ ∀ k ∈ l.key, k.name ≠ name) := by
  rw [runColumns_eq] at h
  obtain ⟨s, hs, rfl⟩ := List.mem_map.1 h
  have hof : ColumnList.ofColumns s.columns = .ok s.list := by
    rw [Schema.ofColumns_list, s.ofColumns_columns]
    rfl
  have hbuild : s.list.asBuilder.build = s.list := by
    rw [Schema.asBuilder_list, Schema.build_builder]
  rw [Schema.key_list, Schema.value_list]
  exact ⟨⟨s, hs, rfl⟩, rfl, s.inOrder, hbuild, hof, fun _ _ => s.find?_eq_some_iff⟩

/-- A table whose value copies its key, rebuilt for serving: the copy moves behind the
pseudocolumns. -/
theorem made_canonical_served :
    ∃ l ∈ (runColumns [.add .value "id" (.primitive .integer), .add .key "id" (.primitive .integer),
        .add .value "name" (.primitive .string), .build, .served 0 true .current]).made,
      l.value.map Column.name =
        ["name", "ROWTIME", "ROWPARTITION", "ROWOFFSET", "id", "WINDOWSTART", "WINDOWEND"] ∧
      l.asBuilder.build = l ∧
      ∀ c, l.find? "id" = some c ↔ c.name = "id" ∧
        (c ∈ l.key ∨ c ∈ l.value ∧ ∀ k ∈ l.key, k.name ≠ "id") := by
  obtain ⟨l, hl, hnames⟩ : ∃ l ∈ (runColumns [.add .value "id" (.primitive .integer),
      .add .key "id" (.primitive .integer), .add .value "name" (.primitive .string), .build,
      .served 0 true .current]).made, l.value.map Column.name =
        ["name", "ROWTIME", "ROWPARTITION", "ROWOFFSET", "id", "WINDOWSTART", "WINDOWEND"] := by
    decide
  obtain ⟨-, -, -, hbuild, -, hfind⟩ := made_canonical _ hl
  exact ⟨l, hl, hnames, hbuild, hfind "id"⟩

end Workbench
end StreamTables
