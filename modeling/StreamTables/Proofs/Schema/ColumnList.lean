import StreamTables.Proofs.Schema.Append
import StreamTables.Schema.Json

/-!
# Schemas as lists of columns

A `Schema` cannot have a name twice, and its columns have no indexes that could be wrong.  Where
schemas are passed around they are plain lists of columns, though: every column carries its index,
a number says how many of them belong to the key, and most of the rebuilds append to such lists
without asking whether a name is taken.  This file follows what happens to the lists.  Each
operation does to the columns of a schema what the operation of the same name does to the schema,
and it fails on the same occasions.

## What is here

* `ColumnBuilder`, `ColumnList`: columns with indexes, of which nothing else is known.
* `ColumnBuilder.push`, `ColumnBuilder.add`: appending a column, without and with a check.
* `ColumnList.asBuilder`, `keyOnly`, `genuine`, `stored`, `served`, `ofColumns`, `decode`: what is
  made of columns.
* `ColumnBuilder.ofFields`: whatever was pushed, the index of a column is its place.
* `Schema.builder`, `Schema.list`: the columns of a schema, and a lemma for each operation on them.
-/

set_option autoImplicit false

namespace StreamTables

/-! ## Builders -/

/-- Columns of the key and of the value, on their way to a list. -/
structure ColumnBuilder where
  key : List Column
  value : List Column

/-- The columns of a key and those of a value behind them. -/
structure ColumnList where
  columns : List Column
  /-- How many of the columns belong to the key. -/
  keyCount : Nat
  deriving DecidableEq

namespace ColumnBuilder

/-- A builder without columns. -/
def empty : ColumnBuilder := ⟨[], []⟩

/-- The columns of a namespace. -/
def columns (b : ColumnBuilder) : Namespace → List Column
  | .key => b.key
  | .value => b.value

/-- Appends a column to a namespace, whatever its name. -/
def push (part : Namespace) (b : ColumnBuilder) (f : Field) : ColumnBuilder :=
  match part with
  | .key => { b with key := b.key ++ [⟨f.name, f.type, .key, b.key.length⟩] }
  | .value => { b with value := b.value ++ [⟨f.name, f.type, .value, b.value.length⟩] }

/-- Appends columns to a namespace in order, whatever their names. -/
def pushAll (part : Namespace) (b : ColumnBuilder) (fs : List Field) : ColumnBuilder :=
  fs.foldl (push part) b

/-- Appends a column to a namespace, unless its name is taken there. -/
def add (part : Namespace) (b : ColumnBuilder) (f : Field) : Except Error ColumnBuilder :=
  if (b.columns part).any fun c => c.name = f.name then
    .error (.duplicateColumn part f.name f.type)
  else .ok (b.push part f)

/-- Appends columns to a namespace in order, up to the first name that is taken. -/
def addAll (part : Namespace) (b : ColumnBuilder) (fs : List Field) : Except Error ColumnBuilder :=
  fs.foldlM (add part) b

/-- Appends columns to the namespaces they belong to, none to the key once there are columns in the
value. -/
def addColumns : (inValue : Bool) → ColumnBuilder → List Column → Except Error ColumnBuilder
  | _, b, [] => .ok b
  | inValue, b, c :: cs =>
    match c.part with
    | .key =>
      if inValue then .error (.internal (.keyAfterValue c.name))
      else do addColumns false (← b.add .key c.field) cs
    | .value => do addColumns true (← b.add .value c.field) cs

/-- The list of the columns. -/
def build (b : ColumnBuilder) : ColumnList := ⟨b.key ++ b.value, b.key.length⟩

end ColumnBuilder

/-! ## Lists -/

namespace ColumnList

/-- The columns of the key. -/
def key (l : ColumnList) : List Column := l.columns.take l.keyCount

/-- The columns of the value. -/
def value (l : ColumnList) : List Column := l.columns.drop l.keyCount

/-- The first column of a name. -/
def find? (l : ColumnList) (name : String) : Option Column :=
  l.columns.find? fun c => c.name = name

/-- Whether the key has a column of a name. -/
def isKey (l : ColumnList) (name : String) : Bool := l.key.any fun c => c.name = name

/-- A builder with the columns of a list. -/
def asBuilder (l : ColumnList) : ColumnBuilder :=
  l.columns.foldl (fun b c => b.push c.part c.field) .empty

/-- A builder with the key of a list. -/
def keyBuilder (l : ColumnList) : ColumnBuilder :=
  ColumnBuilder.empty.pushAll .key (l.key.map Column.field)

/-- A builder with the key and the genuine columns of a list. -/
def genuineBuilder (l : ColumnList) (v : Version) : ColumnBuilder :=
  l.keyBuilder.pushAll .value
    ((l.value.filter fun c => !(v.isSystemColumn c.name || l.isKey c.name)).map Column.field)

/-- The key, and its copy in the value. -/
def keyOnly (l : ColumnList) : ColumnList :=
  (l.keyBuilder.pushAll .value (l.key.map Column.field)).build

/-- The key and the genuine columns. -/
def genuine (l : ColumnList) (v : Version) : ColumnList := (l.genuineBuilder v).build

/-- The key and the genuine columns, and the pseudocolumns that are stored. -/
def stored (l : ColumnList) (v : Version) : ColumnList :=
  ((l.genuineBuilder v).pushAll .value (v.storedColumns.map SystemColumn.field)).build

/-- The key and the genuine columns, all pseudocolumns, the key again and the window bounds. -/
def served (l : ColumnList) (windowed : Bool) (v : Version) : Except Error ColumnList := do
  let b ← (l.genuineBuilder v).addAll .value (v.columns.map SystemColumn.field)
  let b ← b.addAll .value (l.key.map Column.field)
  if windowed then
    return (← b.addAll .value (SystemColumn.windowBounds.map SystemColumn.field)).build
  else return b.build

/-- The list that columns make, if they are in order. -/
def ofColumns (cs : List Column) : Except Error ColumnList := do
  let b ← ColumnBuilder.empty.addColumns false cs
  if b.build.columns = cs then return b.build
  else throw (.internal (.sparseIndexes b.build.columns))

/-- Reads a list. -/
def decode : Decoder ColumnList := fun depth j => do
  let cs ← Json.decodeList Column.decode depth j
  (ofColumns cs).mapError .invalid

end ColumnList

/-! ## Indexes are places -/

namespace Schema

variable {part : Namespace} {index : Nat} {fs : List Field}

theorem map_name_place (part : Namespace) (index : Nat) (fs : List Field) :
    (place part index fs).map Column.name = fs.map Field.name := by
  rw [← congrArg (List.map Field.name) (map_field_place part index fs), List.map_map]
  rfl

theorem any_place (p : String → Bool) :
    (place part index fs).any (fun c => p c.name) = fs.any fun f => p f.name := by
  have h := congrArg (fun names => names.any p) (map_name_place part index fs)
  rw [List.any_map, List.any_map] at h
  exact h

theorem map_field_filter_place (p : String → Bool) :
    ((place part index fs).filter fun c => p c.name).map Column.field
      = fs.filter fun f => p f.name := by
  have h := congrArg (List.filter fun f => p f.name) (map_field_place part index fs)
  rw [List.filter_map] at h
  exact h

end Schema

namespace ColumnBuilder

open Schema

variable {part : Namespace} {key value : List Field}

/-- The builder of two lists of fields. -/
def ofFields (key value : List Field) : ColumnBuilder := ⟨place .key 0 key, place .value 0 value⟩

theorem ofFields_nil : ofFields [] [] = empty := rfl

theorem place_concat (part : Namespace) (fs : List Field) (f : Field) :
    place part 0 (fs ++ [f])
      = place part 0 fs ++ [⟨f.name, f.type, part, (place part 0 fs).length⟩] := by
  rw [place_append, length_place, Nat.zero_add]
  rfl

theorem push_key_ofFields (f : Field) :
    (ofFields key value).push .key f = ofFields (key ++ [f]) value :=
  congrArg (ColumnBuilder.mk · _) (place_concat .key key f).symm

theorem push_value_ofFields (f : Field) :
    (ofFields key value).push .value f = ofFields key (value ++ [f]) :=
  congrArg (ColumnBuilder.mk _) (place_concat .value value f).symm

/-- **However often columns are pushed, indexes are places.** -/
theorem pushAll_key_ofFields (fs : List Field) :
    (ofFields key value).pushAll .key fs = ofFields (key ++ fs) value := by
  induction fs generalizing key with
  | nil => rw [List.append_nil]; rfl
  | cons f fs ih =>
    rw [pushAll, List.foldl_cons, push_key_ofFields]
    exact (@ih (key ++ [f])).trans (by rw [List.append_assoc, List.singleton_append])

theorem pushAll_value_ofFields (fs : List Field) :
    (ofFields key value).pushAll .value fs = ofFields key (value ++ fs) := by
  induction fs generalizing value with
  | nil => rw [List.append_nil]; rfl
  | cons f fs ih =>
    rw [pushAll, List.foldl_cons, push_value_ofFields]
    exact (@ih (value ++ [f])).trans (by rw [List.append_assoc, List.singleton_append])

/-- Columns of one namespace are pushed in their order, and their indexes do not count. -/
theorem foldl_push_place (b : ColumnBuilder) (part : Namespace) (index : Nat) (fs : List Field) :
    (place part index fs).foldl (fun b c => b.push c.part c.field) b = b.pushAll part fs := by
  induction fs generalizing b index with
  | nil => rfl
  | cons f fs ih => exact ih (b.push part f) (index + 1)

end ColumnBuilder

/-! ## The columns of a schema -/

namespace Schema

open ColumnBuilder

variable {s : Schema}

/-- A builder with the columns of a schema. -/
def builder (s : Schema) : ColumnBuilder := .ofFields s.key s.value

/-- The list of the columns of a schema. -/
def list (s : Schema) : ColumnList := ⟨s.columns, s.key.length⟩

theorem build_builder (s : Schema) : s.builder.build = s.list :=
  congrArg (ColumnList.mk _) (length_place .key 0 s.key)

theorem key_list (s : Schema) : s.list.key = s.keyColumns := by
  rw [ColumnList.key, list, ← length_place .key 0 s.key]
  exact List.take_left

theorem value_list (s : Schema) : s.list.value = s.valueColumns := by
  rw [ColumnList.value, list, ← length_place .key 0 s.key]
  exact List.drop_left

theorem isKey_list (s : Schema) (name : String) : s.list.isKey name = s.isKey name := by
  rw [ColumnList.isKey, key_list]
  exact any_place fun n => n = name

/-! ### Adding with a check -/

theorem builder_append {part : Namespace} {f : Field}
    (free : f.name ∉ (s.fields part).map Field.name) :
    s.builder.push part f = (s.append part f free).builder := by
  cases part with
  | key => exact push_key_ofFields f
  | value => exact push_value_ofFields f

theorem add_builder (s : Schema) (part : Namespace) (f : Field) :
    s.builder.add part f = (s.add part f).map builder := by
  have htaken : (s.builder.columns part).any (fun c => c.name = f.name)
      = (s.fields part).any fun g => g.name = f.name := by
    cases part <;> exact any_place fun n => n = f.name
  rw [ColumnBuilder.add, htaken]
  by_cases taken : f.name ∈ (s.fields part).map Field.name
  · rw [add_eq_error taken, if_pos]
    · rfl
    · obtain ⟨g, hg, hname⟩ := List.mem_map.1 taken
      exact List.any_eq_true.2 ⟨g, hg, decide_eq_true hname⟩
  · rw [Schema.add, dif_neg taken, if_neg]
    · exact congrArg Except.ok (builder_append taken)
    · intro h
      obtain ⟨g, hg, hname⟩ := List.any_eq_true.1 h
      exact taken (List.mem_map.2 ⟨g, hg, of_decide_eq_true hname⟩)

theorem addAll_builder (s : Schema) (part : Namespace) (fs : List Field) :
    s.builder.addAll part fs = (s.addAll part fs).map builder := by
  induction fs generalizing s with
  | nil => rfl
  | cons f fs ih =>
    rw [ColumnBuilder.addAll, List.foldlM_cons, add_builder, addAll_cons]
    cases s.add part f with
    | error e => rfl
    | ok t => exact ih t

theorem addColumns_builder (s : Schema) (inValue : Bool) (cs : List Column) :
    s.builder.addColumns inValue cs = (addColumns inValue s cs).map builder := by
  induction cs generalizing s inValue with
  | nil => rfl
  | cons c cs ih =>
    rw [ColumnBuilder.addColumns, addColumns]
    cases c.part with
    | key =>
      cases inValue with
      | true => rfl
      | false =>
        dsimp only
        rw [add_builder]
        cases s.add .key c.field with
        | error e => rfl
        | ok t => exact ih t false
    | value =>
      dsimp only
      rw [add_builder]
      cases s.add .value c.field with
      | error e => rfl
      | ok t => exact ih t true

/-- **Columns that make a list make the schema of that list**, and others are refused alike. -/
theorem ofColumns_list (cs : List Column) :
    ColumnList.ofColumns cs = (ofColumns cs).map Schema.list := by
  have hempty : ColumnBuilder.empty = empty.builder := rfl
  rw [ColumnList.ofColumns, ofColumns, hempty, addColumns_builder]
  cases addColumns false empty cs with
  | error e => rfl
  | ok s =>
    have hcolumns : s.builder.build.columns = s.columns := by rw [build_builder]; rfl
    show (if s.builder.build.columns = cs then _ else _) = Except.map _ (if _ then _ else _)
    rw [hcolumns, build_builder]
    split <;> rfl

theorem decode_list (depth : Nat) (j : Json) :
    ColumnList.decode depth j = (decode depth j).map Schema.list := by
  rw [ColumnList.decode, decode]
  cases Json.decodeList Column.decode depth j with
  | error e => rfl
  | ok cs =>
    show (ColumnList.ofColumns cs).mapError _ = Except.map _ ((ofColumns cs).mapError _)
    rw [ofColumns_list]
    cases ofColumns cs <;> rfl

/-- A text of columns is read alike. -/
theorem ofText_decode_list (text : String) :
    ColumnList.decode.ofText text = (decode.ofText text).map Schema.list := by
  rw [Decoder.ofText, Decoder.ofText, decode_list]
  cases decode Decoder.maxDepth (Document.ofText text).tree with
  | error e => rfl
  | ok s =>
    show (if _ then _ else _) = Except.map _ (if _ then _ else _)
    split <;> rfl

/-! ### Appending without a check -/

/-- **A list goes back into a builder as it is.** -/
theorem asBuilder_list (s : Schema) : s.list.asBuilder = s.builder := by
  rw [ColumnList.asBuilder, list, columns, List.foldl_append, keyColumns, valueColumns,
    foldl_push_place, foldl_push_place, ← ofFields_nil, pushAll_key_ofFields,
    pushAll_value_ofFields]
  rfl

theorem keyBuilder_list (s : Schema) : s.list.keyBuilder = .ofFields s.key [] := by
  rw [ColumnList.keyBuilder, key_list, keyColumns, map_field_place, ← ofFields_nil,
    pushAll_key_ofFields]
  rfl

/-- The columns that are left out without a check are those that the schema leaves out. -/
theorem genuineBuilder_list (s : Schema) (v : Version) :
    s.list.genuineBuilder v = (s.genuine v).builder := by
  have hfields : ((s.valueColumns.filter
      fun c => !(v.isSystemColumn c.name || s.list.isKey c.name)).map Column.field)
        = (s.genuine v).value := by
    simp only [isKey_list]
    exact map_field_filter_place fun name => !(v.isSystemColumn name || s.isKey name)
  rw [ColumnList.genuineBuilder, keyBuilder_list, value_list, hfields]
  exact pushAll_value_ofFields (s.genuine v).value

theorem keyOnly_list (s : Schema) : s.list.keyOnly = s.keyOnly.list := by
  rw [ColumnList.keyOnly, keyBuilder_list, key_list, keyColumns, map_field_place,
    pushAll_value_ofFields]
  exact build_builder s.keyOnly

theorem genuine_list (s : Schema) (v : Version) : s.list.genuine v = (s.genuine v).list := by
  rw [ColumnList.genuine, genuineBuilder_list, build_builder]

/-- **The pseudocolumns that are stored are appended without a check**, and the schema with them
has no name twice. -/
theorem stored_list (s : Schema) (v : Version) : s.list.stored v = (s.stored v).list := by
  rw [ColumnList.stored, genuineBuilder_list, ← build_builder]
  exact congrArg build (pushAll_value_ofFields _)

theorem served_list (s : Schema) (windowed : Bool) (v : Version) :
    s.list.served windowed v = (s.served windowed v).map Schema.list := by
  rw [ColumnList.served, served, genuineBuilder_list, addAll_builder, key_list, keyColumns,
    map_field_place]
  cases (s.genuine v).addAll .value (v.columns.map SystemColumn.field) with
  | error e => rfl
  | ok t =>
    show (t.builder.addAll .value s.key).bind _ = Except.map _ ((t.addAll .value s.key).bind _)
    rw [addAll_builder]
    cases t.addAll .value s.key with
    | error e => rfl
    | ok u =>
      cases windowed with
      | false => exact congrArg Except.ok (build_builder u)
      | true =>
        show (u.builder.addAll .value _).bind _ = Except.map _ (u.addAll .value _)
        rw [addAll_builder]
        cases u.addAll .value (SystemColumn.windowBounds.map SystemColumn.field) with
        | error e => rfl
        | ok w => exact congrArg Except.ok (build_builder w)

end Schema
end StreamTables
