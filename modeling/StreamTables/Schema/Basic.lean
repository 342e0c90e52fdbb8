import StreamTables.SystemColumn

/-!
# Schemas

A schema is the columns of a table: those of the key and those of the value. No name comes twice
within either of the two, and the type holds the proof of that, so no rebuild of a schema can lose
it. Where a column stands is not stored with it but is its place in the list.

## What is here

* `Field`, `Schema`: names with types, in order, for the key and for the value.
* `Schema.columns`: all columns with their places, the key first.
* `Schema.add`, `Schema.addAll`: appending columns, which fails on a name that is taken.
* `Schema.ofColumns`: the schema of a list of columns, if they are in order.
* `Schema.find?`, `findValue?`, `isKey`: looking names up. The key hides the value.
* `Schema.compatibleWith`: whether rows of another schema may stand in for those of this one.
-/

set_option autoImplicit false

namespace StreamTables

/-- A name with a type. -/
structure Field where
  name : String
  type : SqlType
  deriving DecidableEq

/-- The field of a system column. -/
def SystemColumn.field (c : SystemColumn) : Field := ⟨c.name, c.type⟩

/-- The field of a column, without its place. -/
def Column.field (c : Column) : Field := ⟨c.name, c.type⟩

/-- The columns of a table, in order. -/
structure Schema where
  key : List Field
  value : List Field
  /-- No name comes twice in the key. -/
  nodup_key : (key.map Field.name).Nodup
  /-- No name comes twice in the value. -/
  nodup_value : (value.map Field.name).Nodup
  deriving DecidableEq

/-- A schema is its two lists of fields. -/
theorem Schema.ext {s t : Schema} (hk : s.key = t.key) (hv : s.value = t.value) : s = t := by
  cases s
  cases t
  cases hk
  cases hv
  rfl

namespace Schema

/-- The schema without columns. -/
def empty : Schema := ⟨[], [], List.nodup_nil, List.nodup_nil⟩

/-- The fields of a namespace. -/
def fields (s : Schema) : Namespace → List Field
  | .key => s.key
  | .value => s.value

/-! ## Columns -/

/-- Fields with their places in a namespace, from an index on. -/
def place (part : Namespace) (index : Nat) : List Field → List Column
  | [] => []
  | f :: fs => ⟨f.name, f.type, part, index⟩ :: place part (index + 1) fs

/-- The columns of the key. -/
def keyColumns (s : Schema) : List Column := place .key 0 s.key

/-- The columns of the value. -/
def valueColumns (s : Schema) : List Column := place .value 0 s.value

/-- All columns, those of the key first. -/
def columns (s : Schema) : List Column := s.keyColumns ++ s.valueColumns

/-- How a schema is written. -/
def text (s : Schema) : String := Column.listText s.columns

/-! ## Appending columns -/

theorem nodup_append_field {fs : List Field} {f : Field} (h : (fs.map Field.name).Nodup)
    (hf : f.name ∉ fs.map Field.name) : ((fs ++ [f]).map Field.name).Nodup := by
  rw [List.map_append, List.nodup_append]
  refine ⟨h, by simp, fun a ha b hb hab => hf ?_⟩
  rw [List.map_singleton, List.mem_singleton] at hb
  exact hb ▸ hab ▸ ha

/-- A schema with one more field in a namespace, in which its name is not taken. -/
def append (s : Schema) (part : Namespace) (f : Field)
    (free : f.name ∉ (s.fields part).map Field.name) : Schema :=
  match part, free with
  | .key, free =>
    { s with key := s.key ++ [f], nodup_key := nodup_append_field s.nodup_key free }
  | .value, free =>
    { s with value := s.value ++ [f], nodup_value := nodup_append_field s.nodup_value free }

/-- Appends a field to a namespace, unless its name is taken there. -/
def add (part : Namespace) (s : Schema) (f : Field) : Except Error Schema :=
  if taken : f.name ∈ (s.fields part).map Field.name then
    .error (.duplicateColumn part f.name f.type)
  else .ok (s.append part f taken)

/-- Appends fields to a namespace in order, up to the first name that is taken. -/
def addAll (part : Namespace) (s : Schema) (fs : List Field) : Except Error Schema :=
  fs.foldlM (add part) s

/-! ## Lists of columns -/

/-- Appends columns to the namespaces they belong to. Once there are columns in the value, no
column may be added to the key. -/
def addColumns : (inValue : Bool) → Schema → List Column → Except Error Schema
  | _, s, [] => .ok s
  | inValue, s, c :: cs =>
    match c.part with
    | .key =>
      if inValue then .error (.internal (.keyAfterValue c.name))
      else do addColumns false (← s.add .key c.field) cs
    | .value => do addColumns true (← s.add .value c.field) cs

/-- The schema whose columns are given. The key comes first, no name comes twice in a namespace,
and the indexes are the places. -/
def ofColumns (cs : List Column) : Except Error Schema := do
  let s ← addColumns false empty cs
  if s.columns = cs then return s else throw (.internal (.sparseIndexes s.columns))

/-! ## Looking names up -/

/-- The first column of a name; one of the key, if there is any. -/
def find? (s : Schema) (name : String) : Option Column := s.columns.find? fun c => c.name = name

/-- The first column of the value of a name. -/
def findValue? (s : Schema) (name : String) : Option Column :=
  s.valueColumns.find? fun c => c.name = name

/-- Whether the key has a column of a name. -/
def isKey (s : Schema) (name : String) : Bool := s.key.any fun f => f.name = name

/-- Whether the value has a column of one of the names. -/
def valueHasAny (s : Schema) (names : List String) : Bool :=
  s.value.any fun f => names.contains f.name

/-! ## Compatibility -/

/-- Whether rows of another schema may stand in for rows of this one: the same names in the same
places, and every type of the other casts to the type here. -/
def compatibleWith (s other : Schema) : Bool :=
  s.columns.length = other.columns.length &&
    (s.columns.zip other.columns).all fun (a, b) => a.sameName b && b.type.castsTo a.type

/-! ## Columns and places -/

theorem length_place (part : Namespace) (index : Nat) (fs : List Field) :
    (place part index fs).length = fs.length := by
  induction fs generalizing index with
  | nil => rfl
  | cons f fs ih => simp [place, ih]

theorem map_field_place (part : Namespace) (index : Nat) (fs : List Field) :
    (place part index fs).map Column.field = fs := by
  induction fs generalizing index with
  | nil => rfl
  | cons f fs ih => simp [place, Column.field, ih]

/-- The index of a column is its place. -/
theorem getElem?_place (part : Namespace) (index i : Nat) (fs : List Field) :
    (place part index fs)[i]? = fs[i]?.map fun f => ⟨f.name, f.type, part, index + i⟩ := by
  induction fs generalizing index i with
  | nil => simp [place]
  | cons f fs ih =>
    cases i with
    | zero => simp [place]
    | succ i => simp [place, ih, Nat.add_comm, Nat.add_left_comm]

theorem place_append (part : Namespace) (index : Nat) (fs gs : List Field) :
    place part index (fs ++ gs) = place part index fs ++ place part (index + fs.length) gs := by
  induction fs generalizing index with
  | nil => simp [place]
  | cons f fs ih => simp [place, ih, Nat.add_comm, Nat.add_left_comm]

end Schema
end StreamTables
