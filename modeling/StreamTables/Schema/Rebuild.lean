import StreamTables.Schema.Basic

/-!
# Rebuilding schemas

A value column of a table is *genuine* if it is the user's own: neither a system column nor a copy
of a key column. The other layouts of a table are its genuine columns with columns behind them.

## What is here

* `Schema.genuine`: the genuine columns alone.
* `Schema.stored`: with the pseudocolumns that are stored. This is the layout of a store.
* `Schema.served`: with all pseudocolumns, the key and the window bounds. This is the layout of the
  rows that a table emits, and fails if the key has a column named like one of those in front of
  it or behind it.
* `Schema.keyOnly`: the key, and its copy in the value.
-/

set_option autoImplicit false

namespace StreamTables
namespace Schema

/-- Whether a name is neither that of a system column of the version nor that of a key column. -/
def isGenuine (s : Schema) (v : Version) (name : String) : Bool :=
  !(v.isSystemColumn name || s.isKey name)

/-- The schema with its genuine value columns only. -/
def genuine (s : Schema) (v : Version) : Schema where
  key := s.key
  value := s.value.filter fun f => s.isGenuine v f.name
  nodup_key := s.nodup_key
  nodup_value := s.nodup_value.sublist (List.filter_sublist.map Field.name)

theorem isGenuine_of_mem_genuine {s : Schema} {v : Version} {f : Field}
    (h : f ∈ (s.genuine v).value) : s.isGenuine v f.name = true :=
  (List.mem_filter.1 h).2

/-- No genuine column is named like a pseudocolumn that is stored. -/
theorem nodup_stored (s : Schema) (v : Version) :
    (((s.genuine v).value ++ v.storedColumns.map SystemColumn.field).map Field.name).Nodup := by
  rw [List.map_append, List.nodup_append]
  have hn : ((v.storedColumns.map SystemColumn.field).map Field.name).Nodup := by
    simpa [Function.comp_def, SystemColumn.field] using v.nodup_names_storedColumns
  refine ⟨(s.genuine v).nodup_value, hn, fun a ha b hb hab => ?_⟩
  obtain ⟨f, hf, rfl⟩ := List.mem_map.1 ha
  obtain ⟨g, hg, rfl⟩ := List.mem_map.1 hb
  obtain ⟨c, hc, rfl⟩ := List.mem_map.1 hg
  have h := isGenuine_of_mem_genuine hf
  rw [isGenuine, hab, SystemColumn.field, v.isSystemColumn_of_mem_storedColumns hc] at h
  simp at h

/-- The schema of stored rows: genuine value columns, then the pseudocolumns that are stored. -/
def stored (s : Schema) (v : Version) : Schema where
  key := s.key
  value := (s.genuine v).value ++ v.storedColumns.map SystemColumn.field
  nodup_key := s.nodup_key
  nodup_value := nodup_stored s v

/-- The schema of served rows: genuine value columns, pseudocolumns, key columns, and for windowed
tables the bounds of the window. -/
def served (s : Schema) (windowed : Bool) (v : Version) : Except Error Schema := do
  let t ← (s.genuine v).addAll .value (v.columns.map SystemColumn.field)
  let t ← t.addAll .value s.key
  if windowed then t.addAll .value (SystemColumn.windowBounds.map SystemColumn.field) else return t

/-- The schema whose value is a copy of the key. -/
def keyOnly (s : Schema) : Schema := ⟨s.key, s.key, s.nodup_key, s.nodup_key⟩

end Schema
end StreamTables
