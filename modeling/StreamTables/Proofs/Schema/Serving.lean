import StreamTables.Proofs.Schema.Append
import StreamTables.Proofs.SystemColumn.Growth

/-!
# Schemas that can be served

For serving, a schema is given columns behind its genuine ones: the pseudocolumns, the key, and the
window bounds if there are windows.  The genuine columns are never in the way of these.  The key may
be, if it has a column of a name that the system uses itself.

## What is here

* `Schema.nodup_genuine_append`: the genuine columns are in nobody's way.
* `Schema.servedFields`, `Schema.served_eq`, `Schema.of_served`: what is put behind the genuine
  columns, in order.
* `Schema.exists_served_iff`: the schemas that can be served.
* `Schema.exists_of_served_eq_error`: the error of those that cannot.
-/

set_option autoImplicit false

namespace StreamTables
namespace Schema

variable {s t : Schema} {v : Version} {windowed : Bool} {fs : List Field}

/-! ## Columns that are not genuine -/

theorem isGenuine_eq_false_of_isSystemColumn {name : String} (h : v.isSystemColumn name = true) :
    s.isGenuine v name = false := by
  rw [isGenuine, h]
  rfl

theorem isGenuine_eq_false_of_mem_key {f : Field} (h : f ∈ s.key) :
    s.isGenuine v f.name = false := by
  have hkey : s.isKey f.name = true := List.any_eq_true.2 ⟨f, h, decide_eq_true rfl⟩
  rw [isGenuine, hkey, Bool.or_true]
  rfl

/-- No field of a system column of a version is genuine under it. -/
theorem isGenuine_eq_false_of_mem_map {cs : List SystemColumn}
    (h : ∀ c ∈ cs, v.isSystemColumn c.name = true) :
    ∀ f ∈ cs.map SystemColumn.field, s.isGenuine v f.name = false := by
  intro f hf
  obtain ⟨c, hc, rfl⟩ := List.mem_map.1 hf
  exact isGenuine_eq_false_of_isSystemColumn (h c hc)

/-- **Fields that are not genuine can stand behind those that are.** -/
theorem nodup_genuine_append (h : (fs.map Field.name).Nodup)
    (hfs : ∀ f ∈ fs, s.isGenuine v f.name = false) :
    (((s.genuine v).value ++ fs).map Field.name).Nodup := by
  rw [List.map_append, List.nodup_append]
  refine ⟨(s.genuine v).nodup_value, h, fun a ha b hb hab => ?_⟩
  obtain ⟨f, hf, rfl⟩ := List.mem_map.1 ha
  obtain ⟨g, hg, rfl⟩ := List.mem_map.1 hb
  have hgenuine := isGenuine_of_mem_genuine hf
  rw [hab, hfs g hg] at hgenuine
  exact Bool.false_ne_true hgenuine

/-! ## Serving -/

/-- The fields that are put behind the genuine ones for serving, in order. -/
def servedFields (s : Schema) (windowed : Bool) (v : Version) : List Field :=
  v.columns.map SystemColumn.field ++ s.key
    ++ if windowed then SystemColumn.windowBounds.map SystemColumn.field else []

theorem served_eq (s : Schema) (windowed : Bool) (v : Version) :
    s.served windowed v = (s.genuine v).addAll .value (s.servedFields windowed v) := by
  rw [servedFields, addAll_append, addAll_append, bind_assoc, served]
  cases windowed <;> rfl

/-- No field that is put behind the genuine ones is genuine itself. -/
theorem isGenuine_eq_false_of_mem_servedFields :
    ∀ f ∈ s.servedFields windowed v, s.isGenuine v f.name = false := by
  rw [servedFields, List.forall_mem_append, List.forall_mem_append]
  refine ⟨⟨isGenuine_eq_false_of_mem_map fun _ hc => Version.isSystemColumn_of_mem_columns hc,
    fun _ hf => isGenuine_eq_false_of_mem_key hf⟩, ?_⟩
  split
  · exact isGenuine_eq_false_of_mem_map fun _ hc => Version.isSystemColumn_of_mem_windowBounds hc
  · exact List.forall_mem_nil _

/-- **The columns of a served schema**, in order. -/
theorem of_served (h : s.served windowed v = .ok t) :
    t.key = s.key ∧ t.value = (s.genuine v).value ++ v.columns.map SystemColumn.field ++ s.key
      ++ if windowed then SystemColumn.windowBounds.map SystemColumn.field else [] := by
  rw [served_eq] at h
  obtain ⟨hself, hother⟩ := fields_of_addAll h
  refine ⟨hother .key nofun, ?_⟩
  rw [List.append_assoc, List.append_assoc, ← List.append_assoc (v.columns.map _)]
  exact hself

/-- System columns can stand with the key if they are not named like one of its columns. -/
theorem nodup_system_append_iff {cs : List SystemColumn} (hcs : (cs.map SystemColumn.name).Nodup)
    (hfs : (fs.map Field.name).Nodup) :
    ((cs.map SystemColumn.field ++ fs).map Field.name).Nodup ↔
      ∀ c ∈ cs, ∀ f ∈ fs, c.name ≠ f.name := by
  rw [List.map_append, List.nodup_append, List.map_map]
  constructor
  · rintro ⟨-, -, hapart⟩ c hc f hf
    exact hapart c.name (List.mem_map_of_mem (f := SystemColumn.name) hc) f.name
      (List.mem_map_of_mem hf)
  · refine fun hapart => ⟨hcs, hfs, fun a ha b hb => ?_⟩
    obtain ⟨c, hc, rfl⟩ := List.mem_map.1 ha
    obtain ⟨f, hf, rfl⟩ := List.mem_map.1 hb
    exact hapart c hc f hf

theorem isKey_eq_false_iff {name : String} : s.isKey name = false ↔ ∀ f ∈ s.key, name ≠ f.name := by
  rw [isKey, List.any_eq_false]
  exact forall₂_congr fun _ _ => by rw [decide_eq_true_eq]; exact ne_comm

/-- The system columns that are served may be put in front of the key instead of around it. -/
theorem perm_servedFields (s : Schema) (windowed : Bool) (v : Version) :
    (s.servedFields windowed v).Perm
      ((v.servedColumns windowed).map SystemColumn.field ++ s.key) := by
  have hmap : (v.servedColumns windowed).map SystemColumn.field = v.columns.map SystemColumn.field
      ++ if windowed then SystemColumn.windowBounds.map SystemColumn.field else [] := by
    rw [Version.servedColumns, List.map_append]
    cases windowed <;> rfl
  rw [hmap, servedFields, List.append_assoc, List.append_assoc]
  exact List.perm_append_comm.append_left _

/-- **A schema can be served if its key has no column that is named like a system column which is
served**, and only then.  Genuine columns are not named like these in any case. -/
theorem exists_served_iff :
    (∃ t, s.served windowed v = .ok t) ↔
      ∀ c ∈ v.servedColumns windowed, s.isKey c.name = false := by
  have hapart : ((s.servedFields windowed v).map Field.name).Nodup ↔
      ∀ c ∈ v.servedColumns windowed, s.isKey c.name = false := by
    rw [((s.perm_servedFields windowed v).map Field.name).nodup_iff,
      nodup_system_append_iff (v.nodup_names_servedColumns windowed) s.nodup_key]
    simp only [isKey_eq_false_iff]
  rw [← hapart, served_eq]
  constructor
  · rintro ⟨t, ht⟩
    have hall := nodup_of_addAll ht
    rw [List.map_append] at hall
    exact (List.nodup_append.1 hall).2.1
  · intro h
    exact addAll_eq_ok (s := s.genuine v)
      (nodup_genuine_append h isGenuine_eq_false_of_mem_servedFields)

theorem exists_of_served_eq_error {e : Error}
    (h : s.served windowed v = .error e) :
    ∃ f : Field, e = .duplicateColumn .value f.name f.type := by
  rw [served_eq] at h
  obtain ⟨f, -, rfl⟩ := exists_of_addAll_eq_error h
  exact ⟨f, rfl⟩

end Schema
end StreamTables
