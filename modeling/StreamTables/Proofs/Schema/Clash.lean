import StreamTables.Proofs.Schema.Serving

/-!
# Which column is in the way

A schema that cannot be served has a key column of a name that the system uses itself, and the error
says which.  Columns are appended in three turns, each behind the last: the pseudocolumns, the key
and the window bounds.  The pseudocolumns always find their names free.  The key stops at its first
column that is named like one of these.  If there is none, the window bounds stop at the first of
them that is named like a key column.

## What is here

* `Schema.clash?`: the column that is in the way.
* `Schema.served_eq_error_iff`: a schema is served unless there is one, and it is the one that is
  reported.
* `Schema.addAll_storedColumns`: nothing is in the way of the columns of a store.
* `Schema.served_exact`: what the rebuilds for serving and for a store come to.
-/

set_option autoImplicit false

namespace StreamTables
namespace Schema

variable {s t : Schema} {v : Version} {windowed : Bool} {fs gs : List Field} {f : Field}

/-- The first key column that is named like a pseudocolumn. -/
def pseudoClash? (s : Schema) (v : Version) : Option Field :=
  s.key.find? fun f => v.isPseudoColumn f.name

/-- The first window bound that is named like a key column. -/
def boundClash? (s : Schema) : Option Field :=
  (SystemColumn.windowBounds.find? fun c => s.isKey c.name).map SystemColumn.field

/-- The column that is in the way of serving a schema: a key column if there is any, or else a
window bound. -/
def clash? (s : Schema) (windowed : Bool) (v : Version) : Option Field :=
  match s.pseudoClash? v with
  | some f => some f
  | none => if windowed then s.boundClash? else none

/-! ## The error -/

theorem mem_map_name_of_isPseudoColumn {name : String} (h : v.isPseudoColumn name = true) :
    name ∈ (v.columns.map SystemColumn.field).map Field.name := by
  obtain ⟨c, hc, hname⟩ := List.any_eq_true.1 h
  exact List.mem_map.2 ⟨c.field, List.mem_map_of_mem hc, of_decide_eq_true hname⟩

theorem mem_map_name_of_isKey {name : String} (h : s.isKey name = true) :
    name ∈ s.key.map Field.name := by
  obtain ⟨f, hf, hname⟩ := List.any_eq_true.1 h
  exact List.mem_map.2 ⟨f, hf, of_decide_eq_true hname⟩

theorem ne_of_isPseudoColumn_eq_false {name : String} (h : v.isPseudoColumn name = false) :
    ∀ c ∈ v.columns, c.name ≠ name := fun c hc =>
  of_decide_eq_false (Bool.eq_false_iff.2 (List.any_eq_false.1 h c hc))

/-- Serving stops at the first field whose name is that of a field in front of it.  The genuine
fields need not be looked at. -/
theorem served_eq_error_of_append (h : s.servedFields windowed v = fs ++ f :: gs)
    (hnodup : (fs.map Field.name).Nodup) (taken : f.name ∈ fs.map Field.name) :
    s.served windowed v = .error (.duplicateColumn .value f.name f.type) := by
  have hfs : ∀ g ∈ fs, s.isGenuine v g.name = false := fun g hg =>
    isGenuine_eq_false_of_mem_servedFields g (h ▸ List.mem_append_left _ hg)
  rw [served_eq, h]
  refine addAll_eq_error (nodup_genuine_append hnodup hfs) ?_
  rw [List.map_append]
  exact List.mem_append_right _ taken

theorem served_eq_error_of_pseudoClash? (h : s.pseudoClash? v = some f) :
    s.served windowed v = .error (.duplicateColumn .value f.name f.type) := by
  obtain ⟨hf, before, after, hkey, hbefore⟩ := List.find?_eq_some_iff_append.1 h
  have hfields : s.servedFields windowed v = (v.columns.map SystemColumn.field ++ before) ++ f ::
      (after ++ if windowed then SystemColumn.windowBounds.map SystemColumn.field else []) := by
    rw [servedFields, hkey, List.append_assoc, List.append_assoc, List.append_assoc,
      List.cons_append]
  refine served_eq_error_of_append hfields ?_ ?_
  · -- The key columns in front of the clash are not named like pseudocolumns, as it is the first.
    have hnodup : (before.map Field.name).Nodup := by
      refine s.nodup_key.sublist (List.Sublist.map Field.name ?_)
      exact hkey ▸ List.sublist_append_left before (f :: after)
    refine (nodup_system_append_iff v.nodup_names_columns hnodup).2 fun c hc g hg => ?_
    exact ne_of_isPseudoColumn_eq_false (Bool.not_eq_true' _ ▸ hbefore g hg) c hc
  · rw [List.map_append]
    exact List.mem_append_left _ (mem_map_name_of_isPseudoColumn hf)

theorem served_eq_error_of_boundClash? (hnone : s.pseudoClash? v = none)
    (h : s.boundClash? = some f) :
    s.served true v = .error (.duplicateColumn .value f.name f.type) := by
  obtain ⟨c, hfind, rfl⟩ := Option.map_eq_some_iff.1 h
  obtain ⟨hc, before, after, hbounds, hbefore⟩ := List.find?_eq_some_iff_append.1 hfind
  have hfields : s.servedFields true v = (v.columns.map SystemColumn.field ++ s.key ++
      before.map SystemColumn.field) ++ c.field :: after.map SystemColumn.field := by
    rw [servedFields, if_pos rfl, hbounds, List.map_append, List.map_cons,
      List.append_assoc _ (before.map _)]
  refine served_eq_error_of_append hfields ?_ ?_
  · -- The bounds in front of the clash stand apart from the key, as the pseudocolumns do.
    have hperm : (v.columns.map SystemColumn.field ++ s.key ++ before.map SystemColumn.field).Perm
        ((v.columns ++ before).map SystemColumn.field ++ s.key) := by
      rw [List.map_append, List.append_assoc, List.append_assoc]
      exact List.perm_append_comm.append_left _
    have hnodup : ((v.columns ++ before).map SystemColumn.name).Nodup := by
      refine (v.nodup_names_servedColumns true).sublist (List.Sublist.map _ ?_)
      rw [Version.servedColumns, if_pos rfl, hbounds]
      exact (List.sublist_append_left before _).append_left _
    rw [(hperm.map Field.name).nodup_iff, nodup_system_append_iff hnodup s.nodup_key]
    intro d hd g hg
    rcases List.mem_append.1 hd with hd | hd
    · have hpseudo := Bool.eq_false_iff.2 (List.find?_eq_none.1 hnone g hg)
      exact ne_of_isPseudoColumn_eq_false hpseudo d hd
    · exact isKey_eq_false_iff.1 (Bool.not_eq_true' _ ▸ hbefore d hd) g hg
  · rw [List.map_append, List.map_append]
    exact List.mem_append_left _ (List.mem_append_right _ (mem_map_name_of_isKey hc))

theorem served_eq_error_of_clash? (h : s.clash? windowed v = some f) :
    s.served windowed v = .error (.duplicateColumn .value f.name f.type) := by
  rw [clash?] at h
  split at h
  · next hpseudo =>
    cases h
    exact served_eq_error_of_pseudoClash? hpseudo
  · next hnone =>
    cases windowed with
    | false => exact nomatch h
    | true => exact served_eq_error_of_boundClash? hnone h

/-! ## Success -/

theorem pseudoClash?_eq_none_iff :
    s.pseudoClash? v = none ↔ ∀ c ∈ v.columns, s.isKey c.name = false := by
  simp only [pseudoClash?, List.find?_eq_none, Bool.not_eq_true, Version.isPseudoColumn,
    List.any_eq_false, decide_eq_true_eq, isKey_eq_false_iff]
  exact ⟨fun h c hc f hf => h f hf c hc, fun h f hf c hc => h c hc f hf⟩

theorem boundClash?_eq_none_iff :
    s.boundClash? = none ↔ ∀ c ∈ SystemColumn.windowBounds, s.isKey c.name = false := by
  simp only [boundClash?, Option.map_eq_none_iff, List.find?_eq_none, Bool.not_eq_true]

theorem clash?_eq_none_iff :
    s.clash? windowed v = none ↔ ∀ c ∈ v.servedColumns windowed, s.isKey c.name = false := by
  rw [Version.servedColumns, List.forall_mem_append, ← pseudoClash?_eq_none_iff, clash?]
  cases s.pseudoClash? v with
  | some f => simp
  | none =>
    cases windowed with
    | false => simp
    | true => simp [boundClash?_eq_none_iff]

/-- **A schema can be served if no column is in the way**, and only then. -/
theorem exists_served_iff_clash? :
    (∃ t, s.served windowed v = .ok t) ↔ s.clash? windowed v = none :=
  exists_served_iff.trans clash?_eq_none_iff.symm

/-- **The column in the way is the one that is reported.** -/
theorem served_eq_error_iff {e : Error} :
    s.served windowed v = .error e ↔
      ∃ f, s.clash? windowed v = some f ∧ e = .duplicateColumn .value f.name f.type := by
  constructor
  · intro h
    cases hclash : s.clash? windowed v with
    | none =>
      obtain ⟨t, ht⟩ := exists_served_iff_clash?.2 hclash
      exact nomatch h.symm.trans ht
    | some f =>
      rw [served_eq_error_of_clash? hclash] at h
      exact ⟨f, rfl, (Except.error.inj h).symm⟩
  · rintro ⟨f, hf, rfl⟩
    exact served_eq_error_of_clash? hf

/-- A schema can be served if the key avoids the names of the pseudocolumns, and those of the window
bounds if there are windows. -/
theorem exists_served_iff_names :
    (∃ t, s.served windowed v = .ok t) ↔
      (∀ f ∈ s.key, f.name ∉ v.columns.map SystemColumn.name) ∧
        (windowed = true → ∀ f ∈ s.key, f.name ≠ "WINDOWSTART" ∧ f.name ≠ "WINDOWEND") := by
  rw [exists_served_iff, Version.servedColumns, List.forall_mem_append]
  refine and_congr ?_ ?_
  · simp only [isKey_eq_false_iff, List.mem_map, not_exists, not_and]
    exact ⟨fun h f hf c hc => h c hc f hf, fun h c hc f hf => h f hf c hc⟩
  · cases windowed with
    | false => simp
    | true =>
      simp only [if_true, SystemColumn.windowBounds, SystemColumn.name, List.forall_mem_cons,
        isKey_eq_false_iff, forall_const, ne_comm]
      constructor
      · rintro ⟨hstart, hend, -⟩ f hf
        exact ⟨hstart f hf, hend f hf⟩
      · exact fun h => ⟨fun f hf => (h f hf).1, fun f hf => (h f hf).2, List.forall_mem_nil _⟩

/-! ## Stores -/

/-- **The columns of a store are appended to the genuine ones**, and nothing is in their way. -/
theorem addAll_storedColumns (s : Schema) (v : Version) :
    (s.genuine v).addAll .value (v.storedColumns.map SystemColumn.field) = .ok (s.stored v) := by
  refine addAll_eq_of_fields rfl fun other h => ?_
  cases other with
  | key => rfl
  | value => exact absurd rfl h

/-- The names that a genuine column avoids. -/
theorem isGenuine_iff_names {name : String} :
    s.isGenuine v name = true ↔
      name ∉ v.systemColumns.map SystemColumn.name ∧ name ∉ s.key.map Field.name := by
  rw [isGenuine, Version.isSystemColumn, isKey]
  simp

/-- Which value columns are genuine, by the names that are not. -/
theorem value_genuine_eq_filter (s : Schema) (v : Version) :
    (s.genuine v).value = s.value.filter fun f =>
      f.name ∉ v.systemColumns.map SystemColumn.name ∧ f.name ∉ s.key.map Field.name := by
  refine List.filter_congr fun f _ => ?_
  rw [Bool.eq_iff_iff, isGenuine_iff_names, decide_eq_true_eq]

/-! ## The rebuilds, exactly -/

/-- **What serving a schema comes to.**  It succeeds if the key avoids the names that are put around
it.  Then the key is what it was, and the value consists of the genuine columns, the pseudocolumns
with the types of their names, the key, and the window bounds if there are windows.  Otherwise the
column in the way is reported, of its own type if it is one of the key.  Nothing is ever in the way
of the columns of a store, which are the genuine ones and the pseudocolumns but the timestamp. -/
theorem served_exact (s : Schema) (windowed : Bool) (v : Version) :
    ((∃ t, s.served windowed v = .ok t) ↔
      (∀ f ∈ s.key, f.name ∉ v.columns.map SystemColumn.name) ∧
        (windowed = true → ∀ f ∈ s.key, f.name ≠ "WINDOWSTART" ∧ f.name ≠ "WINDOWEND")) ∧
    (∀ t, s.served windowed v = .ok t → t.key = s.key ∧
      t.value = (s.value.filter fun f =>
          f.name ∉ v.systemColumns.map SystemColumn.name ∧ f.name ∉ s.key.map Field.name)
        ++ v.columns.map SystemColumn.field ++ s.key
        ++ if windowed then
            [⟨"WINDOWSTART", .primitive .bigint⟩, ⟨"WINDOWEND", .primitive .bigint⟩]
          else []) ∧
    (∀ e, s.served windowed v = .error e ↔
      ∃ f, s.clash? windowed v = some f ∧ e = .duplicateColumn .value f.name f.type) ∧
    (∀ e, s.served windowed v = .error e → e.code = "SCHEMA_001") ∧
    (s.genuine v).addAll .value (v.storedColumns.map SystemColumn.field) = .ok (s.stored v) ∧
    (s.stored v).key = s.key ∧
    (s.stored v).value = (s.value.filter fun f =>
        f.name ∉ v.systemColumns.map SystemColumn.name ∧ f.name ∉ s.key.map Field.name)
      ++ (v.columns.filter (· ≠ .rowTime)).map SystemColumn.field ∧
    ∀ c ∈ v.columns, (SystemColumn.ofName? c.name).map SystemColumn.type = some c.type := by
  refine ⟨exists_served_iff_names, fun t ht => ?_, fun e => served_eq_error_iff, fun e he => ?_,
    s.addAll_storedColumns v, rfl, ?_, fun c _ => ?_⟩
  · rw [← value_genuine_eq_filter]
    exact of_served ht
  · obtain ⟨f, -, rfl⟩ := served_eq_error_iff.1 he
    rfl
  · rw [← value_genuine_eq_filter, ← Version.storedColumns_eq_filter]
    rfl
  · rw [SystemColumn.ofName?_name]
    rfl

/-- Visits to pages, by a user and two columns that are named like system columns. -/
def visits : Schema where
  key := [⟨"USER", .primitive .string⟩, ⟨"WINDOWEND", .primitive .date⟩,
    ⟨"ROWOFFSET", .primitive .integer⟩]
  value := [⟨"WINDOWSTART", .primitive .date⟩, ⟨"PAGE", .primitive .string⟩,
    ⟨"USER", .primitive .string⟩, ⟨"ROWPARTITION", .primitive .double⟩]
  nodup_key := by simp
  nodup_value := by simp

/-- Under the first version visits are served as long as they have no windows.  Under the current
one the offset is in the way, which comes after the window bound in the key. -/
theorem served_exact_visits :
    (∃ t, visits.served false .legacy = .ok t ∧ t.value =
      [⟨"PAGE", .primitive .string⟩, ⟨"ROWPARTITION", .primitive .double⟩,
        ⟨"ROWTIME", .primitive .bigint⟩] ++ visits.key) ∧
    visits.served true .legacy = .error (.duplicateColumn .value "WINDOWEND" (.primitive .bigint)) ∧
    visits.served true .current =
      .error (.duplicateColumn .value "ROWOFFSET" (.primitive .integer)) := by
  obtain ⟨hiff, hvalue, -⟩ := served_exact visits false .legacy
  obtain ⟨t, ht⟩ := hiff.2 ⟨by decide, nofun⟩
  obtain ⟨-, -, hlegacy, -⟩ := served_exact visits true .legacy
  obtain ⟨-, -, hcurrent, -⟩ := served_exact visits true .current
  refine ⟨⟨t, ht, (hvalue t ht).2.trans (by decide)⟩, (hlegacy _).2 ⟨⟨"WINDOWEND", _⟩, ?_, rfl⟩,
    (hcurrent _).2 ⟨⟨"ROWOFFSET", _⟩, ?_, rfl⟩⟩
  · decide
  · decide

end Schema
end StreamTables
