import StreamTables.Proofs.Schema.Rebuild
import StreamTables.Stage.Basic

/-!
# Rows are projected as schemas are

A schema is cut down to its genuine columns by a filter.  A row has no names, so its cells are
selected by places, and these are found by looking every column up, by its name, in the schema that
was cut down before.  The two come to the same, because no name comes twice: every column keeps the
cell that was read for it, and there is nothing to do for a row if there is nothing to do for the
schema.

## What is here

* `Schema.genuinePositions_sublist`: the places are some of those that there are, in order.
* `Schema.genuineCells_value`, `Schema.map_getElem?_genuinePositions`: what stands in these places
  are the genuine columns.
* `Schema.projection?_eq_none_iff`: there is no projection if all columns are genuine.
* `Schema.zip_genuineCells`: the genuine columns keep their cells.
* `Schema.projection?_exact`: all of this, and what the stage does to rows.
-/

set_option autoImplicit false

namespace StreamTables
namespace Schema

variable {α : Type} {s : Schema} {v : Version} {p : Projection}

/-! ## Places -/

/-- **The places of the genuine columns are some of those that there are, in order.** -/
theorem genuinePositions_sublist (s : Schema) (v : Version) :
    (s.genuinePositions v).Sublist (List.range s.value.length) := by
  have hplaces : s.value.zipIdx.map Prod.snd = List.range s.value.length :=
    (List.zipIdx_map_snd 0 s.value).trans List.range_eq_range'.symm
  rw [← hplaces]
  exact List.filter_sublist.map Prod.snd

theorem lt_of_mem_genuinePositions {i : Nat} (h : i ∈ s.genuinePositions v) :
    i < s.value.length :=
  List.mem_range.1 ((s.genuinePositions_sublist v).subset h)

/-- The columns of a schema, taken as the cells of a row, are cut down to the genuine ones. -/
theorem genuineCells_value (s : Schema) (v : Version) :
    s.genuineCells v s.value = (s.genuine v).value := by
  rw [← map_fst_filter_zip (rfl : s.value.length = s.value.length), genuineCells]
  refine List.map_congr_left fun q hq => ?_
  have hzip : q ∈ s.value.zip s.value := List.mem_of_mem_filter hq
  rw [List.zip_eq_zipWith, List.zipWith_self] at hzip
  obtain ⟨f, -, rfl⟩ := List.mem_map.1 hzip
  rfl

/-- **What stands in these places are the genuine columns**, with their types. -/
theorem map_getElem?_genuinePositions (s : Schema) (v : Version) :
    (s.genuinePositions v).map (fun i => s.value[i]?) = (s.genuine v).value.map some := by
  have hcolumns : (s.genuinePositions v).filterMap (fun i => s.value[i]?)
      = (s.genuine v).value := by
    rw [genuinePositions_eq, ← genuineCells_value]
    exact filterMap_zipIdx (fun f => s.isGenuine v f.name) s.value [] s.value rfl
  rw [← hcolumns, List.map_filterMap_some_eq_filter_map_isSome, List.filter_eq_self.2]
  -- No place that is kept lies behind the last column, so that every lookup gives one.
  intro c hc
  obtain ⟨i, hi, rfl⟩ := List.mem_map.1 hc
  rw [List.getElem?_eq_getElem (lt_of_mem_genuinePositions hi)]
  rfl

/-! ## When there is nothing to do -/

theorem genuine_eq_self_iff : s.genuine v = s ↔ ∀ f ∈ s.value, s.isGenuine v f.name = true :=
  ⟨fun h _ hf => isGenuine_of_mem_genuine (h.symm ▸ hf), genuine_eq_self⟩

/-- **There is no projection if all columns are genuine**, and only then. -/
theorem projection?_eq_none_iff : s.projection? v = none ↔ s.genuine v = s := by
  have hiff : (s.genuinePositions v).length = s.value.length ↔ s.genuine v = s := by
    rw [length_genuinePositions, value_genuine, List.length_filter_eq_length_iff,
      genuine_eq_self_iff]
  rw [← hiff, projection?]
  exact ite_eq_left_iff.trans (by simp)

/-! ## Cells -/

/-- **The genuine columns keep their cells**, and all others are dropped. -/
theorem zip_genuineCells {row : List α} (h : row.length = s.value.length) :
    (s.genuine v).value.zip (s.genuineCells v row)
      = (s.value.zip row).filter fun q => q.1 ∈ (s.genuine v).value := by
  have hfilter : (s.value.zip row).filter (fun q => q.1 ∈ (s.genuine v).value)
      = (s.value.zip row).filter fun q => s.isGenuine v q.1.name := by
    refine List.filter_congr fun q hq => ?_
    rw [Bool.eq_iff_iff, decide_eq_true_eq, value_genuine, List.mem_filter,
      and_iff_right (List.of_mem_zip hq).1]
  rw [hfilter, ← map_fst_filter_zip h, genuineCells, List.zip_map']
  exact List.map_id _

/-- **Rows are projected as schemas are.**  There is a projection unless all columns are genuine,
and it keeps the places of the genuine ones, in order.  A row that is as wide as the schema is cut
down to their cells, and a row of any other width is refused. -/
theorem projection?_exact (s : Schema) (v : Version) :
    (s.projection? v = none ↔ s.genuine v = s) ∧
      ∀ p, s.projection? v = some p →
        p.positions.Pairwise (· < ·) ∧ (∀ i ∈ p.positions, i < s.value.length) ∧
          p.positions.map (fun i => s.value[i]?) = (s.genuine v).value.map some ∧
          (∀ (key : Key) (m : RecordMetadata) (row : Row), row.length = s.value.length →
            ∃ cells, (Stage.project p).apply key m (some row) = .ok (some cells) ∧
              cells.length = (s.genuine v).value.length ∧
              (s.genuine v).value.zip cells
                = (s.value.zip row).filter fun q => q.1 ∈ (s.genuine v).value) ∧
          ∀ (key : Key) (m : RecordMetadata) (row : Row), row.length ≠ s.value.length →
            ∃ e, (Stage.project p).apply key m (some row) = .error e ∧ e.code = "STREAM_003" ∧
              e = .widthMismatch "project_genuine_value_columns" s.value.length row.length := by
  refine ⟨projection?_eq_none_iff, fun p hp => ?_⟩
  obtain rfl := of_projection?_eq_some hp
  refine ⟨List.pairwise_lt_range.sublist (s.genuinePositions_sublist v),
    fun i => lt_of_mem_genuinePositions, s.map_getElem?_genuinePositions v,
    fun key m row hrow => ?_, fun key m row hrow => ?_⟩
  · refine ⟨s.genuineCells v row, ?_, length_genuineCells hrow, zip_genuineCells hrow⟩
    rw [Stage.apply, Stage.row, if_pos hrow, (cells_of_projection? hp hrow).2]
    rfl
  · refine ⟨_, ?_, rfl, rfl⟩
    rw [Stage.apply, Stage.row, if_neg hrow]
    rfl

/-- A table of parcels whose value carries a copy of the key and two names that some version
reserves. -/
def parcels : Schema where
  key := [⟨"PARCEL", .primitive .integer⟩]
  value := [⟨"WEIGHT", .primitive .double⟩, ⟨"PARCEL", .primitive .integer⟩,
    ⟨"ROWPARTITION", .primitive .integer⟩, ⟨"TARGET", .primitive .string⟩]
  nodup_key := by decide
  nodup_value := by decide

/-- The first version knows no partitions, so that parcels keep them under it.  A row without a
target is refused. -/
theorem projection?_exact_parcels :
    parcels.projection? .current = some ⟨4, [0, 3]⟩ ∧
      parcels.projection? .legacy = some ⟨4, [0, 2, 3]⟩ ∧
      parcels.genuine .current ≠ parcels ∧
      (∃ cells, (Stage.project ⟨4, [0, 3]⟩).apply [.integer 7] ⟨3, 1, 40, none⟩
          (some [.null, .integer 7, .integer 2, .string "PIER"])
            = .ok (some cells) ∧
        (parcels.genuine .current).value.zip cells
          = [(⟨"WEIGHT", .primitive .double⟩, .null),
            (⟨"TARGET", .primitive .string⟩, .string "PIER")]) ∧
      (Stage.project ⟨4, [0, 3]⟩).apply [.integer 7] ⟨3, 1, 40, none⟩
          (some [.null, .integer 7, .integer 2])
        = .error (.widthMismatch "project_genuine_value_columns" 4 3) := by
  have hplaces : parcels.projection? .current = some ⟨4, [0, 3]⟩ := by decide
  obtain ⟨hnone, hexact⟩ := projection?_exact parcels .current
  obtain ⟨-, -, -, hkept, hrefused⟩ := hexact _ hplaces
  refine ⟨hplaces, by decide, fun h => ?_, ?_, ?_⟩
  · exact nomatch (hnone.2 h).symm.trans hplaces
  · obtain ⟨cells, hcells, -, hzip⟩ := hkept [.integer 7] ⟨3, 1, 40, none⟩
      [.null, .integer 7, .integer 2, .string "PIER"] rfl
    exact ⟨cells, hcells, hzip⟩
  · obtain ⟨_, hrow, -, rfl⟩ := hrefused [.integer 7] ⟨3, 1, 40, none⟩
      [.null, .integer 7, .integer 2] (by decide)
    exact hrow

end Schema
end StreamTables
