import Mathlib.Data.List.Basic
import StreamTables.Proofs.SystemColumn.Growth
import StreamTables.Schema.Projection

/-!
# Genuine cells

The cells of a row are genuine if their columns are.  A projection keeps places, and it looks them
up by name in a schema that was rebuilt; this file says that what it keeps are the genuine cells.

## What is here

* `Schema.genuineCells`: the genuine cells of a row, in order.
* `Schema.cells_of_projection?`: what the projection of a schema keeps of a row.
* `Schema.genuineCells_of_projection?_eq_none`: without a projection all cells are genuine.
* `Schema.isGenuine_anti`: what is genuine under a version is so under every older one.
-/

set_option autoImplicit false

namespace StreamTables
namespace Schema

variable {α : Type} {s : Schema} {v : Version}

/-- The cells of a row whose columns are genuine, in order. -/
def genuineCells (s : Schema) (v : Version) (row : List α) : List α :=
  ((s.value.zip row).filter fun p => s.isGenuine v p.1.name).map Prod.snd

theorem value_genuine : (s.genuine v).value = s.value.filter fun f => s.isGenuine v f.name := rfl

/-- The columns of a row and the fields of the genuine schema are filtered alike. -/
theorem map_fst_filter_zip {row : List α} (h : row.length = s.value.length) :
    ((s.value.zip row).filter fun p => s.isGenuine v p.1.name).map Prod.fst
      = (s.genuine v).value := by
  have hfst : (s.value.zip row).map Prod.fst = s.value := List.map_fst_zip (by omega)
  rw [value_genuine, ← congrArg (List.filter fun f => s.isGenuine v f.name) hfst, List.filter_map]
  rfl

theorem length_genuineCells {row : List α} (h : row.length = s.value.length) :
    (s.genuineCells v row).length = (s.genuine v).value.length := by
  rw [← map_fst_filter_zip h, genuineCells, List.length_map, List.length_map]

theorem mem_of_mem_genuineCells {row : List α} {a : α} (h : a ∈ s.genuineCells v row) :
    a ∈ row := by
  obtain ⟨p, hp, rfl⟩ := List.mem_map.1 h
  exact (List.of_mem_zip (List.mem_of_mem_filter hp)).2

/-- Cells that relate one by one are filtered alike. -/
theorem forall₂_genuineCells {r : α → α → Prop} {row row' : List α} (h : List.Forall₂ r row row') :
    List.Forall₂ r (s.genuineCells v row) (s.genuineCells v row') := by
  rw [genuineCells, genuineCells]
  generalize s.value = fs
  induction fs generalizing row row' with
  | nil => exact .nil
  | cons f fs ih =>
    cases h with
    | nil => exact .nil
    | cons hab hrest =>
      rw [List.zip_cons_cons, List.zip_cons_cons, List.filter_cons, List.filter_cons]
      split
      · exact .cons hab (ih hrest)
      · exact ih hrest

/-! ## Projections -/

/-- A value column is still there in the genuine schema, by its name, if it is genuine. -/
theorem isSome_findValue?_genuine {f : Field} (hf : f ∈ s.value) :
    ((s.genuine v).findValue? f.name).isSome = s.isGenuine v f.name := by
  rw [Bool.eq_iff_iff, findValue?, valueColumns, List.find?_isSome]
  constructor
  · rintro ⟨c, hc, hname⟩
    rw [decide_eq_true_eq] at hname
    have hfield : c.field ∈ (s.genuine v).value := by
      rw [← map_field_place .value 0 (s.genuine v).value]
      exact List.mem_map_of_mem hc
    rw [← hname]
    exact isGenuine_of_mem_genuine hfield
  · intro hgen
    have hmem : f ∈ (place .value 0 (s.genuine v).value).map Column.field := by
      rw [map_field_place]
      exact List.mem_filter.2 ⟨hf, hgen⟩
    obtain ⟨c, hc, hcf⟩ := List.mem_map.1 hmem
    exact ⟨c, hc, decide_eq_true (congrArg Field.name hcf)⟩

/-- The places of fields are those of their cells. -/
theorem filterMap_zipIdx (p : Field → Bool) (fs : List Field) (before row : List α)
    (h : row.length = fs.length) :
    (((fs.zipIdx before.length).filter fun q => p q.1).map Prod.snd).filterMap
        (fun i => (before ++ row)[i]?)
      = ((fs.zip row).filter fun q => p q.1).map Prod.snd := by
  induction fs generalizing before row with
  | nil => rfl
  | cons f fs ih =>
    obtain ⟨a, row, rfl⟩ := List.exists_cons_of_length_eq_add_one h
    have hrest := ih (before ++ [a]) row (Nat.succ.inj h)
    rw [List.length_append, List.length_singleton, List.append_assoc,
      List.singleton_append] at hrest
    rw [List.zipIdx_cons, List.zip_cons_cons, List.filter_cons, List.filter_cons]
    split
    · have hplace : (before ++ a :: row)[before.length]? = some a := by simp
      rw [List.map_cons, List.filterMap_cons, hplace, List.map_cons, hrest]
    · exact hrest

theorem genuinePositions_eq (s : Schema) (v : Version) :
    s.genuinePositions v
      = (s.value.zipIdx.filter fun q => s.isGenuine v q.1.name).map Prod.snd := by
  rw [genuinePositions]
  refine congrArg (List.map Prod.snd) (List.filter_congr fun q hq => ?_)
  exact isSome_findValue?_genuine (List.fst_mem_of_mem_zipIdx hq)

theorem length_genuinePositions (s : Schema) (v : Version) :
    (s.genuinePositions v).length = (s.genuine v).value.length := by
  have hfst : s.value.zipIdx.map Prod.fst = s.value := List.zipIdx_map_fst 0 s.value
  rw [genuinePositions_eq, value_genuine,
    ← congrArg (List.filter fun f => s.isGenuine v f.name) hfst, List.filter_map, List.length_map,
    List.length_map]
  rfl

/-- What is known of a projection that there is. -/
theorem of_projection?_eq_some {p : Projection} (h : s.projection? v = some p) :
    p = ⟨s.value.length, s.genuinePositions v⟩ := by
  rw [projection?] at h
  split at h
  · cases h
  · cases h
    rfl

/-- **A projection keeps the genuine cells.** -/
theorem cells_of_projection? {p : Projection} (h : s.projection? v = some p) {row : List α}
    (hrow : row.length = s.value.length) :
    p.width = s.value.length ∧ p.cells row = s.genuineCells v row := by
  obtain rfl := of_projection?_eq_some h
  refine ⟨rfl, ?_⟩
  rw [Projection.cells, genuinePositions_eq]
  exact filterMap_zipIdx (fun f => s.isGenuine v f.name) s.value [] row hrow

/-- **Without a projection all cells are genuine.** -/
theorem genuineCells_of_projection?_eq_none (h : s.projection? v = none) {row : List α}
    (hrow : row.length = s.value.length) : s.genuineCells v row = row := by
  rw [projection?] at h
  split at h
  · next hlen =>
    rw [length_genuinePositions, value_genuine, List.length_filter_eq_length_iff] at hlen
    have hall : (s.value.zip row).filter (fun p => s.isGenuine v p.1.name) = s.value.zip row :=
      List.filter_eq_self.2 fun p hp => hlen p.1 (List.of_mem_zip hp).1
    rw [genuineCells, hall, List.map_snd_zip (by omega)]
  · exact nomatch h

/-! ## Versions -/

/-- **What is genuine under a version is so under every older one.** -/
theorem isGenuine_anti {w : Version} {name : String} (hvw : v ≤ w)
    (h : s.isGenuine w name = true) : s.isGenuine v name = true := by
  simp only [isGenuine, Bool.not_eq_true', Bool.or_eq_false_iff] at h ⊢
  refine ⟨Bool.eq_false_iff.2 fun hv => ?_, h.2⟩
  exact absurd (h.1.symm.trans (Version.isSystemColumn_mono hvw hv)) Bool.false_ne_true

end Schema
end StreamTables
