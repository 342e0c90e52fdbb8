import Mathlib.Data.List.Basic
import StreamTables.SystemColumn

/-!
# Versions only ever grow

A table of versions is checked by comparing neighbours (`VersionTable.isAdditive`), but what is
relied on are versions that lie any number of steps apart: a column that an old version has is still
one under every newer version.

## What is here

* `VersionTable.columns_isPrefix`: the columns of a version begin with those of every older one.
* `VersionTable.mem_systemColumns_mono`: a system column remains one.
* `Version.isSystemColumn_mono`, `Version.le_current`: the same for the versions that are
  registered, of which the current one is the newest.
* `Version.servedColumns`: the system columns of rows that are served.
-/

set_option autoImplicit false

namespace StreamTables

namespace VersionTable

variable {α : Type} [DecidableEq α] {t : VersionTable α}

theorem isPrefix_of_growsFrom {older newer : List α} (h : growsFrom older newer = true) :
    older <+: newer := by
  rw [← take_eq_of_growsFrom h]
  exact List.take_prefix _ _

/-- **Neighbours that grow make a chain**: every list begins with the first one. -/
theorem isPrefix_of_allGrow {older : List α} {lists : List (List α)}
    (h : allGrow (older :: lists) = true) : ∀ newer ∈ lists, older <+: newer := by
  induction lists generalizing older with
  | nil => exact fun _ h => nomatch h
  | cons next lists ih =>
    rw [allGrow, Bool.and_eq_true] at h
    have hnext : older <+: next := isPrefix_of_growsFrom h.1
    intro newer hnewer
    rcases List.mem_cons.1 hnewer with rfl | hmem
    · exact hnext
    · exact hnext.trans (ih h.2 newer hmem)

theorem allGrow_of_cons {older : List α} {lists : List (List α)}
    (h : allGrow (older :: lists) = true) : allGrow lists = true := by
  cases lists with
  | nil => rfl
  | cons next lists =>
    rw [allGrow, Bool.and_eq_true] at h
    exact h.2

theorem pairwise_of_allGrow {lists : List (List α)} (h : allGrow lists = true) :
    lists.Pairwise (· <+: ·) := by
  induction lists with
  | nil => exact .nil
  | cons older lists ih => exact .cons (isPrefix_of_allGrow h) (ih (allGrow_of_cons h))

/-- **The columns of a version begin with those of every older one.** -/
theorem columns_isPrefix (h : t.isAdditive = true) {v w : Nat} (hvw : v ≤ w)
    (hw : w < t.rows.length) : t.columns v <+: t.columns w := by
  have hlen : t.sets.length = t.rows.length := List.length_map _
  have hpair := List.pairwise_iff_getElem.1 (pairwise_of_allGrow h)
  have hv : v < t.sets.length := by omega
  have hw : w < t.sets.length := by omega
  rw [columns, columns, List.getElem?_eq_getElem hv, List.getElem?_eq_getElem hw]
  rcases Nat.eq_or_lt_of_le hvw with rfl | hlt
  · exact List.prefix_refl _
  · exact hpair v w hv hw hlt

theorem mem_systemColumns {v : Nat} {a : α} :
    a ∈ t.systemColumns v ↔ a ∈ t.columns v ∨ a ∈ t.bounds := by
  rw [systemColumns, List.mem_eraseDups, List.mem_append]

/-- **A system column remains one.** -/
theorem mem_systemColumns_mono (h : t.isAdditive = true) {v w : Nat} (hvw : v ≤ w)
    (hw : w < t.rows.length) {a : α} (ha : a ∈ t.systemColumns v) : a ∈ t.systemColumns w :=
  mem_systemColumns.2 ((mem_systemColumns.1 ha).imp_left (columns_isPrefix h hvw hw).mem)

end VersionTable

/-! ## Registered versions -/

namespace Version

variable {v w : Version} {name : String}

theorem le_current (v : Version) : v ≤ current := Nat.le_of_lt_succ v.isLt

theorem isSystemColumn_of_mem {c : SystemColumn} (h : c ∈ v.systemColumns) :
    v.isSystemColumn c.name = true :=
  List.any_eq_true.2 ⟨c, h, decide_eq_true rfl⟩

/-- **A name that is reserved under a version is reserved under every newer one.** -/
theorem isSystemColumn_mono (hvw : v ≤ w) (h : v.isSystemColumn name = true) :
    w.isSystemColumn name = true := by
  obtain ⟨c, hc, hname⟩ := List.any_eq_true.1 h
  obtain rfl : c.name = name := of_decide_eq_true hname
  exact isSystemColumn_of_mem
    (VersionTable.mem_systemColumns_mono SystemColumn.versions_isAdditive hvw w.isLt hc)

theorem isSystemColumn_of_mem_columns {c : SystemColumn} (h : c ∈ v.columns) :
    v.isSystemColumn c.name = true :=
  isSystemColumn_of_mem (VersionTable.mem_systemColumns.2 (.inl h))

theorem isSystemColumn_of_mem_windowBounds {c : SystemColumn} (h : c ∈ SystemColumn.windowBounds) :
    v.isSystemColumn c.name = true :=
  isSystemColumn_of_mem (VersionTable.mem_systemColumns.2 (.inr h))

/-- The system columns of rows that are served: the pseudocolumns, and the window bounds if there
are windows. -/
def servedColumns (v : Version) (windowed : Bool) : List SystemColumn :=
  v.columns ++ if windowed then SystemColumn.windowBounds else []

theorem nodup_names_columns (v : Version) : (v.columns.map SystemColumn.name).Nodup := by
  revert v
  decide

/-- The pseudocolumns that are stored are all but the timestamp. -/
theorem storedColumns_eq_filter (v : Version) :
    v.storedColumns = v.columns.filter (· ≠ .rowTime) := by
  revert v
  decide

theorem nodup_names_servedColumns (v : Version) (windowed : Bool) :
    ((v.servedColumns windowed).map SystemColumn.name).Nodup := by
  revert v windowed
  decide

end Version
end StreamTables
