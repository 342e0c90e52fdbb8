import StreamTables.Proofs.Stage.Places

/-!
# Every version can be upgraded to every later one

A table of versions is checked once, by comparing neighbours.  What is relied on ever after is that
rows stored under any version can be served under any later one, however many versions lie between
them, and whichever columns are left out of what is stored.  This file says that nothing more has to
be checked: not now, and not when versions are added.

## What is here

* `VersionTable.growsFrom_iff`, `VersionTable.allGrow_iff`: what the comparison of neighbours says.
* `VersionTable.isAdditive_iff`: a table passes the check if and only if the columns of each version
  begin with those of every older one.
* `VersionTable.storedColumns_sublist`: what a version stores is a subsequence of what a later one
  has.
* `VersionTable.isAdditive_iff_serves`: so rows of every version can be served under every later
  one, which is as much as the check asks for.
-/

set_option autoImplicit false

namespace StreamTables
namespace VersionTable

variable {α : Type} [DecidableEq α] {t : VersionTable α}

/-! ## The check -/

/-- **To grow from a list is to begin with it**, although only as many columns are compared as the
shorter list has. -/
theorem growsFrom_iff {older newer : List α} : growsFrom older newer = true ↔ older <+: newer := by
  refine ⟨isPrefix_of_growsFrom, ?_⟩
  rintro ⟨added, rfl⟩
  rw [growsFrom, Bool.and_eq_true, decide_eq_true_eq, List.length_append]
  refine ⟨Nat.le_add_right _ _, ?_⟩
  induction older with
  | nil => rfl
  | cons a older ih => simpa using ih

theorem allGrow_iff {lists : List (List α)} :
    allGrow lists = true ↔ lists.Pairwise (· <+: ·) := by
  refine ⟨pairwise_of_allGrow, fun h => ?_⟩
  induction lists with
  | nil => rfl
  | cons older lists ih =>
    obtain ⟨holder, hrest⟩ := List.pairwise_cons.1 h
    cases lists with
    | nil => rfl
    | cons next lists =>
      rw [allGrow, Bool.and_eq_true]
      exact ⟨growsFrom_iff.2 (holder next (List.mem_cons_self ..)), ih hrest⟩

/-- **A table passes the check if and only if the columns of each version begin with those of every
older one.** -/
theorem isAdditive_iff :
    t.isAdditive = true ↔ ∀ v w, v ≤ w → w < t.rows.length → t.columns v <+: t.columns w := by
  refine ⟨fun h v w => columns_isPrefix h, fun h => ?_⟩
  have hlen : t.sets.length = t.rows.length := List.length_map _
  rw [isAdditive, allGrow_iff, List.pairwise_iff_getElem]
  intro v w hv hw hlt
  have hbegins := h v w hlt.le (hlen ▸ hw)
  rw [columns, columns, List.getElem?_eq_getElem hv, List.getElem?_eq_getElem hw] at hbegins
  exact hbegins

/-! ## Upgrades -/

/-- **What a version stores is a subsequence of what every later one has.**  Leaving columns out
does not change the order of the others. -/
theorem storedColumns_sublist (h : t.isAdditive = true) {v w : Nat} (hvw : v ≤ w)
    (hw : w < t.rows.length) : (t.storedColumns v).Sublist (t.columns w) :=
  List.filter_sublist.trans (columns_isPrefix h hvw hw).sublist

/-- **A table passes the check if and only if rows of every version can be served under every later
one.**  The columns of a version then begin with those of each older one, system columns remain
system columns, and the columns that an older version stores are in order, so that there is a layout
of them. -/
theorem isAdditive_iff_serves (t : VersionTable α) :
    t.isAdditive = true ↔ ∀ v w, v ≤ w → w < t.rows.length →
      t.columns v <+: t.columns w ∧
      (∀ a ∈ t.systemColumns v, a ∈ t.systemColumns w) ∧
      (t.storedColumns v).Sublist (t.columns w) ∧
      ∃ l, Layout.check (t.storedColumns v) (t.columns w) = .ok l ∧
        l.stored = t.storedColumns v ∧ l.target = t.columns w := by
  constructor
  · intro h v w hvw hw
    have hsub := storedColumns_sublist h hvw hw
    obtain ⟨l, hl⟩ := Layout.exists_check_iff.2 hsub
    exact ⟨columns_isPrefix h hvw hw, fun a => mem_systemColumns_mono h hvw hw, hsub, l, hl,
      Layout.check_eq_ok_iff.1 hl⟩
  · exact fun h => isAdditive_iff.2 fun v w hvw hw => (h v w hvw hw).1

/-- Four versions, of which one repeats a column and one adds none. -/
def headersAdded : VersionTable String where
  rows := [["ROWTIME"], ["ROWTIME", "ROWPARTITION", "ROWTIME", "ROWOFFSET"],
    ["ROWTIME", "ROWPARTITION", "ROWOFFSET"],
    ["ROWTIME", "ROWPARTITION", "ROWOFFSET", "ROWHEADERS"]]
  bounds := ["WINDOWSTART", "WINDOWEND"]
  readTime := ["ROWTIME"]

/-- Rows of the second version are served under the fourth, of which they store two columns. -/
theorem isAdditive_iff_serves_headersAdded :
    headersAdded.isAdditive = true ∧
    headersAdded.columns 1 <+: headersAdded.columns 3 ∧
    (∀ a ∈ headersAdded.systemColumns 1, a ∈ headersAdded.systemColumns 3) ∧
    ∃ l, Layout.check (headersAdded.storedColumns 1) (headersAdded.columns 3) = .ok l ∧
      l.stored = ["ROWPARTITION", "ROWOFFSET"] ∧
      l.target = ["ROWTIME", "ROWPARTITION", "ROWOFFSET", "ROWHEADERS"] := by
  have hadditive : headersAdded.isAdditive = true := by decide
  have hstored : headersAdded.storedColumns 1 = ["ROWPARTITION", "ROWOFFSET"] := by decide
  have hcolumns : headersAdded.columns 3
      = ["ROWTIME", "ROWPARTITION", "ROWOFFSET", "ROWHEADERS"] := by decide
  obtain ⟨hbegins, hsystem, -, l, hl, hlstored, hltarget⟩ :=
    (isAdditive_iff_serves headersAdded).1 hadditive 1 3 (by decide) (by decide)
  exact ⟨hadditive, hbegins, hsystem, l, hl, hlstored.trans hstored, hltarget.trans hcolumns⟩

/-- A version that puts a column in front of the others does not pass the check. -/
example : isAdditive ⟨[["ROWTIME"], ["ROWPARTITION", "ROWTIME"]], [], ["ROWTIME"]⟩ = false := by
  decide

end VersionTable
end StreamTables
