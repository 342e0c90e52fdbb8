/-!
# Tables of versions

A table lists the columns that exist under each version of a format, oldest version first. A
version may only add columns behind those of the version before it, and a table can be checked for
that.

## What is here

* `VersionTable`: the table, the columns every version has behind its own, and the columns that
  are never stored.
* `VersionTable.isAdditive`: the check. It compares neighbouring versions only.
* `VersionTable.columns`, `systemColumns`, `storedColumns`: the columns of a version.
-/

set_option autoImplicit false

namespace StreamTables

/-- The columns of each version, oldest version first. -/
structure VersionTable (α : Type) where
  rows : List (List α)
  /-- Columns that follow those of any version. -/
  bounds : List α
  /-- Columns that are known when a row is read, and are therefore not stored. -/
  readTime : List α

namespace VersionTable

variable {α : Type} [DecidableEq α]

/-- The columns of each version, each of them once. -/
def sets (t : VersionTable α) : List (List α) := t.rows.map List.eraseDups

/-- Whether a list begins with the columns of an older one. -/
def growsFrom (older newer : List α) : Bool :=
  older.length ≤ newer.length && (older.zip newer).all fun (a, b) => a = b

/-- Whether each list grows from the one before it. -/
def allGrow : List (List α) → Bool
  | a :: b :: rest => growsFrom a b && allGrow (b :: rest)
  | _ => true

/-- Whether every version only adds columns to the version before it. -/
def isAdditive (t : VersionTable α) : Bool := allGrow t.sets

/-- The columns of a version, in order. -/
def columns (t : VersionTable α) (version : Nat) : List α := t.sets[version]?.getD []

/-- The columns of a version with the bounds behind them. -/
def systemColumns (t : VersionTable α) (version : Nat) : List α :=
  (t.columns version ++ t.bounds).eraseDups

/-- The columns of a version that are stored, in order. -/
def storedColumns (t : VersionTable α) (version : Nat) : List α :=
  (t.columns version).filter (· ∉ t.readTime)

/-- A list that grows from another begins with it. -/
theorem take_eq_of_growsFrom {older newer : List α} (h : growsFrom older newer = true) :
    newer.take older.length = older := by
  induction older generalizing newer with
  | nil => rfl
  | cons a older ih =>
    cases newer with
    | nil => simp [growsFrom] at h
    | cons b newer =>
      simp only [growsFrom, List.length_cons, Nat.add_le_add_iff_right, List.zip_cons_cons,
        List.all_cons, Bool.and_eq_true, decide_eq_true_eq] at h
      have hrest : growsFrom older newer = true := by
        simpa [growsFrom] using ⟨h.1, by simpa using h.2.2⟩
      rw [List.length_cons, List.take_succ_cons, ih hrest, h.2.1]

end VersionTable
end StreamTables
