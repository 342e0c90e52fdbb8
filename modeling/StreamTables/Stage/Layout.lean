import StreamTables.Record

/-!
# Merging stored columns into a layout

A stored row keeps the values of some columns, and a served row shows those of others. A stored
row can be served if its columns occur, in their order, among those that are served: each of them
then goes to its place, and what lies between is filled in.

## What is here

* `Layout`: the columns that are stored and those that are served, in order.
* `Layout.check`: takes the columns one by one, each at the first place behind the one before it,
  and reports the first column that has no such place.
* `Layout.fill`: the merge.
* `Layout.served`: the layout of rows stored under some version and served under the current one.
-/

set_option autoImplicit false

namespace StreamTables

namespace Layout

variable {α : Type} [DecidableEq α]

/-- The first stored column that has no place behind that of the column before it. -/
def firstMisplaced? : (stored target : List α) → Option α
  | [], _ => none
  | a :: stored, target =>
    match target.dropWhile (· ≠ a) with
    | [] => some a
    | _ :: rest => firstMisplaced? stored rest

end Layout

/-- The columns of stored rows and those of served rows. -/
structure Layout (α : Type) [DecidableEq α] where
  stored : List α
  target : List α
  /-- Every stored column has a place, and the places are in order. -/
  inOrder : Layout.firstMisplaced? stored target = none

namespace Layout

variable {α β ε : Type} [DecidableEq α]

/-- The layout of columns that are in order, or else the first column that is not. -/
def check (stored target : List α) : Except α (Layout α) :=
  match h : firstMisplaced? stored target with
  | none => .ok ⟨stored, target, h⟩
  | some a => .error a

/-- How many columns have to be filled in. -/
def missing (l : Layout α) : Nat := l.target.length - l.stored.length

/-- Merges stored values into the columns that are served. A served column takes the next stored
value if it is one of its own, and is resolved if it is not. -/
def fill (resolve : α → Except ε β) : (stored : List (α × β)) → (target : List α) →
    Except ε (List β)
  | _, [] => .ok []
  | [], a :: target => do
    let b ← resolve a
    return b :: (← fill resolve [] target)
  | (s, b) :: stored, a :: target =>
    if s = a then do
      return b :: (← fill resolve stored target)
    else do
      let b' ← resolve a
      return b' :: (← fill resolve ((s, b) :: stored) target)

/-! ## Layouts of versions -/

/-- The layout of rows that were stored under one version and are served under another. -/
def ofVersions (recorded current : Version) : Except Error (Layout SystemColumn) :=
  (check recorded.storedColumns current.columns).mapError fun c =>
    .internal (.outOfOrder c.name recorded current)

theorem inOrder_current (recorded : Version) :
    firstMisplaced? recorded.storedColumns Version.current.columns = none := by
  revert recorded
  decide

/-- The layout of rows that were stored under some version. They are served under the current
one. -/
def served (recorded : Version) : Layout SystemColumn where
  stored := recorded.storedColumns
  target := Version.current.columns
  inOrder := inOrder_current recorded

theorem check_eq_ok (l : Layout α) : check l.stored l.target = .ok l := by
  unfold check
  split
  · rfl
  · simp_all [l.inOrder]

/-- Rows of every version can be served under the current one. -/
theorem ofVersions_current (recorded : Version) :
    ofVersions recorded .current = .ok (served recorded) := by
  rw [ofVersions, show check recorded.storedColumns Version.current.columns = .ok (served recorded)
    from check_eq_ok (served recorded)]
  rfl

end Layout
end StreamTables
