import StreamTables.Schema.Rebuild

/-!
# Projecting rows onto genuine columns

## What is here

* `Projection`: the places of the cells of a row that are kept.
* `Schema.projection?`: the places of the genuine columns, unless all columns are genuine.
-/

set_option autoImplicit false

namespace StreamTables

/-- The cells of a row that are kept. -/
structure Projection where
  /-- How many cells there are. -/
  width : Nat
  /-- The places of the cells that are kept, in order. -/
  positions : List Nat
  deriving DecidableEq

/-- The kept cells of a row that has the width of the projection. -/
def Projection.cells {α : Type} (p : Projection) (row : List α) : List α :=
  p.positions.filterMap fun i => row[i]?

namespace Schema

/-- The places of the value columns that are still there, by name, in the genuine schema. -/
def genuinePositions (s : Schema) (v : Version) : List Nat :=
  (s.value.zipIdx.filter fun (f, _) => ((s.genuine v).findValue? f.name).isSome).map (·.2)

/-- The projection onto the genuine columns, if there are others. -/
def projection? (s : Schema) (v : Version) : Option Projection :=
  let positions := s.genuinePositions v
  if positions.length = s.value.length then none else some ⟨s.value.length, positions⟩

end Schema
end StreamTables
