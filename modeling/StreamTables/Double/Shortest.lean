import StreamTables.Double.Basic

/-!
# The fewest digits that identify a double

Every finite double rounds a whole interval of real numbers to itself. Of the decimals in that
interval this module picks one with the fewest digits, and of those the one closest to the double.
Where two are equally close the choice is the writer's, and is given by a `Tie`.

## What is here

* `Double.Interval`: the reals that round to a magnitude, as numerators over one denominator.
* `Interval.onGrid?`: the multiple of a power of ten to take from an interval, if it holds any.
* `Double.shortest`: the first hit on the grids of falling powers of ten. A coarser grid means
  fewer digits, so the first hit has the fewest.
-/

set_option autoImplicit false

namespace StreamTables
namespace Double

/-- Which of two equally close decimals is written. -/
inductive Tie where
  /-- The one with an even last digit. -/
  | toEven
  /-- The larger one. -/
  | up
  deriving DecidableEq

/-- The reals that round to one magnitude: those between `low` and `high`, over `den`. The
magnitude itself is `mid` over `den`. The two ends round to it only if its significand is even. -/
structure Interval where
  low : Nat
  mid : Nat
  high : Nat
  den : Nat
  closed : Bool

/-- The interval of a finite magnitude above zero, in quarters of the unit of its last bit. Below
the least significand of an exponent the neighbours are twice as dense. -/
def interval (m : Nat) : Interval :=
  let s := significand m
  let scale := 2 ^ (exponent m).toNat
  let below := if m % 2 ^ 52 = 0 ∧ 2 ^ 52 < m then 1 else 2
  { low := (4 * s - below) * scale
    mid := 4 * s * scale
    high := (4 * s + 2) * scale
    den := 4 * 2 ^ (-exponent m).toNat
    closed := s % 2 = 0 }

/-- Whether `x / den` lies in the interval from `low / den` to `high / den`. -/
def within (closed : Bool) (low high x : Nat) : Bool :=
  if closed then low ≤ x && x ≤ high else low < x && x < high

/-- The factor to take on the grid of multiples of `10 ^ k`: of the two neighbours of the middle,
the one that lies in the interval, and if both do, the closer one. -/
def Interval.onGrid? (tie : Tie) (i : Interval) (k : Int) : Option Nat :=
  let fine := 10 ^ (-k).toNat
  let coarse := i.den * 10 ^ k.toNat
  let down := i.mid * fine / coarse
  let inside (x : Nat) : Bool := within i.closed (i.low * fine) (i.high * fine) (x * coarse)
  let twice := 2 * (i.mid * fine % coarse)
  let closer :=
    if twice < coarse then down
    else if coarse < twice then down + 1
    else match tie with
      | .up => down + 1
      | .toEven => if down % 2 = 0 then down else down + 1
  match inside down, inside (down + 1) with
  | true, true => some closer
  | true, false => some down
  | false, true => some (down + 1)
  | false, false => none

/-- A power of ten above every decimal of the interval, by the binary length of its middle. -/
def Interval.decade (i : Interval) : Int :=
  ((Nat.log2 i.mid : Int) - Nat.log2 i.den + 1) * 30103 / 100000 + 2

/-- A decimal with the fewest digits that rounds to the finite magnitude `m` above zero, as a
factor and a power of ten. Seventeen digits always suffice, so the search ends on one of the grids
that are tried. -/
def shortest (tie : Tie) (m : Nat) : Nat × Int :=
  let i := interval m
  ((List.range 24).findSome? fun (n : Nat) =>
    let k := i.decade - n
    (i.onGrid? tie k).map fun c => (c, k)).getD (significand m, exponent m)

/-- What is taken from a grid lies in the interval. -/
theorem Interval.within_of_onGrid? {tie : Tie} {i : Interval} {k : Int} {c : Nat}
    (h : i.onGrid? tie k = some c) :
    within i.closed (i.low * 10 ^ (-k).toNat) (i.high * 10 ^ (-k).toNat)
      (c * (i.den * 10 ^ k.toNat)) = true := by
  simp only [Interval.onGrid?] at h
  split at h
  · next h0 h1 =>
    cases h
    split
    · exact h0
    · split
      · exact h1
      · cases tie <;> simp only
        · split
          · exact h0
          · exact h1
        · exact h1
  · next h0 _ => cases h; exact h0
  · next _ h1 => cases h; exact h1
  · cases h

end Double
end StreamTables
