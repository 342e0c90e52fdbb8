/-!
# Double-precision numbers

A double is its 64 bits. All arithmetic on doubles here is exact arithmetic on natural numbers
followed by one rounding, so that nothing depends on the operations of the machine.

## What is here

* `Double`: the bits, and what they say: a sign and a *magnitude*, the other 63 bits. Magnitudes
  are ordered like the numbers they stand for, from zero up to infinity, with the NaNs above it.
* `Double.ratio`: the value of a finite magnitude as a quotient of natural numbers.
* `Double.nearest`: the magnitude nearest to a quotient, ties to the even one, infinity on overflow.
* `Double.equal`: equality of numbers, in which zero has no sign and a NaN equals nothing.
-/

set_option autoImplicit false

-- powers of integers are those of the core library, whatever other powers there are
attribute [instance (high), default_instance high] instPowNat

namespace StreamTables

/-- A double-precision number, given by its bits: the sign, eleven bits of exponent and 52 bits of
fraction. -/
structure Double where
  bits : UInt64
  deriving DecidableEq

namespace Double

/-- Whether the sign bit is set. -/
def negative (d : Double) : Bool := 2 ^ 63 ≤ d.bits.toNat

/-- The bits below the sign. -/
def magnitude (d : Double) : Nat := d.bits.toNat % 2 ^ 63

/-- The magnitude of the infinities. -/
def infinity : Nat := 2047 * 2 ^ 52

/-- The double of a sign and a magnitude. -/
def ofMagnitude (negative : Bool) (m : Nat) : Double :=
  ⟨UInt64.ofNat (m + if negative then 2 ^ 63 else 0)⟩

/-- Whether the double is a number, neither infinite nor a NaN. -/
def isFinite (d : Double) : Bool := d.magnitude < infinity

/-- Whether the double stands for no number at all. -/
def isNaN (d : Double) : Bool := infinity < d.magnitude

/-- The NaN whose fraction has its first bit set and no other. -/
def nan : Double := ofMagnitude false (infinity + 2 ^ 51)

/-! ## The value of a magnitude -/

/-- Whether a magnitude is below those that have the leading bit in their significands. -/
def isSubnormal (m : Nat) : Bool := m < 2 ^ 52

/-- The integer significand of a finite magnitude. -/
def significand (m : Nat) : Nat := if isSubnormal m then m else 2 ^ 52 + m % 2 ^ 52

/-- The power of two that the significand of a finite magnitude is multiplied by. -/
def exponent (m : Nat) : Int := (max (m / 2 ^ 52) 1 : Nat) - 1075

/-- The value of a finite magnitude, as numerator and denominator. -/
def ratio (m : Nat) : Nat × Nat :=
  (significand m * 2 ^ (exponent m).toNat, 2 ^ (-exponent m).toNat)

/-! ## Rounding -/

/-- The integer nearest to a quotient; a tie goes to the even one. -/
def divNearest (num den : Nat) : Nat :=
  let down := num / den
  let twice := 2 * (num % den)
  if twice < den then down
  else if den < twice then down + 1
  else if down % 2 = 0 then down else down + 1

/-- The magnitude nearest to a quotient; a tie goes to the even one, and what lies beyond the
largest finite number goes to infinity.

The quotient is measured in the unit that leaves 53 bits before the point, or in the least unit
there is. A significand rounded up to 54 bits carries into the exponent, where it belongs. -/
def nearest (num den : Nat) : Nat :=
  if num = 0 then 0
  else
    let guess : Int := (Nat.log2 num : Int) - Nat.log2 den
    let tooLarge := num * 2 ^ (-guess).toNat < den * 2 ^ guess.toNat
    let unit := max ((if tooLarge then guess - 1 else guess) - 52) (-1074)
    let steps := divNearest (num * 2 ^ (-unit).toNat) (den * 2 ^ unit.toNat)
    min ((unit + 1074).toNat * 2 ^ 52 + steps) infinity

/-- Equality of numbers: a NaN equals nothing, and the two zeros are equal. -/
def equal (a b : Double) : Bool :=
  !a.isNaN && !b.isNaN && (a = b || (a.magnitude = 0 && b.magnitude = 0))

theorem equal_self_of_isFinite {a : Double} (h : a.isFinite = true) : equal a a = true := by
  have hn : a.isNaN = false := by
    simp only [isFinite, isNaN, decide_eq_true_eq, decide_eq_false_iff_not] at *
    omega
  simp [equal, hn]

end Double
end StreamTables
