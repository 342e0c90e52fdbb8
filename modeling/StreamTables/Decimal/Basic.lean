import StreamTables.Double.Basic

/-!
# Decimal numbers

A decimal is an integer with a number of places behind its point, which may be negative. Two
decimals of one value can differ: `1.0` and `1.00` have different places, and each keeps its own.

## What is here

* `Decimal`: an unscaled integer and its scale.
* `Decimal.equal`: equality of values. Zeros at the end are stripped and never appended, so that a
  scale of any size costs nothing.
* `Decimal.ofDouble`: the exact value of a double, with a rule for its places.
-/

set_option autoImplicit false

namespace StreamTables

/-- The number `unscaled / 10 ^ scale`. -/
structure Decimal where
  unscaled : Int
  scale : Int
  deriving DecidableEq

namespace Decimal

/-- The scales that a decimal may have: those of 64 signed bits. -/
def scaleFits (scale : Int) : Bool := -2 ^ 63 ≤ scale && scale < 2 ^ 63

/-- The decimal of an integer. -/
def ofInt (i : Int) : Decimal := ⟨i, 0⟩

/-! ## Equality of values -/

/-- The number `n / 10 ^ scale` without zeros at the end of `n`; zero has the scale zero. -/
def strip (n : Nat) (scale : Int) : Nat × Int :=
  if n = 0 then (0, 0)
  else if n % 10 = 0 then strip (n / 10) (scale - 1)
  else (n, scale)
termination_by n
decreasing_by omega

/-- Whether two decimals have one value. -/
def equal (a b : Decimal) : Bool :=
  a.unscaled.sign = b.unscaled.sign &&
    strip a.unscaled.natAbs a.scale = strip b.unscaled.natAbs b.scale

theorem equal_refl (a : Decimal) : equal a a = true := by simp [equal]

theorem equal_comm (a b : Decimal) : equal a b = equal b a := by
  simp only [equal, eq_comm (a := a.unscaled.sign),
    eq_comm (a := strip a.unscaled.natAbs a.scale)]

theorem equal_trans {a b c : Decimal} (hab : equal a b = true) (hbc : equal b c = true) :
    equal a c = true := by
  simp only [equal, Bool.and_eq_true, decide_eq_true_eq] at *
  exact ⟨hab.1.trans hbc.1, hab.2.trans hbc.2⟩

/-! ## Doubles as decimals -/

/-- The number `s / 2 ^ p` in lowest terms has as many decimal places as its denominator has
factors of two; each place takes a factor of five. -/
def ofDyadic (s p : Nat) : Nat × Nat :=
  match p with
  | 0 => (s, 0)
  | p + 1 => if s % 2 = 0 then ofDyadic (s / 2) p else (s * 5 ^ (p + 1), p + 1)

/-- The exact value of a finite double. Zero has no sign and no places. A subnormal number has all
the places of the least unit, and any other has only those that its value needs. -/
def ofDouble (d : Double) : Decimal :=
  let m := d.magnitude
  let s := Double.significand m * 2 ^ (Double.exponent m).toNat
  let p := (-Double.exponent m).toNat
  let (n, places) :=
    if m = 0 then (0, 0)
    else if Double.isSubnormal m then (s * 5 ^ p, p)
    else ofDyadic s p
  ⟨if d.negative then -n else n, places⟩

end Decimal
end StreamTables
