import StreamTables.Decimal.Basic
import StreamTables.Double.Shortest
import StreamTables.Text.Digits

/-!
# Numbers of JSON

A number is kept as its literal: sign, digits and exponent. What it denotes depends on who asks.

## What is here

* `Numeral.chars`: the literal in writing.
* `Numeral.integer?`: the integer of a literal that has neither point nor exponent.
* `Numeral.double?`: the double a literal is read as. The leading digits that fit 64 bits are
  rounded to a double, and scaling it by a power of ten rounds again, so the last bit need not be
  that of the nearest double. Numbers beyond the largest double are refused.
* `Numeral.decimal?`: an integer of 64 bits exactly, any other number by way of its double.
* `Numeral.ofDouble`: the literal a finite double is written as.
-/

set_option autoImplicit false

namespace StreamTables

/-- A number literal. Without a point the fraction is empty. -/
structure Numeral where
  negative : Bool
  whole : List Char
  fraction : List Char
  exponent : Option Int
  deriving DecidableEq

namespace Numeral

/-! ## Writing -/

/-- An exponent is written with its sign. -/
def exponentChars : Option Int → List Char
  | none => []
  | some e => 'e' :: (if e < 0 then '-' else '+') :: Digits.ofNat e.natAbs

/-- The characters of a literal. -/
def chars (n : Numeral) : List Char :=
  (if n.negative then ['-'] else []) ++ n.whole ++
    (if n.fraction = [] then [] else '.' :: n.fraction) ++ exponentChars n.exponent

/-- The literal of an integer. -/
def ofInt (i : Int) : Numeral := ⟨i < 0, Digits.ofNat i.natAbs, [], none⟩

/-- The literal of a decimal `c * 10 ^ k` of few digits. Numbers from `0.00001` up to below
`10 ^ 16` are written out and have at least one place; the others have an exponent, and one digit
in front of the point. -/
def ofShortest (negative : Bool) (c : Nat) (k : Int) : Numeral :=
  let ds := Digits.ofNat c
  let e := (ds.length : Int) - 1 + k
  if e < -5 ∨ 15 < e then ⟨negative, ds.take 1, ds.drop 1, some e⟩
  else if 0 ≤ k then ⟨negative, ds ++ List.replicate k.toNat '0', ['0'], none⟩
  else
    let padded := List.replicate (k.natAbs + 1 - ds.length) '0' ++ ds
    let point := padded.length - k.natAbs
    ⟨negative, padded.take point, padded.drop point, none⟩

/-- The literal of a finite double: the fewest digits that identify it, and of two equally close
ones those that end evenly. -/
def ofDouble (d : Double) : Numeral :=
  if d.magnitude = 0 then ⟨d.negative, ['0'], ['0'], none⟩
  else
    let (c, k) := Double.shortest .toEven d.magnitude
    ofShortest d.negative c k

/-! ## Reading -/

/-- The integer that a literal without point and exponent denotes. The literal `-0` is not taken
for an integer. -/
def integer? (n : Numeral) : Option Int :=
  if n.fraction ≠ [] ∨ n.exponent ≠ none then none
  else
    let v := Digits.value n.whole
    if n.negative then if v = 0 then none else some (-v) else some v

/-- Appends digits to a significand as long as it fits 64 bits, and returns the digits left. -/
def absorb (significand : Nat) : List Char → Nat × List Char
  | [] => (significand, [])
  | c :: cs =>
    let next := 10 * significand + Digits.digit c
    if next < 2 ^ 64 then absorb next cs else (significand, c :: cs)

/-- The magnitude of a power of ten. -/
def tenTo (e : Nat) : Nat := Double.nearest (10 ^ e) 1

/-- The rounded product of two finite magnitudes. -/
def product (a b : Nat) : Nat :=
  let (an, ad) := Double.ratio a
  let (bn, bd) := Double.ratio b
  Double.nearest (an * bn) (ad * bd)

/-- The rounded quotient of two finite magnitudes. -/
def quotient (a b : Nat) : Nat :=
  let (an, ad) := Double.ratio a
  let (bn, bd) := Double.ratio b
  Double.nearest (an * bd) (ad * bn)

/-- The exponent of the largest power of ten that a double can hold. -/
def maxPower : Nat := 308

/-- Divides a finite magnitude by `10 ^ e`, the largest power at a time. -/
def scaleDown (m e : Nat) : Nat :=
  if e ≤ maxPower then quotient m (tenTo e)
  else if m = 0 then 0
  else scaleDown (quotient m (tenTo maxPower)) (e - maxPower)
termination_by e
decreasing_by simp only [maxPower] at *; omega

/-- Multiplies a finite magnitude by `10 ^ e`, unless the result is infinite. -/
def scaleUp? (m e : Nat) : Option Nat :=
  if e ≤ maxPower then
    let r := product m (tenTo e)
    if r < Double.infinity then some r else none
  else if m = 0 then some 0
  else none

/-- The double that a literal is read as. Digits of the whole part that do not fit the significand
count for the exponent; those of the fraction are dropped. -/
def double? (n : Numeral) : Option Double :=
  let (s, left) := absorb 0 n.whole
  let (s', left') := absorb s n.fraction
  let e := n.exponent.getD 0 + left.length - (n.fraction.length - left'.length : Nat)
  let m := Double.nearest s' 1
  let scaled := if 0 ≤ e then scaleUp? m e.toNat else some (scaleDown m e.natAbs)
  scaled.map (Double.ofMagnitude n.negative)

/-- The decimal that a literal is read as. -/
def decimal? (n : Numeral) : Option Decimal :=
  match n.integer? with
  | some i =>
    if -2 ^ 63 ≤ i ∧ i < 2 ^ 64 then some (.ofInt i) else n.double?.map .ofDouble
  | none => n.double?.map .ofDouble

end Numeral
end StreamTables
