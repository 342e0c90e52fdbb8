import StreamTables.Decimal.Basic
import StreamTables.Text.Digits

/-!
# Decimals as texts

## What is here

* `Decimal.text`: the text of a decimal. Zero is `0`. A number with more than five zeros between
  the point and its first digit is written with an exponent, as `1.2E-10`, and one with more than
  fifteen zeros after its last digit as `12e+16`; any other is written out.
* `Decimal.ofText?`: reading. A text has a sign, digits with a point among them, and an exponent;
  underscores may separate digits.
-/

set_option autoImplicit false

namespace StreamTables
namespace Decimal

/-! ## Writing -/

/-- The most zeros between the point and the first digit of a number that is written out. -/
def maxLeadingZeros : Nat := 5

/-- The most zeros after the last digit of a number that is written out. -/
def maxTrailingZeros : Nat := 15

/-- The digits `ds` followed by an exponent that accounts for `places` decimal places: the point
goes after the first digit. -/
def exponentChars (ds : List Char) (places : Nat) : List Char :=
  Digits.place ds (ds.length - 1) ++ 'E' :: Digits.ofInt ((ds.length : Int) - 1 - places)

/-- The text of `n / 10 ^ scale`, for a number above zero. -/
def magnitudeChars (n : Nat) (scale : Int) : List Char :=
  let ds := Digits.ofNat n
  if 0 ≤ scale then
    let places := scale.toNat
    if maxLeadingZeros < places - ds.length then exponentChars ds places
    else Digits.place ds places
  else
    let zeros := scale.natAbs
    if maxTrailingZeros < zeros then ds ++ 'e' :: '+' :: Digits.ofNat zeros
    else ds ++ List.replicate zeros '0'

/-- The characters of a decimal's text. -/
def chars (d : Decimal) : List Char :=
  if d.unscaled = 0 then ['0']
  else if d.unscaled < 0 then '-' :: magnitudeChars d.unscaled.natAbs d.scale
  else magnitudeChars d.unscaled.natAbs d.scale

/-- The text of a decimal. -/
def text (d : Decimal) : String := String.ofList d.chars

/-! ## Reading -/

/-- The number of a run of digits, which is not empty. -/
def readDigits? (cs : List Char) : Option Nat :=
  if cs ≠ [] ∧ cs.all Char.isDigit then some (Digits.value cs) else none

/-- An exponent: digits, with a sign in front if wanted. -/
def readExponent? : List Char → Option Int
  | '-' :: cs => (readDigits? cs).map fun n => -(n : Int)
  | '+' :: cs => (readDigits? cs).map fun n => (n : Int)
  | cs => (readDigits? cs).map fun n => (n : Int)

/-- Digits that begin with a digit and may hold underscores after it. -/
def readGrouped? (cs : List Char) : Option Nat :=
  if cs.head? = some '_' then none else readDigits? (cs.filter (· ≠ '_'))

/-- Grouped digits, with a sign in front if wanted. -/
def readSigned? : List Char → Option Int
  | '-' :: cs => (readGrouped? cs).map fun n => -(n : Int)
  | '+' :: cs => (readGrouped? cs).map fun n => (n : Int)
  | cs => (readGrouped? cs).map fun n => (n : Int)

/-- Reads a decimal. The point may stand anywhere behind the sign, or before it: the sign is
looked for in front of the digits once the point is taken out. Scales beyond 64 bits are
refused. -/
def ofChars? (cs : List Char) : Option Decimal := do
  let isMark := fun c => c = 'e' || c = 'E'
  let base := cs.takeWhile fun c => !isMark c
  let exponent ←
    match cs.dropWhile fun c => !isMark c with
    | [] => some 0
    | _ :: es => readExponent? es
  let lead := base.takeWhile (· ≠ '.')
  let trail := (base.dropWhile (· ≠ '.')).drop 1
  let unscaled ← readSigned? (lead ++ trail)
  let scale := (trail.filter (· ≠ '_')).length - exponent
  if scaleFits scale then some ⟨unscaled, scale⟩ else none

/-- Reads a decimal from a text. -/
def ofText? (s : String) : Option Decimal := ofChars? s.toList

end Decimal
end StreamTables
