import StreamTables.Decimal.Text
import StreamTables.Double.Shortest

/-!
# Doubles as texts

## What is here

* `Double.text`: the fewest digits that identify the double, always written out without an
  exponent, and `NaN`, `inf` or `-inf`.
* `Double.ofText?`: reading a text of that kind, or with an exponent, to the nearest double.
-/

set_option autoImplicit false

namespace StreamTables
namespace Double

/-! ## Writing -/

/-- The digits `ds` times `10 ^ k`, written out. -/
def fixed (ds : List Char) (k : Int) : List Char :=
  if 0 ≤ k then ds ++ List.replicate k.toNat '0' else Digits.place ds k.natAbs

/-- The text of a finite magnitude. Of two equally close decimals the larger one is written. -/
def magnitudeChars (m : Nat) : List Char :=
  if m = 0 then ['0']
  else
    let (c, k) := shortest .up m
    fixed (Digits.ofNat c) k

/-- The characters of a double's text. -/
def chars (d : Double) : List Char :=
  if d.isNaN then ['N', 'a', 'N']
  else
    let unsigned := if d.isFinite then magnitudeChars d.magnitude else ['i', 'n', 'f']
    if d.negative then '-' :: unsigned else unsigned

/-- The text of a double. -/
def text (d : Double) : String := String.ofList d.chars

/-! ## Reading -/

/-- The magnitude nearest to `n * 10 ^ k`. Beyond the range of doubles no power is computed. -/
def nearestDecimal (n : Nat) (k : Int) : Nat :=
  let top := k + (Digits.ofNat n).length
  if n = 0 ∨ top < -400 then 0
  else if 400 < top then infinity
  else nearest (n * 10 ^ k.toNat) (10 ^ (-k).toNat)

/-- Reads an unsigned number: digits with a point among them and an exponent, or one of the names
of infinity and NaN in any case of letters. -/
def readUnsigned? (negative : Bool) (cs : List Char) : Option Double :=
  let name := cs.map Char.toLower
  if name = ['i', 'n', 'f'] ∨ name = ['i', 'n', 'f', 'i', 'n', 'i', 't', 'y'] then
    some (ofMagnitude negative infinity)
  else if name = ['n', 'a', 'n'] then some nan
  else do
    let isMark := fun c => c = 'e' || c = 'E'
    let base := cs.takeWhile fun c => !isMark c
    let exponent ←
      match cs.dropWhile fun c => !isMark c with
      | [] => some 0
      | _ :: es => Decimal.readExponent? es
    let lead := base.takeWhile (· ≠ '.')
    let trail := (base.dropWhile (· ≠ '.')).drop 1
    let n ← Decimal.readDigits? (lead ++ trail)
    some (ofMagnitude negative (nearestDecimal n (exponent - trail.length)))

/-- Reads a double from a text, to the nearest one. -/
def ofText? (s : String) : Option Double :=
  match s.toList with
  | '-' :: cs => readUnsigned? true cs
  | '+' :: cs => readUnsigned? false cs
  | cs => readUnsigned? false cs

end Double
end StreamTables
