import StreamTables.SqlType.Basic

/-!
# Implicit casts

A value may be used where another type is expected if that type holds every value of its own: the
cast *widens*. Nothing but numbers widens, and arrays, maps and structs whose parts do.

## What is here

* `SqlType.castsTo`: whether a type casts to another implicitly.
* `castsTo_refl`: every type casts to itself.
-/

set_option autoImplicit false

namespace StreamTables

/-- Digits in front of the point that hold every integer of a type. -/
def Primitive.integerDigits? : Primitive → Option Nat
  | .integer => some 10
  | .bigint => some 19
  | _ => none

/-- Whether a primitive type casts to another. -/
def Primitive.castsTo (a b : Primitive) : Bool :=
  a = b ||
    match a, b with
    | .integer, .bigint => true
    | .integer, .double => true
    | .bigint, .double => true
    | _, _ => false

/-- Digits in front of the point of a decimal type. -/
def SqlType.wholeDigits (precision scale : UInt8) : Nat := precision.toNat - scale.toNat

mutual

/-- Whether values of a type may be used as values of another. An integer casts to a decimal with
room for all its digits, a decimal to one with no fewer digits on either side of the point, and any
number to a double. -/
def SqlType.castsTo : SqlType → SqlType → Bool
  | .primitive a, .primitive b => a.castsTo b
  | .primitive a, .decimal p s =>
    match a.integerDigits? with
    | some digits => digits ≤ SqlType.wholeDigits p s
    | none => false
  | .decimal _ _, .primitive b => b = .double
  | .decimal p s, .decimal p' s' =>
    SqlType.wholeDigits p s ≤ SqlType.wholeDigits p' s' && s ≤ s'
  | .array a, .array b => a.castsTo b
  | .map k v, .map k' v' => k.castsTo k' && v.castsTo v'
  | .struct fs, .struct fs' => fieldsCastTo fs fs'
  | _, _ => false

/-- Whether fields cast one by one, under the same names. -/
def SqlType.fieldsCastTo : List (String × SqlType) → List (String × SqlType) → Bool
  | [], [] => true
  | (n, t) :: fs, (n', t') :: fs' => n = n' && t.castsTo t' && fieldsCastTo fs fs'
  | _, _ => false

end

mutual

theorem SqlType.castsTo_refl : ∀ t : SqlType, t.castsTo t = true
  | .primitive p => by simp [SqlType.castsTo, Primitive.castsTo]
  | .decimal p s => by simp [SqlType.castsTo]
  | .array t => by simp [SqlType.castsTo, SqlType.castsTo_refl t]
  | .map k v => by simp [SqlType.castsTo, SqlType.castsTo_refl k, SqlType.castsTo_refl v]
  | .struct fs => by simp [SqlType.castsTo, SqlType.fieldsCastTo_refl fs]

theorem SqlType.fieldsCastTo_refl :
    ∀ fs : List (String × SqlType), SqlType.fieldsCastTo fs fs = true
  | [] => by simp [SqlType.fieldsCastTo]
  | (n, t) :: fs => by
    simp [SqlType.fieldsCastTo, SqlType.castsTo_refl t, SqlType.fieldsCastTo_refl fs]

end

end StreamTables
