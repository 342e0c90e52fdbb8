import StreamTables.Error
import StreamTables.SqlType.Basic
import StreamTables.Text.Blank
import StreamTables.Text.UpperCase

/-!
# Names of types

The types that have a name: the primitive ones, some of them under two names, and decimals with
their two parameters. Case and surrounding blanks do not matter.

## What is here

* `SqlType.ofText?`: the type of a name, if there is any.
* `SqlType.ofText`: the type of a name, or the error that there is none.
-/

set_option autoImplicit false

namespace StreamTables
namespace SqlType

/-- The names of the primitive types. -/
def names : List (String × Primitive) :=
  [("BOOLEAN", .boolean), ("BOOL", .boolean), ("INTEGER", .integer), ("INT", .integer),
    ("BIGINT", .bigint), ("DOUBLE", .double), ("STRING", .string), ("VARCHAR", .string),
    ("BYTES", .bytes), ("DATE", .date), ("TIME", .time), ("TIMESTAMP", .timestamp)]

/-- What follows the characters `start` at the head of a text. -/
def afterStart? : (start cs : List Char) → Option (List Char)
  | [], cs => some cs
  | _ :: _, [] => none
  | s :: start, c :: cs => if s = c then afterStart? start cs else none

/-- What comes before the character `last` at the end of a text. -/
def beforeLast? (last : Char) (cs : List Char) : Option (List Char) :=
  if cs.getLast? = some last then some cs.dropLast else none

/-- The two parts of a text around its first comma. -/
def splitComma? (cs : List Char) : Option (List Char × List Char) :=
  match cs.dropWhile (· ≠ ',') with
  | [] => none
  | _ :: rest => some (cs.takeWhile (· ≠ ','), rest)

/-- Reads a number below 256: digits, with a plus sign in front if wanted, and zeros in front of
it at will. -/
def readByte? (cs : List Char) : Option UInt8 :=
  let ds := (afterStart? ['+'] cs).getD cs
  if ds ≠ [] ∧ ds.all Char.isDigit ∧ Digits.value ds < 256 then
    some (UInt8.ofNat (Digits.value ds))
  else none

/-- Reads a decimal type in upper case. It has at least one digit, and no more places than
digits. -/
def decimalOfChars? (cs : List Char) : Option SqlType := do
  let inner ← afterStart? ['D', 'E', 'C', 'I', 'M', 'A', 'L', '('] cs
  let inner ← beforeLast? ')' inner
  let (p, s) ← splitComma? inner
  let p ← readByte? (Text.trim p)
  let s ← readByte? (Text.trim s)
  if p = 0 ∨ p < s then none else some (.decimal p s)

/-- The type of a name. -/
def ofText? (text : String) : Option SqlType :=
  let word := Text.upper (Text.trim text.toList)
  match names.lookup (String.ofList word) with
  | some p => some (.primitive p)
  | none => decimalOfChars? word

/-- The type of a name, which has to be that of one. -/
def ofText (text : String) : Except Error SqlType :=
  match ofText? text with
  | some t => .ok t
  | none => .error (.unknownType text)

end SqlType
end StreamTables
