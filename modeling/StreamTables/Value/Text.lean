import StreamTables.Value.Basic

/-!
# Values as texts

## What is here

* `Value.text`: how a value is shown.
* `Value.listText`: how the items of a list are shown.
-/

set_option autoImplicit false

namespace StreamTables
namespace Value

/-- The two hexadecimal digits of a byte, in lower case. -/
def hexByte (b : UInt8) : List Char :=
  let digit := fun d => if d < 10 then Digits.char d else Char.ofNat (87 + d)
  [digit (b.toNat / 16), digit (b.toNat % 16)]

/-- Bytes in hexadecimal digits. -/
def hexText (bs : List UInt8) : String := String.ofList (bs.flatMap hexByte)

mutual

/-- How a value is shown. -/
def text : Value → String
  | null => "NULL"
  | boolean true => "true"
  | boolean false => "false"
  | integer i => Digits.intText i.toInt
  | bigint i => Digits.intText i.toInt
  | decimal d => d.text
  | double d => d.text
  | string s => "'" ++ s ++ "'"
  | bytes bs => "0x" ++ hexText bs
  | date i => "DATE(" ++ Digits.intText i.toInt ++ ")"
  | time i => "TIME(" ++ Digits.intText i.toInt ++ ")"
  | timestamp i => "TIMESTAMP(" ++ Digits.intText i.toInt ++ ")"
  | array items => "[" ++ String.intercalate ", " (texts items) ++ "]"
  | map entries => "\x7b" ++ String.intercalate ", " (entryTexts entries) ++ "\x7d"
  | struct fields => "\x7b" ++ String.intercalate ", " (fieldTexts fields) ++ "\x7d"

/-- How values are shown. -/
def texts : List Value → List String
  | [] => []
  | v :: vs => v.text :: texts vs

/-- How the entries of a map are shown. -/
def entryTexts : List (Value × Value) → List String
  | [] => []
  | (k, v) :: entries => (k.text ++ ": " ++ v.text) :: entryTexts entries

/-- How the fields of a struct are shown, each with its name in backticks. -/
def fieldTexts : List (String × Value) → List String
  | [] => []
  | (name, v) :: fields => ("`" ++ name ++ "`: " ++ v.text) :: fieldTexts fields

end

/-- How a list of values is shown. -/
def listText (vs : List Value) : String := String.intercalate ", " (texts vs)

end Value
end StreamTables
