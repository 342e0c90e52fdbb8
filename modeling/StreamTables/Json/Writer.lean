import StreamTables.Json.Basic

/-!
# Writing JSON

Trees are written without white space. In a string only quotes, backslashes and the characters
below the space are escaped; five of these have short escapes, and the others are given by number.

## What is here

* `Json.escape`: the writing of one character of a string.
* `Json.chars`, `Json.render`: the text of a tree.
-/

set_option autoImplicit false

namespace StreamTables
namespace Json

/-- A hexadecimal digit, in lower case. -/
def hexChar (d : Nat) : Char := if d < 10 then Digits.char d else Char.ofNat (87 + d)

/-- How a character of a string is written. -/
def escape (c : Char) : List Char :=
  match c.toNat with
  | 0x22 => ['\x5c', '\x22']
  | 0x5C => ['\x5c', '\x5c']
  | 0x08 => ['\x5c', 'b']
  | 0x09 => ['\x5c', 't']
  | 0x0A => ['\x5c', 'n']
  | 0x0C => ['\x5c', 'f']
  | 0x0D => ['\x5c', 'r']
  | n => if n < 0x20 then ['\x5c', 'u', '0', '0', hexChar (n / 16), hexChar (n % 16)] else [c]

/-- A text in quotes. -/
def quote (s : String) : List Char := '\x22' :: (s.toList.flatMap escape ++ ['\x22'])

/-- A string literal. One without a text is written as the unpaired surrogate it may have been. -/
def literal : Option String → List Char
  | some s => quote s
  | none => ['\x22', '\x5c', 'u', 'd', '8', '0', '0', '\x22']

mutual

/-- The characters of a tree's text. -/
def chars : Json → List Char
  | .null => ['n', 'u', 'l', 'l']
  | .bool true => ['t', 'r', 'u', 'e']
  | .bool false => ['f', 'a', 'l', 's', 'e']
  | .number n => n.chars
  | .string s => literal s
  | .array [] => ['[', ']']
  | .array (item :: items) => '[' :: (item.chars ++ moreItems items)
  | .object [] => ['\x7b', '\x7d']
  | .object ((name, value) :: fields) =>
    '\x7b' :: (literal name.text? ++ ':' :: (value.chars ++ moreFields fields))
  | .malformed => []

/-- The items after the first one, each after a comma, and the closing bracket. -/
def moreItems : List Json → List Char
  | [] => [']']
  | item :: items => ',' :: (item.chars ++ moreItems items)

/-- The fields after the first one, each after a comma, and the closing brace. -/
def moreFields : List (Literal × Json) → List Char
  | [] => ['\x7d']
  | (name, value) :: fields =>
    ',' :: (literal name.text? ++ ':' :: (value.chars ++ moreFields fields))

end

/-- The text of a tree. -/
def render (j : Json) : String := String.ofList j.chars

end Json
end StreamTables
