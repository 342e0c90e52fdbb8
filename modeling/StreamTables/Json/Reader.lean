import StreamTables.Json.Token

/-!
# Reading JSON

Tokens are put together by a machine that keeps the arrays and objects it is inside of on a stack.

## What is here

* `Frame`: an array or object that is not complete yet.
* `Awaiting`: what may come next.
* `Reader.step`, `Reader.run`: the machine. It ends at the first token that does not fit, and
  closes the open frames around a `malformed` leaf.
* `Document.ofText`: the tree of a text, and whether the text ends with it.
-/

set_option autoImplicit false

namespace StreamTables

/-- An array or object that is being read, with the latest item or field first. -/
inductive Frame where
  | array (items : List Json)
  /-- The name is that of the field whose value comes next, and `broken` until it is read. -/
  | object (fields : List (Literal × Json)) (name : Literal)

/-- What a reader inside a text is waiting for. -/
inductive Awaiting where
  | value
  /-- The first item of an array, or its end. -/
  | firstItem
  /-- The first field name of an object, or its end. -/
  | firstName
  | name
  | colon
  /-- A comma, or the end of the innermost frame. -/
  | more
  deriving DecidableEq

/-- A text that was read: its tree, and whether the text ends there. -/
structure Document where
  tree : Json
  ended : Bool

namespace Reader

/-- What one token leads to. -/
inductive Step where
  | go (stack : List Frame) (awaiting : Awaiting)
  | done (tree : Json)
  | stuck

/-- A value is complete: it is the tree itself, or goes into the innermost frame. -/
def settle (j : Json) : List Frame → Step
  | [] => .done j
  | .array items :: stack => .go (.array (j :: items) :: stack) .more
  | .object fields name :: stack => .go (.object ((name, j) :: fields) .broken :: stack) .more

/-- The first token of a value. -/
def start (stack : List Frame) : Token → Step
  | .null => settle .null stack
  | .bool b => settle (.bool b) stack
  | .number n => settle (.number n) stack
  | .string s => settle (.string s.text?) stack
  | .beginArray => .go (.array [] :: stack) .firstItem
  | .beginObject => .go (.object [] .broken :: stack) .firstName
  | _ => .stuck

/-- The token that ends the innermost frame. -/
def finish : List Frame → Token → Step
  | .array items :: stack, .endArray => settle (.array items.reverse) stack
  | .object fields _ :: stack, .endObject => settle (.object fields.reverse) stack
  | _, _ => .stuck

/-- The name of a field. -/
def label : List Frame → Token → Step
  | .object fields _ :: stack, .string name => .go (.object fields name :: stack) .colon
  | _, _ => .stuck

/-- What a token leads to. -/
def step (stack : List Frame) (awaiting : Awaiting) (t : Token) : Step :=
  match awaiting, t, stack with
  | .value, t, _ => start stack t
  | .firstItem, .endArray, _ => finish stack t
  | .firstItem, t, _ => start stack t
  | .firstName, .endObject, _ => finish stack t
  | .firstName, t, _ => label stack t
  | .name, t, _ => label stack t
  | .colon, .colon, _ => .go stack .value
  | .colon, _, _ => .stuck
  | .more, .comma, .array _ :: _ => .go stack .value
  | .more, .comma, .object _ _ :: _ => .go stack .name
  | .more, t, _ => finish stack t

/-- Puts a value into the innermost frame and ends all frames where they are. -/
def close (j : Json) : List Frame → Json
  | [] => j
  | .array items :: stack => close (.array (j :: items).reverse) stack
  | .object fields name :: stack => close (.object ((name, j) :: fields).reverse) stack

/-- Reads a value to its end or to the first token that does not fit. -/
def run : List Token → List Frame → Awaiting → Document
  | [], stack, _ => ⟨close .malformed stack, true⟩
  | t :: ts, stack, awaiting =>
    match step stack awaiting t with
    | .go stack awaiting => run ts stack awaiting
    | .done j => ⟨j, ts.isEmpty⟩
    | .stuck => ⟨close .malformed stack, true⟩

end Reader

/-- Reads a text. -/
def Document.ofText (s : String) : Document :=
  Reader.run (Token.ofChars s.toList) [] .value

end StreamTables
