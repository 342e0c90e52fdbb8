import StreamTables.Json.Decode

/-!
# Steps of a query plan

## What is here

* `PlanPath`: where a step stands in a query plan, as the names on the way to it.
* `PlanPath.child`: one level further down.
* `PlanPath.operatorName`, `PlanPath.text`: the name of a step, and how its path is shown.
* `PlanPath.json`, `PlanPath.decode`: a path in JSON is the array of its names.
-/

set_option autoImplicit false

namespace StreamTables

/-- The path of a step in a query plan. -/
structure PlanPath where
  steps : List String
  deriving DecidableEq

namespace PlanPath

/-- The path of a step below this one. -/
def child (p : PlanPath) (name : String) : PlanPath := ⟨p.steps ++ [name]⟩

/-- The name of a step. Stores and errors are named after it. -/
def operatorName (p : PlanPath) : String := String.intercalate "-" p.steps

/-- How a path is shown. -/
def text (p : PlanPath) : String := String.intercalate "/" p.steps

/-- The tree of a path. -/
def json (p : PlanPath) : Json := .array (p.steps.map .text)

/-- Reads a path. -/
def decode : Decoder PlanPath := fun depth j =>
  (Json.decodeList Json.decodeString depth j).map PlanPath.mk

end PlanPath
end StreamTables
