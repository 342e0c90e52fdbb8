import StreamTables.Schema.Basic

/-!
# Formats

How the records of a topic are written: the names of the formats of keys and values, features of
these formats, and for windowed topics the window of the keys.

## What is here

* `Feature`, `Features`: what may be chosen about a format. Features form a set.
* `WindowKind`, `Window`: how records are grouped in time.
* `KeyFormat`: how keys are written.
* `Formats`: how the keys and values of a topic are written.
* `PayloadSchema`: a schema with the features that its payloads are written with.
-/

set_option autoImplicit false

namespace StreamTables

/-- A choice about how payloads of one column are written. -/
inductive Feature where
  /-- They are the value alone. -/
  | unwrapSingles
  /-- They are lists, as all others. -/
  | wrapSingles
  deriving DecidableEq

namespace Feature

/-- All features, in order. -/
def all : List Feature := [unwrapSingles, wrapSingles]

/-- The name of a feature. -/
def name : Feature → String
  | unwrapSingles => "UnwrapSingles"
  | wrapSingles => "WrapSingles"

/-- The feature of a name. -/
def ofName? (s : String) : Option Feature := all.find? fun f => f.name = s

end Feature

/-- A set of features. -/
structure Features where
  unwrapSingles : Bool
  wrapSingles : Bool
  deriving DecidableEq

namespace Features

/-- Whether a feature is in a set. -/
def has (fs : Features) : Feature → Bool
  | .unwrapSingles => fs.unwrapSingles
  | .wrapSingles => fs.wrapSingles

/-- The set of the features of a list. -/
def ofList (fs : List Feature) : Features :=
  ⟨fs.contains .unwrapSingles, fs.contains .wrapSingles⟩

/-- The features of a set, in order. -/
def toList (fs : Features) : List Feature := Feature.all.filter fs.has

theorem ofList_toList (fs : Features) : ofList fs.toList = fs := by
  rcases fs with ⟨_ | _, _ | _⟩ <;> rfl

end Features

/-- How windows follow each other. -/
inductive WindowKind where
  | tumbling
  | hopping
  | session
  deriving DecidableEq

namespace WindowKind

/-- The name of a kind of windows. -/
def name : WindowKind → String
  | tumbling => "Tumbling"
  | hopping => "Hopping"
  | session => "Session"

/-- The kind of windows of a name. -/
def ofName? (s : String) : Option WindowKind :=
  [tumbling, hopping, session].find? fun k => k.name = s

end WindowKind

/-- How records are grouped in time. -/
structure Window where
  kind : WindowKind
  /-- How long a window lasts, in milliseconds. The length of a session is not fixed. -/
  size : Option UInt64
  deriving DecidableEq

/-- How keys are written. -/
structure KeyFormat where
  format : String
  features : Features
  /-- The window that is part of the keys of a windowed topic. -/
  window : Option Window
  deriving DecidableEq

/-- How the keys and values of a topic are written. -/
structure Formats where
  keyFormat : String
  valueFormat : String
  keyFeatures : Features
  valueFeatures : Features
  deriving DecidableEq

/-- A schema with the features that the payloads of its keys and values are written with. -/
structure PayloadSchema where
  schema : Schema
  keyFeatures : Features
  valueFeatures : Features
  deriving DecidableEq

end StreamTables
