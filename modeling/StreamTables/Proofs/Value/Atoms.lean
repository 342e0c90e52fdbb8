import StreamTables.Proofs.Json.Numeral
import StreamTables.Proofs.Json.RoundTrip
import StreamTables.Proofs.Traversal
import StreamTables.Value.Json

/-!
# What values are made of

A value is a tree of arrays, maps and structs over parts that have none below them.  What can go
wrong in writing a value is a matter of these parts alone, and the rest is bookkeeping: lists of
values are equal, written and measured one by one.

## What is here

* `Value.atoms`: the parts of a value that have no others below them.
* `Value.IsReadable`: the values that a text can give.
* `Value.DoublesReadBack`: whether the doubles of a value are the same after writing and reading.
* `Value.listEqual_iff`: lists are equal one by one.
* `Value.equal_refl`: a value that a text can give equals itself.
* `Value.isWritten_json`: what values are written as is read back.
-/

set_option autoImplicit false

namespace StreamTables
namespace Value

/-! ## Parts -/

mutual

/-- The parts of a value that have no others below them. -/
def atoms : Value → List Value
  | array items => listAtoms items
  | map entries => entriesAtoms entries
  | struct fields => fieldsAtoms fields
  | v => [v]

/-- The parts of values. -/
def listAtoms : List Value → List Value
  | [] => []
  | v :: vs => v.atoms ++ listAtoms vs

/-- The parts of a map's keys and values. -/
def entriesAtoms : List (Value × Value) → List Value
  | [] => []
  | (k, v) :: entries => k.atoms ++ v.atoms ++ entriesAtoms entries

/-- The parts of a struct's fields. -/
def fieldsAtoms : List (String × Value) → List Value
  | [] => []
  | (_, v) :: fields => v.atoms ++ fieldsAtoms fields

end

/-- Whether a part may come from a text: doubles are finite, and the scales of decimals fit. -/
def IsReadableAtom : Value → Prop
  | decimal d => Decimal.scaleFits d.scale = true
  | double d => d.isFinite = true
  | _ => True

/-- Whether a value may come from a text. -/
def IsReadable (v : Value) : Prop := ∀ a ∈ v.atoms, a.IsReadableAtom

instance (a : Value) : Decidable a.IsReadableAtom :=
  match a with
  | decimal d => inferInstanceAs (Decidable (Decimal.scaleFits d.scale = true))
  | double d => inferInstanceAs (Decidable (d.isFinite = true))
  | null | boolean _ | integer _ | bigint _ | string _ | bytes _ | date _ | time _ | timestamp _
  | array _ | map _ | struct _ => .isTrue trivial

instance (v : Value) : Decidable v.IsReadable :=
  inferInstanceAs (Decidable (∀ a ∈ v.atoms, a.IsReadableAtom))

/-- Whether the doubles of a value are the same after writing and reading. -/
def DoublesReadBack (v : Value) : Prop := ∀ d, double d ∈ v.atoms → d.ReadsBack

/-- Whether a part is the same after writing and reading, if it is a double. -/
def isDoubleReadBack : Value → Bool
  | double d => d.ReadsBack
  | _ => true

theorem doublesReadBack_iff {v : Value} :
    v.DoublesReadBack ↔ v.atoms.all isDoubleReadBack = true := by
  rw [List.all_eq_true]
  constructor
  · intro h a ha
    cases a with
    | double d => exact decide_eq_true (h d ha)
    | _ => rfl
  · intro h d hd
    exact of_decide_eq_true (h _ hd)

instance (v : Value) : Decidable v.DoublesReadBack := decidable_of_iff' _ doublesReadBack_iff

theorem mem_listAtoms {a : Value} {vs : List Value} : a ∈ listAtoms vs ↔ ∃ v ∈ vs, a ∈ v.atoms := by
  induction vs with
  | nil => simp [listAtoms]
  | cons v vs ih => simp [listAtoms, ih]

theorem mem_entriesAtoms {a : Value} {es : List (Value × Value)} :
    a ∈ entriesAtoms es ↔ ∃ e ∈ es, a ∈ e.1.atoms ∨ a ∈ e.2.atoms := by
  induction es with
  | nil => simp [entriesAtoms]
  | cons e es ih =>
    obtain ⟨k, v⟩ := e
    simp [entriesAtoms, ih, or_assoc]

theorem mem_fieldsAtoms {a : Value} {fs : List (String × Value)} :
    a ∈ fieldsAtoms fs ↔ ∃ f ∈ fs, a ∈ f.2.atoms := by
  induction fs with
  | nil => simp [fieldsAtoms]
  | cons f fs ih =>
    obtain ⟨n, v⟩ := f
    simp [fieldsAtoms, ih]

/-! ## Equality -/

theorem listEqual_iff {as bs : List Value} :
    listEqual as bs = true ↔ List.Forall₂ (fun a b => a.equal b = true) as bs := by
  induction as generalizing bs with
  | nil => cases bs <;> simp [listEqual]
  | cons a as ih => cases bs <;> simp [listEqual, ih]

mutual

/-- **A value that a text can give equals itself.** -/
theorem equal_refl : ∀ {v : Value}, v.IsReadable → v.equal v = true
  | null, _ => by rw [equal]
  | boolean _, _ => by simp [equal]
  | integer _, _ => by simp [equal]
  | bigint _, _ => by simp [equal]
  | decimal d, _ => by
    rw [equal]
    exact d.equal_refl
  | double d, h => by
    rw [equal]
    exact Double.equal_self_of_isFinite (h (double d) (List.mem_cons_self ..))
  | string _, _ => by simp [equal]
  | bytes _, _ => by simp [equal]
  | date _, _ => by simp [equal]
  | time _, _ => by simp [equal]
  | timestamp _, _ => by simp [equal]
  | array items, h => by
    rw [equal]
    exact listEqual_refl h
  | map entries, h => by
    rw [equal]
    exact entriesEqual_refl h
  | struct fields, h => by
    rw [equal]
    exact fieldsEqual_refl h

theorem listEqual_refl : ∀ {vs : List Value}, (∀ a ∈ listAtoms vs, a.IsReadableAtom) →
    listEqual vs vs = true
  | [], _ => by rw [listEqual]
  | v :: vs, h => by
    rw [listAtoms, List.forall_mem_append] at h
    rw [listEqual, equal_refl h.1, listEqual_refl h.2]
    rfl

theorem entriesEqual_refl : ∀ {es : List (Value × Value)},
    (∀ a ∈ entriesAtoms es, a.IsReadableAtom) → entriesEqual es es = true
  | [], _ => by rw [entriesEqual]
  | (k, v) :: es, h => by
    rw [entriesAtoms, List.forall_mem_append, List.forall_mem_append] at h
    rw [entriesEqual, equal_refl h.1.1, equal_refl h.1.2, entriesEqual_refl h.2]
    rfl

theorem fieldsEqual_refl : ∀ {fs : List (String × Value)},
    (∀ a ∈ fieldsAtoms fs, a.IsReadableAtom) → fieldsEqual fs fs = true
  | [], _ => by rw [fieldsEqual]
  | (n, v) :: fs, h => by
    rw [fieldsAtoms, List.forall_mem_append] at h
    rw [fieldsEqual, equal_refl h.1, fieldsEqual_refl h.2]
    simp

end

/-! ## Writing -/

theorem listJson_eq_map (vs : List Value) : listJson vs = vs.map json := by
  induction vs with
  | nil => rfl
  | cons v vs ih => rw [listJson, ih, List.map_cons]

theorem entriesJson_eq_map (es : List (Value × Value)) :
    entriesJson es = es.map fun e => .array [e.1.json, e.2.json] := by
  induction es with
  | nil => rfl
  | cons e es ih => rw [entriesJson, ih, List.map_cons]

theorem fieldsJson_eq_map (fs : List (String × Value)) :
    fieldsJson fs = fs.map fun f => .array [.text f.1, f.2.json] := by
  induction fs with
  | nil => rfl
  | cons f fs ih => rw [fieldsJson, ih, List.map_cons]

/-- The names of kinds need no escapes. -/
theorem plain_name (kind : BaseType) : Literal.plain kind.name = .ofText kind.name := by
  cases kind <;> decide

theorem isWritten_tagged (kind : BaseType) {j : Json} (h : j.IsWritten) :
    (tagged kind j).IsWritten :=
  ⟨⟨kind.name, plain_name kind⟩, h, trivial⟩

theorem isWritten_int (i : Int) : (Json.int i).IsWritten := Numeral.isLiteral_ofInt i

mutual

/-- **What a value is written as is read back.** -/
theorem isWritten_json : ∀ v : Value, v.json.IsWritten
  | null => rfl
  | boolean _ => isWritten_tagged _ trivial
  | integer i => isWritten_tagged _ (isWritten_int i.toInt)
  | bigint i => isWritten_tagged _ (isWritten_int i.toInt)
  | decimal _ => isWritten_tagged _ rfl
  | double d => by
    rw [json]
    refine isWritten_tagged _ ?_
    split
    · exact Numeral.isLiteral_ofDouble d
    · trivial
  | string _ => isWritten_tagged _ rfl
  | bytes bs => isWritten_tagged _ (Json.itemsWritten_map fun b _ => isWritten_int b.toNat)
  | date i => isWritten_tagged _ (isWritten_int i.toInt)
  | time i => isWritten_tagged _ (isWritten_int i.toInt)
  | timestamp i => isWritten_tagged _ (isWritten_int i.toInt)
  | array items => isWritten_tagged _ (itemsWritten_listJson items)
  | map entries => isWritten_tagged _ (itemsWritten_entriesJson entries)
  | struct fields => isWritten_tagged _ (itemsWritten_fieldsJson fields)

theorem itemsWritten_listJson : ∀ vs : List Value, Json.ItemsWritten (listJson vs)
  | [] => trivial
  | v :: vs => ⟨isWritten_json v, itemsWritten_listJson vs⟩

theorem itemsWritten_entriesJson :
    ∀ es : List (Value × Value), Json.ItemsWritten (entriesJson es)
  | [] => trivial
  | (k, v) :: es =>
    ⟨⟨isWritten_json k, isWritten_json v, trivial⟩, itemsWritten_entriesJson es⟩

theorem itemsWritten_fieldsJson :
    ∀ fs : List (String × Value), Json.ItemsWritten (fieldsJson fs)
  | [] => trivial
  | (_, v) :: fs => ⟨⟨rfl, isWritten_json v, trivial⟩, itemsWritten_fieldsJson fs⟩

end

/-! ## Measuring -/

theorem depth_tagged (kind : BaseType) (j : Json) : (tagged kind j).depth = j.depth + 1 := by
  rw [tagged, Json.record, List.map_singleton, Json.depth, Json.fieldsDepth, Json.fieldsDepth,
    Nat.max_zero]

end Value
end StreamTables
