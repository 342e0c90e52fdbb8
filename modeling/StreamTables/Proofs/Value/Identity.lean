import StreamTables.Proofs.Value.RoundTrip

/-!
# Two ways to tell values apart

Values can be compared, and so can what they are written as.  The two do not come to the same.  What
is written alike is equal, so that a text stands for one value.  But decimals of one value may be
written with different numbers of places, and the two zeros of doubles are written with their
signs, and wherever one of these stands in an array, a map or a struct, that is written in more than
one way as well.  All other values are written in one way.

## What is here

* `Value.SameKind`: whether two values are of one kind.
* `Value.equal_of_json_eq`: values that are written alike are equal.
* `Value.IsWrittenOneWay`: whether no decimal and no double of a value is written in another way.
* `Value.json_eq_of_equal`: such values are written as all that equal them are.
-/

set_option autoImplicit false

namespace StreamTables

@[simp] theorem Json.int_inj {i j : Int} : int i = int j ↔ i = j := by
  constructor
  · intro h
    rw [int, int, number.injEq] at h
    simpa [Numeral.integer?_ofInt] using congrArg Numeral.integer? h
  · exact congrArg int

@[simp] theorem Json.text_inj {s t : String} : text s = text t ↔ s = t := by simp [text]

namespace Value

/-! ## Kinds -/

/-- Whether two values are of one kind. -/
inductive SameKind : Value → Value → Prop where
  | null : SameKind null null
  | boolean (a b : Bool) : SameKind (boolean a) (boolean b)
  | integer (i j : Int32) : SameKind (integer i) (integer j)
  | bigint (i j : Int64) : SameKind (bigint i) (bigint j)
  | decimal (d e : Decimal) : SameKind (decimal d) (decimal e)
  | double (d e : Double) : SameKind (double d) (double e)
  | string (s t : String) : SameKind (string s) (string t)
  | bytes (as bs : List UInt8) : SameKind (bytes as) (bytes bs)
  | date (i j : Int32) : SameKind (date i) (date j)
  | time (i j : Int64) : SameKind (time i) (time j)
  | timestamp (i j : Int64) : SameKind (timestamp i) (timestamp j)
  | array (as bs : List Value) : SameKind (array as) (array bs)
  | map (as bs : List (Value × Value)) : SameKind (map as) (map bs)
  | struct (as bs : List (String × Value)) : SameKind (struct as) (struct bs)

theorem sameKind_of_baseType? {v w : Value} (h : v.baseType? = w.baseType?) : SameKind v w := by
  cases v <;> cases w <;> first | constructor | simp [baseType?] at h

@[simp] theorem tagged_inj {k l : BaseType} {i j : Json} :
    tagged k i = tagged l j ↔ k = l ∧ i = j := by
  constructor
  · intro h
    simp only [tagged, Json.record, List.map_cons, List.map_nil, Json.object.injEq, List.cons.injEq,
      Prod.mk.injEq, Literal.plain.injEq, and_true] at h
    have hkind := congrArg BaseType.ofName? h.1
    rw [ofName?_name, ofName?_name] at hkind
    exact ⟨Option.some.inj hkind, h.2⟩
  · rintro ⟨rfl, rfl⟩
    rfl

@[simp] theorem text_ne_tagged {s : String} {k : BaseType} {j : Json} :
    Json.text s ≠ tagged k j := by
  simp [Json.text, tagged, Json.record]

/-- The kind of a value can be told from what it is written as. -/
theorem baseType?_eq_of_json_eq {v w : Value} (h : v.json = w.json) :
    v.baseType? = w.baseType? := by
  have hkind : ∀ v : Value, v = Value.null ∨ ∃ k j, v.baseType? = some k ∧ v.json = tagged k j := by
    intro v
    cases v <;> first | exact .inl rfl | exact .inr ⟨_, _, rfl, rfl⟩
  rcases hkind v with rfl | ⟨k, i, hk, hv⟩ <;> rcases hkind w with rfl | ⟨l, j, hl, hw⟩
  · rfl
  · rw [hw] at h
    exact absurd h text_ne_tagged
  · rw [hv] at h
    exact absurd h.symm text_ne_tagged
  · rw [hv, hw, tagged_inj] at h
    rw [hk, hl, h.1]

theorem sameKind_of_json_eq {v w : Value} (h : v.json = w.json) : SameKind v w :=
  sameKind_of_baseType? (baseType?_eq_of_json_eq h)

/-! ## What is written alike is equal -/

mutual

/-- **Values that are written alike are equal**, if a text can give one of them. -/
theorem equal_of_json_eq : ∀ {v w : Value}, v.IsReadable → v.json = w.json → v.equal w = true
  | null, w, _, h => by
    cases sameKind_of_json_eq h
    rw [equal]
  | boolean _, w, _, h
  | string _, w, _, h => by
    cases sameKind_of_json_eq h
    simpa [json, equal] using h
  | integer _, w, _, h
  | date _, w, _, h => by
    cases sameKind_of_json_eq h
    simpa [json, equal, Int32.toInt_inj] using h
  | bigint _, w, _, h
  | time _, w, _, h
  | timestamp _, w, _, h => by
    cases sameKind_of_json_eq h
    simpa [json, equal, Int64.toInt_inj] using h
  | decimal d, w, hread, h => by
    cases sameKind_of_json_eq h with
    | decimal _ e =>
      have htext : d.text = e.text := by simpa [json] using h
      rw [equal]
      exact Decimal.equal_of_text_eq (hread (decimal d) (List.mem_cons_self ..)) htext
  | double d, w, hread, h => by
    cases sameKind_of_json_eq h with
    | double _ e =>
      have hd : d.isFinite = true := hread (double d) (List.mem_cons_self ..)
      rw [json, json, tagged_inj, if_pos hd] at h
      have he : e.isFinite = true := by
        by_contra he
        rw [if_neg he] at h
        exact nomatch h.2
      rw [if_pos he, Json.number.injEq] at h
      obtain rfl := Numeral.ofDouble_injective hd he h.2
      rw [equal]
      exact Double.equal_self_of_isFinite hd
  | bytes bs, w, _, h => by
    cases sameKind_of_json_eq h with
    | bytes _ cs =>
      have hbytes : bs.map (fun b => Json.int b.toNat) = cs.map fun b => Json.int b.toNat := by
        simpa [json] using h
      have heq : bs = cs := by
        refine (List.map_inj_right fun a b hab => ?_).1 hbytes
        simpa [UInt8.toNat_inj] using hab
      simpa [equal] using heq
  | array as, w, hread, h => by
    cases sameKind_of_json_eq h with
    | array _ bs =>
      rw [equal]
      exact listEqual_of_json_eq hread (by simpa [json] using h)
  | map as, w, hread, h => by
    cases sameKind_of_json_eq h with
    | map _ bs =>
      rw [equal]
      exact entriesEqual_of_json_eq hread (by simpa [json] using h)
  | struct as, w, hread, h => by
    cases sameKind_of_json_eq h with
    | struct _ bs =>
      rw [equal]
      exact fieldsEqual_of_json_eq hread (by simpa [json] using h)

theorem listEqual_of_json_eq : ∀ {vs ws : List Value}, (∀ a ∈ listAtoms vs, a.IsReadableAtom) →
    listJson vs = listJson ws → listEqual vs ws = true
  | [], [], _, _ => by rw [listEqual]
  | v :: vs, w :: ws, hread, h => by
    rw [listAtoms, List.forall_mem_append] at hread
    obtain ⟨hv, hvs⟩ : v.json = w.json ∧ listJson vs = listJson ws := by simpa [listJson] using h
    rw [listEqual, equal_of_json_eq hread.1 hv, listEqual_of_json_eq hread.2 hvs]
    rfl

theorem entriesEqual_of_json_eq : ∀ {vs ws : List (Value × Value)},
    (∀ a ∈ entriesAtoms vs, a.IsReadableAtom) → entriesJson vs = entriesJson ws →
      entriesEqual vs ws = true
  | [], [], _, _ => by rw [entriesEqual]
  | (k, v) :: vs, (l, w) :: ws, hread, h => by
    rw [entriesAtoms, List.forall_mem_append, List.forall_mem_append] at hread
    obtain ⟨⟨hk, hv⟩, hvs⟩ :
        (k.json = l.json ∧ v.json = w.json) ∧ entriesJson vs = entriesJson ws := by
      simpa [entriesJson] using h
    rw [entriesEqual, equal_of_json_eq hread.1.1 hk, equal_of_json_eq hread.1.2 hv,
      entriesEqual_of_json_eq hread.2 hvs]
    rfl

theorem fieldsEqual_of_json_eq : ∀ {vs ws : List (String × Value)},
    (∀ a ∈ fieldsAtoms vs, a.IsReadableAtom) → fieldsJson vs = fieldsJson ws →
      fieldsEqual vs ws = true
  | [], [], _, _ => by rw [fieldsEqual]
  | (n, v) :: vs, (m, w) :: ws, hread, h => by
    rw [fieldsAtoms, List.forall_mem_append] at hread
    obtain ⟨⟨rfl, hv⟩, hvs⟩ : (n = m ∧ v.json = w.json) ∧ fieldsJson vs = fieldsJson ws := by
      simpa [fieldsJson] using h
    rw [fieldsEqual, equal_of_json_eq hread.1 hv, fieldsEqual_of_json_eq hread.2 hvs]
    simp

end

/-! ## What is written in one way -/

/-- Whether a part is written as all that equal it are.  A decimal is not unless it is zero, and a
double is if it is not. -/
def IsWrittenOneWayAtom : Value → Prop
  | decimal d => d.unscaled = 0
  | double d => d.magnitude ≠ 0
  | _ => True

instance (a : Value) : Decidable a.IsWrittenOneWayAtom :=
  match a with
  | decimal d => inferInstanceAs (Decidable (d.unscaled = 0))
  | double d => inferInstanceAs (Decidable (d.magnitude ≠ 0))
  | null | boolean _ | integer _ | bigint _ | string _ | bytes _ | date _ | time _ | timestamp _
  | array _ | map _ | struct _ => .isTrue trivial

/-- Whether all parts of a value are written as all that equal them are. -/
def IsWrittenOneWay (v : Value) : Prop := ∀ a ∈ v.atoms, a.IsWrittenOneWayAtom

instance (v : Value) : Decidable v.IsWrittenOneWay :=
  inferInstanceAs (Decidable (∀ a ∈ v.atoms, a.IsWrittenOneWayAtom))

theorem sameKind_of_equal {v w : Value} (h : v.equal w = true) : SameKind v w :=
  sameKind_of_baseType? (baseType?_eq_of_equal h)

mutual

/-- **Such a value is written as all that equal it are.** -/
theorem json_eq_of_equal : ∀ {v w : Value}, w.IsWrittenOneWay → v.equal w = true → v.json = w.json
  | null, w, _, h => by
    cases sameKind_of_equal h
    rfl
  | boolean _, w, _, h
  | string _, w, _, h => by
    cases sameKind_of_equal h
    simpa [json, equal] using h
  | integer _, w, _, h
  | date _, w, _, h => by
    cases sameKind_of_equal h
    simpa [json, equal, Int32.toInt_inj] using h
  | bigint _, w, _, h
  | time _, w, _, h
  | timestamp _, w, _, h => by
    cases sameKind_of_equal h
    simpa [json, equal, Int64.toInt_inj] using h
  | decimal d, w, hone, h => by
    cases sameKind_of_equal h with
    | decimal _ e =>
      have hzero : e.unscaled = 0 := hone (decimal e) (List.mem_cons_self ..)
      rw [equal] at h
      rw [json, json, Decimal.text_eq_of_equal_zero hzero h]
  | double d, w, hone, h => by
    cases sameKind_of_equal h with
    | double _ e =>
      have hzero : e.magnitude ≠ 0 := hone (double e) (List.mem_cons_self ..)
      simp only [equal, Double.equal, Bool.and_eq_true, Bool.or_eq_true, decide_eq_true_eq] at h
      obtain rfl := h.2.resolve_right fun hboth => hzero hboth.2
      rfl
  | bytes bs, w, _, h => by
    cases sameKind_of_equal h with
    | bytes _ cs =>
      obtain rfl : bs = cs := by simpa [equal] using h
      rfl
  | array as, w, hone, h => by
    cases sameKind_of_equal h with
    | array _ bs =>
      rw [equal] at h
      rw [json, json, listJson_eq_of_listEqual hone h]
  | map as, w, hone, h => by
    cases sameKind_of_equal h with
    | map _ bs =>
      rw [equal] at h
      rw [json, json, entriesJson_eq_of_entriesEqual hone h]
  | struct as, w, hone, h => by
    cases sameKind_of_equal h with
    | struct _ bs =>
      rw [equal] at h
      rw [json, json, fieldsJson_eq_of_fieldsEqual hone h]

theorem listJson_eq_of_listEqual : ∀ {vs ws : List Value},
    (∀ a ∈ listAtoms ws, a.IsWrittenOneWayAtom) → listEqual vs ws = true →
      listJson vs = listJson ws
  | [], [], _, _ => rfl
  | [], _ :: _, _, h
  | _ :: _, [], _, h => by simp [listEqual] at h
  | v :: vs, w :: ws, hone, h => by
    rw [listAtoms, List.forall_mem_append] at hone
    rw [listEqual, Bool.and_eq_true] at h
    rw [listJson, listJson, json_eq_of_equal hone.1 h.1, listJson_eq_of_listEqual hone.2 h.2]

theorem entriesJson_eq_of_entriesEqual : ∀ {vs ws : List (Value × Value)},
    (∀ a ∈ entriesAtoms ws, a.IsWrittenOneWayAtom) → entriesEqual vs ws = true →
      entriesJson vs = entriesJson ws
  | [], [], _, _ => rfl
  | [], _ :: _, _, h
  | _ :: _, [], _, h => by simp [entriesEqual] at h
  | (k, v) :: vs, (l, w) :: ws, hone, h => by
    rw [entriesAtoms, List.forall_mem_append, List.forall_mem_append] at hone
    rw [entriesEqual, Bool.and_eq_true, Bool.and_eq_true] at h
    rw [entriesJson, entriesJson, json_eq_of_equal hone.1.1 h.1.1, json_eq_of_equal hone.1.2 h.1.2,
      entriesJson_eq_of_entriesEqual hone.2 h.2]

theorem fieldsJson_eq_of_fieldsEqual : ∀ {vs ws : List (String × Value)},
    (∀ a ∈ fieldsAtoms ws, a.IsWrittenOneWayAtom) → fieldsEqual vs ws = true →
      fieldsJson vs = fieldsJson ws
  | [], [], _, _ => rfl
  | [], _ :: _, _, h
  | _ :: _, [], _, h => by simp [fieldsEqual] at h
  | (n, v) :: vs, (m, w) :: ws, hone, h => by
    rw [fieldsAtoms, List.forall_mem_append] at hone
    rw [fieldsEqual, Bool.and_eq_true, Bool.and_eq_true, decide_eq_true_eq] at h
    rw [fieldsJson, fieldsJson, h.1.1, json_eq_of_equal hone.1 h.1.2,
      fieldsJson_eq_of_fieldsEqual hone.2 h.2]

end

end Value
end StreamTables
