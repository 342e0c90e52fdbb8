import Mathlib.Data.List.Forall2
import StreamTables.SqlType.Cast

/-!
# Casts order the types

Casts are defined by one rule for each pair of kinds.  This file says for each kind of type what it
casts to, and from that alone that the rules fit together: casts can be chained, and a cast there
and a cast back are one only between a type and itself.  For the second, decimals must not have more
places than digits, since all of these have no digit in front of the point and cast to each other.

## What is here

* `SqlType.castsTo_primitive_iff` and its like: what a type casts to, kind by kind.
* `SqlType.castsTo_trans`: casts can be chained.
* `SqlType.atoms`: the types that a type is made of and that have no others below them.
* `SqlType.castsTo_antisymm`: types that cast to each other are one.
-/

set_option autoImplicit false

namespace StreamTables

/-! ## What a type casts to -/

namespace Primitive

variable {a b c : Primitive}

/-- Of the primitive types, only integers widen. -/
theorem castsTo_iff : a.castsTo b = true ↔
    a = b ∨ (a = integer ∨ a = bigint) ∧ b = double ∨ a = integer ∧ b = bigint := by
  cases a <;> cases b <;> decide

theorem castsTo_trans (hab : a.castsTo b = true) (hbc : b.castsTo c = true) :
    a.castsTo c = true := by
  rw [castsTo_iff] at *
  grind

theorem castsTo_antisymm (hab : a.castsTo b = true) (hba : b.castsTo a = true) : a = b := by
  rw [castsTo_iff] at *
  grind

/-- A wider integer has no fewer digits. -/
theorem integerDigits?_mono {digits : Nat} (hab : a.castsTo b = true)
    (h : b.integerDigits? = some digits) :
    ∃ digits' ≤ digits, a.integerDigits? = some digits' := by
  rcases castsTo_iff.1 hab with rfl | ⟨-, rfl⟩ | ⟨rfl, rfl⟩
  · exact ⟨digits, Nat.le_refl _, h⟩
  · exact nomatch h
  · cases h
    exact ⟨10, by decide, rfl⟩

theorem castsTo_double {digits : Nat} (h : a.integerDigits? = some digits) :
    a.castsTo double = true := by
  cases a <;> first | rfl | exact nomatch h

end Primitive

namespace SqlType

variable {t : SqlType} {precision scale : UInt8}

theorem castsTo_primitive_iff {p : Primitive} : (primitive p).castsTo t = true ↔
    (∃ q, t = primitive q ∧ p.castsTo q = true) ∨
      ∃ precision scale digits, t = decimal precision scale ∧ p.integerDigits? = some digits ∧
        digits ≤ wholeDigits precision scale := by
  cases t with
  | primitive q => simp [castsTo]
  | decimal precision scale =>
    rw [castsTo]
    cases h : p.integerDigits? with
    | none => simp
    | some digits => simp
  | array | map | struct => simp [castsTo]

theorem castsTo_decimal_iff : (decimal precision scale).castsTo t = true ↔
    t = primitive .double ∨
      ∃ precision' scale', t = decimal precision' scale' ∧
        wholeDigits precision scale ≤ wholeDigits precision' scale' ∧ scale ≤ scale' := by
  cases t with
  | primitive q => simp [castsTo]
  | decimal precision' scale' => simp [castsTo]
  | array | map | struct => simp [castsTo]

theorem castsTo_array_iff {element : SqlType} : (array element).castsTo t = true ↔
    ∃ element', t = array element' ∧ element.castsTo element' = true := by
  cases t <;> simp [castsTo]

theorem castsTo_map_iff {key value : SqlType} : (map key value).castsTo t = true ↔
    ∃ key' value', t = map key' value' ∧
      key.castsTo key' = true ∧ value.castsTo value' = true := by
  cases t <;> simp [castsTo]

theorem castsTo_struct_iff {fields : List (String × SqlType)} :
    (struct fields).castsTo t = true ↔
      ∃ fields', t = struct fields' ∧ fieldsCastTo fields fields' = true := by
  cases t <;> simp [castsTo]

theorem fieldsCastTo_nil_iff {gs : List (String × SqlType)} :
    fieldsCastTo [] gs = true ↔ gs = [] := by
  cases gs <;> simp [fieldsCastTo]

theorem fieldsCastTo_cons_iff {name : String} {fs gs : List (String × SqlType)} :
    fieldsCastTo ((name, t) :: fs) gs = true ↔
      ∃ t' gs', gs = (name, t') :: gs' ∧ t.castsTo t' = true ∧ fieldsCastTo fs gs' = true := by
  rcases gs with _ | ⟨⟨name', t'⟩, gs'⟩
  · simp [fieldsCastTo]
  · simp only [fieldsCastTo, Bool.and_eq_true, decide_eq_true_eq, and_assoc]
    constructor
    · rintro ⟨rfl, ht, hfs⟩
      exact ⟨t', gs', rfl, ht, hfs⟩
    · rintro ⟨_, _, h, ht, hfs⟩
      cases h
      exact ⟨rfl, ht, hfs⟩

/-! ## Casts can be chained -/

theorem castsTo_trans_primitive {p : Primitive} {b c : SqlType}
    (hab : (primitive p).castsTo b = true) (hbc : b.castsTo c = true) :
    (primitive p).castsTo c = true := by
  rcases castsTo_primitive_iff.1 hab with ⟨q, rfl, hq⟩ | ⟨_, _, digits, rfl, hdigits, hle⟩
  · rcases castsTo_primitive_iff.1 hbc with ⟨r, rfl, hr⟩ | ⟨_, _, digits, rfl, hdigits, hle⟩
    · exact castsTo_primitive_iff.2 (.inl ⟨r, rfl, Primitive.castsTo_trans hq hr⟩)
    · obtain ⟨digits', hle', hp⟩ := Primitive.integerDigits?_mono hq hdigits
      exact castsTo_primitive_iff.2 (.inr ⟨_, _, digits', rfl, hp, Nat.le_trans hle' hle⟩)
  · rcases castsTo_decimal_iff.1 hbc with rfl | ⟨_, _, rfl, hwhole, -⟩
    · exact castsTo_primitive_iff.2 (.inl ⟨_, rfl, Primitive.castsTo_double hdigits⟩)
    · exact castsTo_primitive_iff.2
        (.inr ⟨_, _, digits, rfl, hdigits, Nat.le_trans hle hwhole⟩)

theorem castsTo_trans_decimal {b c : SqlType} (hab : (decimal precision scale).castsTo b = true)
    (hbc : b.castsTo c = true) : (decimal precision scale).castsTo c = true := by
  rcases castsTo_decimal_iff.1 hab with rfl | ⟨_, _, rfl, hwhole, hscale⟩
  · -- a double casts to itself only
    rcases castsTo_primitive_iff.1 hbc with ⟨q, rfl, hq⟩ | ⟨_, _, _, -, hdigits, -⟩
    · rcases Primitive.castsTo_iff.1 hq with rfl | ⟨h | h, -⟩ | ⟨h, -⟩
      · exact castsTo_decimal_iff.2 (.inl rfl)
      all_goals exact nomatch h
    · exact nomatch hdigits
  · rcases castsTo_decimal_iff.1 hbc with rfl | ⟨_, _, rfl, hwhole', hscale'⟩
    · exact castsTo_decimal_iff.2 (.inl rfl)
    · exact castsTo_decimal_iff.2
        (.inr ⟨_, _, rfl, Nat.le_trans hwhole hwhole', UInt8.le_trans hscale hscale'⟩)

mutual

/-- **Casts can be chained.** -/
theorem castsTo_trans : ∀ {a b c : SqlType}, a.castsTo b = true → b.castsTo c = true →
    a.castsTo c = true
  | primitive _, _, _, hab, hbc => castsTo_trans_primitive hab hbc
  | decimal _ _, _, _, hab, hbc => castsTo_trans_decimal hab hbc
  | array _, _, _, hab, hbc => by
    obtain ⟨_, rfl, hab⟩ := castsTo_array_iff.1 hab
    obtain ⟨_, rfl, hbc⟩ := castsTo_array_iff.1 hbc
    exact castsTo_array_iff.2 ⟨_, rfl, castsTo_trans hab hbc⟩
  | map _ _, _, _, hab, hbc => by
    obtain ⟨_, _, rfl, hkey, hvalue⟩ := castsTo_map_iff.1 hab
    obtain ⟨_, _, rfl, hkey', hvalue'⟩ := castsTo_map_iff.1 hbc
    exact castsTo_map_iff.2
      ⟨_, _, rfl, castsTo_trans hkey hkey', castsTo_trans hvalue hvalue'⟩
  | struct _, _, _, hab, hbc => by
    obtain ⟨_, rfl, hab⟩ := castsTo_struct_iff.1 hab
    obtain ⟨_, rfl, hbc⟩ := castsTo_struct_iff.1 hbc
    exact castsTo_struct_iff.2 ⟨_, rfl, fieldsCastTo_trans hab hbc⟩

theorem fieldsCastTo_trans : ∀ {fs gs hs : List (String × SqlType)},
    fieldsCastTo fs gs = true → fieldsCastTo gs hs = true → fieldsCastTo fs hs = true
  | [], _, _, hfg, hgh => by
    obtain rfl := fieldsCastTo_nil_iff.1 hfg
    exact hgh
  | (_, _) :: _, _, _, hfg, hgh => by
    obtain ⟨_, _, rfl, ht, hfg⟩ := fieldsCastTo_cons_iff.1 hfg
    obtain ⟨_, _, rfl, ht', hgh⟩ := fieldsCastTo_cons_iff.1 hgh
    exact fieldsCastTo_cons_iff.2
      ⟨_, _, rfl, castsTo_trans ht ht', fieldsCastTo_trans hfg hgh⟩

end

/-! ## Types that cast to each other -/

mutual

/-- The types that a type is made of and that have no others below them. -/
def atoms : SqlType → List SqlType
  | array element => element.atoms
  | map key value => key.atoms ++ value.atoms
  | struct fields => fieldsAtoms fields
  | t => [t]

/-- The types that fields are made of. -/
def fieldsAtoms : List (String × SqlType) → List SqlType
  | [] => []
  | (_, t) :: fields => t.atoms ++ fieldsAtoms fields

end

/-- Whether a decimal has at least as many digits as places. -/
def ScaleFits : SqlType → Prop
  | decimal precision scale => scale ≤ precision
  | _ => True

/-- Whether all decimals in a type have at least as many digits as places. -/
def ScalesFit (t : SqlType) : Prop := ∀ a ∈ t.atoms, a.ScaleFits

instance (t : SqlType) : Decidable t.ScaleFits :=
  match t with
  | decimal precision scale => inferInstanceAs (Decidable (scale ≤ precision))
  | primitive _ | array _ | map _ _ | struct _ => .isTrue trivial

instance (t : SqlType) : Decidable t.ScalesFit :=
  inferInstanceAs (Decidable (∀ a ∈ t.atoms, a.ScaleFits))

/-- Digits in front of the point and behind it make up all digits. -/
theorem decimal_eq_of_wholeDigits {precision' scale' : UInt8} (h : scale ≤ precision)
    (h' : scale' ≤ precision')
    (hwhole : wholeDigits precision scale = wholeDigits precision' scale')
    (hscale : scale = scale') : decimal precision scale = decimal precision' scale' := by
  have hprecision : precision = precision' := by
    rw [UInt8.le_iff_toNat_le] at h h'
    rw [wholeDigits, wholeDigits] at hwhole
    rw [← hscale] at h' hwhole
    exact UInt8.toNat_inj.1 (by omega)
  rw [hprecision, hscale]

theorem castsTo_antisymm_primitive {p : Primitive} {b : SqlType}
    (hab : (primitive p).castsTo b = true) (hba : b.castsTo (primitive p) = true) :
    primitive p = b := by
  rcases castsTo_primitive_iff.1 hab with ⟨q, rfl, hq⟩ | ⟨_, _, _, rfl, hdigits, -⟩
  · rcases castsTo_primitive_iff.1 hba with ⟨_, h, hp⟩ | ⟨_, _, _, h, -⟩
    · cases h
      rw [Primitive.castsTo_antisymm hq hp]
    · exact nomatch h
  · -- a decimal casts back to a double at most, and a double casts to no decimal
    rcases castsTo_decimal_iff.1 hba with h | ⟨_, _, h, -⟩
    · cases h
      exact nomatch hdigits
    · exact nomatch h

theorem castsTo_antisymm_decimal {b : SqlType} (ha : (decimal precision scale).ScalesFit)
    (hb : b.ScalesFit) (hab : (decimal precision scale).castsTo b = true)
    (hba : b.castsTo (decimal precision scale) = true) : decimal precision scale = b := by
  rcases castsTo_decimal_iff.1 hab with rfl | ⟨_, _, rfl, hwhole, hscale⟩
  · exact (castsTo_antisymm_primitive hba hab).symm
  · rcases castsTo_decimal_iff.1 hba with h | ⟨_, _, h, hwhole', hscale'⟩
    · exact nomatch h
    · cases h
      exact decimal_eq_of_wholeDigits (ha _ (List.mem_cons_self ..))
        (hb _ (List.mem_cons_self ..)) (Nat.le_antisymm hwhole hwhole')
        (UInt8.le_antisymm hscale hscale')

mutual

/-- **Types that cast to each other are one**, if their decimals have no more places than digits. -/
theorem castsTo_antisymm : ∀ {a b : SqlType}, a.ScalesFit → b.ScalesFit →
    a.castsTo b = true → b.castsTo a = true → a = b
  | primitive _, _, _, _, hab, hba => castsTo_antisymm_primitive hab hba
  | decimal _ _, _, ha, hb, hab, hba => castsTo_antisymm_decimal ha hb hab hba
  | array element, _, ha, hb, hab, hba => by
    obtain ⟨element', rfl, hab⟩ := castsTo_array_iff.1 hab
    obtain ⟨_, h, hba⟩ := castsTo_array_iff.1 hba
    cases h
    have ha' : element.ScalesFit := ha
    have hb' : element'.ScalesFit := hb
    rw [castsTo_antisymm ha' hb' hab hba]
  | map key value, _, ha, hb, hab, hba => by
    obtain ⟨key', value', rfl, hkey, hvalue⟩ := castsTo_map_iff.1 hab
    obtain ⟨_, _, h, hkey', hvalue'⟩ := castsTo_map_iff.1 hba
    cases h
    obtain ⟨hakey, havalue⟩ := List.forall_mem_append.1 ha
    obtain ⟨hbkey, hbvalue⟩ := List.forall_mem_append.1 hb
    rw [castsTo_antisymm hakey hbkey hkey hkey', castsTo_antisymm havalue hbvalue hvalue hvalue']
  | struct _, _, ha, hb, hab, hba => by
    obtain ⟨_, rfl, hab⟩ := castsTo_struct_iff.1 hab
    obtain ⟨_, h, hba⟩ := castsTo_struct_iff.1 hba
    cases h
    rw [fieldsCastTo_antisymm ha hb hab hba]

theorem fieldsCastTo_antisymm : ∀ {fs gs : List (String × SqlType)},
    (∀ a ∈ fieldsAtoms fs, a.ScaleFits) → (∀ a ∈ fieldsAtoms gs, a.ScaleFits) →
      fieldsCastTo fs gs = true → fieldsCastTo gs fs = true → fs = gs
  | [], _, _, _, hfg, _ => (fieldsCastTo_nil_iff.1 hfg).symm
  | (_, _) :: _, _, hf, hg, hfg, hgf => by
    obtain ⟨_, _, rfl, ht, hfg⟩ := fieldsCastTo_cons_iff.1 hfg
    obtain ⟨_, _, h, ht', hgf⟩ := fieldsCastTo_cons_iff.1 hgf
    cases h
    obtain ⟨hft, hfs⟩ := List.forall_mem_append.1 hf
    obtain ⟨hgt, hgs⟩ := List.forall_mem_append.1 hg
    rw [castsTo_antisymm hft hgt ht ht', fieldsCastTo_antisymm hfs hgs hfg hgf]

end

/-- Decimals with more places than digits cast to each other, however many digits they have. -/
example : (decimal 3 10).castsTo (decimal 5 10) = true ∧
    (decimal 5 10).castsTo (decimal 3 10) = true := by decide

end SqlType
end StreamTables
