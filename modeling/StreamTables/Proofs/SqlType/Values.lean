import Mathlib.Data.Rat.Cast.Order
import Mathlib.Data.Set.Basic
import Mathlib.Tactic.Positivity
import StreamTables.Decimal.Basic
import StreamTables.Proofs.SqlType.Order

/-!
# Casts lose nothing

A type stands for a set of values, and numbers are the same whatever type they are kept in: an
integer is a rational, and a decimal is a rational of so many digits.  The digits that casts count
are those of the largest integers, so a cast is allowed only where no value is lost, and into
decimals it is allowed everywhere that no value is lost.  Doubles are left out: they do round.

## What is here

* `Datum`, `SqlType.values`: the values that a type stands for.
* `Datum.integers_subset_decimals_iff`, `Datum.decimals_subset_iff`: which decimals hold all
  integers of so many bits, or all decimals of other digits.
* `SqlType.values_subset`: casts lose nothing.
* `SqlType.castsTo_lossless`: and casts into decimals are all that lose nothing.
-/

set_option autoImplicit false

namespace StreamTables

/-! ## Values -/

/-- What a cell stands for.  Numbers of all types are of one kind here. -/
inductive Datum where
  | number (q : ℚ)
  | boolean (b : Bool)
  | string (s : String)
  | bytes (bs : List UInt8)
  | date (days : Int32)
  | time (millis : Int64)
  | timestamp (millis : Int64)
  | array (items : List Datum)
  | map (entries : List (Datum × Datum))
  | struct (fields : List (String × Datum))

namespace Datum

/-- The integers of a sign and so many bits. -/
def integers (bits : Nat) : Set Datum :=
  {d | ∃ n : ℤ, -2 ^ bits ≤ n ∧ n < 2 ^ bits ∧ d = number n}

/-- The decimals of so many digits, some of them behind the point. -/
def decimals (precision scale : Nat) : Set Datum :=
  {d | ∃ m : ℤ, |m| < 10 ^ precision ∧ d = number (m * 10 ^ (-scale : ℤ))}

end Datum

/-- The values of a primitive type.  Those of doubles are left out. -/
def Primitive.values : Primitive → Set Datum
  | .boolean => Set.range Datum.boolean
  | .integer => Datum.integers 31
  | .bigint => Datum.integers 63
  | .double => ∅
  | .string => Set.range Datum.string
  | .bytes => Set.range Datum.bytes
  | .date => Set.range Datum.date
  | .time => Set.range Datum.time
  | .timestamp => Set.range Datum.timestamp

namespace SqlType

mutual

/-- The values that a type stands for. -/
def values : SqlType → Set Datum
  | primitive p => p.values
  | decimal precision scale => Datum.decimals precision.toNat scale.toNat
  | array element => {d | ∃ items, d = .array items ∧ ∀ i ∈ items, i ∈ element.values}
  | map key value =>
    {d | ∃ entries, d = .map entries ∧ ∀ e ∈ entries, e.1 ∈ key.values ∧ e.2 ∈ value.values}
  | struct fields => {d | ∃ cells, d = .struct cells ∧ cells ∈ fieldsValues fields}

/-- The named values that fields stand for. -/
def fieldsValues : List (String × SqlType) → Set (List (String × Datum))
  | [] => {[]}
  | (name, t) :: fields =>
    {cells | ∃ d rest, cells = (name, d) :: rest ∧ d ∈ t.values ∧ rest ∈ fieldsValues fields}

end

end SqlType

/-! ## Numbers -/

namespace Datum

variable {bits digits precision scale precision' scale' : Nat}

/-- Decimals are compared by bringing them to one scale. -/
theorem number_scaled_eq_iff {m n : ℤ} :
    number (m * 10 ^ (-scale : ℤ)) = number (n * 10 ^ (-scale' : ℤ)) ↔
      m * 10 ^ scale' = n * 10 ^ scale := by
  rw [number.injEq, zpow_neg, zpow_neg, zpow_natCast, zpow_natCast, ← div_eq_mul_inv,
    ← div_eq_mul_inv, div_eq_div_iff (by positivity) (by positivity)]
  exact_mod_cast Iff.rfl

theorem number_intCast_eq_iff {m n : ℤ} :
    number n = number (m * 10 ^ (-scale : ℤ)) ↔ n * 10 ^ scale = m := by
  have h := @number_scaled_eq_iff 0 scale n m
  simpa using h

theorem abs_mul_ten_pow_lt {m : ℤ} {k : Nat} (h : |m| < 10 ^ k) (n : Nat) :
    |m * 10 ^ n| < 10 ^ (k + n) := by
  rw [abs_mul, abs_of_pos (by positivity : (0 : ℤ) < 10 ^ n), pow_add]
  exact mul_lt_mul_of_pos_right h (by positivity)

theorem integers_mono {bits' : Nat} (h : bits ≤ bits') : integers bits ⊆ integers bits' := by
  rintro d ⟨n, hlow, hhigh, rfl⟩
  have hpow : (2 : ℤ) ^ bits ≤ 2 ^ bits' := pow_le_pow_right₀ (by decide) h
  exact ⟨n, by omega, by omega, rfl⟩

/-- **The decimals that hold all integers of so many bits** are those with room in front of the
point for the digits of the largest one. -/
theorem integers_subset_decimals_iff (hlow : (10 : ℤ) ^ digits < 2 ^ bits)
    (hhigh : (2 : ℤ) ^ bits < 10 ^ (digits + 1)) :
    integers bits ⊆ decimals precision scale ↔ digits + 1 + scale ≤ precision := by
  constructor
  · intro h
    have hneg : (-2 ^ bits : ℤ) ≤ 10 ^ digits :=
      (neg_nonpos.2 (by positivity)).trans (by positivity)
    obtain ⟨m, hm, heq⟩ := h ⟨10 ^ digits, hneg, hlow, rfl⟩
    rw [number_intCast_eq_iff, ← pow_add] at heq
    rw [← heq, abs_of_pos (by positivity)] at hm
    have := (pow_lt_pow_iff_right₀ (by decide : (1 : ℤ) < 10)).1 hm
    omega
  · rintro h d ⟨n, hlow', hhigh', rfl⟩
    have hn : |n| < 10 ^ (digits + 1) := abs_lt.2 ⟨by omega, by omega⟩
    have hpow : (10 : ℤ) ^ (digits + 1 + scale) ≤ 10 ^ precision :=
      pow_le_pow_right₀ (by decide) h
    exact ⟨n * 10 ^ scale, (abs_mul_ten_pow_lt hn scale).trans_le hpow,
      number_intCast_eq_iff.2 rfl⟩

/-- Decimals that hold all decimals of other digits hold each power of ten among these. -/
theorem exists_of_decimals_subset (h : decimals precision scale ⊆ decimals precision' scale')
    {k : Nat} (hk : k < precision) :
    ∃ m : ℤ, |m| < 10 ^ precision' ∧ 10 ^ (k + scale') = m * 10 ^ scale := by
  have hpow : |(10 : ℤ) ^ k| < 10 ^ precision := by
    rw [abs_of_pos (by positivity)]
    exact pow_lt_pow_right₀ (by decide) hk
  obtain ⟨m, hm, heq⟩ := h ⟨10 ^ k, hpow, rfl⟩
  rw [number_scaled_eq_iff, ← pow_add] at heq
  exact ⟨m, hm, heq⟩

/-- **The decimals that hold all decimals of other digits** are those with no fewer places behind
the point, and room for the same digits in front of it. -/
theorem decimals_subset_iff (hpos : 0 < precision) :
    decimals precision scale ⊆ decimals precision' scale' ↔
      scale ≤ scale' ∧ precision + scale' ≤ precision' + scale := by
  constructor
  · intro h
    -- one unit in the last place asks for as many places
    have hscale : scale ≤ scale' := by
      obtain ⟨m, -, heq⟩ := exists_of_decimals_subset h hpos
      rw [Nat.zero_add] at heq
      have hdvd : (10 : ℤ) ^ scale ∣ 10 ^ scale' := ⟨m, by rw [heq, mul_comm]⟩
      have hle := Int.le_of_dvd (by positivity) hdvd
      exact (pow_le_pow_iff_right₀ (by decide)).1 hle
    -- and one unit in the first place for as many digits in front of the point
    obtain ⟨m, hm, heq⟩ := exists_of_decimals_subset h (Nat.sub_one_lt_of_lt hpos)
    obtain ⟨k, rfl⟩ := Nat.exists_eq_add_of_le' hscale
    rw [← Nat.add_assoc, pow_add, mul_left_inj' (by positivity)] at heq
    rw [← heq, abs_of_pos (by positivity)] at hm
    have hdigits := (pow_lt_pow_iff_right₀ (by decide : (1 : ℤ) < 10)).1 hm
    exact ⟨hscale, by omega⟩
  · rintro ⟨hscale, hdigits⟩ d ⟨m, hm, rfl⟩
    obtain ⟨k, rfl⟩ := Nat.exists_eq_add_of_le hscale
    have hpow : (10 : ℤ) ^ (precision + k) ≤ 10 ^ precision' :=
      pow_le_pow_right₀ (by decide) (by omega)
    refine ⟨m * 10 ^ k, (abs_mul_ten_pow_lt hm k).trans_le hpow, number_scaled_eq_iff.2 ?_⟩
    rw [pow_add, mul_assoc, mul_comm ((10 : ℤ) ^ k)]

end Datum

/-! ## Types -/

namespace SqlType

variable {a b : SqlType} {precision scale : UInt8}

/-- Whether a type without parts is described by its values: it is no double, and as a decimal it
has digits, and no more places than digits. -/
def IsExactAtom : SqlType → Prop
  | primitive .double => False
  | decimal precision scale => 1 ≤ precision ∧ scale ≤ precision
  | _ => True

/-- Whether a type is described by its values. -/
def IsExact (t : SqlType) : Prop := ∀ a ∈ t.atoms, a.IsExactAtom

instance (t : SqlType) : Decidable t.IsExactAtom :=
  match t with
  | decimal precision scale => inferInstanceAs (Decidable (1 ≤ precision ∧ scale ≤ precision))
  | primitive .double => .isFalse id
  | primitive .boolean | primitive .integer | primitive .bigint | primitive .string
  | primitive .bytes | primitive .date | primitive .time | primitive .timestamp
  | array _ | map _ _ | struct _ => .isTrue trivial

instance (t : SqlType) : Decidable t.IsExact :=
  inferInstanceAs (Decidable (∀ a ∈ t.atoms, a.IsExactAtom))

/-- Integers cast to the decimals that hold them. -/
theorem castsTo_decimal_iff_of_integer {p : Primitive} {bits : Nat} (digits : Nat)
    (hvalues : p.values = Datum.integers bits) (hdigits : p.integerDigits? = some (digits + 1))
    (hlow : (10 : ℤ) ^ digits < 2 ^ bits) (hhigh : (2 : ℤ) ^ bits < 10 ^ (digits + 1))
    (hscale : scale ≤ precision) :
    (primitive p).castsTo (decimal precision scale) = true ↔
      (primitive p).values ⊆ (decimal precision scale).values := by
  rw [UInt8.le_iff_toNat_le] at hscale
  rw [castsTo, hdigits, values, values, hvalues, Datum.integers_subset_decimals_iff hlow hhigh]
  dsimp only
  rw [decide_eq_true_eq, wholeDigits]
  omega

/-- Decimals cast to the decimals that hold them. -/
theorem decimal_castsTo_decimal_iff {precision' scale' : UInt8} (hpos : 1 ≤ precision)
    (hscale : scale ≤ precision) (hscale' : scale' ≤ precision') :
    (decimal precision scale).castsTo (decimal precision' scale') = true ↔
      (decimal precision scale).values ⊆ (decimal precision' scale').values := by
  rw [UInt8.le_iff_toNat_le] at hpos hscale hscale'
  rw [castsTo, values, values, Datum.decimals_subset_iff hpos, Bool.and_eq_true, decide_eq_true_eq,
    decide_eq_true_eq, UInt8.le_iff_toNat_le, wholeDigits, wholeDigits]
  omega

/-- The largest number of 32 signed bits has ten digits. -/
theorem integer_castsTo_decimal_iff (h : scale ≤ precision) :
    (primitive .integer).castsTo (decimal precision scale) = true ↔
      (primitive .integer).values ⊆ (decimal precision scale).values :=
  castsTo_decimal_iff_of_integer 9 rfl rfl (by decide) (by decide) h

/-- The largest number of 64 signed bits has nineteen digits. -/
theorem bigint_castsTo_decimal_iff (h : scale ≤ precision) :
    (primitive .bigint).castsTo (decimal precision scale) = true ↔
      (primitive .bigint).values ⊆ (decimal precision scale).values :=
  castsTo_decimal_iff_of_integer 18 rfl rfl (by decide) (by decide) h

theorem values_subset_primitive {p : Primitive} (hb : b.IsExact)
    (h : (primitive p).castsTo b = true) : (primitive p).values ⊆ b.values := by
  have hatom := hb b
  rcases castsTo_primitive_iff.1 h with ⟨q, rfl, hq⟩ | ⟨precision, scale, _, rfl, hdigits, -⟩
  · rcases Primitive.castsTo_iff.1 hq with rfl | ⟨-, rfl⟩ | ⟨rfl, rfl⟩
    · exact subset_rfl
    · exact (hatom (List.mem_cons_self ..)).elim
    · exact Datum.integers_mono (by decide)
  · have hscale : scale ≤ precision := (hatom (List.mem_cons_self ..)).2
    cases p with
    | integer => exact (integer_castsTo_decimal_iff hscale).1 h
    | bigint => exact (bigint_castsTo_decimal_iff hscale).1 h
    | _ => exact nomatch hdigits

theorem values_subset_decimal (ha : (decimal precision scale).IsExact) (hb : b.IsExact)
    (h : (decimal precision scale).castsTo b = true) :
    (decimal precision scale).values ⊆ b.values := by
  have hatom := hb b
  rcases castsTo_decimal_iff.1 h with rfl | ⟨_, _, rfl, -⟩
  · exact (hatom (List.mem_cons_self ..)).elim
  · obtain ⟨hpos, hscale⟩ := ha _ (List.mem_cons_self ..)
    exact (decimal_castsTo_decimal_iff hpos hscale (hatom (List.mem_cons_self ..)).2).1 h

mutual

/-- **Casts lose nothing.** -/
theorem values_subset : ∀ {a b : SqlType}, a.IsExact → b.IsExact → a.castsTo b = true →
    a.values ⊆ b.values
  | primitive _, _, _, hb, h => values_subset_primitive hb h
  | decimal _ _, _, ha, hb, h => values_subset_decimal ha hb h
  | array element, _, ha, hb, h => by
    obtain ⟨element', rfl, h⟩ := castsTo_array_iff.1 h
    have ha' : element.IsExact := ha
    have hb' : element'.IsExact := hb
    rintro _ ⟨items, rfl, hitems⟩
    exact ⟨items, rfl, fun i hi => values_subset ha' hb' h (hitems i hi)⟩
  | map key value, _, ha, hb, h => by
    obtain ⟨key', value', rfl, hkey, hvalue⟩ := castsTo_map_iff.1 h
    obtain ⟨hakey, havalue⟩ := List.forall_mem_append.1 ha
    obtain ⟨hbkey, hbvalue⟩ := List.forall_mem_append.1 hb
    rintro _ ⟨entries, rfl, hentries⟩
    exact ⟨entries, rfl, fun e he => ⟨values_subset hakey hbkey hkey (hentries e he).1,
      values_subset havalue hbvalue hvalue (hentries e he).2⟩⟩
  | struct fields, _, ha, hb, h => by
    obtain ⟨fields', rfl, h⟩ := castsTo_struct_iff.1 h
    rintro _ ⟨cells, rfl, hcells⟩
    exact ⟨cells, rfl, fieldsValues_subset ha hb h hcells⟩

theorem fieldsValues_subset : ∀ {fs gs : List (String × SqlType)},
    (∀ a ∈ fieldsAtoms fs, a.IsExactAtom) → (∀ a ∈ fieldsAtoms gs, a.IsExactAtom) →
      fieldsCastTo fs gs = true → fieldsValues fs ⊆ fieldsValues gs
  | [], _, _, _, h => by
    obtain rfl := fieldsCastTo_nil_iff.1 h
    exact subset_rfl
  | (_, _) :: _, _, hf, hg, h => by
    obtain ⟨_, _, rfl, ht, h⟩ := fieldsCastTo_cons_iff.1 h
    obtain ⟨hft, hfs⟩ := List.forall_mem_append.1 hf
    obtain ⟨hgt, hgs⟩ := List.forall_mem_append.1 hg
    rintro _ ⟨d, rest, rfl, hd, hrest⟩
    exact ⟨d, rest, rfl, values_subset hft hgt ht hd, fieldsValues_subset hfs hgs h hrest⟩

end

/-- **Casts lose nothing, and casts into decimals are all that lose nothing**: whatever types two
are that are made without doubles, one casts to the other only if the other holds all its values;
and a number that is no double casts to a decimal exactly if the decimal holds all its values. -/
theorem castsTo_lossless (ha : a.IsExact) (hb : b.IsExact) :
    (a.castsTo b = true → a.values ⊆ b.values) ∧
      (a = primitive .integer ∨ a = primitive .bigint ∨
          (∃ precision scale, a = decimal precision scale) →
        (∃ precision scale, b = decimal precision scale) →
          (a.castsTo b = true ↔ a.values ⊆ b.values)) := by
  refine ⟨values_subset ha hb, ?_⟩
  rintro hnumber ⟨precision', scale', rfl⟩
  have hscale' : scale' ≤ precision' := (hb _ (List.mem_cons_self ..)).2
  rcases hnumber with rfl | rfl | ⟨precision, scale, rfl⟩
  · exact integer_castsTo_decimal_iff hscale'
  · exact bigint_castsTo_decimal_iff hscale'
  · obtain ⟨hpos, hscale⟩ := ha _ (List.mem_cons_self ..)
    exact decimal_castsTo_decimal_iff hpos hscale hscale'

/-- Orders, each with the sums of its items in numbers of a type. -/
def totals (number : SqlType) : SqlType :=
  array (struct [("number", primitive .bigint), ("sums", map (primitive .string) number)])

/-- Sums in integers are sums in decimals of twelve digits, two of them behind the point, but the
decimals of eleven do not hold all of them, nor do those of twelve hold them with a third place. -/
theorem castsTo_lossless_totals :
    (totals (primitive .integer)).IsExact ∧ (totals (decimal 12 2)).IsExact ∧
      (totals (primitive .integer)).castsTo (totals (decimal 12 2)) = true ∧
      (totals (primitive .integer)).values ⊆ (totals (decimal 12 2)).values ∧
      ¬ (primitive .integer).values ⊆ (decimal 11 2).values ∧
      ¬ (decimal 12 2).values ⊆ (decimal 12 3).values := by
  have hinteger : (primitive .integer).IsExact ∧ (totals (primitive .integer)).IsExact := by decide
  have hdecimal : (decimal 11 2).IsExact ∧ (decimal 12 2).IsExact ∧ (decimal 12 3).IsExact ∧
      (totals (decimal 12 2)).IsExact := by decide
  obtain ⟨h11, h12, h123, htotals⟩ := hdecimal
  have hcast : (totals (primitive .integer)).castsTo (totals (decimal 12 2)) = true := by decide
  have hfew : ¬ (primitive .integer).castsTo (decimal 11 2) = true := by decide
  have hplaces : ¬ (decimal 12 2).castsTo (decimal 12 3) = true := by decide
  refine ⟨hinteger.2, htotals, hcast, (castsTo_lossless hinteger.2 htotals).1 hcast, ?_, ?_⟩
  · rwa [← (castsTo_lossless hinteger.1 h11).2 (.inl rfl) ⟨_, _, rfl⟩]
  · rwa [← (castsTo_lossless h12 h123).2 (.inr (.inr ⟨_, _, rfl⟩)) ⟨_, _, rfl⟩]

end SqlType
end StreamTables
