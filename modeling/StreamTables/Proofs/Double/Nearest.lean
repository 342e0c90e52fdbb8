import StreamTables.Proofs.Double.Interval

/-!
# Rounding a quotient

A quotient is rounded in a unit that leaves it 53 bits, so that the magnitude it is rounded to is
off by half a unit at most.  Where the unit is not the least one this is a small part of the
quotient itself.

## What is here

* `Double.value_add`: the value of a magnitude that is put together from steps of a unit.
* `Double.exists_steps_nearest`: what the magnitude nearest to a quotient is put together from.
* `Double.nearest_lt_infinity`: the quotients that do not overflow.
* `Double.value_nearest_le`: how much a quotient may grow by rounding.
-/

set_option autoImplicit false

namespace StreamTables
namespace Double

variable {num den a st : Nat}

/-! ## Steps of a unit -/

theorem value_zero : value 0 = 0 := by simp [value, significand, isSubnormal]

theorem value_nonneg (m : Nat) : 0 ≤ value m := by
  rw [value]
  positivity

/-- **The value of a magnitude that is put together from steps of a unit.**  A step too many for 53
bits carries into the exponent. -/
theorem value_add (hst : st ≤ 2 ^ 53) (h : 2 ^ 52 ≤ st ∨ a = 0) :
    value (a * 2 ^ 52 + st) = st * 2 ^ ((a : ℤ) - 1074) := by
  rcases Nat.lt_or_ge st (2 ^ 52) with hlt | hge
  · obtain rfl : a = 0 := by omega
    have he : exponent st = -1074 := by
      rw [exponent]
      omega
    rw [Nat.zero_mul, Nat.zero_add, value, significand_of_lt hlt, he]
    norm_num
  rcases hst.lt_or_eq with hlt | rfl
  · have he : exponent (a * 2 ^ 52 + st) = a - 1074 := by
      rw [exponent]
      omega
    have hs : significand (a * 2 ^ 52 + st) = st := by
      rw [significand_of_le (by omega)]
      omega
    rw [value, hs, he]
  · have he : exponent (a * 2 ^ 52 + 2 ^ 53) = a - 1074 + 1 := by
      rw [exponent]
      omega
    have hs : significand (a * 2 ^ 52 + 2 ^ 53) = 2 ^ 52 := by
      rw [significand_of_le (by omega)]
      omega
    rw [value, hs, he, zpow_add_one₀ two_ne_zero]
    push_cast
    ring

/-- A quotient is rounded up by a half at most. -/
theorem two_mul_divNearest_le (num den : Nat) :
    2 * (divNearest num den * den) ≤ 2 * num + den := by
  have hdiv := Nat.div_add_mod' num den
  have hdown : 2 * (num / den * den) ≤ 2 * num + den := by omega
  have hup : den ≤ 2 * (num % den) → 2 * ((num / den + 1) * den) ≤ 2 * num + den := by
    rw [Nat.add_one_mul (num / den)]
    omega
  simp only [divNearest]
  split
  · exact hdown
  · next h =>
    split
    · exact hup (by omega)
    · split
      · exact hdown
      · exact hup (by omega)

theorem le_divNearest {n : Nat} (hden : 0 < den) (h : den * n ≤ num) : n ≤ divNearest num den := by
  have hdiv : n ≤ num / den := (Nat.le_div_iff_mul_le hden).2 (by rwa [Nat.mul_comm])
  simp only [divNearest]
  split
  · exact hdiv
  · split
    · omega
    · split <;> omega

/-! ## The unit -/

theorem natCast_div_lt_zpow_iff (hden : 0 < den) (e : ℤ) :
    (num / den : ℚ) < 2 ^ e ↔ num * 2 ^ (-e).toNat < den * 2 ^ e.toNat := by
  have hden' : (0 : ℚ) < den := Nat.cast_pos.2 hden
  rw [zpow_eq_div, div_lt_div_iff₀ hden' (by positivity), mul_comm _ (den : ℚ)]
  exact_mod_cast Iff.rfl

/-- The binary logarithms of numerator and denominator tell that of the quotient up to one. -/
theorem log2_bounds (hnum : 0 < num) (hden : 0 < den) :
    (2 : ℚ) ^ ((num.log2 : ℤ) - den.log2 - 1) ≤ num / den ∧
      (num / den : ℚ) < 2 ^ ((num.log2 : ℤ) - den.log2 + 1) := by
  have hden' : (0 : ℚ) < den := Nat.cast_pos.2 hden
  have hn : (2 : ℚ) ^ num.log2 ≤ num := by exact_mod_cast Nat.log2_self_le hnum.ne'
  have hn' : (num : ℚ) < 2 ^ (num.log2 + 1) := by exact_mod_cast Nat.lt_log2_self (n := num)
  have hd : (2 : ℚ) ^ den.log2 ≤ den := by exact_mod_cast Nat.log2_self_le hden.ne'
  have hd' : (den : ℚ) < 2 ^ (den.log2 + 1) := by exact_mod_cast Nat.lt_log2_self (n := den)
  constructor
  · calc (2 : ℚ) ^ ((num.log2 : ℤ) - den.log2 - 1) = 2 ^ num.log2 / 2 ^ (den.log2 + 1) := by
          rw [sub_sub, zpow_sub₀ two_ne_zero]
          norm_cast
      _ ≤ num / den := div_le_div₀ (Nat.cast_nonneg _) hn hden' hd'.le
  · calc (num / den : ℚ) < 2 ^ (num.log2 + 1) / 2 ^ den.log2 :=
          div_lt_div₀ hn' hd (by positivity) (by positivity)
      _ = 2 ^ ((num.log2 : ℤ) - den.log2 + 1) := by
          rw [sub_add_eq_add_sub, zpow_sub₀ two_ne_zero]
          norm_cast

/-- The order of a quotient, which is guessed from the logarithms and corrected. -/
theorem exists_order (hnum : 0 < num) (hden : 0 < den) :
    ∃ g : ℤ, (if num * 2 ^ (-((num.log2 : ℤ) - den.log2)).toNat <
          den * 2 ^ ((num.log2 : ℤ) - den.log2).toNat
        then (num.log2 : ℤ) - den.log2 - 1 else (num.log2 : ℤ) - den.log2) = g ∧
      (2 : ℚ) ^ g ≤ num / den ∧ (num / den : ℚ) < 2 ^ (g + 1) := by
  obtain ⟨hlow, hhigh⟩ := log2_bounds hnum hden
  simp only [← natCast_div_lt_zpow_iff hden]
  split
  · next h => exact ⟨_, rfl, hlow, by rwa [sub_add_cancel]⟩
  · next h => exact ⟨_, rfl, not_lt.1 h, hhigh⟩

/-- A quotient in a unit. -/
theorem natCast_div_eq (num : Nat) (hden : 0 < den) (u : ℤ) :
    (num / den : ℚ) =
      (num * 2 ^ (-u).toNat : Nat) / (den * 2 ^ u.toNat : Nat) * 2 ^ u := by
  rw [zpow_eq_div]
  push_cast
  field_simp

/-- **What the magnitude nearest to a quotient is put together from**: steps of a unit, of 53 bits
unless the unit is the least one, and half a unit too much at most. -/
theorem exists_steps_nearest (hnum : 0 < num) (hden : 0 < den) :
    ∃ a st : Nat, nearest num den = min (a * 2 ^ 52 + st) infinity ∧ st ≤ 2 ^ 53 ∧
      (2 ^ 52 ≤ st ∨ a = 0) ∧ (a = 0 ∨ (2 : ℚ) ^ ((a : ℤ) - 1022) ≤ num / den) ∧
      (st : ℚ) * 2 ^ ((a : ℤ) - 1074) ≤ num / den + 2 ^ ((a : ℤ) - 1075) := by
  obtain ⟨g, hg, hgle, hglt⟩ := exists_order hnum hden
  obtain ⟨a, ha⟩ := Int.eq_ofNat_of_zero_le (by omega : 0 ≤ max (g - 52) (-1074) + 1074)
  have hu : max (g - 52) (-1074) = (a : ℤ) - 1074 := by omega
  have hsteps : nearest num den = min (a * 2 ^ 52 + divNearest
      (num * 2 ^ (-((a : ℤ) - 1074)).toNat) (den * 2 ^ ((a : ℤ) - 1074).toNat)) infinity := by
    rw [nearest, if_neg hnum.ne']
    simp only [hg, hu, sub_add_cancel, Int.toNat_natCast]
  have hx := natCast_div_eq num hden ((a : ℤ) - 1074)
  have hpos : 0 < den * 2 ^ ((a : ℤ) - 1074).toNat := Nat.mul_pos hden (Nat.two_pow_pos _)
  generalize num * 2 ^ (-((a : ℤ) - 1074)).toNat = n at *
  generalize den * 2 ^ ((a : ℤ) - 1074).toNat = d at *
  have hd : (0 : ℚ) < d := Nat.cast_pos.2 hpos
  have hunit : (0 : ℚ) < 2 ^ ((a : ℤ) - 1074) := by positivity
  have hlow : a = 0 ∨ (2 : ℚ) ^ ((a : ℤ) - 1022) ≤ num / den := by
    refine (Nat.eq_zero_or_pos a).imp_right fun hpos => ?_
    exact (zpow_le_zpow_right₀ one_le_two (by omega)).trans hgle
  refine ⟨a, divNearest n d, hsteps, divNearest_le ?_, ?_, hlow, ?_⟩
  · have hlt : (n / d : ℚ) * 2 ^ ((a : ℤ) - 1074) < 2 ^ 53 * 2 ^ ((a : ℤ) - 1074) := by
      rw [← hx, ← zpow_natCast, ← zpow_add₀ two_ne_zero]
      exact hglt.trans_le (zpow_le_zpow_right₀ one_le_two (by push_cast; omega))
    have := (div_lt_iff₀ hd).1 (lt_of_mul_lt_mul_right hlt hunit.le)
    rw [Nat.mul_comm]
    exact_mod_cast this
  · refine hlow.symm.imp_left fun hlow => le_divNearest hpos ?_
    have hle : 2 ^ 52 * (2 : ℚ) ^ ((a : ℤ) - 1074) ≤ n / d * 2 ^ ((a : ℤ) - 1074) := by
      rw [← hx, ← zpow_natCast, ← zpow_add₀ two_ne_zero]
      exact (zpow_le_zpow_right₀ one_le_two (by push_cast; omega)).trans hlow
    have := (le_div_iff₀ hd).1 (le_of_mul_le_mul_right hle hunit)
    rw [Nat.mul_comm]
    exact_mod_cast this
  · have hhalf : (divNearest n d : ℚ) ≤ n / d + 1 / 2 := by
      have h : (2 : ℚ) * (divNearest n d * d) ≤ 2 * n + d := by
        exact_mod_cast two_mul_divNearest_le n d
      rw [div_add' _ _ _ hd.ne', le_div_iff₀ hd]
      linarith
    calc (divNearest n d : ℚ) * 2 ^ ((a : ℤ) - 1074)
        ≤ (n / d + 1 / 2) * 2 ^ ((a : ℤ) - 1074) := mul_le_mul_of_nonneg_right hhalf hunit.le
      _ = num / den + 2 ^ ((a : ℤ) - 1075) := by
          rw [add_mul, ← hx, (by ring : (a : ℤ) - 1075 = a - 1074 - 1), zpow_sub_one₀ two_ne_zero]
          ring

/-! ## Overflow, and how much a quotient grows -/

/-- **The quotients that do not overflow.** -/
theorem nearest_lt_infinity (hden : 0 < den) (h : (num / den : ℚ) < 2 ^ 1024 - 2 ^ 970) :
    nearest num den < infinity := by
  rcases num.eq_zero_or_pos with rfl | hnum
  · exact (by decide : 0 < infinity)
  obtain ⟨a, st, hnearest, hst, -, hlow, hsteps⟩ := exists_steps_nearest hnum hden
  rw [hnearest]
  refine (Nat.min_le_left _ _).trans_lt ?_
  have ha : a ≤ 2045 := by
    rcases hlow with rfl | hlow
    · exact Nat.zero_le _
    have hlt : (2 : ℚ) ^ ((a : ℤ) - 1022) < 2 ^ ((1024 : Nat) : ℤ) := by
      rw [zpow_natCast]
      exact (hlow.trans_lt h).trans (sub_lt_self _ (by positivity))
    have := (zpow_lt_zpow_iff_right₀ one_lt_two).1 hlt
    omega
  rw [infinity]
  rcases ha.lt_or_eq with hlt | rfl
  · omega
  · have hlt : (st : ℚ) * 2 ^ (971 : Nat) < 2 ^ 53 * 2 ^ (971 : Nat) := by
      have h971 : ((2045 : Nat) : ℤ) - 1074 = (971 : Nat) := rfl
      have h970 : ((2045 : Nat) : ℤ) - 1075 = (970 : Nat) := rfl
      rw [h971, h970, zpow_natCast, zpow_natCast] at hsteps
      calc (st : ℚ) * 2 ^ (971 : Nat) ≤ num / den + 2 ^ (970 : Nat) := hsteps
        _ < 2 ^ 1024 := lt_sub_iff_add_lt.1 h
        _ = 2 ^ 53 * 2 ^ (971 : Nat) := pow_add 2 53 971
    have : st < 2 ^ 53 := by exact_mod_cast lt_of_mul_lt_mul_right hlt (by positivity)
    omega

/-- **How much a quotient grows by rounding**, unless it is below the numbers of 53 bits. -/
theorem value_nearest_le (hden : 0 < den) (hnormal : (2 : ℚ) ^ (-1022 : ℤ) ≤ num / den)
    (hfinite : nearest num den < infinity) :
    value (nearest num den) ≤ num / den * (1 + 1 / 2 ^ 53) := by
  have hnum : 0 < num := by
    rcases num.eq_zero_or_pos with rfl | hnum
    · have : (0 : ℚ) < 2 ^ (-1022 : ℤ) := by positivity
      rw [Nat.cast_zero, zero_div] at hnormal
      exact absurd hnormal (not_le.2 this)
    · exact hnum
  obtain ⟨a, st, hnearest, hst, hfull, hlow, hsteps⟩ := exists_steps_nearest hnum hden
  rw [hnearest, min_eq_left (by omega), value_add hst hfull]
  have hunit : (2 : ℚ) ^ ((a : ℤ) - 1075) ≤ num / den * (1 / 2 ^ 53) := by
    have heq : (2 : ℚ) ^ ((a : ℤ) - 1075) = 2 ^ ((a : ℤ) - 1022) * (1 / 2 ^ 53) := by
      rw [(by ring : (a : ℤ) - 1075 = a - 1022 - (53 : Nat)), zpow_sub₀ two_ne_zero, zpow_natCast]
      ring
    rw [heq]
    refine mul_le_mul_of_nonneg_right ?_ (by positivity)
    rcases hlow with rfl | hlow
    · exact hnormal
    · exact hlow
  linarith

/-- A whole number that does not overflow hardly grows when it is rounded. -/
theorem value_nearest_natCast_le {n : Nat} (h : (n : ℚ) < 2 ^ 1024 - 2 ^ 970) :
    value (nearest n 1) ≤ n * (1 + 1 / 2 ^ 53) := by
  rcases n.eq_zero_or_pos with rfl | hn
  · simp [nearest, value_zero]
  have hq : (n / (1 : Nat) : ℚ) = n := by simp
  have hnormal : (2 : ℚ) ^ (-1022 : ℤ) ≤ n / (1 : Nat) := by
    rw [hq]
    exact (zpow_le_one_of_nonpos₀ one_le_two (by decide)).trans (Nat.one_le_cast.2 hn)
  have hle := value_nearest_le Nat.one_pos hnormal (nearest_lt_infinity Nat.one_pos (by rwa [hq]))
  rwa [hq] at hle

/-! ## Products of two -/

theorem ratio_div (m : Nat) : ((ratio m).1 : ℚ) / (ratio m).2 = value m := by
  rw [value, zpow_eq_div, ratio]
  push_cast
  ring

/-- A product that is far from overflow is finite. -/
theorem nearest_mul_lt_infinity {m m' : Nat} (h : value m * value m' < 2 ^ 1024 - 2 ^ 970) :
    nearest ((ratio m).1 * (ratio m').1) ((ratio m).2 * (ratio m').2) < infinity := by
  refine nearest_lt_infinity (Nat.mul_pos (ratio_den_pos m) (ratio_den_pos m')) ?_
  rwa [Nat.cast_mul, Nat.cast_mul, mul_div_mul_comm, ratio_div, ratio_div]

/-- The end of the fourth largest interval. -/
theorem upper_near_top : upper (infinity - 4) = (2 ^ 53 - 7 / 2) * 2 ^ 971 := by
  have hs : significand (infinity - 4) = 2 ^ 53 - 4 := by decide
  have he : exponent (infinity - 4) = (971 : Nat) := by decide
  rw [upper, hs, he, zpow_natCast]
  norm_num

end Double
end StreamTables
