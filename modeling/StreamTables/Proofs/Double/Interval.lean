import Mathlib.Algebra.Order.Field.Power
import Mathlib.Data.Rat.Cast.Order
import Mathlib.Order.Monotone.Basic
import Mathlib.Tactic.FieldSimp
import Mathlib.Tactic.Linarith
import Mathlib.Tactic.Positivity
import Mathlib.Tactic.Ring
import StreamTables.Proofs.Double.Bounds

/-!
# The intervals of doubles

Each magnitude has an interval around its value, which ends halfway to its neighbours.  One interval
begins where the one before it ends, and of two such magnitudes only one is even, so that no number
is near to both.  The digits that a magnitude is written with denote a number near to it, hence they
tell it from all others.

## What is here

* `Double.value`, `Double.lower`, `Double.upper`: a magnitude and the ends of its interval, as
  rational numbers.
* `Double.IsNear`, `Double.IsNear.unique`: a number is near to one magnitude at most.
* `Double.isNear_shortest`: the digits that a magnitude is written with denote a number near to it.
  The search for them always ends on one of its grids.
-/

set_option autoImplicit false

namespace StreamTables

/-- A power with an integer for its exponent, as a quotient. -/
theorem zpow_eq_div (a : ℚ) (e : ℤ) : a ^ e = a ^ e.toNat / a ^ (-e).toNat := by
  rcases le_total 0 e with he | he
  · obtain ⟨n, rfl⟩ := Int.eq_ofNat_of_zero_le he
    simp
  · obtain ⟨n, hn⟩ := Int.eq_ofNat_of_zero_le (Int.neg_nonneg_of_nonpos he)
    obtain rfl : e = -n := by omega
    simp

namespace Double

/-- The value of a finite magnitude. -/
def value (m : Nat) : ℚ := significand m * 2 ^ exponent m

/-- Where the interval of a magnitude begins: below the least significand of an exponent the
neighbour is half as far. -/
def lower (m : Nat) : ℚ :=
  (significand m - if m % 2 ^ 52 = 0 ∧ 2 ^ 52 < m then 1 / 4 else 1 / 2) * 2 ^ exponent m

/-- Where the interval of a magnitude ends. -/
def upper (m : Nat) : ℚ := (significand m + 1 / 2) * 2 ^ exponent m

/-- Whether a number lies in the interval of a magnitude.  The two ends do so only if the magnitude
is even. -/
structure IsNear (m : Nat) (x : ℚ) : Prop where
  lower_le : lower m ≤ x
  le_upper : x ≤ upper m
  even_of_eq : x = lower m ∨ x = upper m → m % 2 = 0

variable {m m' : Nat} {x : ℚ}

theorem isNear_iff :
    IsNear m x ↔ lower m ≤ x ∧ x ≤ upper m ∧ (x = lower m ∨ x = upper m → m % 2 = 0) :=
  ⟨fun ⟨h, h', heven⟩ => ⟨h, h', heven⟩, fun ⟨h, h', heven⟩ => ⟨h, h', heven⟩⟩

/-! ## Neighbours -/

theorem lower_lt_value (m : Nat) : lower m < value m := by
  refine mul_lt_mul_of_pos_right (sub_lt_self _ ?_) (by positivity)
  split <;> norm_num

theorem value_lt_upper (m : Nat) : value m < upper m :=
  mul_lt_mul_of_pos_right (lt_add_of_pos_right _ (by norm_num)) (by positivity)

theorem significand_of_lt (h : m < 2 ^ 52) : significand m = m := if_pos (decide_eq_true h)

theorem significand_of_le (h : 2 ^ 52 ≤ m) : significand m = 2 ^ 52 + m % 2 ^ 52 :=
  if_neg (by simpa [isSubnormal] using h)

/-- The magnitude after the last of its exponent has the least significand of the next one. -/
theorem succ_of_last (h : (m + 1) % 2 ^ 52 = 0) (hm : 2 ^ 52 < m + 1) :
    significand m = 2 ^ 53 - 1 ∧ significand (m + 1) = 2 ^ 52 ∧
      exponent (m + 1) = exponent m + 1 := by
  rw [significand_of_le (m := m) (by omega), significand_of_le hm.le, exponent, exponent]
  omega

/-- Any other magnitude is followed by the next significand. -/
theorem succ_of_not_last (h : ¬ ((m + 1) % 2 ^ 52 = 0 ∧ 2 ^ 52 < m + 1)) :
    significand (m + 1) = significand m + 1 ∧ exponent (m + 1) = exponent m := by
  rcases Nat.lt_or_ge m (2 ^ 52) with hm | hm
  · rw [significand_of_lt hm, exponent, exponent]
    rcases Nat.lt_or_ge (m + 1) (2 ^ 52) with hm' | hm'
    · rw [significand_of_lt hm']
      omega
    · rw [significand_of_le hm']
      omega
  · rw [significand_of_le hm, significand_of_le (by omega : 2 ^ 52 ≤ m + 1), exponent, exponent]
    omega

/-- **One interval begins where the one before it ends.** -/
theorem lower_succ (m : Nat) : lower (m + 1) = upper m := by
  rw [lower, upper]
  by_cases h : (m + 1) % 2 ^ 52 = 0 ∧ 2 ^ 52 < m + 1
  · obtain ⟨hs, hs', he⟩ := succ_of_last h.1 h.2
    rw [if_pos h, hs, hs', he, zpow_add_one₀ (by norm_num)]
    norm_num
    ring
  · obtain ⟨hs, he⟩ := succ_of_not_last h
    rw [if_neg h, hs, he]
    push_cast
    ring

theorem strictMono_upper : StrictMono upper :=
  strictMono_nat_of_lt_succ fun m =>
    lower_succ m ▸ (lower_lt_value (m + 1)).trans (value_lt_upper (m + 1))

/-- **A number is near to one magnitude at most.** -/
theorem IsNear.unique (h : IsNear m x) (h' : IsNear m' x) : m = m' := by
  have key : ∀ {a b : Nat}, IsNear a x → IsNear b x → ¬ a < b := by
    intro a b ha hb hlt
    obtain ⟨b, rfl⟩ := Nat.exists_eq_add_one_of_ne_zero (by omega : b ≠ 0)
    have hle : upper a ≤ upper b := strictMono_upper.monotone (by omega)
    have hxb : upper b ≤ x := lower_succ b ▸ hb.lower_le
    -- the number is the end of both intervals, so they are neighbours and both even
    have hends : upper a = upper b := le_antisymm hle (hxb.trans ha.le_upper)
    have hx : x = upper a := le_antisymm ha.le_upper (hle.trans hxb)
    obtain rfl : a = b := strictMono_upper.injective hends
    have heven := ha.even_of_eq (.inr hx)
    have heven' := hb.even_of_eq (.inl (hx.trans (lower_succ a).symm))
    omega
  exact Nat.le_antisymm (Nat.not_lt.1 (key h' h)) (Nat.not_lt.1 (key h h'))

/-! ## The interval that is searched -/

variable {tie : Tie} {i : Interval} {c : Nat} {k : Int}

theorem significand_mod_two (m : Nat) : significand m % 2 = m % 2 := by
  rcases Nat.lt_or_ge m (2 ^ 52) with hm | hm
  · rw [significand_of_lt hm]
  · rw [significand_of_le hm]
    omega

theorem den_interval (m : Nat) : ((interval m).den : ℚ) = 4 * 2 ^ (-exponent m).toNat := by
  simp [interval]

theorem low_interval (hm : 0 < m) : ((interval m).low : ℚ) / (interval m).den = lower m := by
  have hs := significand_pos hm
  rw [den_interval, lower, zpow_eq_div, interval]
  dsimp only
  split
  all_goals
    rw [Nat.cast_mul, Nat.cast_sub (by omega)]
    push_cast
    field_simp
    try ring

theorem high_interval (m : Nat) : ((interval m).high : ℚ) / (interval m).den = upper m := by
  rw [den_interval, upper, zpow_eq_div, interval]
  push_cast
  field_simp
  try ring

theorem closed_interval (m : Nat) : (interval m).closed = decide (m % 2 = 0) := by
  rw [← significand_mod_two]
  rfl

theorem within_iff {closed : Bool} {low high x : Nat} :
    within closed low high x = true ↔
      low ≤ x ∧ x ≤ high ∧ (x = low ∨ x = high → closed = true) := by
  cases closed
  all_goals
    simp only [within, Bool.false_eq_true, if_true, if_false, Bool.and_eq_true, decide_eq_true_eq]
    grind

/-- **The interval in whole numbers is that of the magnitude.** -/
theorem isNear_iff_within (hm : 0 < m) :
    IsNear m (c * 10 ^ k) ↔
      within (interval m).closed ((interval m).low * 10 ^ (-k).toNat)
        ((interval m).high * 10 ^ (-k).toNat) (c * ((interval m).den * 10 ^ k.toNat)) = true := by
  have hden : (0 : ℚ) < (interval m).den := by
    rw [den_interval]
    positivity
  -- all three numbers over one denominator
  have hlow : lower m = ((interval m).low * 10 ^ (-k).toNat : Nat) /
      ((interval m).den * 10 ^ (-k).toNat) := by
    rw [← low_interval hm]
    push_cast
    field_simp
  have hhigh : upper m = ((interval m).high * 10 ^ (-k).toNat : Nat) /
      ((interval m).den * 10 ^ (-k).toNat) := by
    rw [← high_interval]
    push_cast
    field_simp
  have hx : (c * 10 ^ k : ℚ) = (c * ((interval m).den * 10 ^ k.toNat) : Nat) /
      ((interval m).den * 10 ^ (-k).toNat) := by
    rw [zpow_eq_div]
    push_cast
    field_simp
  have hpos : (0 : ℚ) < (interval m).den * 10 ^ (-k).toNat := by positivity
  rw [isNear_iff, within_iff, closed_interval, decide_eq_true_eq, hlow, hhigh, hx]
  simp only [div_le_div_iff_of_pos_right hpos, div_left_inj' hpos.ne', Nat.cast_le, Nat.cast_inj]

/-! ## The search -/

/-- A grid that is no coarser than the interval is wide below its middle has a multiple in it. -/
theorem exists_onGrid? (tie : Tie) (hden : 0 < i.den) (hhigh : i.mid < i.high)
    (h : i.den * 10 ^ k.toNat ≤ (i.mid - i.low) * 10 ^ (-k).toNat) :
    ∃ c, i.onGrid? tie k = some c := by
  have hfine : 0 < 10 ^ (-k).toNat := Nat.pow_pos (by decide)
  have hcoarse : 0 < i.den * 10 ^ k.toNat := Nat.mul_pos hden (Nat.pow_pos (by decide))
  have hlow : i.low * 10 ^ (-k).toNat + i.den * 10 ^ k.toNat ≤ i.mid * 10 ^ (-k).toNat := by
    rw [Nat.sub_mul] at h
    omega
  have hdown : within i.closed (i.low * 10 ^ (-k).toNat) (i.high * 10 ^ (-k).toNat)
      (i.mid * 10 ^ (-k).toNat / (i.den * 10 ^ k.toNat) * (i.den * 10 ^ k.toNat)) = true := by
    have hle := Nat.div_mul_le_self (i.mid * 10 ^ (-k).toNat) (i.den * 10 ^ k.toNat)
    have hlt := Nat.lt_div_mul_add (a := i.mid * 10 ^ (-k).toNat) hcoarse
    have hhigh' := Nat.mul_lt_mul_of_pos_right hhigh hfine
    rw [within_iff]
    omega
  simp only [Interval.onGrid?, hdown]
  split
  · exact ⟨_, rfl⟩
  · exact ⟨_, rfl⟩
  · next h _ => cases h
  · next h _ => cases h

/-- The finest grid that is tried, for a magnitude of each exponent. -/
def finest (e : Int) : Int := (53 + e) * 30103 / 100000 - 21

/-- The finest grid is fine enough. -/
theorem finest_le {e : Int} (hlow : -1074 ≤ e) (hhigh : e ≤ 971) :
    4 * 2 ^ (-e).toNat * 10 ^ (finest e).toNat ≤ 2 ^ e.toNat * 10 ^ (-finest e).toNat := by
  have hall : (List.range 2046).all fun n => decide
      (4 * 2 ^ (-((n : Int) - 1074)).toNat * 10 ^ (finest (n - 1074)).toNat ≤
        2 ^ ((n : Int) - 1074).toNat * 10 ^ (-finest (n - 1074)).toNat) := by decide +kernel
  obtain ⟨n, hn⟩ := Int.eq_ofNat_of_zero_le (by omega : 0 ≤ e + 1074)
  obtain rfl : e = n - 1074 := by omega
  exact of_decide_eq_true (List.all_eq_true.1 hall n (List.mem_range.2 (by omega)))

theorem exponent_bounds (hm : m < infinity) : -1074 ≤ exponent m ∧ exponent m ≤ 971 := by
  rw [infinity] at hm
  rw [exponent]
  omega

theorem decade_interval_le (hm : 0 < m) : (interval m).decade - 23 ≤ finest (exponent m) := by
  have hs := significand_pos hm
  have hden : Nat.log2 (interval m).den = 2 + (-exponent m).toNat := by
    have : (interval m).den = 2 ^ (2 + (-exponent m).toNat) := (Nat.pow_add 2 2 _).symm
    rw [this, Nat.log2_two_pow]
  have hmid : Nat.log2 (interval m).mid < 55 + (exponent m).toNat := by
    have hpos : (interval m).mid ≠ 0 :=
      (Nat.mul_pos (Nat.mul_pos (by decide) hs) (Nat.two_pow_pos _)).ne'
    rw [Nat.log2_lt hpos, Nat.pow_add]
    refine Nat.mul_lt_mul_of_pos_right ?_ (Nat.two_pow_pos _)
    have := significand_lt (m := m)
    omega
  rw [Interval.decade, hden, finest]
  omega

/-- **The search ends on one of the grids that are tried.** -/
theorem exists_onGrid?_interval (tie : Tie) (hm : 0 < m) (hfinite : m < infinity) :
    ∃ c, (interval m).onGrid? tie ((interval m).decade - (23 : Nat)) = some c := by
  have hs := significand_pos hm
  obtain ⟨hlow, hhigh⟩ := exponent_bounds hfinite
  have hle := decade_interval_le hm
  refine exists_onGrid? tie (Nat.mul_pos (by decide) (Nat.two_pow_pos _)) ?_ ?_
  · exact Nat.mul_lt_mul_of_pos_right (by omega) (Nat.two_pow_pos _)
  · have hbelow : 2 ^ (exponent m).toNat ≤ (interval m).mid - (interval m).low := by
      rw [interval]
      dsimp only
      rw [← Nat.sub_mul]
      refine Nat.le_mul_of_pos_left _ ?_
      split <;> omega
    calc (interval m).den * 10 ^ ((interval m).decade - (23 : Nat)).toNat
        ≤ (interval m).den * 10 ^ (finest (exponent m)).toNat :=
          Nat.mul_le_mul_left _ (Nat.pow_le_pow_right (by decide) (by omega))
      _ ≤ 2 ^ (exponent m).toNat * 10 ^ (-finest (exponent m)).toNat := finest_le hlow hhigh
      _ ≤ ((interval m).mid - (interval m).low) *
            10 ^ (-((interval m).decade - (23 : Nat))).toNat :=
          Nat.mul_le_mul hbelow (Nat.pow_le_pow_right (by decide) (by omega))

/-- **The digits of a magnitude denote a number near to it.** -/
theorem isNear_shortest (tie : Tie) (hm : 0 < m) (hfinite : m < infinity) :
    IsNear m ((shortest tie m).1 * 10 ^ (shortest tie m).2) := by
  rw [shortest]
  dsimp only
  cases hfound : (List.range 24).findSome? fun (n : Nat) =>
      ((interval m).onGrid? tie ((interval m).decade - n)).map
        fun c => (c, (interval m).decade - n) with
  | none =>
    obtain ⟨c, hc⟩ := exists_onGrid?_interval tie hm hfinite
    have h := List.findSome?_eq_none_iff.1 hfound 23 (by decide)
    rw [hc] at h
    cases h
  | some r =>
    obtain ⟨n, -, hn⟩ := List.exists_of_findSome?_eq_some hfound
    obtain ⟨c, hc, rfl⟩ := Option.map_eq_some_iff.1 hn
    exact (isNear_iff_within hm).2 (Interval.within_of_onGrid? hc)

end Double
end StreamTables
