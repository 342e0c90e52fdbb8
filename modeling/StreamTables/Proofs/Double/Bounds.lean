import StreamTables.Json.Numeral

/-!
# What a number literal is read as is finite

A literal is read in two roundings, and only the scaling up is checked for overflow.  The rest stays
small enough by itself: what 64 bits hold is far below the largest double, and scaling down divides
by powers of ten.  The bounds here are generous, which keeps the arithmetic short.

## What is here

* `Double.nearest_le`: a bound for a rounded quotient, in binary orders of magnitude.
* `Numeral.isFinite_of_double?`: what is read is finite.
* `Decimal.scaleFits_of_decimal?`: the decimal that a literal is read as has a scale of 64 bits.
* `Double.shortest_pos`: the digits of a magnitude above zero are not all zero.
-/

set_option autoImplicit false

namespace StreamTables
namespace Double

theorem divNearest_le {num den k : Nat} (h : num < den * k) : divNearest num den ≤ k := by
  have hdiv : num / den < k := Nat.div_lt_of_lt_mul h
  simp only [divNearest]
  split
  · omega
  · split
    · omega
    · split <;> omega

/-- **A quotient below `2 ^ k` rounds to a magnitude of that order.** -/
theorem nearest_le {num den k : Nat} (hden : 0 < den) (h : num < den * 2 ^ k) :
    nearest num den ≤ (k + 1026) * 2 ^ 52 := by
  by_cases hnum : num = 0
  · rw [hnum]
    exact Nat.zero_le _
  have hnum_lt : num < 2 ^ (num.log2 + 1) := Nat.lt_log2_self
  have hden_le : 2 ^ den.log2 ≤ den := Nat.log2_self_le (by omega)
  have horder : num.log2 ≤ den.log2 + k := by
    have hlt : num < 2 ^ (den.log2 + 1 + k) := by
      rw [Nat.pow_add]
      exact Nat.lt_of_lt_of_le h (Nat.mul_le_mul_right _ (Nat.le_of_lt Nat.lt_log2_self))
    have := (Nat.log2_lt hnum).2 hlt
    omega
  rw [nearest, if_neg hnum]
  simp only
  generalize hguess : (num.log2 : Int) - den.log2 = guess
  generalize hu : max ((if num * 2 ^ (-guess).toNat < den * 2 ^ guess.toNat
    then guess - 1 else guess) - 52) (-1074) = u
  have hlow : (num.log2 : Int) - den.log2 - 53 ≤ u := by
    rw [← hu]
    split <;> omega
  have hhigh : (u + 1074).toNat ≤ k + 1022 := by
    rw [← hu]
    split <;> omega
  have hsteps : divNearest (num * 2 ^ (-u).toNat) (den * 2 ^ u.toNat) ≤ 2 ^ 54 := by
    refine divNearest_le ?_
    calc num * 2 ^ (-u).toNat
        < 2 ^ (num.log2 + 1) * 2 ^ (-u).toNat :=
          Nat.mul_lt_mul_of_pos_right hnum_lt (Nat.two_pow_pos _)
      _ = 2 ^ (num.log2 + 1 + (-u).toNat) := (Nat.pow_add ..).symm
      _ ≤ 2 ^ (den.log2 + (u.toNat + 54)) := Nat.pow_le_pow_right (by omega) (by omega)
      _ = 2 ^ den.log2 * (2 ^ u.toNat * 2 ^ 54) := by rw [Nat.pow_add, Nat.pow_add]
      _ ≤ den * (2 ^ u.toNat * 2 ^ 54) := Nat.mul_le_mul_right _ hden_le
      _ = den * 2 ^ u.toNat * 2 ^ 54 := (Nat.mul_assoc ..).symm
  calc min ((u + 1074).toNat * 2 ^ 52 + divNearest _ _) infinity
      ≤ (u + 1074).toNat * 2 ^ 52 + divNearest _ _ := Nat.min_le_left _ _
    _ ≤ (k + 1022) * 2 ^ 52 + 2 ^ 54 := Nat.add_le_add (Nat.mul_le_mul_right _ hhigh) hsteps
    _ = (k + 1026) * 2 ^ 52 := by omega

/-! ## Magnitudes and their values -/

theorem magnitude_ofMagnitude (negative : Bool) {m : Nat} (h : m < 2 ^ 63) :
    (ofMagnitude negative m).magnitude = m := by
  cases negative
  all_goals
    simp only [magnitude, ofMagnitude, Bool.false_eq_true, if_true, if_false, UInt64.toNat_ofNat']
    omega

theorem isFinite_ofMagnitude (negative : Bool) {m : Nat} (h : m < infinity) :
    (ofMagnitude negative m).isFinite = true := by
  have hbound : infinity < 2 ^ 63 := by decide
  rw [isFinite, magnitude_ofMagnitude negative (Nat.lt_trans h hbound)]
  exact decide_eq_true h

theorem significand_lt {m : Nat} : significand m < 2 ^ 53 := by
  rw [significand]
  split
  · next h => exact Nat.lt_trans (of_decide_eq_true h) (by decide)
  · have := Nat.mod_lt m (Nat.two_pow_pos 52)
    omega

theorem significand_pos {m : Nat} (h : 0 < m) : 0 < significand m := by
  rw [significand]
  split
  · exact h
  · exact Nat.add_pos_left (Nat.two_pow_pos 52) _

/-- A magnitude up to `1100 * 2 ^ 52` stands for a number below `2 ^ 78`. -/
theorem ratio_lt {m : Nat} (h : m ≤ 1100 * 2 ^ 52) : (ratio m).1 < (ratio m).2 * 2 ^ 78 := by
  have hexp : exponent m ≤ 25 := by
    have hdiv : m / 2 ^ 52 ≤ 1100 := Nat.div_le_of_le_mul (by omega)
    rw [exponent]
    omega
  calc (ratio m).1 < 2 ^ 53 * 2 ^ (exponent m).toNat :=
        Nat.mul_lt_mul_of_pos_right significand_lt (Nat.two_pow_pos _)
    _ = 2 ^ (53 + (exponent m).toNat) := (Nat.pow_add ..).symm
    _ ≤ 2 ^ ((-exponent m).toNat + 78) := Nat.pow_le_pow_right (by omega) (by omega)
    _ = (ratio m).2 * 2 ^ 78 := Nat.pow_add ..

theorem ratio_den_pos (m : Nat) : 0 < (ratio m).2 := Nat.two_pow_pos _

end Double

namespace Numeral

/-! ## Reading -/

theorem absorb_lt {s : Nat} (h : s < 2 ^ 64) (cs : List Char) : (absorb s cs).1 < 2 ^ 64 := by
  induction cs generalizing s with
  | nil => exact h
  | cons c cs ih =>
    rw [absorb]
    split
    · next hnext => exact ih hnext
    · exact h

/-- The powers of ten that a magnitude is divided by are at least one. -/
theorem ratio_tenTo {e : Nat} (h : e ≤ maxPower) :
    0 < (Double.ratio (tenTo e)).1 ∧
      (Double.ratio (tenTo e)).2 ≤ (Double.ratio (tenTo e)).1 := by
  have hall : ∀ e < maxPower + 1, 0 < (Double.ratio (tenTo e)).1 ∧
      (Double.ratio (tenTo e)).2 ≤ (Double.ratio (tenTo e)).1 := by decide +kernel
  exact hall e (by omega)

/-- The largest of them is above every number that is divided by it. -/
theorem ratio_tenTo_maxPower :
    2 ^ 78 * (Double.ratio (tenTo maxPower)).2 ≤ (Double.ratio (tenTo maxPower)).1 := by
  decide +kernel

/-- What is left of a magnitude after a division by `2 ^ j` or more. -/
theorem quotient_le {a b j : Nat} (ha : a ≤ 1100 * 2 ^ 52) (hj : j ≤ 78)
    (hpos : 0 < (Double.ratio b).1) (hb : 2 ^ j * (Double.ratio b).2 ≤ (Double.ratio b).1) :
    quotient a b ≤ (78 - j + 1026) * 2 ^ 52 := by
  refine Double.nearest_le (Nat.mul_pos (Double.ratio_den_pos a) hpos) ?_
  calc (Double.ratio a).1 * (Double.ratio b).2
      < (Double.ratio a).2 * 2 ^ 78 * (Double.ratio b).2 :=
        Nat.mul_lt_mul_of_pos_right (Double.ratio_lt ha) (Double.ratio_den_pos b)
    _ = (Double.ratio a).2 * (2 ^ (78 - j) * (2 ^ j * (Double.ratio b).2)) := by
        rw [← Nat.mul_assoc (2 ^ (78 - j)), ← Nat.pow_add, Nat.sub_add_cancel hj, Nat.mul_assoc]
    _ ≤ (Double.ratio a).2 * (2 ^ (78 - j) * (Double.ratio b).1) :=
        Nat.mul_le_mul_left _ (Nat.mul_le_mul_left _ hb)
    _ = (Double.ratio a).2 * (Double.ratio b).1 * 2 ^ (78 - j) := by
        rw [Nat.mul_comm (2 ^ (78 - j)), Nat.mul_assoc]

theorem scaleDown_le (m e : Nat) (hm : m ≤ 1100 * 2 ^ 52) : scaleDown m e ≤ 1104 * 2 ^ 52 := by
  fun_induction scaleDown m e with
  | case1 m e he =>
    obtain ⟨hpos, hle⟩ := ratio_tenTo he
    exact quotient_le (j := 0) hm (Nat.zero_le _) hpos (by rwa [Nat.pow_zero, Nat.one_mul])
  | case2 => exact Nat.zero_le _
  | case3 m e _ _ ih =>
    have hpos := (ratio_tenTo (Nat.le_refl maxPower)).1
    refine ih (Nat.le_trans (quotient_le hm (Nat.le_refl 78) hpos ratio_tenTo_maxPower) ?_)
    decide

theorem scaleUp?_lt {m e r : Nat} (h : scaleUp? m e = some r) : r < Double.infinity := by
  rw [scaleUp?] at h
  split at h
  · simp only at h
    split at h
    · next hr => cases h; exact hr
    · exact nomatch h
  · split at h
    · cases h; decide
    · exact nomatch h

/-- **What a literal is read as is finite.** -/
theorem isFinite_of_double? {n : Numeral} {d : Double} (h : n.double? = some d) :
    d.isFinite = true := by
  simp only [double?, Option.map_eq_some_iff] at h
  obtain ⟨m, hm, rfl⟩ := h
  refine Double.isFinite_ofMagnitude _ ?_
  split at hm
  · exact scaleUp?_lt hm
  · cases hm
    have hs : (absorb (absorb 0 n.whole).1 n.fraction).1 < 1 * 2 ^ 64 := by
      rw [Nat.one_mul]
      exact absorb_lt (absorb_lt (by decide) _) _
    have hbound : Double.nearest (absorb (absorb 0 n.whole).1 n.fraction).1 1 ≤ 1100 * 2 ^ 52 :=
      Nat.le_trans (Double.nearest_le (by decide) hs) (by decide)
    exact Nat.lt_of_le_of_lt (scaleDown_le _ _ hbound) (by decide)

end Numeral

/-! ## Decimals of literals -/

namespace Decimal

theorem ofDyadic_places_le (s p : Nat) : (ofDyadic s p).2 ≤ p := by
  fun_induction ofDyadic s p with
  | case1 => exact Nat.le_refl _
  | case2 s p _ ih => exact Nat.le_succ_of_le ih
  | case3 => exact Nat.le_refl _

theorem scaleFits_natCast {n : Nat} (h : n ≤ 1074) : scaleFits (n : Int) = true := by
  simp only [scaleFits, Bool.and_eq_true, decide_eq_true_eq]
  omega

theorem scaleFits_ofDouble (d : Double) : scaleFits (ofDouble d).scale = true := by
  have hexp : (-Double.exponent d.magnitude).toNat ≤ 1074 := by
    rw [Double.exponent]
    omega
  unfold ofDouble
  by_cases hzero : d.magnitude = 0
  · simp only [if_pos hzero]
    exact scaleFits_natCast (Nat.zero_le _)
  by_cases hsub : Double.isSubnormal d.magnitude = true
  · simp only [if_neg hzero, if_pos hsub]
    exact scaleFits_natCast hexp
  · simp only [if_neg hzero, if_neg hsub]
    exact scaleFits_natCast (Nat.le_trans (ofDyadic_places_le _ _) hexp)

/-- **A decimal that a literal is read as has a scale of 64 bits.** -/
theorem scaleFits_of_decimal? {n : Numeral} {d : Decimal} (h : n.decimal? = some d) :
    scaleFits d.scale = true := by
  have hdouble : n.double?.map ofDouble = some d → scaleFits d.scale = true := by
    intro h
    obtain ⟨x, -, rfl⟩ := Option.map_eq_some_iff.1 h
    exact scaleFits_ofDouble x
  rw [Numeral.decimal?] at h
  split at h
  · split at h
    · cases h; rfl
    · exact hdouble h
  · exact hdouble h

end Decimal

/-! ## The digits that are written -/

namespace Double

theorem low_interval_pos {m : Nat} (h : 0 < m) : 0 < (interval m).low := by
  have hs := significand_pos h
  refine Nat.mul_pos ?_ (Nat.two_pow_pos _)
  split <;> omega

theorem pos_of_within {closed : Bool} {low high x : Nat} (hlow : 0 < low)
    (h : within closed low high x = true) : 0 < x := by
  cases closed <;> simp only [within, Bool.false_eq_true, if_true, if_false, Bool.and_eq_true,
    decide_eq_true_eq] at h <;> omega

/-- **The digits of a magnitude above zero are not all zero.** -/
theorem shortest_pos (tie : Tie) {m : Nat} (h : 0 < m) : 0 < (shortest tie m).1 := by
  rw [shortest]
  simp only
  cases hfound : (List.range 24).findSome? fun (n : Nat) =>
      ((interval m).onGrid? tie ((interval m).decade - n)).map
        fun c => (c, (interval m).decade - n) with
  | none => exact significand_pos h
  | some r =>
    obtain ⟨n, -, hn⟩ := List.exists_of_findSome?_eq_some hfound
    obtain ⟨c, hc, rfl⟩ := Option.map_eq_some_iff.1 hn
    have hlow : 0 < (interval m).low * 10 ^ (-((interval m).decade - (n : Int))).toNat :=
      Nat.mul_pos (low_interval_pos h) (Nat.pow_pos (by decide))
    exact Nat.pos_of_mul_pos_right (pos_of_within hlow (Interval.within_of_onGrid? hc))

end Double
end StreamTables
