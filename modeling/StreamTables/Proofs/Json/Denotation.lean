import StreamTables.Proofs.Double.Nearest
import StreamTables.Proofs.Json.Numeral

/-!
# What the literal of a double denotes

A double is written with digits that denote a number near to it.  This number tells which double was
written, so that no two are written alike.  Reading need not give that double, but it does give one:
a reader refuses only what overflows, and two roundings of a number that is near to a finite double
do not, unless the double is one of the three largest.  Those are read back.

## What is here

* `Numeral.denoted`: the number that a literal denotes, but for its sign.
* `Numeral.ofDouble_injective`: no two finite doubles are written alike.
* `Numeral.exists_double?_ofDouble`: what a finite double is written as is accepted.
-/

set_option autoImplicit false

namespace StreamTables
namespace Digits

variable {ds : List Char}

theorem mul_pow_le_foldl (s : Nat) (ds : List Char) :
    s * 10 ^ ds.length ≤ ds.foldl (fun n c => 10 * n + digit c) s := by
  induction ds generalizing s with
  | nil => simp
  | cons d ds ih =>
    refine Nat.le_trans ?_ (ih (10 * s + digit d))
    rw [List.length_cons, Nat.pow_succ', ← Nat.mul_assoc, Nat.mul_comm s]
    exact Nat.mul_le_mul_right _ (Nat.le_add_right _ _)

theorem digit_le {c : Char} (h : c.isDigit = true) : digit c ≤ 9 := by
  simp only [Char.isDigit, Bool.and_eq_true, decide_eq_true_eq] at h
  have hle : c.toNat ≤ 57 := UInt32.le_iff_toNat_le.1 h.2
  rw [digit]
  omega

theorem value_lt (h : ∀ c ∈ ds, c.isDigit = true) : value ds < 10 ^ ds.length := by
  induction ds using List.reverseRecOn with
  | nil => exact Nat.one_pos
  | append_singleton ds c ih =>
    rw [List.forall_mem_append, List.forall_mem_singleton] at h
    have hds := ih h.1
    have hc := digit_le h.2
    rw [value_append_singleton, List.length_append, List.length_singleton, Nat.pow_succ]
    omega

end Digits

namespace Numeral

open Digits

/-- The number that a literal denotes, but for its sign. -/
def denoted (n : Numeral) : ℚ :=
  value (n.whole ++ n.fraction) * 10 ^ (n.exponent.getD 0 - n.fraction.length)

/-! ## The three forms of a literal -/

theorem denoted_ofShortest (negative : Bool) (c : Nat) (k : Int) :
    (ofShortest negative c k).denoted = c * 10 ^ k := by
  have hlen := length_ofNat_pos c
  rw [ofShortest]
  dsimp only
  split
  · rw [denoted, List.take_append_drop, value_ofNat, List.length_drop, Option.getD_some]
    congr 2
    omega
  split
  · next hk =>
    obtain ⟨n, rfl⟩ := Int.eq_ofNat_of_zero_le hk
    rw [denoted, List.append_assoc, ← List.replicate_succ', value_append_replicate_zero,
      value_ofNat, Int.toNat_natCast, Nat.pow_succ, zpow_natCast]
    have hplace : (10 : ℚ) ^ ((none : Option Int).getD 0 - (['0'].length : Int)) = 10⁻¹ := by simp
    rw [hplace]
    push_cast
    field_simp
  · next hk =>
    generalize hpad : List.replicate (k.natAbs + 1 - (ofNat c).length) '0' ++ ofNat c = padded
    have hvalue : value padded = c := by
      rw [← hpad, value_replicate_zero_append, value_ofNat]
    have hpadlen : k.natAbs ≤ padded.length := by
      rw [← hpad, List.length_append, List.length_replicate]
      omega
    rw [denoted, List.take_append_drop, hvalue, List.length_drop, Nat.sub_sub_self hpadlen,
      Option.getD_none]
    congr 2
    omega

/-- There are not many digits in front of the point. -/
theorem length_whole_ofShortest_le (negative : Bool) (c : Nat) (k : Int) :
    (ofShortest negative c k).whole.length ≤ 16 := by
  have hlen := length_ofNat_pos c
  rw [ofShortest]
  dsimp only
  split
  · exact (List.length_take_le _ _).trans (by decide)
  split
  · rw [List.length_append, List.length_replicate]
    omega
  · rw [List.length_take, List.length_append, List.length_replicate]
    omega

/-! ## No two doubles are written alike -/

theorem ofDouble_of_pos {d : Double} (h : 0 < d.magnitude) :
    ofDouble d = ofShortest d.negative (Double.shortest .toEven d.magnitude).1
      (Double.shortest .toEven d.magnitude).2 := by
  rw [ofDouble, if_neg h.ne']

/-- **A finite double is written as a number near to it.** -/
theorem isNear_ofDouble {d : Double} (h : 0 < d.magnitude) (hfinite : d.isFinite = true) :
    Double.IsNear d.magnitude (ofDouble d).denoted := by
  rw [ofDouble_of_pos h, denoted_ofShortest]
  exact Double.isNear_shortest .toEven h (of_decide_eq_true hfinite)

theorem denoted_ofDouble_pos {d : Double} (h : 0 < d.magnitude) : 0 < (ofDouble d).denoted := by
  have hpos := Double.shortest_pos .toEven h
  rw [ofDouble_of_pos h, denoted_ofShortest]
  positivity

theorem denoted_ofDouble_of_zero {d : Double} (h : d.magnitude = 0) : (ofDouble d).denoted = 0 := by
  rw [ofDouble, if_pos h, denoted]
  have hzero : value (['0'] ++ ['0']) = 0 := rfl
  rw [hzero, Nat.cast_zero, zero_mul]

theorem negative_ofShortest (negative : Bool) (c : Nat) (k : Int) :
    (ofShortest negative c k).negative = negative := by
  rw [ofShortest]
  split
  · rfl
  · split <;> rfl

theorem negative_ofDouble (d : Double) : (ofDouble d).negative = d.negative := by
  rcases d.magnitude.eq_zero_or_pos with hzero | hpos
  · rw [ofDouble, if_pos hzero]
  · rw [ofDouble_of_pos hpos, negative_ofShortest]

end Numeral

/-- A double is its sign and its magnitude. -/
theorem Double.ofMagnitude_negative_magnitude (d : Double) :
    ofMagnitude d.negative d.magnitude = d := by
  obtain ⟨bits⟩ := d
  have hlt := bits.toNat_lt
  rw [ofMagnitude, mk.injEq, ← UInt64.toNat_inj, UInt64.toNat_ofNat', magnitude, negative]
  simp only [decide_eq_true_eq]
  split <;> omega

namespace Numeral

open Digits Double

/-- **No two finite doubles are written alike.** -/
theorem ofDouble_injective {d d' : Double} (hfinite : d.isFinite = true)
    (hfinite' : d'.isFinite = true) (h : ofDouble d = ofDouble d') : d = d' := by
  have hsign : d.negative = d'.negative := by rw [← negative_ofDouble, h, negative_ofDouble]
  suffices hmagnitude : d.magnitude = d'.magnitude by
    rw [← ofMagnitude_negative_magnitude d, hsign, hmagnitude, ofMagnitude_negative_magnitude]
  rcases d.magnitude.eq_zero_or_pos with hzero | hpos <;>
    rcases d'.magnitude.eq_zero_or_pos with hzero' | hpos'
  · rw [hzero, hzero']
  · have := denoted_ofDouble_pos hpos'
    rw [← h, denoted_ofDouble_of_zero hzero] at this
    exact absurd this (lt_irrefl _)
  · have := denoted_ofDouble_pos hpos
    rw [h, denoted_ofDouble_of_zero hzero'] at this
    exact absurd this (lt_irrefl _)
  · exact (isNear_ofDouble hpos hfinite).unique (h ▸ isNear_ofDouble hpos' hfinite')

/-! ## What is written is accepted -/

/-- Two roundings of a number in the fourth largest interval do not overflow. -/
theorem two_roundings_lt : upper (infinity - 4) * (1 + 1 / 2 ^ 53) ^ 2 < 2 ^ 1024 - 2 ^ 970 := by
  have hunit : (0 : ℚ) < 2 ^ 970 := by positivity
  have hscaled : ((2 : ℚ) ^ 53 - 7 / 2) * 2 * (1 + 1 / 2 ^ 53) ^ 2 < 2 ^ 54 - 1 := by norm_num
  rw [upper_near_top]
  calc (2 ^ 53 - 7 / 2) * 2 ^ 971 * (1 + 1 / 2 ^ 53) ^ 2
      = (2 ^ 53 - 7 / 2) * 2 * (1 + 1 / 2 ^ 53) ^ 2 * (2 : ℚ) ^ 970 := by
        rw [pow_succ' 2 970, ← mul_assoc, mul_right_comm]
    _ < (2 ^ 54 - 1) * 2 ^ 970 := mul_lt_mul_of_pos_right hscaled hunit
    _ = 2 ^ 1024 - 2 ^ 970 := by rw [sub_one_mul, pow_add 2 54 970]

/-- The powers of ten that a double can hold, and those that it cannot. -/
theorem ten_pow_bounds : (10 : ℚ) ^ maxPower < 2 ^ 1024 - 2 ^ 970 ∧
    (2 : ℚ) ^ 1024 < 10 ^ (maxPower + 1) := by
  have hnat : 10 ^ maxPower + 2 ^ 970 < 2 ^ 1024 ∧ 2 ^ 1024 < 10 ^ (maxPower + 1) := by
    decide +kernel
  have hlow := Nat.cast_lt (α := ℚ).2 hnat.1
  have hhigh := Nat.cast_lt (α := ℚ).2 hnat.2
  simp only [Nat.cast_add, Nat.cast_pow, Nat.cast_ofNat] at hlow hhigh
  exact ⟨lt_sub_iff_add_lt.2 hlow, hhigh⟩

/-- **A number that is scaled up is accepted**, if it stays away from the largest double by more
than two roundings may add to it. -/
theorem exists_scaleUp? {s e : Nat} (hs : s < 2 ^ 64)
    (h : (s * 10 ^ e : ℚ) ≤ upper (infinity - 4)) : ∃ r, scaleUp? (nearest s 1) e = some r := by
  obtain ⟨hpower, hbeyond⟩ := ten_pow_bounds
  rw [scaleUp?]
  by_cases he : e ≤ maxPower
  · rw [if_pos he]
    have hten : (10 : ℚ) ^ e ≤ 10 ^ maxPower := pow_le_pow_right₀ (by norm_num) he
    have hs' : (s : ℚ) < 10 ^ maxPower := by
      have hs' : (s : ℚ) < 2 ^ 64 := by exact_mod_cast hs
      exact hs'.trans ((by norm_num : (2 : ℚ) ^ 64 < 10 ^ 20).trans_le
        (pow_le_pow_right₀ (by norm_num) (by decide)))
    have hvalue := value_nearest_natCast_le (n := s) (hs'.trans hpower)
    have hvalue' := value_nearest_natCast_le (n := 10 ^ e)
      (by rw [Nat.cast_pow, Nat.cast_ofNat]; exact hten.trans_lt hpower)
    have hlt : product (nearest s 1) (tenTo e) < infinity := by
      refine nearest_mul_lt_infinity ?_
      calc Double.value (nearest s 1) * Double.value (tenTo e)
          ≤ s * (1 + 1 / 2 ^ 53) * ((10 ^ e : Nat) * (1 + 1 / 2 ^ 53)) :=
            mul_le_mul hvalue hvalue' (value_nonneg _) (by positivity)
        _ = s * 10 ^ e * (1 + 1 / 2 ^ 53) ^ 2 := by push_cast; ring
        _ ≤ upper (infinity - 4) * (1 + 1 / 2 ^ 53) ^ 2 :=
            mul_le_mul_of_nonneg_right h (by positivity)
        _ < 2 ^ 1024 - 2 ^ 970 := two_roundings_lt
    exact ⟨_, if_pos hlt⟩
  · -- so large a power of ten is beyond the doubles, and can only multiply a zero
    rw [if_neg he]
    have hzero : s = 0 := by
      by_contra hne
      have hone : (1 : ℚ) ≤ s := Nat.one_le_cast.2 (Nat.pos_of_ne_zero hne)
      have hten : (10 : ℚ) ^ (maxPower + 1) ≤ 10 ^ e :=
        pow_le_pow_right₀ (by norm_num) (Nat.lt_of_not_le he)
      have hge : (10 : ℚ) ^ (maxPower + 1) ≤ s * 10 ^ e :=
        hten.trans (le_mul_of_one_le_left (by positivity) hone)
      have hle : upper (infinity - 4) ≤ 2 ^ 1024 := by
        rw [upper_near_top, pow_add 2 53 971]
        exact mul_le_mul_of_nonneg_right (by norm_num) (by positivity)
      exact absurd (hge.trans (h.trans hle)) (not_le.2 hbeyond)
    rw [hzero]
    exact ⟨0, rfl⟩

theorem absorb_mul_le (s : Nat) (cs : List Char) :
    (absorb s cs).1 * 10 ^ (absorb s cs).2.length ≤ cs.foldl (fun n c => 10 * n + digit c) s := by
  fun_induction absorb s cs with
  | case1 s => simp
  | case2 s c cs next _ ih => exact ih
  | case3 s c cs => exact mul_pow_le_foldl s (c :: cs)

theorem absorb_of_lt {s : Nat} {cs : List Char}
    (h : cs.foldl (fun n c => 10 * n + digit c) s < 2 ^ 64) :
    absorb s cs = (cs.foldl (fun n c => 10 * n + digit c) s, []) := by
  fun_induction absorb s cs with
  | case1 s => rfl
  | case2 s c cs next _ ih => exact ih h
  | case3 s c cs next hnext =>
    refine absurd (Nat.lt_of_le_of_lt ?_ h) hnext
    exact (Nat.le_mul_of_pos_right _ (Nat.pow_pos (by decide))).trans (mul_pow_le_foldl _ cs)

theorem length_absorb_le (s : Nat) (cs : List Char) : (absorb s cs).2.length ≤ cs.length := by
  fun_induction absorb s cs with
  | case1 s => exact Nat.le_refl _
  | case2 s c cs next _ ih => exact ih.trans (Nat.le_succ _)
  | case3 s c cs => exact Nat.le_refl _

/-- What is absorbed of a literal with few digits in front of the point. -/
theorem scaled_le {n : Numeral} (hn : n.IsLiteral) (hlen : n.whole.length ≤ 16) {e : Nat}
    (he : n.exponent.getD 0 + (absorb 0 n.whole).2.length - (n.fraction.length -
      (absorb (absorb 0 n.whole).1 n.fraction).2.length : Nat) = (e : Int)) :
    ((absorb (absorb 0 n.whole).1 n.fraction).1 * 10 ^ e : ℚ) ≤ n.denoted := by
  have hwhole : absorb 0 n.whole = (value n.whole, []) := by
    refine absorb_of_lt ((value_lt hn.digits_whole).trans ?_)
    exact (Nat.pow_le_pow_right (by decide) hlen).trans_lt (by decide)
  have hfraction := length_absorb_le (value n.whole) n.fraction
  have hle := absorb_mul_le (value n.whole) n.fraction
  rw [← value_append] at hle
  rw [hwhole] at he ⊢
  dsimp only at he ⊢
  generalize absorb (value n.whole) n.fraction = r at *
  have hexp : n.exponent.getD 0 - (n.fraction.length : Int) = e - (r.2.length : Int) := by
    rw [List.length_nil] at he
    omega
  calc (r.1 * 10 ^ e : ℚ) = (r.1 * 10 ^ r.2.length : Nat) * 10 ^ ((e : Int) - r.2.length) := by
        rw [zpow_sub₀ (by norm_num), zpow_natCast, zpow_natCast]
        push_cast
        field_simp
    _ ≤ n.denoted := by
        rw [denoted, hexp]
        exact mul_le_mul_of_nonneg_right (Nat.cast_le.2 hle) (by positivity)

/-- A literal is accepted if it stays away from the largest double. -/
theorem exists_double? {n : Numeral} (hn : n.IsLiteral) (hlen : n.whole.length ≤ 16)
    (h : n.denoted ≤ upper (infinity - 4)) : ∃ d, n.double? = some d := by
  have hscaled := fun e => scaled_le hn hlen (e := e)
  have hs := absorb_lt (absorb_lt (s := 0) (by decide) n.whole) n.fraction
  simp only [double?]
  generalize (absorb 0 n.whole).2 = left at *
  generalize absorb (absorb 0 n.whole).1 n.fraction = r at *
  generalize n.exponent.getD 0 + left.length - (n.fraction.length - r.2.length : Nat) = e at *
  split
  · next he =>
    obtain ⟨e, rfl⟩ := Int.eq_ofNat_of_zero_le he
    obtain ⟨m, hm⟩ := exists_scaleUp? hs ((hscaled e rfl).trans h)
    rw [Int.toNat_natCast, hm]
    exact ⟨_, rfl⟩
  · exact ⟨_, rfl⟩

/-- The three largest doubles are accepted. -/
theorem isSome_double?_top : ∀ negative : Bool, ∀ i < 3,
    (ofDouble (ofMagnitude negative (infinity - 1 - i))).double?.isSome = true := by
  decide +kernel

theorem length_whole_ofDouble_le (d : Double) : (ofDouble d).whole.length ≤ 16 := by
  rcases d.magnitude.eq_zero_or_pos with hzero | hpos
  · rw [ofDouble, if_pos hzero]
    exact Nat.succ_le_succ (Nat.zero_le _)
  · rw [ofDouble_of_pos hpos]
    exact length_whole_ofShortest_le _ _ _

/-- **What a finite double is written as is accepted.** -/
theorem exists_double?_ofDouble {d : Double} (hfinite : d.isFinite = true) :
    ∃ d', (ofDouble d).double? = some d' := by
  have hlt : d.magnitude < infinity := of_decide_eq_true hfinite
  rcases Nat.lt_or_ge (infinity - 4) d.magnitude with htop | hle
  · have h := isSome_double?_top d.negative (infinity - 1 - d.magnitude) (by omega)
    rw [Nat.sub_sub_self (by omega), ofMagnitude_negative_magnitude] at h
    exact Option.isSome_iff_exists.1 h
  refine exists_double? (isLiteral_ofDouble d) (length_whole_ofDouble_le d) ?_
  rcases d.magnitude.eq_zero_or_pos with hzero | hpos
  · rw [denoted_ofDouble_of_zero hzero, upper]
    positivity
  · exact (isNear_ofDouble hpos hfinite).le_upper.trans (strictMono_upper.monotone hle)

end Numeral
end StreamTables
