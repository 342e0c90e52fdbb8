import StreamTables.Text.Digits

/-!
# Zeros at the ends of digits

Zeros in front of digits do not count, and zeros behind them multiply.  The digits that a number is
written with have no zero in front, unless the number is zero.
-/

set_option autoImplicit false

namespace StreamTables
namespace Digits

theorem ofNat_zero : ofNat 0 = ['0'] := by
  rw [ofNat]
  rfl

theorem value_cons_zero (ds : List Char) : value ('0' :: ds) = value ds := rfl

theorem value_replicate_zero_append (k : Nat) (ds : List Char) :
    value (List.replicate k '0' ++ ds) = value ds := by
  induction k with
  | zero => rfl
  | succ k ih => rw [List.replicate_succ, List.cons_append, value_cons_zero, ih]

theorem value_append_singleton (ds : List Char) (c : Char) :
    value (ds ++ [c]) = 10 * value ds + digit c := by
  rw [value_append, List.foldl_cons, List.foldl_nil]

theorem value_append_replicate_zero (ds : List Char) (k : Nat) :
    value (ds ++ List.replicate k '0') = value ds * 10 ^ k := by
  induction k with
  | zero => simp
  | succ k ih =>
    have hzero : digit '0' = 0 := rfl
    rw [List.replicate_succ', ← List.append_assoc, value_append_singleton, ih, hzero, Nat.add_zero,
      Nat.pow_succ, Nat.mul_comm, Nat.mul_assoc]

theorem char_ne_zero {d : Nat} (hd : d < 10) (h : 0 < d) : char d ≠ '0' := by
  have : ∀ d < 10, 0 < d → char d ≠ '0' := by decide
  exact this d hd h

/-- The digits of a number above zero do not begin with a zero. -/
theorem head?_ofNat_ne_zero {n : Nat} (h : 0 < n) : (ofNat n).head? ≠ some '0' := by
  fun_induction ofNat n with
  | case1 n hn => simpa using char_ne_zero hn h
  | case2 n hn ih =>
    obtain ⟨c, cs, hc⟩ := List.exists_cons_of_ne_nil (ofNat_ne_nil (n / 10))
    have hhead := ih (by omega)
    rw [hc] at hhead ⊢
    exact hhead

/-- There are ten digits. -/
theorem exists_char_of_isDigit {c : Char} (h : c.isDigit = true) : ∃ d < 10, c = char d := by
  rw [Char.isDigit, Bool.and_eq_true, decide_eq_true_eq, decide_eq_true_eq] at h
  have hle : 48 ≤ c.toNat ∧ c.toNat ≤ 57 := h
  refine ⟨c.toNat - 48, by omega, ?_⟩
  rw [char, Nat.add_sub_cancel' hle.1, Char.ofNat_toNat]

theorem length_ofNat_pos (n : Nat) : 0 < (ofNat n).length :=
  List.length_pos_iff.2 (ofNat_ne_nil n)

theorem isDigit_of_mem_replicate_zero {k : Nat} {c : Char} (h : c ∈ List.replicate k '0') :
    c.isDigit = true := by
  rw [List.eq_of_mem_replicate h]
  rfl

end Digits
end StreamTables
