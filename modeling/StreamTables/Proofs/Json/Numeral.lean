import StreamTables.Proofs.Double.Bounds
import StreamTables.Proofs.Json.Lexing

/-!
# Numbers are written as literals

Integers and doubles are written the way they are kept: with digits in front of the point, and no
zero in front of other digits.  An integer is read back as itself.  A double need not be, because
reading rounds twice; `Double.ReadsBack` says of a double that it is.

## What is here

* `Numeral.isLiteral_ofInt`, `Numeral.isLiteral_ofDouble`: what is written is a literal.
* `Numeral.integer?_ofInt`: an integer is read back.
* `Double.ReadsBack`: the doubles that are read back.
-/

set_option autoImplicit false

namespace StreamTables

/-- Whether a double is the same after writing and reading. -/
def Double.ReadsBack (d : Double) : Prop := (Numeral.ofDouble d).double? = some d

instance (d : Double) : Decidable d.ReadsBack :=
  inferInstanceAs (Decidable ((Numeral.ofDouble d).double? = some d))

namespace Numeral

/-! ## Integers -/

theorem head?_ofNat_eq_zero {n : Nat} (h : (Digits.ofNat n).head? = some '0') : n = 0 :=
  Nat.eq_zero_of_not_pos fun hpos => Digits.head?_ofNat_ne_zero hpos h

theorem isLiteral_ofInt (i : Int) : (ofInt i).IsLiteral where
  digits_whole _ h := Digits.isDigit_of_mem_ofNat h
  digits_fraction _ h := nomatch h
  whole_ne_nil := Digits.ofNat_ne_nil _
  no_zero h := by
    simp only [ofInt] at h ⊢
    rw [head?_ofNat_eq_zero h, Digits.ofNat_zero]
    exact Nat.le_refl 1

/-- **An integer is read back.** -/
theorem integer?_ofInt (i : Int) : (ofInt i).integer? = some i := by
  have hnone : ¬ ((ofInt i).fraction ≠ [] ∨ (ofInt i).exponent ≠ none) := by simp [ofInt]
  rw [integer?, if_neg hnone]
  simp only [ofInt, Digits.value_ofNat]
  by_cases hi : i < 0
  · rw [if_pos (decide_eq_true hi), if_neg (by omega)]
    exact congrArg some (by omega)
  · rw [if_neg (by simpa using hi)]
    exact congrArg some (by omega)

/-! ## Doubles -/

theorem head?_append_of_ne_nil {ds es : List Char} (h : ds ≠ []) :
    (ds ++ es).head? = ds.head? := by
  cases ds with
  | nil => exact absurd rfl h
  | cons d ds => rfl

theorem isLiteral_ofShortest (negative : Bool) {c : Nat} (hc : 0 < c) (k : Int) :
    (ofShortest negative c k).IsLiteral := by
  have hdigit : ∀ d ∈ Digits.ofNat c, d.isDigit = true := fun _ h => Digits.isDigit_of_mem_ofNat h
  have hne := Digits.ofNat_ne_nil c
  have hlen := Digits.length_ofNat_pos c
  have hhead := Digits.head?_ofNat_ne_zero hc
  rw [ofShortest]
  simp only
  split
  · refine ⟨fun d h => hdigit d (List.mem_of_mem_take h),
      fun d h => hdigit d (List.mem_of_mem_drop h),
      fun h => ?_, fun _ => List.length_take_le _ _⟩
    rw [List.take_eq_nil_iff] at h
    exact h.elim (fun h => by omega) hne
  split
  · refine ⟨fun d h => ?_, fun d h => ?_, fun h => hne (List.append_eq_nil_iff.1 h).1, fun h => ?_⟩
    · exact (List.mem_append.1 h).elim (hdigit d) Digits.isDigit_of_mem_replicate_zero
    · rw [List.mem_singleton.1 h]; rfl
    · rw [head?_append_of_ne_nil hne] at h
      exact absurd h hhead
  · generalize hpad : List.replicate (k.natAbs + 1 - (Digits.ofNat c).length) '0' = pad
    have hpadlen : pad.length = k.natAbs + 1 - (Digits.ofNat c).length := by
      rw [← hpad, List.length_replicate]
    have hmem : ∀ d ∈ pad ++ Digits.ofNat c, d.isDigit = true := by
      intro d h
      rcases List.mem_append.1 h with h | h
      · exact Digits.isDigit_of_mem_replicate_zero (hpad ▸ h)
      · exact hdigit d h
    refine ⟨fun d h => hmem d (List.mem_of_mem_take h), fun d h => hmem d (List.mem_of_mem_drop h),
      fun h => ?_, fun h => ?_⟩
    · have := congrArg List.length h
      simp only [List.length_take, List.length_append, List.length_nil] at this
      omega
    · rw [List.length_take]
      rcases Nat.lt_or_ge k.natAbs (Digits.ofNat c).length with hk | hk
      · -- there are digits in front of the point already, and the first of them is no zero
        have hnil : pad = [] := List.length_eq_zero_iff.1 (by omega)
        rw [hnil, List.nil_append, List.head?_take, if_neg (by omega)] at h
        exact absurd h hhead
      · simp only [List.length_append]
        omega

/-- **A double is written as a literal.** -/
theorem isLiteral_ofDouble (d : Double) : (ofDouble d).IsLiteral := by
  rw [ofDouble]
  split
  · have hdigit : ∀ c ∈ ['0'], c.isDigit = true := fun c hc => List.mem_singleton.1 hc ▸ rfl
    exact ⟨hdigit, hdigit, List.cons_ne_nil _ _, fun _ => Nat.le_refl 1⟩
  · next h => exact isLiteral_ofShortest d.negative (Double.shortest_pos _ (by omega)) _

end Numeral
end StreamTables
