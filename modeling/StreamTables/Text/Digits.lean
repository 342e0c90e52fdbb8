/-!
# Decimal digits

Natural numbers and integers in base ten, and digits with a decimal point placed among them.

## What is here

* `Digits.ofNat`, `Digits.ofInt`: the digits of a number, without leading zeros.
* `Digits.value`: the number a list of digits denotes; `value_ofNat` says that it undoes `ofNat`.
* `Digits.place`: digits with the decimal point moved to the left, as fixed-point notation writes
  them.
-/

set_option autoImplicit false

namespace StreamTables
namespace Digits

/-- The character of a digit below ten. -/
def char (d : Nat) : Char := Char.ofNat (48 + d)

/-- The number a digit character stands for. -/
def digit (c : Char) : Nat := c.toNat - 48

/-- The digits of a natural number, most significant first; zero is written `0`. -/
def ofNat (n : Nat) : List Char :=
  if n < 10 then [char n] else ofNat (n / 10) ++ [char (n % 10)]

/-- An integer in base ten, with a minus sign in front if it is negative. -/
def ofInt (i : Int) : List Char :=
  if i < 0 then '-' :: ofNat i.natAbs else ofNat i.natAbs

/-- The number that a list of digits denotes; the empty list denotes zero. -/
def value (ds : List Char) : Nat :=
  ds.foldl (fun n c => 10 * n + digit c) 0

/-- A natural number in base ten, as a text. -/
def natText (n : Nat) : String := String.ofList (ofNat n)

/-- An integer in base ten, as a text. -/
def intText (i : Int) : String := String.ofList (ofInt i)

/-- The digits `ds` with the last `places` of them behind a decimal point. Zeros are put in front
where there are too few digits to reach the point; without places there is no point. -/
def place (ds : List Char) (places : Nat) : List Char :=
  if places = 0 then ds
  else
    let padded := List.replicate (places + 1 - ds.length) '0' ++ ds
    padded.take (padded.length - places) ++ '.' :: padded.drop (padded.length - places)

/-! ## Digits are read back -/

theorem value_append (ds es : List Char) :
    value (ds ++ es) = es.foldl (fun n c => 10 * n + digit c) (value ds) := by
  simp [value, List.foldl_append]

theorem digit_char {d : Nat} (h : d < 10) : digit (char d) = d := by
  have : ∀ d < 10, digit (char d) = d := by decide
  exact this d h

theorem isDigit_char {d : Nat} (h : d < 10) : (char d).isDigit = true := by
  have : ∀ d < 10, (char d).isDigit = true := by decide
  exact this d h

/-- The digits of a number denote it. -/
theorem value_ofNat (n : Nat) : value (ofNat n) = n := by
  fun_induction ofNat n with
  | case1 n h => simp [value, digit_char h]
  | case2 n h ih =>
    simp only [value_append, ih, List.foldl_cons, List.foldl_nil,
      digit_char (Nat.mod_lt n (by decide : 10 > 0))]
    omega

theorem isDigit_of_mem_ofNat {n : Nat} : ∀ {c : Char}, c ∈ ofNat n → c.isDigit = true := by
  fun_induction ofNat n with
  | case1 n h =>
    intro c hc
    rw [List.mem_singleton.1 hc]
    exact isDigit_char h
  | case2 n h ih =>
    intro c hc
    rcases List.mem_append.1 hc with hc | hc
    · exact ih hc
    · rw [List.mem_singleton.1 hc]
      exact isDigit_char (Nat.mod_lt n (by decide))

theorem ofNat_ne_nil (n : Nat) : ofNat n ≠ [] := by
  rw [ofNat]
  split <;> simp

end Digits
end StreamTables
