import StreamTables.Decimal.Text
import StreamTables.Proofs.Text.Digits

/-!
# A decimal is read back from its text

Of the forms that a decimal may be written in, all but one keep its digits and its scale.  A number
that ends in a few zeros in front of the point is written with these zeros, and is read as a decimal
of more digits and no places: the same value, but not the same decimal.  So the round trip is up to
`Decimal.equal`.

## What is here

* `Decimal.ofChars?_form`: what is read from a sign, digits, a point among them and an exponent.
* `Decimal.magnitudeChars_form`: every text of a number above zero has that form.
* `Decimal.strip_mul_pow`: zeros at the end of a number go to its scale.
* `Decimal.ofText?_text`: the round trip.
* `Decimal.equal_of_text_eq`: what is written alike has one value.
-/

set_option autoImplicit false

namespace StreamTables
namespace Decimal

/-! ## Reading -/

/-- The mark of an exponent. -/
def isMark (c : Char) : Bool := c = 'e' || c = 'E'

/-- A text that stands for an exponent: nothing, or a mark with a number behind it. -/
def IsExponent (tail : List Char) (e : Int) : Prop :=
  (tail = [] ∧ e = 0) ∨ ∃ c es, isMark c = true ∧ tail = c :: es ∧ readExponent? es = some e

theorem readDigits?_eq {ds : List Char} (hne : ds ≠ []) (hd : ∀ c ∈ ds, c.isDigit = true) :
    readDigits? ds = some (Digits.value ds) :=
  if_pos ⟨hne, List.all_eq_true.2 hd⟩

theorem filter_underscore {ds : List Char} (hd : ∀ c ∈ ds, c.isDigit = true) :
    ds.filter (fun c => c ≠ '_') = ds := by
  refine List.filter_eq_self.2 fun c hc => ?_
  have hne : c ≠ '_' := fun h => absurd (h ▸ hd c hc) (by decide)
  exact decide_eq_true hne

theorem readGrouped?_eq {ds : List Char} (hne : ds ≠ []) (hd : ∀ c ∈ ds, c.isDigit = true) :
    readGrouped? ds = some (Digits.value ds) := by
  have hhead : ds.head? ≠ some '_' := fun h =>
    absurd (hd '_' (List.mem_of_mem_head? h)) (by decide)
  rw [readGrouped?, if_neg hhead, filter_underscore hd, readDigits?_eq hne hd]

theorem readExponent?_ofNat (n : Nat) : readExponent? (Digits.ofNat n) = some (n : Int) := by
  have hd : ∀ c ∈ Digits.ofNat n, c.isDigit = true := fun _ h => Digits.isDigit_of_mem_ofNat h
  have hread : (readDigits? (Digits.ofNat n)).map (fun n => (n : Int)) = some (n : Int) := by
    rw [readDigits?_eq (Digits.ofNat_ne_nil n) hd, Digits.value_ofNat]
    rfl
  rw [← hread, readExponent?]
  · rintro cs hcs
    exact absurd (hd '-' (hcs ▸ List.mem_cons_self ..)) (by decide)
  · rintro cs hcs
    exact absurd (hd '+' (hcs ▸ List.mem_cons_self ..)) (by decide)

theorem readExponent?_ofInt (i : Int) : readExponent? (Digits.ofInt i) = some i := by
  rw [Digits.ofInt]
  split
  · next h =>
    rw [readExponent?,
      readDigits?_eq (Digits.ofNat_ne_nil _) fun _ h => Digits.isDigit_of_mem_ofNat h,
      Digits.value_ofNat]
    exact congrArg some (show -(i.natAbs : Int) = i by omega)
  · next h =>
    rw [readExponent?_ofNat]
    exact congrArg some (by omega)

/-- Digits with a sign and a point. -/
def signed (negative : Bool) (ds : List Char) : List Char := (if negative then ['-'] else []) ++ ds

theorem readSigned?_eq (negative : Bool) {ds : List Char} (hne : ds ≠ [])
    (hd : ∀ c ∈ ds, c.isDigit = true) :
    readSigned? (signed negative ds)
      = some (if negative then -(Digits.value ds : Int) else Digits.value ds) := by
  cases negative with
  | true =>
    rw [signed, if_pos rfl, List.singleton_append, readSigned?, readGrouped?_eq hne hd]
    rfl
  | false =>
    rw [signed, if_neg Bool.false_ne_true, List.nil_append, readSigned?, readGrouped?_eq hne hd]
    · rfl
    · rintro cs rfl
      exact absurd (hd '-' (List.mem_cons_self ..)) (by decide)
    · rintro cs rfl
      exact absurd (hd '+' (List.mem_cons_self ..)) (by decide)

/-- The digits behind a point, with the point, unless there are none. -/
def pointed (trail : List Char) : List Char := if trail = [] then [] else '.' :: trail

theorem takeWhile_append_stop {p : Char → Bool} {cs tail : List Char} (hp : ∀ c ∈ cs, p c = true)
    (htail : ∀ c ∈ tail.head?, p c = false) :
    (cs ++ tail).takeWhile p = cs ∧ (cs ++ tail).dropWhile p = tail := by
  rw [List.takeWhile_append_of_pos hp, List.dropWhile_append_of_pos hp]
  cases tail with
  | nil => exact ⟨List.append_nil cs, rfl⟩
  | cons c tail => simp [htail c rfl]

theorem not_isMark (negative : Bool) {lead trail : List Char}
    (hlead : ∀ c ∈ lead, c.isDigit = true) (htrail : ∀ c ∈ trail, c.isDigit = true) :
    ∀ c ∈ signed negative lead ++ pointed trail, (!isMark c) = true := by
  have hdigit : ∀ c : Char, c.isDigit = true → (!isMark c) = true := by
    intro c hc
    simp only [isMark, Bool.not_eq_true', Bool.or_eq_false_iff, decide_eq_false_iff_not]
    exact ⟨fun h => absurd (h ▸ hc) (by decide), fun h => absurd (h ▸ hc) (by decide)⟩
  intro c hc
  simp only [signed, pointed, List.mem_append] at hc
  rcases hc with (hc | hc) | hc
  · split at hc
    · rw [List.mem_singleton.1 hc]; rfl
    · exact nomatch hc
  · exact hdigit c (hlead c hc)
  · split at hc
    · exact nomatch hc
    · rcases List.mem_cons.1 hc with rfl | hc
      · rfl
      · exact hdigit c (htrail c hc)

theorem ne_point_of_mem_signed (negative : Bool) {lead : List Char}
    (hlead : ∀ c ∈ lead, c.isDigit = true) :
    ∀ c ∈ signed negative lead, decide (c ≠ '.') = true := by
  intro c hc
  rw [signed, List.mem_append] at hc
  rcases hc with hc | hc
  · split at hc
    · rw [List.mem_singleton.1 hc]; rfl
    · exact nomatch hc
  · exact decide_eq_true fun h => absurd (h ▸ hlead c hc) (by decide)

theorem head?_pointed (trail : List Char) :
    ∀ c ∈ (pointed trail).head?, decide (c ≠ '.') = false := by
  rw [pointed]
  split
  · exact fun c hc => nomatch hc
  · intro c hc
    cases hc
    rfl

theorem drop_pointed (trail : List Char) : (pointed trail).drop 1 = trail := by
  rw [pointed]
  split
  · next h => rw [h]; rfl
  · rfl

theorem IsExponent.head? {tail : List Char} {e : Int} (h : IsExponent tail e) :
    ∀ c ∈ tail.head?, (!isMark c) = false := by
  rcases h with ⟨rfl, -⟩ | ⟨c, es, hc, rfl, -⟩
  · exact fun c hc => nomatch hc
  · intro d hd
    cases hd
    rw [hc]
    rfl

/-- **What is read from a sign, digits with a point among them, and an exponent**, if its scale
fits. -/
theorem ofChars?_form (negative : Bool) {lead trail tail : List Char} {e : Int} (hne : lead ≠ [])
    (hlead : ∀ c ∈ lead, c.isDigit = true) (htrail : ∀ c ∈ trail, c.isDigit = true)
    (htail : IsExponent tail e) :
    ofChars? (signed negative lead ++ pointed trail ++ tail)
      = if scaleFits (trail.length - e) then
          some ⟨if negative then -(Digits.value (lead ++ trail) : Int)
            else Digits.value (lead ++ trail), trail.length - e⟩
        else none := by
  obtain ⟨hbase, hrest⟩ := takeWhile_append_stop (not_isMark negative hlead htrail)
    htail.head?
  obtain ⟨hl, hr⟩ := takeWhile_append_stop (ne_point_of_mem_signed negative hlead)
    (head?_pointed trail)
  have hdigits : readSigned? (signed negative lead ++ trail)
      = some (if negative then -(Digits.value (lead ++ trail) : Int)
          else Digits.value (lead ++ trail)) := by
    rw [signed, List.append_assoc]
    exact readSigned?_eq negative (fun h => hne (List.append_eq_nil_iff.1 h).1)
      fun c hc => (List.mem_append.1 hc).elim (hlead c) (htrail c)
  rw [ofChars?]
  simp only [isMark] at hbase hrest
  dsimp only
  rw [hbase, hrest, hl, hr, drop_pointed, hdigits, filter_underscore htrail]
  rcases htail with ⟨rfl, rfl⟩ | ⟨c, es, -, rfl, hes⟩
  · dsimp only
    rw [Option.bind_eq_bind, Option.bind_some, Option.bind_some]
  · dsimp only
    rw [hes, Option.bind_eq_bind, Option.bind_some, Option.bind_some]

/-- Only scales that fit are read. -/
theorem scaleFits_of_ofChars? {cs : List Char} {d : Decimal} (h : ofChars? cs = some d) :
    scaleFits d.scale = true := by
  unfold ofChars? at h
  dsimp only at h
  split at h
  · obtain ⟨e, -, h⟩ := Option.bind_eq_some_iff.1 h
    obtain ⟨n, -, h⟩ := Option.bind_eq_some_iff.1 h
    split at h
    · next hfits => cases h; exact hfits
    · exact nomatch h
  · obtain ⟨e, -, h⟩ := Option.bind_eq_some_iff.1 h
    obtain ⟨n, -, h⟩ := Option.bind_eq_some_iff.1 h
    split at h
    · next hfits => cases h; exact hfits
    · exact nomatch h

/-! ## Writing -/

/-- Digits with a point among them are digits in front of it and behind it, and the zeros in front
do not count. -/
theorem place_form {ds : List Char} (hne : ds ≠ []) (hd : ∀ c ∈ ds, c.isDigit = true)
    (places : Nat) :
    ∃ lead trail, Digits.place ds places = lead ++ pointed trail ∧ lead ≠ [] ∧
      (∀ c ∈ lead, c.isDigit = true) ∧ (∀ c ∈ trail, c.isDigit = true) ∧
      Digits.value (lead ++ trail) = Digits.value ds ∧ trail.length = places := by
  by_cases hzero : places = 0
  · refine ⟨ds, [], ?_, hne, hd, List.forall_mem_nil _, by rw [List.append_nil], hzero.symm⟩
    rw [Digits.place, if_pos hzero, pointed, if_pos rfl, List.append_nil]
  generalize hpad : List.replicate (places + 1 - ds.length) '0' ++ ds = padded
  have hlen : places < padded.length := by
    rw [← hpad, List.length_append, List.length_replicate]
    omega
  have hmem : ∀ c ∈ padded, c.isDigit = true := by
    intro c hc
    rw [← hpad] at hc
    exact (List.mem_append.1 hc).elim Digits.isDigit_of_mem_replicate_zero (hd c)
  have htrail : (padded.drop (padded.length - places)).length = places := by
    rw [List.length_drop]
    omega
  have hpointed : padded.drop (padded.length - places) ≠ [] := by
    rw [← List.length_pos_iff, htrail]
    omega
  refine ⟨padded.take (padded.length - places), padded.drop (padded.length - places), ?_, ?_,
    fun c h => hmem c (List.mem_of_mem_take h), fun c h => hmem c (List.mem_of_mem_drop h), ?_,
    htrail⟩
  · rw [Digits.place, if_neg hzero, hpad, pointed, if_neg hpointed]
  · rw [← List.length_pos_iff, List.length_take]
    omega
  · rw [List.take_append_drop, ← hpad, Digits.value_replicate_zero_append]

/-- **Every text of a number above zero has the form that is read.**  The zeros that it may end in,
`k` of them, count for the scale. -/
theorem magnitudeChars_form (n : Nat) (scale : Int) :
    ∃ lead trail tail e, magnitudeChars n scale = lead ++ pointed trail ++ tail ∧ lead ≠ [] ∧
      (∀ c ∈ lead, c.isDigit = true) ∧ (∀ c ∈ trail, c.isDigit = true) ∧ IsExponent tail e ∧
      ∃ k : Nat, Digits.value (lead ++ trail) = n * 10 ^ k ∧ trail.length - e = scale + k ∧
        (k = 0 ∨ scale + k = 0) := by
  have hne := Digits.ofNat_ne_nil n
  have hd : ∀ c ∈ Digits.ofNat n, c.isDigit = true := fun _ h => Digits.isDigit_of_mem_ofNat h
  have hlen := Digits.length_ofNat_pos n
  rw [magnitudeChars]
  dsimp only
  split
  · next hscale =>
    split
    · -- the point goes behind the first digit, and the exponent makes up for that
      obtain ⟨lead, trail, hplace, hlead, hdl, hdt, hvalue, htrail⟩ :=
        place_form hne hd ((Digits.ofNat n).length - 1)
      refine ⟨lead, trail, _, _, by rw [exponentChars, hplace], hlead, hdl, hdt,
        .inr ⟨'E', _, rfl, rfl, readExponent?_ofInt _⟩, 0, ?_, by omega, .inl rfl⟩
      rw [hvalue, Digits.value_ofNat, Nat.pow_zero, Nat.mul_one]
    · obtain ⟨lead, trail, hplace, hlead, hdl, hdt, hvalue, htrail⟩ :=
        place_form hne hd scale.toNat
      refine ⟨lead, trail, [], 0, by rw [hplace, List.append_nil], hlead, hdl, hdt,
        .inl ⟨rfl, rfl⟩, 0, ?_, by omega, .inl rfl⟩
      rw [hvalue, Digits.value_ofNat, Nat.pow_zero, Nat.mul_one]
  · next hscale =>
    have hnil : pointed [] = [] := rfl
    split
    · refine ⟨Digits.ofNat n, [], _, scale.natAbs, by rw [hnil, List.append_nil], hne, hd,
        List.forall_mem_nil _, .inr ⟨'e', _, rfl, rfl, ?_⟩, 0, ?_, ?_, .inl rfl⟩
      · rw [readExponent?, readDigits?_eq (Digits.ofNat_ne_nil _)
          fun _ h => Digits.isDigit_of_mem_ofNat h, Digits.value_ofNat]
        rfl
      · rw [List.append_nil, Digits.value_ofNat, Nat.pow_zero, Nat.mul_one]
      · rw [List.length_nil]
        omega
    · refine ⟨Digits.ofNat n ++ List.replicate scale.natAbs '0', [], [], 0,
        by rw [hnil, List.append_nil, List.append_nil], ?_, fun c hc => ?_, List.forall_mem_nil _,
        .inl ⟨rfl, rfl⟩, scale.natAbs, ?_, ?_, .inr (by omega)⟩
      · exact fun h => hne (List.append_eq_nil_iff.1 h).1
      · exact (List.mem_append.1 hc).elim (hd c) Digits.isDigit_of_mem_replicate_zero
      · rw [List.append_nil, Digits.value_append_replicate_zero, Digits.value_ofNat]
      · rw [List.length_nil]
        omega

/-! ## Equal values -/

/-- **Zeros at the end of a number go to its scale.** -/
theorem strip_mul_pow {n : Nat} (hn : 0 < n) (scale : Int) (k : Nat) :
    strip (n * 10 ^ k) (scale + k) = strip n scale := by
  induction k with
  | zero => rw [Nat.pow_zero, Nat.mul_one, Int.natCast_zero, Int.add_zero]
  | succ k ih =>
    have hpos : n * 10 ^ (k + 1) ≠ 0 :=
      Nat.pos_iff_ne_zero.1 (Nat.mul_pos hn (Nat.pow_pos (by decide)))
    have hten : n * 10 ^ (k + 1) = 10 * (n * 10 ^ k) := by
      rw [Nat.pow_succ, ← Nat.mul_assoc, Nat.mul_comm]
    rw [strip, if_neg hpos, hten, if_pos (Nat.mul_mod_right ..),
      Nat.mul_div_cancel_left _ (by decide), ← ih]
    exact congrArg (strip _) (by omega)

/-- Decimals of one sign whose numbers differ by zeros at the end have one value. -/
theorem equal_of_mul_pow {a b : Decimal} {n k : Nat} (hn : 0 < n)
    (hsign : a.unscaled.sign = b.unscaled.sign) (hb : b.unscaled.natAbs = n)
    (ha : a.unscaled.natAbs = n * 10 ^ k) (hscale : a.scale = b.scale + k) : a.equal b = true := by
  rw [equal, hsign, ha, hb, hscale, strip_mul_pow hn]
  simp only [decide_true, Bool.and_self]

theorem chars_eq_signed {d : Decimal} (h : d.unscaled ≠ 0) :
    d.chars = signed (decide (d.unscaled < 0)) (magnitudeChars d.unscaled.natAbs d.scale) := by
  rw [chars, if_neg h, signed]
  by_cases hneg : d.unscaled < 0
  · rw [if_pos hneg, if_pos (decide_eq_true hneg)]
    rfl
  · rw [if_neg hneg, if_neg (by simpa using hneg), List.nil_append]

theorem scaleFits_zero : scaleFits 0 = true := by decide

theorem ofChars?_zero : ofChars? ['0'] = some ⟨0, 0⟩ :=
  @ofChars?_form false ['0'] [] [] 0 (List.cons_ne_nil _ _)
    (fun _ hc => List.mem_singleton.1 hc ▸ rfl) (List.forall_mem_nil _) (.inl ⟨rfl, rfl⟩)

theorem strip_zero (scale : Int) : strip 0 scale = (0, 0) := by rw [strip, if_pos rfl]

/-- What is read from the text of a decimal equals it, if its scale fits. -/
theorem exists_ofText?_text (d : Decimal) :
    ∃ d', d'.equal d = true ∧ (scaleFits d.scale = true → scaleFits d'.scale = true) ∧
      ofText? d.text = if scaleFits d'.scale then some d' else none := by
  rw [text, ofText?, String.toList_ofList]
  by_cases hzero : d.unscaled = 0
  · refine ⟨⟨0, 0⟩, ?_, fun _ => scaleFits_zero, by rw [chars, if_pos hzero, ofChars?_zero]; rfl⟩
    rw [equal, hzero, Int.natAbs_zero, strip_zero, strip_zero]
    rfl
  obtain ⟨lead, trail, tail, e, hchars, hne, hlead, htrail, htail, k, hvalue, hscale, hk⟩ :=
    magnitudeChars_form d.unscaled.natAbs d.scale
  have hpos : 0 < d.unscaled.natAbs := Int.natAbs_pos.2 hzero
  have hmul : 0 < d.unscaled.natAbs * 10 ^ k := Nat.mul_pos hpos (Nat.pow_pos (by decide))
  have hfits : scaleFits d.scale = true → scaleFits (trail.length - e) = true := by
    intro h
    rw [hscale]
    rcases hk with rfl | hk
    · rwa [Int.natCast_zero, Int.add_zero]
    · rw [hk, scaleFits_zero]
  have hread := ofChars?_form (decide (d.unscaled < 0)) hne hlead htrail htail
  have htext : d.chars
      = signed (decide (d.unscaled < 0)) lead ++ pointed trail ++ tail := by
    rw [chars_eq_signed hzero, hchars, signed, signed]
    simp only [List.append_assoc]
  refine ⟨⟨if decide (d.unscaled < 0) then -(Digits.value (lead ++ trail) : Int)
    else Digits.value (lead ++ trail), trail.length - e⟩,
    equal_of_mul_pow (k := k) hpos ?_ rfl ?_ hscale, hfits, by rw [htext]; exact hread⟩
  · rw [hvalue]
    by_cases hneg : d.unscaled < 0
    · rw [if_pos (decide_eq_true hneg), Int.sign_eq_neg_one_of_neg hneg]
      exact Int.sign_eq_neg_one_of_neg (Int.neg_neg_of_pos (Int.natCast_pos.2 hmul))
    · rw [if_neg (by simpa using hneg), Int.sign_eq_one_of_pos (by omega : 0 < d.unscaled)]
      exact Int.sign_eq_one_of_pos (Int.natCast_pos.2 hmul)
  · rw [hvalue]
    split
    · exact Int.natAbs_neg _
    · rfl

/-- **A decimal is read back from its text**, up to zeros at its end. -/
theorem ofText?_text {d : Decimal} (h : scaleFits d.scale = true) :
    ∃ d', ofText? d.text = some d' ∧ d'.equal d = true := by
  obtain ⟨d', hequal, hfits, hread⟩ := exists_ofText?_text d
  exact ⟨d', by rw [hread, if_pos (hfits h)], hequal⟩

/-- **Decimals of one text have one value.** -/
theorem equal_of_text_eq {a b : Decimal} (ha : scaleFits a.scale = true) (h : a.text = b.text) :
    a.equal b = true := by
  obtain ⟨a', hread, haa'⟩ := ofText?_text ha
  obtain ⟨b', hbb', -, hread'⟩ := exists_ofText?_text b
  rw [← h, hread] at hread'
  split at hread'
  · cases hread'
    exact equal_trans (equal_comm a' a ▸ haa') hbb'
  · exact nomatch hread'

/-- A zero is written in one way, whatever its scale is. -/
theorem text_eq_of_equal_zero {a b : Decimal} (hb : b.unscaled = 0) (h : a.equal b = true) :
    a.text = b.text := by
  simp only [equal, hb, Int.sign_zero, Int.sign_eq_zero_iff_zero, Bool.and_eq_true,
    decide_eq_true_eq] at h
  rw [text, text, chars, chars, if_pos h.1, if_pos hb]

end Decimal
end StreamTables
