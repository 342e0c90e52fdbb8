import StreamTables.Proofs.Text.Digits
import StreamTables.SqlType.Parse

/-!
# The names of types, exactly

A type is found by its name in upper case, without the blanks around it.  Twelve words are names of
primitive types.  A decimal type is named by a word and two numbers in parentheses, each of which
may have blanks around it, a plus sign and zeros in front.  This file says by rules what the names
are, and shows that the reader finds them and nothing else.  Every piece of the reader takes a text
apart, so what it accepts is said by how the text is put together again.

## What is here

* `SqlType.IsByte`, `SqlType.IsName`: the names of types, by rules.
* `SqlType.afterStart?_eq_some_iff` and its like: what each piece of the reader accepts.
* `SqlType.ofText?_eq_some_iff`: the reader follows the rules.
* `SqlType.ofText?_text`: a type that has a name is read back from how it is written.
* `SqlType.ofText_exact`: which texts are names, and of what.
-/

set_option autoImplicit false

namespace StreamTables
namespace SqlType

variable {c : Char} {cs : List Char} {p q : UInt8}

/-! ## The rules -/

/-- A number below 256 is written in digits, with a plus sign in front if wanted. -/
def IsByte (cs : List Char) (n : UInt8) : Prop :=
  ∃ ds, (cs = ds ∨ cs = '+' :: ds) ∧ ds ≠ [] ∧ (∀ c ∈ ds, c.isDigit = true) ∧
    Digits.value ds = n.toNat

/-- The names of types, in upper case and without blanks around them. -/
inductive IsName : List Char → SqlType → Prop
  | boolean : IsName "BOOLEAN".toList (.primitive .boolean)
  | bool : IsName "BOOL".toList (.primitive .boolean)
  | integer : IsName "INTEGER".toList (.primitive .integer)
  | int : IsName "INT".toList (.primitive .integer)
  | bigint : IsName "BIGINT".toList (.primitive .bigint)
  | double : IsName "DOUBLE".toList (.primitive .double)
  | string : IsName "STRING".toList (.primitive .string)
  | varchar : IsName "VARCHAR".toList (.primitive .string)
  | bytes : IsName "BYTES".toList (.primitive .bytes)
  | date : IsName "DATE".toList (.primitive .date)
  | time : IsName "TIME".toList (.primitive .time)
  | timestamp : IsName "TIMESTAMP".toList (.primitive .timestamp)
  /-- The first comma divides the numbers. -/
  | decimal {as bs : List Char} {p q : UInt8} (hcomma : ',' ∉ as) (hp : IsByte (Text.trim as) p)
    (hq : IsByte (Text.trim bs) q) (hpos : 1 ≤ p) (hle : q ≤ p) :
    IsName ("DECIMAL(".toList ++ as ++ ',' :: bs ++ [')']) (.decimal p q)

/-! ## Taking a text apart -/

theorem afterStart?_eq_some_iff {start rest : List Char} :
    afterStart? start cs = some rest ↔ cs = start ++ rest := by
  induction start generalizing cs with
  | nil => simp [afterStart?]
  | cons s start ih =>
    cases cs with
    | nil => simp [afterStart?]
    | cons c cs =>
      by_cases h : s = c
      · simp [afterStart?, h, ih]
      · simp [afterStart?, h, Ne.symm h]

theorem beforeLast?_eq_some_iff {last : Char} {front : List Char} :
    beforeLast? last cs = some front ↔ cs = front ++ [last] := by
  rw [beforeLast?, Option.ite_none_right_eq_some, List.getLast?_eq_some_iff]
  constructor
  · rintro ⟨⟨front, rfl⟩, h⟩
    rw [List.dropLast_concat] at h
    rw [Option.some.inj h]
  · rintro rfl
    exact ⟨⟨front, rfl⟩, by rw [List.dropLast_concat]⟩

theorem takeWhile_comma {as bs : List Char} (h : ',' ∉ as) :
    (as ++ ',' :: bs).takeWhile (· ≠ ',') = as ∧
      (as ++ ',' :: bs).dropWhile (· ≠ ',') = ',' :: bs := by
  have has : ∀ c ∈ as, decide (c ≠ ',') = true := fun c hc =>
    decide_eq_true fun heq => h (heq ▸ hc)
  rw [List.takeWhile_append_of_pos has, List.dropWhile_append_of_pos has]
  simp

theorem splitComma?_eq_some_iff {as bs : List Char} :
    splitComma? cs = some (as, bs) ↔ cs = as ++ ',' :: bs ∧ ',' ∉ as := by
  constructor
  · intro h
    rw [splitComma?] at h
    split at h
    · exact nomatch h
    · next c rest hrest =>
      obtain ⟨rfl, rfl⟩ := Prod.mk.inj (Option.some.inj h)
      have hc : c = ',' := by
        have hhead := List.head?_dropWhile_not (fun c => decide (c ≠ ',')) cs
        rw [hrest] at hhead
        simpa using hhead
      subst hc
      refine ⟨?_, fun hmem => ?_⟩
      · rw [← hrest, List.takeWhile_append_dropWhile]
      · simpa using List.all_eq_true.1 List.all_takeWhile _ hmem
  · rintro ⟨rfl, h⟩
    obtain ⟨htake, hdrop⟩ := takeWhile_comma h
    rw [splitComma?, hdrop, htake]

/-! ## Numbers -/

/-- The digits are what is left without a plus sign. -/
theorem getD_afterStart? {ds : List Char} (h : cs = ds ∨ cs = '+' :: ds)
    (hd : ∀ c ∈ ds, c.isDigit = true) : (afterStart? ['+'] cs).getD cs = ds := by
  rcases h with rfl | rfl
  · cases hstart : afterStart? ['+'] cs with
    | none => rfl
    | some rest =>
      rw [afterStart?_eq_some_iff.1 hstart] at hd
      exact absurd (hd '+' (List.mem_cons_self ..)) (by decide)
  · have hstart : afterStart? ['+'] ('+' :: ds) = some ds := afterStart?_eq_some_iff.2 rfl
    rw [hstart, Option.getD_some]

theorem eq_getD_afterStart? (cs : List Char) :
    cs = (afterStart? ['+'] cs).getD cs ∨ cs = '+' :: (afterStart? ['+'] cs).getD cs := by
  cases hstart : afterStart? ['+'] cs with
  | none => exact .inl rfl
  | some rest => exact .inr (afterStart?_eq_some_iff.1 hstart)

/-- **What is read as a number are the digits of one below 256.** -/
theorem readByte?_eq_some_iff : readByte? cs = some p ↔ IsByte cs p := by
  rw [readByte?, Option.ite_none_right_eq_some]
  constructor
  · rintro ⟨⟨hne, hd, hlt⟩, hp⟩
    refine ⟨_, eq_getD_afterStart? cs, hne, List.all_eq_true.1 hd, ?_⟩
    rw [← Option.some.inj hp, UInt8.toNat_ofNat_of_lt' hlt]
  · rintro ⟨ds, hcs, hne, hd, hvalue⟩
    rw [getD_afterStart? hcs hd, hvalue, UInt8.ofNat_toNat]
    exact ⟨⟨hne, List.all_eq_true.2 hd, p.toNat_lt⟩, rfl⟩

/-! ## Names -/

theorem isName_of_lookup {word : List Char} {p : Primitive}
    (h : names.lookup (String.ofList word) = some p) : IsName word (.primitive p) := by
  have hall : ∀ n ∈ names, IsName n.1.toList (.primitive n.2) := by
    simp only [names, List.forall_mem_cons]
    exact ⟨.boolean, .bool, .integer, .int, .bigint, .double, .string, .varchar, .bytes, .date,
      .time, .timestamp, List.forall_mem_nil _⟩
  obtain ⟨before, after, hnames, -⟩ := List.lookup_eq_some_iff.1 h
  have hmem : (String.ofList word, p) ∈ names :=
    hnames ▸ List.mem_append_right _ (List.mem_cons_self ..)
  simpa using hall _ hmem

theorem lookup_of_isName {word : List Char} {p : Primitive} (h : IsName word (.primitive p)) :
    names.lookup (String.ofList word) = some p := by
  cases h <;> rfl

/-- No name of a primitive type has a parenthesis. -/
theorem lookup_decimal (rest : List Char) :
    names.lookup (String.ofList ("DECIMAL(".toList ++ rest)) = none := by
  have hall : ∀ n ∈ names, '(' ∉ n.1.toList := by decide
  cases h : names.lookup (String.ofList ("DECIMAL(".toList ++ rest)) with
  | none => rfl
  | some p =>
    obtain ⟨before, after, hnames, -⟩ := List.lookup_eq_some_iff.1 h
    have hparen := hall _ (hnames ▸ List.mem_append_right _ (List.mem_cons_self ..))
    rw [String.toList_ofList] at hparen
    exact absurd (List.mem_append_left _ (by decide)) hparen

/-- **A decimal type is read from its word and two numbers.** -/
theorem decimalOfChars?_eq_some_iff {t : SqlType} :
    decimalOfChars? cs = some t ↔
      ∃ as bs p q, cs = "DECIMAL(".toList ++ as ++ ',' :: bs ++ [')'] ∧ ',' ∉ as ∧
        IsByte (Text.trim as) p ∧ IsByte (Text.trim bs) q ∧ 1 ≤ p ∧ q ≤ p ∧ t = .decimal p q := by
  have hbounds : ∀ p q : UInt8, ¬ (p = 0 ∨ p < q) ↔ 1 ≤ p ∧ q ≤ p := by
    intro p q
    rw [not_or, UInt8.not_lt, UInt8.le_iff_toNat_le, ← UInt8.toNat_inj]
    exact and_congr_left' Nat.pos_iff_ne_zero.symm
  simp only [decimalOfChars?, Option.bind_eq_bind, Option.bind_eq_some_iff,
    afterStart?_eq_some_iff, beforeLast?_eq_some_iff, readByte?_eq_some_iff, Prod.exists,
    splitComma?_eq_some_iff]
  constructor
  · rintro ⟨_, rfl, _, rfl, as, bs, ⟨rfl, hcomma⟩, p, hp, q, hq, h⟩
    split at h
    · exact nomatch h
    · next hpq =>
      obtain ⟨hpos, hle⟩ := (hbounds p q).1 hpq
      exact ⟨as, bs, p, q, by simp, hcomma, hp, hq, hpos, hle, (Option.some.inj h).symm⟩
  · rintro ⟨as, bs, p, q, rfl, hcomma, hp, hq, hpos, hle, rfl⟩
    exact ⟨_, by simp, _, rfl, as, bs, ⟨rfl, hcomma⟩, p, hp, q, hq,
      if_neg ((hbounds p q).2 ⟨hpos, hle⟩)⟩

/-- **The reader finds the names, and nothing else.** -/
theorem ofText?_eq_some_iff {text : String} {t : SqlType} :
    ofText? text = some t ↔ IsName (Text.upper (Text.trim text.toList)) t := by
  rw [ofText?]
  generalize Text.upper (Text.trim text.toList) = word
  constructor
  · intro h
    split at h
    · next p hp =>
      cases h
      exact isName_of_lookup hp
    · obtain ⟨as, bs, p, q, rfl, hcomma, hp, hq, hpos, hle, rfl⟩ := decimalOfChars?_eq_some_iff.1 h
      exact .decimal hcomma hp hq hpos hle
  · intro h
    cases t with
    | primitive p => simp only [lookup_of_isName h]
    | decimal p q =>
      cases h with
      | @decimal as bs _ _ hcomma hp hq hpos hle =>
        have hread := decimalOfChars?_eq_some_iff.2
          ⟨as, bs, p, q, rfl, hcomma, hp, hq, hpos, hle, rfl⟩
        have hlookup := lookup_decimal (as ++ ',' :: bs ++ [')'])
        rw [← List.append_assoc, ← List.append_assoc] at hlookup
        simp only [hlookup, hread]
    | array => cases h
    | map => cases h
    | struct => cases h

/-! ## Names as they are written -/

theorem upperChar_of_isDigit (h : c.isDigit = true) : Text.upperChar c = [c] := by
  have hall : ∀ d < 10, Text.upperChar (Digits.char d) = [Digits.char d] := by decide
  obtain ⟨d, hd, rfl⟩ := Digits.exists_char_of_isDigit h
  exact hall d hd

theorem isBlank_of_isDigit (h : c.isDigit = true) : Text.isBlank c = false := by
  have hall : ∀ d < 10, Text.isBlank (Digits.char d) = false := by decide
  obtain ⟨d, hd, rfl⟩ := Digits.exists_char_of_isDigit h
  exact hall d hd

theorem trim_digits (n : Nat) : Text.trim (Digits.ofNat n) = Digits.ofNat n :=
  Text.trim_eq_self
    (fun _ h => isBlank_of_isDigit (Digits.isDigit_of_mem_ofNat (List.mem_of_mem_head? h)))
    (fun _ h => isBlank_of_isDigit (Digits.isDigit_of_mem_ofNat (List.mem_of_mem_getLast? h)))

theorem isByte_ofNat (n : UInt8) : IsByte (Digits.ofNat n.toNat) n :=
  ⟨_, .inl rfl, Digits.ofNat_ne_nil _, fun _ => Digits.isDigit_of_mem_ofNat, Digits.value_ofNat _⟩

/-- How a decimal type is written. -/
theorem toList_text_decimal (p q : UInt8) :
    (decimal p q).text.toList = "DECIMAL(".toList ++ Digits.ofNat p.toNat ++
      ',' :: (' ' :: Digits.ofNat q.toNat) ++ [')'] := by
  simp [text, Digits.natText]

theorem trim_text_decimal (p q : UInt8) :
    Text.trim (decimal p q).text.toList = (decimal p q).text.toList := by
  rw [toList_text_decimal]
  refine Text.trim_eq_self (fun c hc => ?_) (fun c hc => ?_)
  · cases hc
    decide
  · rw [List.getLast?_concat] at hc
    cases hc
    decide

theorem upper_text_decimal (p q : UInt8) :
    Text.upper (decimal p q).text.toList = (decimal p q).text.toList := by
  have hdigits : ∀ n : UInt8, ∀ c ∈ Digits.ofNat n.toNat, Text.upperChar c = [c] :=
    fun n c hc => upperChar_of_isDigit (Digits.isDigit_of_mem_ofNat hc)
  have hword : ("DECIMAL(".toList.all fun c => Text.upperChar c = [c]) = true := by decide
  have hletters : ∀ c ∈ "DECIMAL(".toList, Text.upperChar c = [c] := fun c hc =>
    of_decide_eq_true (List.all_eq_true.1 hword c hc)
  refine Text.upper_eq_self ?_
  rw [toList_text_decimal]
  simp only [List.forall_mem_append, List.forall_mem_cons]
  exact ⟨⟨⟨hletters, hdigits p⟩, by decide, by decide, hdigits q⟩, by decide, nofun⟩

theorem ofText?_text_decimal (hpos : 1 ≤ p) (hle : q ≤ p) :
    ofText? (decimal p q).text = some (.decimal p q) := by
  have hcomma : ',' ∉ Digits.ofNat p.toNat := fun h =>
    absurd (Digits.isDigit_of_mem_ofNat h) (by decide)
  have hblank : Text.trim (' ' :: Digits.ofNat q.toNat) = Digits.ofNat q.toNat :=
    (Text.trim_cons_of_isBlank (by decide)).trans (trim_digits _)
  rw [ofText?_eq_some_iff, trim_text_decimal, upper_text_decimal, toList_text_decimal]
  exact .decimal hcomma ((trim_digits _).symm ▸ isByte_ofNat p) (hblank.symm ▸ isByte_ofNat q)
    hpos hle

/-- **A type that has a name is read back from how it is written.** -/
theorem ofText?_text {text : String} {t : SqlType} (h : ofText? text = some t) :
    ofText? t.text = some t := by
  have hname := ofText?_eq_some_iff.1 h
  generalize Text.upper (Text.trim text.toList) = word at hname
  cases t with
  | primitive p => cases p <;> decide
  | decimal p q =>
    cases hname with
    | decimal _ _ _ hpos hle => exact ofText?_text_decimal hpos hle
  | array => cases hname
  | map => cases hname
  | struct => cases hname

/-- **Which texts are names of types.**  Those are that follow the rules once they are in upper case
and without blanks around them, and the rules say of which type.  Any other text is refused as the
name of no type.  A type that was found under some name is found again under the one that it is
written with. -/
theorem ofText_exact (text : String) :
    (∀ t, ofText text = .ok t ↔ IsName (Text.upper (Text.trim text.toList)) t) ∧
    (∀ e, ofText text = .error e ↔
      e = .unknownType text ∧ ∀ t, ¬ IsName (Text.upper (Text.trim text.toList)) t) ∧
    (∀ e, ofText text = .error e → e.code = "TYPE_001") ∧
    ∀ t, ofText text = .ok t → ofText t.text = .ok t := by
  have hok : ∀ (word : String) (t : SqlType), ofText word = .ok t ↔ ofText? word = some t := by
    intro word t
    rw [ofText]
    cases ofText? word <;> simp
  have herror : ∀ e, ofText text = .error e ↔ e = .unknownType text ∧ ofText? text = none := by
    intro e
    rw [ofText]
    cases ofText? text <;> simp [eq_comm]
  refine ⟨fun t => (hok text t).trans ofText?_eq_some_iff, fun e => ?_, fun e he => ?_,
    fun t ht => (hok _ t).2 (ofText?_text ((hok text t).1 ht))⟩
  · simp only [herror, Option.eq_none_iff_forall_ne_some, ne_eq, ofText?_eq_some_iff]
  · rw [((herror e).1 he).1]
    rfl

/-- Blanks, a plus sign and zeros in front of the numbers do not matter, and the type is written
without them.  A number that does not fit, and another comma, make no name. -/
theorem ofText_exact_amount :
    ofText " decimal(+012,\t002 )\n" = .ok (.decimal 12 2) ∧
    ofText (decimal 12 2).text = .ok (.decimal 12 2) ∧
    ofText "Decimal(256, 2)" = .error (.unknownType "Decimal(256, 2)") ∧
    ofText "DECIMAL(12,, 2)" = .error (.unknownType "DECIMAL(12,, 2)") := by
  obtain ⟨hok, -, -, hwritten⟩ := ofText_exact " decimal(+012,\t002 )\n"
  obtain ⟨-, hlarge, -⟩ := ofText_exact "Decimal(256, 2)"
  obtain ⟨-, hcomma, -⟩ := ofText_exact "DECIMAL(12,, 2)"
  have hword : Text.upper (Text.trim " decimal(+012,\t002 )\n".toList) =
      "DECIMAL(".toList ++ "+012".toList ++ ',' :: "\t002 ".toList ++ [')'] := by decide
  have hname : IsName (Text.upper (Text.trim " decimal(+012,\t002 )\n".toList)) (.decimal 12 2) :=
    hword ▸ .decimal (by decide)
      ⟨"012".toList, .inr (by decide), by decide, List.all_eq_true.1 (by decide), by decide⟩
      ⟨"002".toList, .inl (by decide), by decide, List.all_eq_true.1 (by decide), by decide⟩
      (by decide) (by decide)
  have hread := (hok _).2 hname
  refine ⟨hread, hwritten _ hread, (hlarge _).2 ⟨rfl, fun t ht => ?_⟩,
    (hcomma _).2 ⟨rfl, fun t ht => ?_⟩⟩
  · have hnone : ofText? "Decimal(256, 2)" = none := by decide
    exact nomatch hnone.symm.trans (ofText?_eq_some_iff.2 ht)
  · have hnone : ofText? "DECIMAL(12,, 2)" = none := by decide
    exact nomatch hnone.symm.trans (ofText?_eq_some_iff.2 ht)

end SqlType
end StreamTables
