import StreamTables.Json.Writer
import StreamTables.Json.Token
import StreamTables.Proofs.Text.Digits

/-!
# Reading literals back

The writer of JSON puts no white space between tokens, and in strings it escapes only what it must.
This file reads single literals back: a string from behind its opening quote, and a number up to
the comma or bracket that follows it.

## What is here

* `Literal.ofText`: the literal that a text is written as.
* `Token.readString?_escape`: the characters of a text are read back up to the closing quote.
* `Numeral.IsLiteral`: the numbers that are written the way they are kept.
* `Token.Stops`: what may follow a value.
* `Token.readNumeral?_chars`: a number is read back, if what follows it may follow a value.
-/

set_option autoImplicit false

namespace StreamTables

/-- The literal that a text is written as. -/
def Literal.ofText (s : String) : Literal :=
  if s.toList.all fun c => Json.escape c = [c] then .plain s else .escaped s

@[simp] theorem Literal.text?_ofText (s : String) : (ofText s).text? = some s := by
  rw [ofText]
  split <;> rfl

namespace Token

/-! ## Strings -/

/-- The piece of a literal that a character is written as. -/
def Piece.ofChar (c : Char) : Piece :=
  match Json.escape c with
  | [_] => .char c
  | [_, _] => .escape c
  | _ => .unit c.toNat

theorem hexUnit?_hexChar {n : Nat} (h : n < 0x20) :
    hexUnit? '0' '0' (Json.hexChar (n / 16)) (Json.hexChar (n % 16)) = some n := by
  have : ∀ n < 0x20, hexUnit? '0' '0' (Json.hexChar (n / 16)) (Json.hexChar (n % 16)) = some n := by
    decide
  exact this n h

theorem eq_ofNat_of_toNat {c : Char} {n : Nat} (h : c.toNat = n) : c = Char.ofNat n := by
  rw [← h, Char.ofNat_toNat]

/-- How a character is written: as it stands, by a letter, or by its number. -/
theorem escape_cases (c : Char) :
    (Json.escape c = [c] ∧ c ≠ '\x22' ∧ c ≠ '\x5c' ∧ ¬ c.toNat < 0x20) ∨
    (∃ l, Json.escape c = ['\x5c', l] ∧ l ≠ 'u' ∧ unescape? l = some c) ∨
    (∃ a b, Json.escape c = ['\x5c', 'u', '0', '0', a, b] ∧
      hexUnit? '0' '0' a b = some c.toNat ∧ c.toNat < 0x20) := by
  unfold Json.escape
  split
  case h_8 n hq hb _ _ _ _ _ =>
    by_cases hs : c.toNat < 0x20
    · rw [if_pos hs]
      exact .inr (.inr ⟨_, _, rfl, hexUnit?_hexChar hs, hs⟩)
    · rw [if_neg hs]
      exact .inl ⟨rfl, fun h => hq (h ▸ rfl), fun h => hb (h ▸ rfl), hs⟩
  all_goals
    rename_i h
    obtain rfl := eq_ofNat_of_toNat h
    exact .inr (.inl ⟨_, rfl, by decide, rfl⟩)

/-- One written character gives one piece. -/
theorem pieces?_escape (c : Char) (cs : List Char) :
    pieces? (Json.escape c ++ cs)
      = (pieces? cs).map fun (ps, rest) => (Piece.ofChar c :: ps, rest) := by
  rcases escape_cases c with ⟨he, hq, hb, hs⟩ | ⟨l, he, hu, hl⟩ | ⟨a, b, he, hn, -⟩
  · simp only [Piece.ofChar, he]
    rw [List.singleton_append, pieces?, if_neg hs]
    · cases pieces? cs <;> rfl
    · rintro rfl; exact hq rfl
    · rintro _ _ _ _ _ rfl; exact fun _ => hb rfl
    · rintro _ _ rfl; exact fun _ => hb rfl
  · simp only [Piece.ofChar, he]
    rw [List.cons_append, List.singleton_append, pieces?, hl]
    · cases pieces? cs <;> rfl
    · rintro _ _ _ _ _ rfl; exact fun _ => hu rfl
  · simp only [Piece.ofChar, he]
    simp only [List.cons_append, List.nil_append, pieces?, hn]
    cases pieces? cs <;> rfl

theorem pieces?_flatMap_escape (s rest : List Char) :
    pieces? (s.flatMap Json.escape ++ '\x22' :: rest) = some (s.map Piece.ofChar, rest) := by
  induction s with
  | nil => rw [List.flatMap_nil, List.nil_append, pieces?]; rfl
  | cons c s ih => rw [List.flatMap_cons, List.append_assoc, pieces?_escape, ih]; rfl

theorem assemble?_map_ofChar (s : List Char) : assemble? (s.map Piece.ofChar) = some s := by
  induction s with
  | nil => rfl
  | cons c s ih =>
    rw [List.map_cons, Piece.ofChar]
    rcases escape_cases c with ⟨he, -, -, -⟩ | ⟨l, he, -, -⟩ | ⟨a, b, he, -, hs⟩
    · simp only [he, assemble?, ih, Option.map_some]
    · simp only [he, assemble?, ih, Option.map_some]
    · have hlow : c.toNat < 0xD800 ∨ 0xDFFF < c.toNat := .inl (by omega)
      simp only [he]
      unfold assemble?
      simp only [if_pos hlow, ih, Option.map_some, Char.ofNat_toNat]

theorem isPlain_ofChar (c : Char) : (Piece.ofChar c).isPlain = decide (Json.escape c = [c]) := by
  rw [Piece.ofChar]
  rcases escape_cases c with ⟨he, -, -, -⟩ | ⟨l, he, -, -⟩ | ⟨a, b, he, -, -⟩ <;>
    simp [he, Piece.isPlain]

theorem literal_map_ofChar (s : String) : literal (s.toList.map Piece.ofChar) = .ofText s := by
  have hall : (s.toList.map Piece.ofChar).all Piece.isPlain
      = s.toList.all fun c => Json.escape c = [c] := by
    rw [List.all_map]
    exact congrArg s.toList.all (funext isPlain_ofChar)
  rw [literal, assemble?_map_ofChar, Literal.ofText]
  simp only [hall, String.ofList_toList]

/-- **The characters of a text are read back** up to the closing quote. -/
theorem readString?_escape (s : String) (rest : List Char) :
    readString? (s.toList.flatMap Json.escape ++ '\x22' :: rest)
      = some (.string (.ofText s), rest) := by
  rw [readString?, pieces?_flatMap_escape, Option.map_some, ← literal_map_ofChar]

/-! ## Numbers -/

end Token

/-- A number is written the way it is kept: it has digits in front of the point, and no zero stands
in front of other digits. -/
structure Numeral.IsLiteral (n : Numeral) : Prop where
  digits_whole : ∀ c ∈ n.whole, c.isDigit = true
  digits_fraction : ∀ c ∈ n.fraction, c.isDigit = true
  whole_ne_nil : n.whole ≠ []
  no_zero : n.whole.head? = some '0' → n.whole.length ≤ 1

namespace Token

/-- What may follow a value: nothing, or a comma, or the end of an array or object. -/
def Stops : List Char → Prop
  | [] => True
  | c :: _ => c = ',' ∨ c = ']' ∨ c = '\x7d'

/-- No digit comes first. -/
def NoDigit (cs : List Char) : Prop := ∀ c ∈ cs.head?, c.isDigit = false

theorem digits_append {ds cs : List Char} (hd : ∀ c ∈ ds, c.isDigit = true) (hs : NoDigit cs) :
    digits (ds ++ cs) = (ds, cs) := by
  have htake : cs.takeWhile Char.isDigit = [] ∧ cs.dropWhile Char.isDigit = cs := by
    cases cs with
    | nil => exact ⟨rfl, rfl⟩
    | cons c cs => simp [hs c (by simp)]
  rw [digits, List.takeWhile_append_of_pos hd, List.dropWhile_append_of_pos hd, htake.1, htake.2,
    List.append_nil]

theorem Stops.noDigit {cs : List Char} (h : Stops cs) : NoDigit cs := by
  cases cs with
  | nil => simp [NoDigit]
  | cons c cs =>
    intro d hd
    cases hd
    rcases h with rfl | rfl | rfl <;> rfl

theorem noDigit_cons {c : Char} {cs : List Char} (h : c.isDigit = false) : NoDigit (c :: cs) := by
  simpa [NoDigit] using h

theorem exponentDigits?_ofNat (negative : Bool) (n : Nat) {cs : List Char} (hs : NoDigit cs) :
    exponentDigits? negative (Digits.ofNat n ++ cs)
      = some (some (if negative then -(n : Int) else n), cs) := by
  rw [exponentDigits?, digits_append (fun _ h => Digits.isDigit_of_mem_ofNat h) hs]
  simp only [if_neg (Digits.ofNat_ne_nil n), Digits.value_ofNat]

theorem readExponent?_exponentChars (e : Option Int) {cs : List Char} (hs : Stops cs) :
    readExponent? (Numeral.exponentChars e ++ cs) = some (e, cs) := by
  cases e with
  | none =>
    cases cs with
    | nil => rfl
    | cons c cs => rcases hs with rfl | rfl | rfl <;> rfl
  | some e =>
    by_cases he : e < 0
    · have habs : -(e.natAbs : Int) = e := by omega
      simp only [Numeral.exponentChars, if_pos he]
      exact (exponentDigits?_ofNat true e.natAbs hs.noDigit).trans (by rw [if_pos rfl, habs])
    · have habs : (e.natAbs : Int) = e := by omega
      simp only [Numeral.exponentChars, if_neg he]
      refine (exponentDigits?_ofNat false e.natAbs hs.noDigit).trans ?_
      rw [if_neg Bool.false_ne_true, habs]

theorem noDigit_exponentChars (e : Option Int) {cs : List Char} (hs : Stops cs) :
    NoDigit (Numeral.exponentChars e ++ cs) := by
  cases e with
  | none => exact hs.noDigit
  | some e => exact noDigit_cons rfl

theorem readFraction?_chars {fraction : List Char} (hd : ∀ c ∈ fraction, c.isDigit = true)
    (e : Option Int) {cs : List Char} (hs : Stops cs) :
    readFraction? ((if fraction = [] then [] else '.' :: fraction) ++
        (Numeral.exponentChars e ++ cs))
      = some (fraction, Numeral.exponentChars e ++ cs) := by
  by_cases hf : fraction = []
  · subst hf
    rw [if_pos rfl, List.nil_append, readFraction?]
    rintro ds hds
    cases e with
    | none => cases hds; rcases hs with h | h | h <;> exact absurd h (by decide)
    | some e => exact absurd (List.cons.inj hds).1 (by decide)
  · rw [if_neg hf, List.cons_append, readFraction?, digits_append hd (noDigit_exponentChars e hs),
      if_neg hf]

theorem noDigit_fraction {fraction : List Char} (e : Option Int) {cs : List Char} (hs : Stops cs) :
    NoDigit ((if fraction = [] then [] else '.' :: fraction) ++
      (Numeral.exponentChars e ++ cs)) := by
  split
  · exact noDigit_exponentChars e hs
  · exact noDigit_cons rfl

theorem readUnsigned?_chars (negative : Bool) {n : Numeral} (h : n.IsLiteral) {cs : List Char}
    (hs : Stops cs) :
    readUnsigned? negative (n.whole ++ ((if n.fraction = [] then [] else '.' :: n.fraction) ++
        (Numeral.exponentChars n.exponent ++ cs)))
      = some (.number { n with negative }, cs) := by
  have hzero : ¬ (n.whole = [] ∨ (n.whole.head? = some '0' ∧ 1 < n.whole.length)) := by
    rintro (hnil | ⟨hhead, hlen⟩)
    · exact h.whole_ne_nil hnil
    · exact absurd (h.no_zero hhead) (by omega)
  rw [readUnsigned?, digits_append h.digits_whole (noDigit_fraction n.exponent hs)]
  simp only [if_neg hzero, readFraction?_chars h.digits_fraction n.exponent hs,
    readExponent?_exponentChars n.exponent hs, Option.bind_eq_bind, Option.bind_some]

/-- **A number is read back**, if what follows it may follow a value. -/
theorem readNumeral?_chars {n : Numeral} (h : n.IsLiteral) {cs : List Char} (hs : Stops cs) :
    readNumeral? (n.chars ++ cs) = some (.number n, cs) := by
  obtain ⟨c, whole, hw⟩ := List.exists_cons_of_ne_nil h.whole_ne_nil
  have hread := fun negative => readUnsigned?_chars negative h hs
  rw [Numeral.chars, List.append_assoc, List.append_assoc, List.append_assoc]
  cases hn : n.negative with
  | true =>
    rw [if_pos rfl, List.singleton_append, readNumeral?, hread true, ← hn]
  | false =>
    rw [if_neg Bool.false_ne_true, List.nil_append, readNumeral?, hread false, ← hn]
    rintro ds hds
    rw [hw] at hds
    have hc : c.isDigit = true := h.digits_whole c (hw ▸ List.mem_cons_self ..)
    rw [(List.cons.inj hds).1] at hc
    exact absurd hc (by decide)

end Token
end StreamTables
