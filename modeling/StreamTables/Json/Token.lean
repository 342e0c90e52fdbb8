import StreamTables.Json.Basic

/-!
# Tokens of JSON

## What is here

* `Token`: punctuation, literals, and the `fault` at which a text stops having tokens.
* `Token.readString?`, `Token.readNumeral?`: a literal at the head of a text, and what follows it.
* `Token.ofChars`: the tokens of a text.
-/

set_option autoImplicit false

namespace StreamTables

/-- A token of a JSON text. -/
inductive Token where
  | beginArray
  | endArray
  | beginObject
  | endObject
  | comma
  | colon
  | null
  | bool (b : Bool)
  | number (n : Numeral)
  | string (s : Literal)
  /-- No token starts here. -/
  | fault

namespace Token

/-! ## Strings -/

/-- A part of a string literal. -/
inductive Piece where
  /-- A character that stands for itself. -/
  | char (c : Char)
  /-- A character given by an escape of one letter. -/
  | escape (c : Char)
  /-- A code unit given by its number. -/
  | unit (n : Nat)

/-- Whether a part stands for itself. -/
def Piece.isPlain : Piece → Bool
  | char _ => true
  | _ => false

/-- The value of a hexadecimal digit. -/
def hexDigit? (c : Char) : Option Nat :=
  let n := c.toNat
  if 48 ≤ n ∧ n ≤ 57 then some (n - 48)
  else if 97 ≤ n ∧ n ≤ 102 then some (n - 87)
  else if 65 ≤ n ∧ n ≤ 70 then some (n - 55)
  else none

/-- The value of four hexadecimal digits. -/
def hexUnit? (a b c d : Char) : Option Nat := do
  let a ← hexDigit? a
  let b ← hexDigit? b
  let c ← hexDigit? c
  let d ← hexDigit? d
  some (((a * 16 + b) * 16 + c) * 16 + d)

/-- The character of an escape of one letter. -/
def unescape? (c : Char) : Option Char :=
  match c.toNat with
  | 0x22 => some '\x22'
  | 0x5C => some '\x5c'
  | 0x2F => some '/'
  | 0x62 => some '\x08'
  | 0x66 => some '\x0c'
  | 0x6E => some '\n'
  | 0x72 => some '\r'
  | 0x74 => some '\t'
  | _ => none

/-- The pieces of a string literal from behind its opening quote, and what follows the closing
one. Characters below the space may not stand in a literal. -/
def pieces? : List Char → Option (List Piece × List Char)
  | '\x22' :: rest => some ([], rest)
  | '\x5c' :: 'u' :: a :: b :: c :: d :: rest => do
    let n ← hexUnit? a b c d
    let (ps, rest) ← pieces? rest
    some (.unit n :: ps, rest)
  | '\x5c' :: c :: rest => do
    let c ← unescape? c
    let (ps, rest) ← pieces? rest
    some (.escape c :: ps, rest)
  | c :: rest =>
    if c.toNat < 0x20 then none
    else do
      let (ps, rest) ← pieces? rest
      some (.char c :: ps, rest)
  | [] => none

/-- The characters of a literal's pieces. A high surrogate and a low one after it make one
character; any other surrogate makes none. -/
def assemble? : List Piece → Option (List Char)
  | [] => some []
  | .char c :: ps => (assemble? ps).map (c :: ·)
  | .escape c :: ps => (assemble? ps).map (c :: ·)
  | .unit n :: ps =>
    if n < 0xD800 ∨ 0xDFFF < n then (assemble? ps).map (Char.ofNat n :: ·)
    else
      match ps with
      | .unit m :: ps =>
        if n < 0xDC00 ∧ 0xDC00 ≤ m ∧ m ≤ 0xDFFF then
          (assemble? ps).map (Char.ofNat (0x10000 + (n - 0xD800) * 0x400 + (m - 0xDC00)) :: ·)
        else none
      | _ => none

/-- The literal of its pieces. -/
def literal (ps : List Piece) : Literal :=
  match assemble? ps with
  | none => .broken
  | some cs =>
    if ps.all Piece.isPlain then .plain (String.ofList cs) else .escaped (String.ofList cs)

/-- A string literal from behind its opening quote. -/
def readString? (cs : List Char) : Option (Token × List Char) :=
  (pieces? cs).map fun (ps, rest) => (.string (literal ps), rest)

/-! ## Numbers -/

/-- The digits at the head of a text, and what follows them. -/
def digits (cs : List Char) : List Char × List Char :=
  (cs.takeWhile Char.isDigit, cs.dropWhile Char.isDigit)

/-- The fraction at the head of a text, which is empty if there is no point. -/
def readFraction? : List Char → Option (List Char × List Char)
  | '.' :: cs => if (digits cs).1 = [] then none else some (digits cs)
  | cs => some ([], cs)

/-- Whether a character begins an exponent. -/
def isExponentMark (c : Char) : Bool := c = 'e' || c = 'E'

/-- The digits of an exponent. -/
def exponentDigits? (negative : Bool) (cs : List Char) : Option (Option Int × List Char) :=
  let (ds, rest) := digits cs
  if ds = [] then none
  else
    let e : Int := Digits.value ds
    some (some (if negative then -e else e), rest)

/-- The exponent at the head of a text, if there is one. -/
def readExponent? : List Char → Option (Option Int × List Char)
  | c :: cs =>
    if isExponentMark c then
      match cs with
      | '-' :: cs => exponentDigits? true cs
      | '+' :: cs => exponentDigits? false cs
      | cs => exponentDigits? false cs
    else some (none, c :: cs)
  | [] => some (none, [])

/-- A number literal without its sign. No zero stands in front of other digits. -/
def readUnsigned? (negative : Bool) (cs : List Char) : Option (Token × List Char) := do
  let (whole, rest) := digits cs
  if whole = [] ∨ (whole.head? = some '0' ∧ 1 < whole.length) then none
  else
    let (fraction, rest) ← readFraction? rest
    let (exponent, rest) ← readExponent? rest
    some (.number ⟨negative, whole, fraction, exponent⟩, rest)

/-- A number literal. -/
def readNumeral? : List Char → Option (Token × List Char)
  | '-' :: cs => readUnsigned? true cs
  | cs => readUnsigned? false cs

/-! ## Texts -/

/-- Whether a character may stand between tokens. -/
def isSpace (c : Char) : Bool := c = ' ' || c = '\t' || c = '\n' || c = '\r'

/-- The token at the head of a text that begins with no white space, and what follows it. -/
def read? : List Char → Option (Token × List Char)
  | '[' :: cs => some (.beginArray, cs)
  | ']' :: cs => some (.endArray, cs)
  | '\x7b' :: cs => some (.beginObject, cs)
  | '\x7d' :: cs => some (.endObject, cs)
  | ',' :: cs => some (.comma, cs)
  | ':' :: cs => some (.colon, cs)
  | '\x22' :: cs => readString? cs
  | 'n' :: 'u' :: 'l' :: 'l' :: cs => some (.null, cs)
  | 't' :: 'r' :: 'u' :: 'e' :: cs => some (.bool true, cs)
  | 'f' :: 'a' :: 'l' :: 's' :: 'e' :: cs => some (.bool false, cs)
  | cs => readNumeral? cs

/-! ### Every token takes a character -/

theorem length_pieces? {cs rest : List Char} {ps : List Piece} (h : pieces? cs = some (ps, rest)) :
    rest.length < cs.length := by
  fun_induction pieces? cs generalizing ps rest with
  | case1 => simp_all
  | case2 a b c d cs ih =>
    simp only [Option.bind_eq_bind, Option.bind_eq_some_iff] at h
    obtain ⟨n, -, ⟨qs, r⟩, hr, h⟩ := h
    have := ih hr
    simp_all
    omega
  | case3 c cs _ ih =>
    simp only [Option.bind_eq_bind, Option.bind_eq_some_iff] at h
    obtain ⟨n, -, ⟨qs, r⟩, hr, h⟩ := h
    have := ih hr
    simp_all
    omega
  | case4 => simp at h
  | case5 c cs _ _ _ _ ih =>
    simp only [Option.bind_eq_bind, Option.bind_eq_some_iff] at h
    obtain ⟨⟨qs, r⟩, hr, h⟩ := h
    have := ih hr
    simp_all
    omega
  | case6 => simp at h

theorem length_dropWhile_le {p : Char → Bool} (cs : List Char) :
    (cs.dropWhile p).length ≤ cs.length :=
  (List.dropWhile_suffix p).length_le

theorem length_digits_lt (cs : List Char) (h : (digits cs).1 ≠ []) :
    (digits cs).2.length < cs.length := by
  have hl : (digits cs).1.length + (digits cs).2.length = cs.length := by
    rw [← List.length_append]
    simp [digits]
  have := List.length_pos_iff.2 h
  omega

theorem length_readFraction? {cs ds rest : List Char} (h : readFraction? cs = some (ds, rest)) :
    rest.length ≤ cs.length := by
  simp only [readFraction?] at h
  split at h
  · split at h
    · simp at h
    · cases h
      have := length_dropWhile_le (p := Char.isDigit) ‹List Char›
      simp only [List.length_cons]
      omega
  · cases h
    exact Nat.le_refl _

theorem length_exponentDigits? {negative : Bool} {cs rest : List Char} {e : Option Int}
    (h : exponentDigits? negative cs = some (e, rest)) : rest.length ≤ cs.length := by
  simp only [exponentDigits?] at h
  split at h
  · simp at h
  · cases h
    exact length_dropWhile_le cs

theorem length_readExponent? {cs rest : List Char} {e : Option Int}
    (h : readExponent? cs = some (e, rest)) : rest.length ≤ cs.length := by
  simp only [readExponent?] at h
  split at h
  · split at h
    · split at h <;> have := length_exponentDigits? h <;> simp_all <;> omega
    · simp_all
  · simp_all

theorem length_readUnsigned? {negative : Bool} {cs rest : List Char} {t : Token}
    (h : readUnsigned? negative cs = some (t, rest)) : rest.length < cs.length := by
  simp only [readUnsigned?] at h
  split at h
  · simp at h
  · next hw =>
    simp only [Option.bind_eq_bind, Option.bind_eq_some_iff] at h
    obtain ⟨⟨fs, r⟩, hf, ⟨e, r'⟩, he, h⟩ := h
    have h1 := length_readFraction? hf
    have h2 := length_readExponent? he
    have h3 := length_digits_lt cs (fun h => hw (Or.inl h))
    simp_all
    omega

theorem length_readNumeral? {cs rest : List Char} {t : Token}
    (h : readNumeral? cs = some (t, rest)) : rest.length < cs.length := by
  simp only [readNumeral?] at h
  split at h
  · have := length_readUnsigned? h
    simp only [List.length_cons]
    omega
  · exact length_readUnsigned? h

theorem length_read? {cs rest : List Char} {t : Token} (h : read? cs = some (t, rest)) :
    rest.length < cs.length := by
  simp only [read?] at h
  split at h
  all_goals first
    | exact length_readNumeral? h
    | (simp only [readString?, Option.map_eq_some_iff] at h
       obtain ⟨⟨ps, r⟩, hp, h⟩ := h
       have := length_pieces? hp
       simp_all
       omega)
    | (cases h; simp only [List.length_cons]; omega)

/-- The tokens of a text, up to its first fault. -/
def ofChars (cs : List Char) : List Token :=
  match _hs : cs.dropWhile isSpace with
  | [] => []
  | c :: ds =>
    match _hr : read? (c :: ds) with
    | some (t, rest) => t :: ofChars rest
    | none => [.fault]
termination_by cs.length
decreasing_by
  have h1 := length_read? _hr
  have h2 := length_dropWhile_le (p := isSpace) cs
  rw [_hs] at h2
  omega

end Token
end StreamTables
