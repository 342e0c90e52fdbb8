import StreamTables.Json.Reader
import StreamTables.Proofs.Json.Lexing

/-!
# A written tree is read back

The reader is a machine that goes from token to token, so the theorem is about a text that goes on:
after the characters of a tree the machine is where it would be had the tree been a single token.
The text of a tree alone is the case in which nothing goes on.

## What is here

* `Json.IsWritten`: the trees that are the same after writing and reading.
* `Reader.settled`: what becomes of the machine when a value is complete.
* `Reader.run_chars`: the characters of a tree lead there.
* `Document.ofText_render`: the text of a tree is read as that tree.
* `Json.depth`: how many brackets a tree nests.
-/

set_option autoImplicit false

namespace StreamTables

namespace Json

mutual

/-- Whether a tree is the same after writing and reading: its numbers are literals, its strings
have a text, and its field names are escaped where they must be and nowhere else. -/
def IsWritten : Json → Prop
  | .null => True
  | .bool _ => True
  | .number n => n.IsLiteral
  | .string s => s.isSome = true
  | .array items => ItemsWritten items
  | .object fields => FieldsWritten fields
  | .malformed => False

/-- Whether all items are the same after writing and reading. -/
def ItemsWritten : List Json → Prop
  | [] => True
  | item :: items => item.IsWritten ∧ ItemsWritten items

/-- Whether all fields are the same after writing and reading. -/
def FieldsWritten : List (Literal × Json) → Prop
  | [] => True
  | (name, value) :: fields =>
    (∃ s, name = .ofText s) ∧ value.IsWritten ∧ FieldsWritten fields

end

mutual

/-- How many brackets a tree nests. -/
def depth : Json → Nat
  | .array items => itemsDepth items + 1
  | .object fields => fieldsDepth fields + 1
  | _ => 0

/-- How many brackets the deepest item nests. -/
def itemsDepth : List Json → Nat
  | [] => 0
  | item :: items => max item.depth (itemsDepth items)

/-- How many brackets the deepest field value nests. -/
def fieldsDepth : List (Literal × Json) → Nat
  | [] => 0
  | (_, value) :: fields => max value.depth (fieldsDepth fields)

end

theorem stops_moreItems (items : List Json) (cs : List Char) :
    Token.Stops (moreItems items ++ cs) := by
  cases items with
  | nil => exact .inr (.inl rfl)
  | cons item items => exact .inl rfl

theorem stops_moreFields (fields : List (Literal × Json)) (cs : List Char) :
    Token.Stops (moreFields fields ++ cs) := by
  rcases fields with _ | ⟨⟨name, value⟩, fields⟩
  · exact .inr (.inr rfl)
  · exact .inl rfl

/-! ## Lists and records -/

theorem itemsWritten_map {α : Type} {f : α → Json} {as : List α}
    (h : ∀ a ∈ as, (f a).IsWritten) : ItemsWritten (as.map f) := by
  induction as with
  | nil => trivial
  | cons a as ih =>
    exact ⟨h a (List.mem_cons_self ..), ih fun a ha => h a (List.mem_cons_of_mem _ ha)⟩

theorem itemsDepth_le_iff {js : List Json} {n : Nat} :
    itemsDepth js ≤ n ↔ ∀ j ∈ js, j.depth ≤ n := by
  induction js with
  | nil => simp [itemsDepth]
  | cons j js ih => rw [itemsDepth, Nat.max_le, ih, List.forall_mem_cons]

theorem depth_array_le_iff {js : List Json} {n : Nat} :
    (Json.array js).depth ≤ n ↔ ∃ m, n = m + 1 ∧ ∀ j ∈ js, j.depth ≤ m := by
  rw [depth]
  constructor
  · intro h
    obtain ⟨m, rfl⟩ := Nat.exists_eq_add_one_of_ne_zero (by omega : n ≠ 0)
    exact ⟨m, rfl, itemsDepth_le_iff.1 (Nat.le_of_succ_le_succ h)⟩
  · rintro ⟨m, rfl, h⟩
    exact Nat.succ_le_succ (itemsDepth_le_iff.2 h)

theorem isWritten_record {fields : List (String × Json)}
    (h : ∀ f ∈ fields, Literal.plain f.1 = .ofText f.1 ∧ f.2.IsWritten) :
    (record fields).IsWritten := by
  rw [record]
  change FieldsWritten _
  induction fields with
  | nil => trivial
  | cons f fields ih =>
    rw [List.forall_mem_cons] at h
    exact ⟨⟨f.1, h.1.1⟩, h.1.2, ih h.2⟩

theorem fieldsDepth_record_le_iff {fields : List (String × Json)} {n : Nat} :
    fieldsDepth (fields.map fun f => (.plain f.1, f.2)) ≤ n ↔ ∀ f ∈ fields, f.2.depth ≤ n := by
  induction fields with
  | nil => simp [fieldsDepth]
  | cons f fields ih =>
    rw [List.map_cons, fieldsDepth, Nat.max_le, ih, List.forall_mem_cons]

theorem depth_record_le_iff {fields : List (String × Json)} {n : Nat} :
    (record fields).depth ≤ n ↔ ∃ m, n = m + 1 ∧ ∀ f ∈ fields, f.2.depth ≤ m := by
  rw [record, depth]
  constructor
  · intro h
    obtain ⟨m, rfl⟩ := Nat.exists_eq_add_one_of_ne_zero (by omega : n ≠ 0)
    exact ⟨m, rfl, fieldsDepth_record_le_iff.1 (Nat.le_of_succ_le_succ h)⟩
  · rintro ⟨m, rfl, h⟩
    exact Nat.succ_le_succ (fieldsDepth_record_le_iff.2 h)

end Json

namespace Token

/-- The first token of a text that begins with one. -/
theorem ofChars_cons {c : Char} {cs rest : List Char} {t : Token}
    (hr : read? (c :: cs) = some (t, rest)) (hc : isSpace c = false) :
    ofChars (c :: cs) = t :: ofChars rest := by
  have hdrop : (c :: cs).dropWhile isSpace = c :: cs := by rw [List.dropWhile_cons, hc]; rfl
  rw [ofChars]
  split
  · next h => rw [hdrop] at h; cases h
  · next d ds h =>
    rw [hdrop] at h
    cases h
    split
    · next h => rw [hr] at h; cases h; rfl
    · next h => rw [hr] at h; cases h

theorem ofChars_nil : ofChars [] = [] := by
  rw [ofChars]
  rfl

theorem ofChars_quote (s : String) (cs : List Char) :
    ofChars (Json.quote s ++ cs) = .string (.ofText s) :: ofChars cs := by
  rw [Json.quote, List.cons_append, List.append_assoc, List.singleton_append]
  exact ofChars_cons (readString?_escape s cs) rfl

theorem read?_eq_readNumeral? {c : Char} {cs : List Char} (h : c = '-' ∨ c.isDigit = true) :
    read? (c :: cs) = readNumeral? (c :: cs) := by
  rw [read?.eq_def]
  split
  case h_11 => rfl
  all_goals
    rename_i heq
    cases heq
    exact absurd h (by decide)

theorem chars_eq_cons {n : Numeral} (h : n.IsLiteral) :
    ∃ c cs, n.chars = c :: cs ∧ (c = '-' ∨ c.isDigit = true) := by
  obtain ⟨c, whole, hw⟩ := List.exists_cons_of_ne_nil h.whole_ne_nil
  rw [Numeral.chars]
  cases n.negative with
  | true => exact ⟨_, _, rfl, .inl rfl⟩
  | false =>
    rw [hw]
    exact ⟨_, _, rfl, .inr (h.digits_whole c (hw ▸ List.mem_cons_self ..))⟩

theorem isSpace_of_numeral {c : Char} (h : c = '-' ∨ c.isDigit = true) : isSpace c = false := by
  rcases h with rfl | h
  · rfl
  · refine Bool.eq_false_iff.2 fun hc => ?_
    simp only [isSpace, Bool.or_eq_true, decide_eq_true_eq] at hc
    rcases hc with ((rfl | rfl) | rfl) | rfl <;> exact absurd h (by decide)

theorem ofChars_numeral {n : Numeral} (h : n.IsLiteral) {cs : List Char} (hs : Stops cs) :
    ofChars (n.chars ++ cs) = .number n :: ofChars cs := by
  obtain ⟨c, ds, hcs, hc⟩ := chars_eq_cons h
  have hread := readNumeral?_chars h hs
  rw [hcs, List.cons_append] at hread ⊢
  exact ofChars_cons ((read?_eq_readNumeral? hc).trans hread) (isSpace_of_numeral hc)

end Token

namespace Reader

/-! ## The machine, from token to token -/

/-- What becomes of the machine when a value is complete. -/
def settled (j : Json) (stack : List Frame) (ts : List Token) : Document :=
  match stack with
  | [] => ⟨j, ts.isEmpty⟩
  | .array items :: stack => run ts (.array (j :: items) :: stack) .more
  | .object fields name :: stack => run ts (.object ((name, j) :: fields) .broken :: stack) .more

variable {t : Token} {ts : List Token} {stack stack' : List Frame} {aw aw' : Awaiting} {j : Json}

theorem run_of_go (h : step stack aw t = .go stack' aw') :
    run (t :: ts) stack aw = run ts stack' aw' := by
  rw [run, h]

theorem run_of_settle (h : step stack aw t = settle j stack') :
    run (t :: ts) stack aw = settled j stack' ts := by
  rw [run, h]
  rcases stack' with _ | ⟨items | ⟨fields, name⟩, stack'⟩ <;> rfl

/-! ## Trees -/

mutual

/-- **The characters of a tree bring the machine to where the tree is complete**, whatever may
follow them. -/
theorem run_chars : ∀ {j : Json} {cs : List Char} {stack : List Frame} {aw : Awaiting},
    j.IsWritten → Token.Stops cs → aw = .value ∨ aw = .firstItem →
      run (Token.ofChars (j.chars ++ cs)) stack aw = settled j stack (Token.ofChars cs)
  | .null, cs, stack, aw, _, _, haw => by
    rw [Json.chars]
    refine (congrArg (run · stack aw) (Token.ofChars_cons rfl rfl)).trans (run_of_settle ?_)
    rcases haw with rfl | rfl <;> rfl
  | .bool b, cs, stack, aw, _, _, haw => by
    cases b
    all_goals
      rw [Json.chars]
      refine (congrArg (run · stack aw) (Token.ofChars_cons rfl rfl)).trans (run_of_settle ?_)
      rcases haw with rfl | rfl <;> rfl
  | .number n, cs, stack, aw, hj, hs, haw => by
    rw [Json.chars, Token.ofChars_numeral hj hs]
    refine run_of_settle ?_
    rcases haw with rfl | rfl <;> rfl
  | .string (some s), cs, stack, aw, _, _, haw => by
    rw [Json.chars, Json.literal, Token.ofChars_quote]
    refine run_of_settle ?_
    rcases haw with rfl | rfl <;> rw [← Literal.text?_ofText s] <;> rfl
  | .array [], cs, stack, aw, _, _, haw => by
    have hgo : step stack aw .beginArray = .go (.array [] :: stack) .firstItem := by
      rcases haw with rfl | rfl <;> rfl
    rw [Json.chars, List.cons_append, Token.ofChars_cons rfl rfl, run_of_go hgo,
      List.singleton_append, Token.ofChars_cons rfl rfl]
    exact run_of_settle rfl
  | .array (item :: items), cs, stack, aw, hj, _, haw => by
    have hgo : step stack aw .beginArray = .go (.array [] :: stack) .firstItem := by
      rcases haw with rfl | rfl <;> rfl
    rw [Json.chars, List.cons_append, Token.ofChars_cons rfl rfl, run_of_go hgo, List.append_assoc,
      run_chars hj.1 (Json.stops_moreItems items cs) (.inr rfl)]
    exact run_moreItems hj.2
  | .object [], cs, stack, aw, _, _, haw => by
    have hgo : step stack aw .beginObject = .go (.object [] .broken :: stack) .firstName := by
      rcases haw with rfl | rfl <;> rfl
    rw [Json.chars, List.cons_append, Token.ofChars_cons rfl rfl, run_of_go hgo,
      List.singleton_append, Token.ofChars_cons rfl rfl]
    exact run_of_settle rfl
  | .object ((name, value) :: fields), cs, stack, aw, hj, _, haw => by
    have hgo : step stack aw .beginObject = .go (.object [] .broken :: stack) .firstName := by
      rcases haw with rfl | rfl <;> rfl
    obtain ⟨⟨s, rfl⟩, hvalue, hfields⟩ := hj
    rw [Json.chars, List.cons_append, Token.ofChars_cons rfl rfl, run_of_go hgo,
      Literal.text?_ofText, Json.literal, List.append_assoc, Token.ofChars_quote, run_of_go rfl,
      List.cons_append, Token.ofChars_cons rfl rfl, run_of_go rfl, List.append_assoc,
      run_chars hvalue (Json.stops_moreFields fields cs) (.inl rfl)]
    exact run_moreFields hfields

theorem run_moreItems : ∀ {items : List Json} {cs : List Char} {read : List Json}
    {stack : List Frame}, Json.ItemsWritten items →
      run (Token.ofChars (Json.moreItems items ++ cs)) (.array read :: stack) .more
        = settled (.array (read.reverse ++ items)) stack (Token.ofChars cs)
  | [], cs, read, stack, _ => by
    rw [Json.moreItems, List.singleton_append, Token.ofChars_cons rfl rfl, List.append_nil]
    exact run_of_settle rfl
  | item :: items, cs, read, stack, h => by
    rw [Json.moreItems, List.cons_append, Token.ofChars_cons rfl rfl, run_of_go rfl,
      List.append_assoc, run_chars h.1 (Json.stops_moreItems items cs) (.inl rfl)]
    have hrest := @run_moreItems items cs (item :: read) stack h.2
    refine hrest.trans ?_
    rw [List.reverse_cons, List.append_assoc, List.singleton_append]

theorem run_moreFields : ∀ {fields : List (Literal × Json)} {cs : List Char}
    {read : List (Literal × Json)} {stack : List Frame}, Json.FieldsWritten fields →
      run (Token.ofChars (Json.moreFields fields ++ cs)) (.object read .broken :: stack) .more
        = settled (.object (read.reverse ++ fields)) stack (Token.ofChars cs)
  | [], cs, read, stack, _ => by
    rw [Json.moreFields, List.singleton_append, Token.ofChars_cons rfl rfl, List.append_nil]
    exact run_of_settle rfl
  | (name, value) :: fields, cs, read, stack, h => by
    obtain ⟨⟨s, rfl⟩, hvalue, hfields⟩ := h
    rw [Json.moreFields, List.cons_append, Token.ofChars_cons rfl rfl, run_of_go rfl,
      Literal.text?_ofText, Json.literal, List.append_assoc, Token.ofChars_quote, run_of_go rfl,
      List.cons_append, Token.ofChars_cons rfl rfl, run_of_go rfl, List.append_assoc,
      run_chars hvalue (Json.stops_moreFields fields cs) (.inl rfl)]
    have hrest := @run_moreFields fields cs ((.ofText s, value) :: read) stack hfields
    refine hrest.trans ?_
    rw [List.reverse_cons, List.append_assoc, List.singleton_append]

end

end Reader

/-- **The text of a tree is read as that tree**, and ends with it. -/
theorem Document.ofText_render {j : Json} (h : j.IsWritten) : ofText j.render = ⟨j, true⟩ := by
  have hrun := @Reader.run_chars j [] [] .value h trivial (.inl rfl)
  rw [List.append_nil, Token.ofChars_nil] at hrun
  rw [ofText, Json.render, String.toList_ofList, hrun]
  rfl

end StreamTables
