import StreamTables.Proofs.Text.Digits
import StreamTables.Proofs.Text.Listing
import StreamTables.SqlType.Basic

/-!
# Types are written in one way

No two types are written alike.  A type is written as a word in capital letters and its parameters
behind it, and the parameters may be types again.  What ends a part is not the next comma, since
commas occur in the parts as well, so a part is followed from its beginning: the word tells the
parameters that come, and the last of them ends where it does.  All this depends on the names of
fields, which may hold commas and brackets, but no backticks.

## What is here

* `SqlType.hasPlainNames`: no name of a field has a backtick, at any depth.
* `SqlType.toList_text`: a type is written as its word and its parameters.
* `SqlType.sameKind_of_text`: the kind of a type is read off its text first.
* `SqlType.Unambiguous`: a type and whatever follows it are told apart in one way.
* `SqlType.field_inj`: so are a field and whatever follows it.
* `SqlType.unambiguous`: so is every type, by recursion on it.
* `SqlType.text_inj`: types that are written alike are alike.
-/

set_option autoImplicit false

namespace StreamTables

open Text

/-! ## Names without backticks -/

namespace Text

/-- Whether a name has no backtick in it. -/
def isPlain (name : String) : Bool := name.toList.all fun c => c ≠ '\x60'

end Text

mutual

/-- Whether the names of fields have no backticks, at any depth. -/
def SqlType.hasPlainNames : SqlType → Bool
  | .primitive _ => true
  | .decimal _ _ => true
  | .array element => element.hasPlainNames
  | .map key value => key.hasPlainNames && value.hasPlainNames
  | .struct fields => havePlainNames fields

/-- Whether fields and the fields within them have names without backticks. -/
def SqlType.havePlainNames : List (String × SqlType) → Bool
  | [] => true
  | (name, type) :: fields => isPlain name && type.hasPlainNames && havePlainNames fields

end

/-- The word that types of a kind are written with. -/
def BaseType.word (b : BaseType) : List Char := b.name.toList.map Char.toUpper

theorem BaseType.word_inj {a b : BaseType} (h : a.word = b.word) : a = b := by
  have hall : ∀ a ∈ all, ∀ b ∈ all, a.word = b.word → a = b := by decide
  exact hall a (mem_all a) b (mem_all b) h

theorem BaseType.isUpper_of_mem_word {b : BaseType} : ∀ c ∈ b.word, c.isUpper = true := by
  have hall : ∀ b ∈ all, b.word.all Char.isUpper = true := by decide
  exact List.all_eq_true.1 (hall b (mem_all b))

namespace SqlType

variable {a b : SqlType} {fs : List (String × SqlType)} {m n : String}
  {rest rest' : List Char}

/-! ## Words and parameters -/

/-- How a field is written. -/
def fieldChars (name : String) (type : SqlType) : List Char :=
  '\x60' :: (name.toList ++ '\x60' :: ' ' :: type.text.toList)

/-- How the fields of a struct are written. -/
def fieldsChars (fields : List (String × SqlType)) : List Char :=
  [',', ' '].intercalate (fields.map fun f => fieldChars f.1 f.2)

/-- What a type is written with behind its word. -/
def parameters : SqlType → List Char
  | primitive _ => []
  | decimal precision scale =>
    '(' :: (Digits.ofNat precision.toNat ++
      ',' :: ' ' :: (Digits.ofNat scale.toNat ++ [')']))
  | array element => '<' :: (element.text.toList ++ ['>'])
  | map key value => '<' :: (key.text.toList ++ ',' :: ' ' :: (value.text.toList ++ ['>']))
  | struct fields => '<' :: (fieldsChars fields ++ ['>'])

theorem toList_fieldTexts (fs : List (String × SqlType)) :
    (fieldTexts fs).map String.toList = fs.map fun f => fieldChars f.1 f.2 := by
  induction fs with
  | nil => rfl
  | cons f fs ih =>
    rw [fieldTexts, List.map_cons, List.map_cons, ih]
    simp [fieldChars]

/-- **A type is written as its word and its parameters.** -/
theorem toList_text (t : SqlType) : t.text.toList = t.baseType.word ++ t.parameters := by
  cases t with
  | primitive p => cases p <;> decide
  | decimal p s =>
    have hword : BaseType.decimal.word = "DECIMAL".toList := by decide
    simp [text, baseType, parameters, hword, Digits.natText]
  | array t =>
    have hword : BaseType.array.word = "ARRAY".toList := by decide
    simp [text, baseType, parameters, hword]
  | map k v =>
    have hword : BaseType.map.word = "MAP".toList := by decide
    simp [text, baseType, parameters, hword]
  | struct fs =>
    have hword : BaseType.struct.word = "STRUCT".toList := by decide
    simp [text, baseType, parameters, hword, fieldsChars, toList_fieldTexts]

/-- No parameter begins with a capital letter, so the word ends in front of them. -/
theorem stops_parameters (t : SqlType) (h : Stops Char.isUpper rest) :
    Stops Char.isUpper (t.parameters ++ rest) := by
  cases t with
  | primitive p => exact h
  | decimal p s => exact stops_cons rfl
  | array t => exact stops_cons rfl
  | map k v => exact stops_cons rfl
  | struct fs => exact stops_cons rfl

/-- Two types of one kind. -/
inductive SameKind : SqlType → SqlType → Prop
  | primitive (p : Primitive) : SameKind (.primitive p) (.primitive p)
  | decimal (p s p' s' : UInt8) : SameKind (.decimal p s) (.decimal p' s')
  | array (t t' : SqlType) : SameKind (.array t) (.array t')
  | map (k v k' v' : SqlType) : SameKind (.map k v) (.map k' v')
  | struct (fs fs' : List (String × SqlType)) : SameKind (.struct fs) (.struct fs')

theorem primitive?_baseType (p : Primitive) : p.baseType.primitive? = some p := by
  cases p <;> rfl

/-- A type that is of the kind of a primitive one is that type. -/
theorem eq_primitive_of_baseType {p : Primitive} (h : a.baseType = p.baseType) :
    a = .primitive p := by
  have hp : a.baseType.primitive? = some p := by rw [h, primitive?_baseType]
  cases a with
  | primitive q =>
    rw [baseType, primitive?_baseType] at hp
    rw [Option.some.inj hp]
  | decimal => exact nomatch hp
  | array => exact nomatch hp
  | map => exact nomatch hp
  | struct => exact nomatch hp

theorem sameKind_of_baseType (h : a.baseType = b.baseType) : SameKind a b := by
  cases a with
  | primitive p => exact eq_primitive_of_baseType h.symm ▸ .primitive p
  | _ =>
    cases b with
    | primitive q => exact nomatch eq_primitive_of_baseType h
    | _ => first | constructor | exact nomatch h

/-- **The word of a type is read off its text**, so the kind is known before the parameters are. -/
theorem sameKind_of_text (hrest : Stops Char.isUpper rest) (hrest' : Stops Char.isUpper rest')
    (h : a.text.toList ++ rest = b.text.toList ++ rest') :
    SameKind a b ∧ a.parameters ++ rest = b.parameters ++ rest' := by
  rw [toList_text, toList_text, List.append_assoc, List.append_assoc] at h
  obtain ⟨hword, hparameters⟩ := append_inj_of_stops BaseType.isUpper_of_mem_word
    BaseType.isUpper_of_mem_word (stops_parameters a hrest) (stops_parameters b hrest') h
  exact ⟨sameKind_of_baseType (BaseType.word_inj hword), hparameters⟩

/-! ## Parts -/

/-- However the text goes on behind a type, the type and the rest are told apart in one way.  What
goes on must not look like more of a word. -/
def Unambiguous (a : SqlType) : Prop :=
  ∀ (b : SqlType) (rest rest' : List Char), b.hasPlainNames = true → Stops Char.isUpper rest →
    Stops Char.isUpper rest' → a.text.toList ++ rest = b.text.toList ++ rest' → a = b ∧ rest = rest'

theorem stops_of_followsItem (h : FollowsItem rest) : Stops Char.isUpper rest := by
  intro c hc
  rcases h c hc with rfl | rfl <;> rfl

/-- A number and whatever follows it, except for more digits, are told apart in one way. -/
theorem ofNat_append_inj {p q : UInt8} (hrest : Stops Char.isDigit rest)
    (hrest' : Stops Char.isDigit rest')
    (h : Digits.ofNat p.toNat ++ rest = Digits.ofNat q.toNat ++ rest') : p = q ∧ rest = rest' := by
  obtain ⟨hdigits, htail⟩ := append_inj_of_stops (fun _ => Digits.isDigit_of_mem_ofNat)
    (fun _ => Digits.isDigit_of_mem_ofNat) hrest hrest' h
  refine ⟨UInt8.toNat_inj.1 ?_, htail⟩
  rw [← Digits.value_ofNat p.toNat, hdigits, Digits.value_ofNat]

/-- **A field and whatever follows it are told apart in one way**: its name ends at the backtick. -/
theorem field_inj (hm : isPlain m = true) (hn : isPlain n = true) (ha : a.Unambiguous)
    (hb : b.hasPlainNames = true) (hrest : Stops Char.isUpper rest)
    (hrest' : Stops Char.isUpper rest')
    (h : fieldChars m a ++ rest = fieldChars n b ++ rest') : m = n ∧ a = b ∧ rest = rest' := by
  have hchars : m.toList ++ '\x60' :: ' ' :: (a.text.toList ++ rest) =
      n.toList ++ '\x60' :: ' ' :: (b.text.toList ++ rest') := by
    simpa [fieldChars] using h
  obtain ⟨hname, htail⟩ := append_inj_of_stops (List.all_eq_true.1 hm) (List.all_eq_true.1 hn)
    (stops_cons (by decide)) (stops_cons (by decide)) hchars
  have htype : a.text.toList ++ rest = b.text.toList ++ rest' := by simpa using htail
  exact ⟨String.toList_inj.1 hname, ha b rest rest' hb hrest hrest' htype⟩

/-! ## Types, by their constructors -/

theorem unambiguous_primitive (p : Primitive) : (primitive p).Unambiguous := by
  intro b rest rest' _ hrest hrest' h
  obtain ⟨hkind, htail⟩ := sameKind_of_text hrest hrest' h
  cases hkind
  exact ⟨rfl, htail⟩

theorem unambiguous_decimal (p s : UInt8) : (decimal p s).Unambiguous := by
  intro b rest rest' _ hrest hrest' h
  obtain ⟨hkind, htail⟩ := sameKind_of_text hrest hrest' h
  cases hkind with
  | decimal _ _ p' s' =>
    simp only [parameters, List.cons_append, List.append_assoc, List.cons.injEq, true_and] at htail
    obtain ⟨rfl, hscale⟩ := ofNat_append_inj (stops_cons rfl) (stops_cons rfl) htail
    simp only [List.cons.injEq, true_and] at hscale
    obtain ⟨rfl, hend⟩ := ofNat_append_inj (stops_cons rfl) (stops_cons rfl) hscale
    simp only [List.nil_append, List.cons.injEq, true_and] at hend
    exact ⟨rfl, hend⟩

theorem unambiguous_array (ha : a.Unambiguous) : (array a).Unambiguous := by
  intro b rest rest' hb hrest hrest' h
  obtain ⟨hkind, htail⟩ := sameKind_of_text hrest hrest' h
  cases hkind with
  | array _ b =>
    simp only [parameters, List.cons_append, List.append_assoc, List.cons.injEq, true_and] at htail
    obtain ⟨rfl, hend⟩ := ha b _ _ hb (stops_cons rfl) (stops_cons rfl) htail
    simp only [List.nil_append, List.cons.injEq, true_and] at hend
    exact ⟨rfl, hend⟩

theorem unambiguous_map {k v : SqlType} (hk : k.Unambiguous) (hv : v.Unambiguous) :
    (map k v).Unambiguous := by
  intro b rest rest' hb hrest hrest' h
  obtain ⟨hkind, htail⟩ := sameKind_of_text hrest hrest' h
  cases hkind with
  | map _ _ k' v' =>
    simp only [hasPlainNames, Bool.and_eq_true] at hb
    simp only [parameters, List.cons_append, List.append_assoc, List.cons.injEq, true_and] at htail
    obtain ⟨rfl, hvalue⟩ := hk k' _ _ hb.1 (stops_cons rfl) (stops_cons rfl) htail
    simp only [List.cons.injEq, true_and] at hvalue
    obtain ⟨rfl, hend⟩ := hv v' _ _ hb.2 (stops_cons rfl) (stops_cons rfl) hvalue
    simp only [List.nil_append, List.cons.injEq, true_and] at hend
    exact ⟨rfl, hend⟩

theorem of_mem_havePlainNames (h : havePlainNames fs = true) :
    ∀ f ∈ fs, isPlain f.1 = true ∧ f.2.hasPlainNames = true := by
  induction fs with
  | nil => exact List.forall_mem_nil _
  | cons f fs ih =>
    simp only [havePlainNames, Bool.and_eq_true] at h
    exact List.forall_mem_cons.2 ⟨h.1, ih h.2⟩

theorem not_followsListing_fieldChars (f : String × SqlType) (rest : List Char) :
    ¬ FollowsListing (fieldChars f.1 f.2 ++ rest) :=
  fun h => absurd (h '\x60' rfl) (by decide)

theorem unambiguous_struct (h : ∀ f ∈ fs, isPlain f.1 = true ∧ f.2.Unambiguous) :
    (struct fs).Unambiguous := by
  intro b rest rest' hb hrest hrest' htext
  obtain ⟨hkind, htail⟩ := sameKind_of_text hrest hrest' htext
  cases hkind with
  | struct _ gs =>
    have hg := of_mem_havePlainNames hb
    simp only [parameters, List.cons_append, List.append_assoc, List.cons.injEq, true_and] at htail
    have hread : ∀ f ∈ fs, ∀ g ∈ gs, ReadAlike (fun f => fieldChars f.1 f.2) id f g := by
      intro f hf g hg' rest rest' hrest hrest' h'
      obtain ⟨hname, htype, heq⟩ := field_inj (h f hf).1 (hg g hg').1 (h f hf).2 (hg g hg').2
        (stops_of_followsItem hrest) (stops_of_followsItem hrest') h'
      exact ⟨Prod.ext hname htype, heq⟩
    have hend : ∀ cs, FollowsListing ('>' :: cs) := fun cs c hc => (Option.some.inj hc).symm
    obtain ⟨hfields, heq⟩ :=
      listing_inj hread not_followsListing_fieldChars (hend rest) (hend rest') htail
    rw [List.map_id, List.map_id] at hfields
    exact ⟨congrArg struct hfields, (List.cons.inj heq).2⟩

-- The recursion is on the one type; all that is known of the other is that it is written alike.
mutual

/-- **Every type without backticks in its names is unambiguous.** -/
theorem unambiguous : ∀ {a : SqlType}, a.hasPlainNames = true → a.Unambiguous
  | .primitive p, _ => unambiguous_primitive p
  | .decimal p s, _ => unambiguous_decimal p s
  | .array t, h => unambiguous_array (unambiguous (a := t) h)
  | .map k v, h => by
    rw [hasPlainNames, Bool.and_eq_true] at h
    exact unambiguous_map (unambiguous h.1) (unambiguous h.2)
  | .struct fs, h => unambiguous_struct (unambiguous_of_mem h)

theorem unambiguous_of_mem : ∀ {fs : List (String × SqlType)}, havePlainNames fs = true →
    ∀ f ∈ fs, isPlain f.1 = true ∧ f.2.Unambiguous
  | [], _ => List.forall_mem_nil _
  | (n, t) :: fs, h => by
    simp only [havePlainNames, Bool.and_eq_true] at h
    exact List.forall_mem_cons.2 ⟨⟨h.1.1, unambiguous h.1.2⟩, unambiguous_of_mem h.2⟩

end

/-- **Types that are written alike are alike.** -/
theorem text_inj (ha : a.hasPlainNames = true) (hb : b.hasPlainNames = true)
    (h : a.text = b.text) : a = b :=
  (unambiguous ha b [] [] hb stops_nil stops_nil (congrArg (·.toList ++ []) h)).1

/-- A name with backticks may read like two fields, which is why names have to be plain. -/
example :
    (struct [("a` DATE, `b", .primitive .date)]).text =
      (struct [("a", .primitive .date), ("b", .primitive .date)]).text := by decide

end SqlType
end StreamTables
