import StreamTables.SqlType.Basic

/-!
# Texts on one line

A type is written with the names of its fields, so it stays on one line if they do.

## What is here

* `Text.IsLine`: a text without line feeds.
* `SqlType.nestedNames`: the names in a type.
* `SqlType.isLine_text`: how a type is written has no line feed if no name in it has one.
-/

set_option autoImplicit false

namespace StreamTables

namespace Text

/-- Whether a text stays on one line. -/
def IsLine (text : String) : Prop := '\n' ∉ text.toList

instance (text : String) : Decidable (IsLine text) := inferInstanceAs (Decidable (¬ _))

variable {a b c d e separator : String} {texts : List String}

theorem isLine_append : IsLine (a ++ b) ↔ IsLine a ∧ IsLine b := by
  rw [IsLine, String.toList_append, List.mem_append, not_or]
  rfl

theorem isLine_append_three (ha : IsLine a) (hb : IsLine b) (hc : IsLine c) :
    IsLine (a ++ b ++ c) :=
  isLine_append.2 ⟨isLine_append.2 ⟨ha, hb⟩, hc⟩

theorem isLine_append_five (ha : IsLine a) (hb : IsLine b) (hc : IsLine c) (hd : IsLine d)
    (he : IsLine e) : IsLine (a ++ b ++ c ++ d ++ e) :=
  isLine_append_three (isLine_append_three ha hb hc) hd he

theorem isLine_natText (n : Nat) : IsLine (Digits.natText n) := by
  rw [IsLine, Digits.natText, String.toList_ofList]
  intro h
  exact absurd (Digits.isDigit_of_mem_ofNat h) (by decide)

theorem isLine_intercalate (hseparator : IsLine separator) (h : ∀ text ∈ texts, IsLine text) :
    IsLine (separator.intercalate texts) := by
  induction texts with
  | nil => exact nofun
  | cons text texts ih =>
    obtain ⟨htext, htexts⟩ := List.forall_mem_cons.1 h
    cases texts with
    | nil => simpa using htext
    | cons next texts =>
      rw [String.intercalate_cons_cons]
      exact isLine_append_three htext hseparator (ih htexts)

end Text

open Text

mutual

/-- The names of the fields of a type, at any depth. -/
def SqlType.nestedNames : SqlType → List String
  | .primitive _ => []
  | .decimal _ _ => []
  | .array element => element.nestedNames
  | .map key value => key.nestedNames ++ value.nestedNames
  | .struct fields => nestedFieldNames fields

/-- The names of fields and of the fields within them. -/
def SqlType.nestedFieldNames : List (String × SqlType) → List String
  | [] => []
  | (name, type) :: fields => name :: (type.nestedNames ++ nestedFieldNames fields)

end

namespace SqlType

-- The recursion is that of `SqlType.text`.
mutual

/-- A type is written on one line if the names of its fields are. -/
theorem isLine_text : ∀ {t : SqlType}, (∀ name ∈ t.nestedNames, IsLine name) → IsLine t.text
  | .primitive p, _ => by cases p <;> decide
  | .decimal _ _, _ =>
    isLine_append_five (by decide) (isLine_natText _) (by decide) (isLine_natText _) (by decide)
  | .array t, h => isLine_append_three (by decide) (isLine_text (t := t) h) (by decide)
  | .map _ _, h => by
    obtain ⟨hkey, hvalue⟩ := List.forall_mem_append.1 h
    exact isLine_append_five (by decide) (isLine_text hkey) (by decide) (isLine_text hvalue)
      (by decide)
  | .struct _, h => isLine_append_three (by decide)
      (isLine_intercalate (by decide) (isLine_fieldTexts h)) (by decide)

theorem isLine_fieldTexts : ∀ {fs : List (String × SqlType)},
    (∀ name ∈ nestedFieldNames fs, IsLine name) → ∀ text ∈ fieldTexts fs, IsLine text
  | [], _ => List.forall_mem_nil _
  | (name, type) :: fs, h => by
    obtain ⟨hname, hnames⟩ := List.forall_mem_cons.1 h
    obtain ⟨htype, hfs⟩ := List.forall_mem_append.1 hnames
    refine List.forall_mem_cons.2 ⟨?_, isLine_fieldTexts hfs⟩
    exact isLine_append.2 ⟨isLine_append_three (by decide) hname (by decide), isLine_text htype⟩

end

end SqlType
end StreamTables
