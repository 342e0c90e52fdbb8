/-!
# Upper case, as far as ASCII words go

Upper-casing by Unicode's full mapping turns ten characters outside ASCII into ASCII letters, some
of them into several. Any other character outside ASCII has an upper case that is not all ASCII,
so it can never become part of a word spelt in ASCII; here it stands for itself.
-/

set_option autoImplicit false

namespace StreamTables
namespace Text

/-- The upper case of a character. Characters outside ASCII whose upper case is not spelt in ASCII
letters alone are left as they are. -/
def upperChar (c : Char) : List Char :=
  match c.toNat with
  | 0xDF => ['S', 'S']
  | 0x131 => ['I']
  | 0x17F => ['S']
  | 0xFB00 => ['F', 'F']
  | 0xFB01 => ['F', 'I']
  | 0xFB02 => ['F', 'L']
  | 0xFB03 => ['F', 'F', 'I']
  | 0xFB04 => ['F', 'F', 'L']
  | 0xFB05 => ['S', 'T']
  | 0xFB06 => ['S', 'T']
  | _ => [c.toUpper]

/-- A text in upper case. -/
def upper (cs : List Char) : List Char := cs.flatMap upperChar

/-- A text of characters that are upper case already is left as it is. -/
theorem upper_eq_self {cs : List Char} (h : ∀ c ∈ cs, upperChar c = [c]) : upper cs = cs := by
  induction cs with
  | nil => rfl
  | cons c cs ih =>
    rw [List.forall_mem_cons] at h
    rw [upper, List.flatMap_cons, h.1, List.singleton_append, ← upper, ih h.2]

end Text
end StreamTables
