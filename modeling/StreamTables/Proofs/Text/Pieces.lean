/-!
# Texts that are cut again

Texts are put together with a separator between them, or with an end behind each of them.  When the
result is cut at every such character, the texts come back, but those that have the character
themselves come back in pieces.

## What is here

* `Text.splitOn_append_cons`: a cut at one place.
* `Text.splitOn_intercalate_cons`: texts with a separator between them.
* `Text.splitOn_flatMap_concat`: texts with an end behind each of them.
* `Text.flatMap_splitOn_eq_self`: texts without the character are whole pieces.
-/

set_option autoImplicit false

namespace StreamTables
namespace Text

variable {c : Char}

theorem splitOn_append_cons (xs ys : List Char) :
    (xs ++ c :: ys).splitOn c = xs.splitOn c ++ ys.splitOn c := by
  rw [List.splitOn_eq_splitOnP, List.splitOn_eq_splitOnP, List.splitOn_eq_splitOnP,
    List.splitOnP_append_cons xs ys (by simp)]

/-- **Texts that are cut at their separators come back in pieces.** -/
theorem splitOn_intercalate_cons (text : List Char) (texts : List (List Char)) :
    ([c].intercalate (text :: texts)).splitOn c = (text :: texts).flatMap (List.splitOn c) := by
  induction texts generalizing text with
  | nil => simp
  | cons next texts ih =>
    rw [List.intercalate_cons_cons, List.append_assoc, List.singleton_append, splitOn_append_cons,
      ih next, ← List.flatMap_cons]

/-- **Texts that are cut at their ends come back in pieces**, with an empty piece behind them. -/
theorem splitOn_flatMap_concat (texts : List (List Char)) :
    (texts.flatMap (· ++ [c])).splitOn c = texts.flatMap (List.splitOn c) ++ [[]] := by
  induction texts with
  | nil => rfl
  | cons text texts ih =>
    rw [List.flatMap_cons, List.append_assoc, List.singleton_append, splitOn_append_cons, ih,
      List.flatMap_cons, List.append_assoc]

/-- Texts without the character come back whole. -/
theorem flatMap_splitOn_eq_self {texts : List (List Char)} (h : ∀ text ∈ texts, c ∉ text) :
    texts.flatMap (List.splitOn c) = texts := by
  induction texts with
  | nil => rfl
  | cons text texts ih =>
    obtain ⟨htext, htexts⟩ := List.forall_mem_cons.1 h
    rw [List.flatMap_cons, List.splitOn_eq_singleton htext, ih htexts]
    rfl

end Text
end StreamTables
