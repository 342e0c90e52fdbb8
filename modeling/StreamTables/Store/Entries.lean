/-!
# Entries of a store

Keys with values, in the order in which the keys were first inserted. No key occurs twice.

## What is here

* `Entries`: the entries, with `Entries.toList`, `Entries.get?` and `Entries.size`.
* `Entries.insert`: a key that is there keeps its place, and one that is new goes to the end.
* `Entries.erase`: removes a key. The others keep their order.
* `Entries.get?_insert`, `Entries.get?_erase`: what the operations do to the values.
-/

set_option autoImplicit false

namespace StreamTables

/-- Keys with values, in the order of their insertion. -/
structure Entries (α β : Type) where
  toList : List (α × β)
  nodup_keys : (toList.map Prod.fst).Nodup

namespace Entries

variable {α β : Type} [DecidableEq α]

/-- No entries. -/
def empty : Entries α β := ⟨[], List.nodup_nil⟩

/-- How many entries there are. -/
def size (es : Entries α β) : Nat := es.toList.length

/-- The value of a key. -/
def get? (es : Entries α β) (k : α) : Option β := es.toList.lookup k

/-- Sets the value of a key in a list of entries. -/
def put (k : α) (v : β) : List (α × β) → List (α × β)
  | [] => [(k, v)]
  | (k', v') :: es => if k' = k then (k, v) :: es else (k', v') :: put k v es

theorem map_fst_put (k : α) (v : β) (es : List (α × β)) :
    (put k v es).map Prod.fst =
      if k ∈ es.map Prod.fst then es.map Prod.fst else es.map Prod.fst ++ [k] := by
  induction es with
  | nil => simp [put]
  | cons e es ih =>
    rcases e with ⟨k', v'⟩
    by_cases h : k' = k
    · simp [put, h]
    · have h' : k ≠ k' := fun e => h e.symm
      simp only [put, h, if_false, List.map_cons, ih, List.mem_cons, h', false_or]
      split <;> simp

theorem nodup_put {k : α} {v : β} {es : List (α × β)} (h : (es.map Prod.fst).Nodup) :
    ((put k v es).map Prod.fst).Nodup := by
  rw [map_fst_put]
  split
  · exact h
  · rename_i hk
    rw [List.nodup_append]
    refine ⟨h, by simp, fun a ha b hb hab => ?_⟩
    rw [List.mem_singleton] at hb
    exact hk (hb ▸ hab ▸ ha)

/-- Sets the value of a key. -/
def insert (es : Entries α β) (k : α) (v : β) : Entries α β :=
  ⟨put k v es.toList, nodup_put es.nodup_keys⟩

/-- Removes a key. -/
def erase (es : Entries α β) (k : α) : Entries α β where
  toList := es.toList.filter fun e => e.1 ≠ k
  nodup_keys := es.nodup_keys.sublist (List.filter_sublist.map Prod.fst)

/-! ## Values after an operation -/

theorem lookup_cons_ite (l k : α) (w : β) (es : List (α × β)) :
    ((l, w) :: es).lookup k = if l = k then some w else es.lookup k := by
  by_cases h : l = k
  · subst h
    simp
  · have hb : (k == l) = false := beq_eq_false_iff_ne.2 (Ne.symm h)
    simp [List.lookup_cons, hb, h]

theorem lookup_put (k k' : α) (v : β) (es : List (α × β)) :
    (put k v es).lookup k' = if k = k' then some v else es.lookup k' := by
  induction es with
  | nil => simp [put, lookup_cons_ite]
  | cons e es ih =>
    rcases e with ⟨l, w⟩
    by_cases hl : l = k
    · subst hl
      by_cases h : l = k' <;> simp [put, lookup_cons_ite, h]
    · by_cases h : l = k'
      · subst h
        simp [put, hl, Ne.symm hl]
      · simp [put, hl, lookup_cons_ite, h, ih]

theorem lookup_filter (k k' : α) (es : List (α × β)) :
    (es.filter fun e => e.1 ≠ k).lookup k' = if k = k' then none else es.lookup k' := by
  induction es with
  | nil => simp
  | cons e es ih =>
    rcases e with ⟨l, w⟩
    by_cases hl : l = k
    · rw [List.filter_cons_of_neg (by simpa using hl), ih, lookup_cons_ite]
      by_cases h : k = k'
      · rw [if_pos h, if_pos h]
      · rw [if_neg h, if_neg h, if_neg (hl ▸ h)]
    · rw [List.filter_cons_of_pos (by simpa using hl), lookup_cons_ite, lookup_cons_ite, ih]
      by_cases h : l = k'
      · rw [if_pos h, if_neg fun e => hl (h.trans e.symm), if_pos h]
      · rw [if_neg h, if_neg h]

/-- The inserted key has the inserted value, and every other key keeps its own. -/
theorem get?_insert (es : Entries α β) (k k' : α) (v : β) :
    (es.insert k v).get? k' = if k = k' then some v else es.get? k' :=
  lookup_put k k' v es.toList

/-- The erased key has no value, and every other key keeps its own. -/
theorem get?_erase (es : Entries α β) (k k' : α) :
    (es.erase k).get? k' = if k = k' then none else es.get? k' :=
  lookup_filter k k' es.toList

theorem get?_empty (k : α) : (empty : Entries α β).get? k = none := rfl

end Entries
end StreamTables
