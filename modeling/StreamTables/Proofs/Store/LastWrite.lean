import Mathlib.Data.List.Dedup
import StreamTables.Store.Entries

/-!
# The last write of a key decides

The entries of a store are kept in the order of their insertion, a key that is written again keeps
its place, and one that is erased loses it.  Seen by its values none of this matters: after any
writes a key has the value that was last written to it, and there are as many entries as there are
keys that were not erased last.

## What is here

* `Entries.set`: a write is an insertion or an erasure.
* `Entries.lastWrite`: the last write of a key.
* `Entries.get?_setAll`, `Entries.size_setAll`: what many writes come to.
-/

set_option autoImplicit false

namespace StreamTables
namespace Entries

variable {α β : Type} [DecidableEq α] {es : Entries α β} {k k' : α} {r : Option β}
  {writes : List (α × Option β)}

/-- Writes a value or, without one, erases the key. -/
def set (es : Entries α β) (k : α) : Option β → Entries α β
  | some v => es.insert k v
  | none => es.erase k

theorem get?_set : (es.set k r).get? k' = if k = k' then r else es.get? k' := by
  cases r with
  | none => exact es.get?_erase k k'
  | some v => exact es.get?_insert k k' v

/-- Writes many values, in order. -/
def setAll (es : Entries α β) (writes : List (α × Option β)) : Entries α β :=
  writes.foldl (fun es w => es.set w.1 w.2) es

/-- What was last written to a key, if anything was. -/
def lastWrite (writes : List (α × Option β)) (k : α) : Option (Option β) :=
  (writes.reverse.find? fun w => w.1 = k).map Prod.snd

theorem lastWrite_cons (w : α × Option β) (k : α) :
    lastWrite (w :: writes) k
      = (lastWrite writes k).or (if w.1 = k then some w.2 else none) := by
  rw [lastWrite, lastWrite, List.reverse_cons, List.find?_append, Option.map_or,
    List.find?_singleton]
  by_cases hw : w.1 = k <;> simp [hw]

/-- **A key has the value that was last written to it.** -/
theorem get?_setAll : (es.setAll writes).get? k = (lastWrite writes k).getD (es.get? k) := by
  induction writes generalizing es with
  | nil => rfl
  | cons w writes ih =>
    rw [setAll, List.foldl_cons]
    refine ih.trans ?_
    rw [lastWrite_cons, get?_set]
    cases lastWrite writes k with
    | some r => rfl
    | none => by_cases hw : w.1 = k <;> simp [hw]

/-! ## Keys -/

theorem mem_keys_iff : k ∈ es.toList.map Prod.fst ↔ (es.get? k).isSome = true := by
  rw [get?, List.lookup_isSome_iff, List.mem_map]
  constructor
  · rintro ⟨e, he, rfl⟩
    exact ⟨e, he, beq_self_eq_true _⟩
  · rintro ⟨e, he, hk⟩
    exact ⟨e, he, (eq_of_beq hk).symm⟩

theorem mem_fst_of_lastWrite (h : (lastWrite writes k).isSome = true) :
    k ∈ writes.map Prod.fst := by
  rw [lastWrite, Option.isSome_map, List.find?_isSome] at h
  obtain ⟨w, hw, hk⟩ := h
  exact List.mem_map.2 ⟨w, List.mem_reverse.1 hw, of_decide_eq_true hk⟩

/-- **There are as many entries as keys that were not erased last.** -/
theorem size_setAll :
    ((empty : Entries α β).setAll writes).size
      = ((writes.map Prod.fst).dedup.filter fun k =>
          ((lastWrite writes k).getD none).isSome).length := by
  generalize hes : (empty : Entries α β).setAll writes = es
  have hkeys : (es.toList.map Prod.fst).Perm ((writes.map Prod.fst).dedup.filter fun k =>
      ((lastWrite writes k).getD none).isSome) := by
    refine (List.perm_ext_iff_of_nodup es.nodup_keys
      ((List.nodup_dedup _).sublist List.filter_sublist)).2 fun k => ?_
    have hget : es.get? k = (lastWrite writes k).getD none := by
      rw [← hes, get?_setAll, get?_empty]
    rw [mem_keys_iff, hget, List.mem_filter, List.mem_dedup]
    refine ⟨fun h => ⟨mem_fst_of_lastWrite ?_, h⟩, And.right⟩
    cases hl : lastWrite writes k with
    | none => rw [hl] at h; exact nomatch h
    | some r => rfl
  have hlen := hkeys.length_eq
  rwa [List.length_map] at hlen

end Entries
end StreamTables
