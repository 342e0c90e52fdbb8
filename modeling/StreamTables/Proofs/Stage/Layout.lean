import StreamTables.Proofs.Codec.RoundTrip
import StreamTables.Stage.Layout

/-!
# The values of system columns

A served row shows the system columns of the current version, some of which were stored with the
row.  As a stored value is that of the record it was stored with, and the metadata of a record do
not change, the merge of the two gives what the record says.

## What is here

* `Layout.fill_eq_mapM`: a merge with values that would be resolved alike is a resolution.
* `RecordMetadata.mapM_storedColumns`, `RecordMetadata.mapM_current`,
  `RecordMetadata.mapM_windowBounds`: the values of the columns of a version, and of the window
  bounds.
* `RecordMetadata.eq_of_equal`: a value that equals that of a system column is the same.
-/

set_option autoImplicit false

namespace StreamTables

namespace Layout

variable {α β ε : Type} [DecidableEq α]

/-- **A merge with values that would be resolved alike is a resolution.** -/
theorem fill_eq_mapM {resolve : α → Except ε β} {stored : List α} {vals : List β}
    (h : List.Forall₂ (fun a b => resolve a = .ok b) stored vals) (target : List α) :
    fill resolve (stored.zip vals) target = target.mapM resolve := by
  induction target generalizing stored vals with
  | nil => rw [fill, List.mapM_nil]; rfl
  | cons a target ih =>
    rw [List.mapM_cons]
    cases h with
    | nil =>
      rw [List.zip_nil_left, fill, ← ih .nil]
      rfl
    | @cons s b stored vals hsb hrest =>
      rw [List.zip_cons_cons, fill]
      by_cases hs : s = a
      · rw [if_pos hs, ← hs, hsb, ih hrest]
        rfl
      · rw [if_neg hs, ← List.zip_cons_cons, ih (.cons hsb hrest)]

end Layout

namespace RecordMetadata

variable {m : RecordMetadata}

/-- The values of the columns that are stored under a version: where the record stood in its topic,
or nothing. -/
def position (m : RecordMetadata) (v : Version) : List Value :=
  if v = .current then [.integer m.partition, .bigint m.offset] else []

theorem eq_legacy_of_ne_current {v : Version} (h : v ≠ .current) : v = .legacy := by
  revert v
  decide

theorem mapM_storedColumns (m : RecordMetadata) (v : Version) :
    v.storedColumns.mapM m.value = .ok (m.position v) := by
  by_cases hv : v = .current
  · rw [hv, Version.storedColumns_current]
    rfl
  · rw [eq_legacy_of_ne_current hv, Version.storedColumns_legacy]
    rfl

theorem mapM_current (m : RecordMetadata) :
    Version.current.columns.mapM m.value
      = .ok [.bigint m.timestamp, .integer m.partition, .bigint m.offset] := by
  rw [Version.columns_current]
  rfl

/-- The bounds of the window, if there is one. -/
def windowCells (m : RecordMetadata) : List Value :=
  match m.window with
  | some w => [.bigint w.start, .bigint w.finish]
  | none => []

/-- The window bounds have values if and only if there is a window. -/
theorem mapM_windowBounds {cells : List Value} :
    SystemColumn.windowBounds.mapM m.value = .ok cells ↔
      m.window.isSome = true ∧ cells = m.windowCells := by
  rw [SystemColumn.windowBounds, List.mapM_cons, List.mapM_cons, List.mapM_nil, windowCells, value,
    value, bound, bound]
  cases m.window with
  | none =>
    refine iff_of_false (fun h => ?_) fun h => Bool.false_ne_true h.1
    cases h
  | some w => exact ⟨fun h => ⟨rfl, (Except.ok.inj h).symm⟩, fun h => h.2 ▸ rfl⟩

/-- The first window bound is the one that is found missing. -/
theorem mapM_windowBounds_eq_error {e : Error}
    (h : SystemColumn.windowBounds.mapM m.value = .error e) :
    m.window = none ∧ e = .missingWindow SystemColumn.windowStart.name := by
  rw [SystemColumn.windowBounds, List.mapM_cons, List.mapM_cons, List.mapM_nil, value, value, bound,
    bound] at h
  cases hw : m.window with
  | none =>
    rw [hw] at h
    cases h
    exact ⟨rfl, rfl⟩
  | some w =>
    rw [hw] at h
    cases h

/-- **A value that equals that of a system column is the same.**  They are all integers. -/
theorem eq_of_equal {c : SystemColumn} {v w : Value} (hv : m.value c = .ok v)
    (h : w.equal v = true) : w = v := by
  have hbigint : ∀ i, v = .bigint i → w = v := by
    rintro i rfl
    cases w <;> simp_all [Value.equal]
  have hbound : ∀ {b : SystemColumn} {side : WindowBounds → Int64},
      m.bound b side = .ok v → w = v := by
    intro b side hb
    rw [bound] at hb
    split at hb
    · exact hbigint _ (Except.ok.inj hb).symm
    · exact nomatch hb
  cases c with
  | rowTime => exact hbigint _ (Except.ok.inj hv).symm
  | rowPartition =>
    cases hv
    cases w <;> simp_all [Value.equal]
  | rowOffset => exact hbigint _ (Except.ok.inj hv).symm
  | windowStart => exact hbound hv
  | windowEnd => exact hbound hv

/-- An integer is read back, and it takes the brackets of its kind alone. -/
theorem integer_cell {c : Value} (h : (∃ i, c = .integer i) ∨ ∃ i, c = .bigint i) :
    c.IsReadable ∧ c.DoublesReadBack ∧ c.json.depth = 1 := by
  rcases h with ⟨i, rfl⟩ | ⟨i, rfl⟩
  all_goals
    refine ⟨fun a ha => ?_, fun d hd => ?_, rfl⟩
    · rw [List.mem_singleton.1 ha]
      trivial
    · exact nomatch List.mem_singleton.1 hd

theorem position_cell {v : Version} {c : Value} (h : c ∈ m.position v) :
    c.IsReadable ∧ c.DoublesReadBack ∧ c.json.depth = 1 := by
  refine integer_cell ?_
  rw [position] at h
  split at h
  · rcases List.mem_cons.1 h with rfl | h
    · exact .inl ⟨_, rfl⟩
    · exact .inr ⟨_, List.mem_singleton.1 h⟩
  · exact nomatch h

end RecordMetadata
end StreamTables
