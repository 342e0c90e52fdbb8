import StreamTables.Proofs.Source.Built

/-!
# How deep a stored row nests

The payloads of a store are written with the features of the topic, but they need not have the same
number of columns.  A value column that stands alone in the payloads of the topic stands in a list
as soon as pseudocolumns are stored behind it, and the list is one bracket more.  A reader looks
into so many brackets at most, so there are rows that can be read from the topic and not from the
store.  This file says which.

## What is here

* `TableSource.Outgrows`: the rows that can be read from the topic and not from the store.
* `TableSource.stored`: what the codecs of the store are asked for by.
* `TableSource.exists_decode_storedRow_iff`: all other rows can be read from the store.
-/

set_option autoImplicit false

namespace StreamTables
namespace TableSource

/-- Whether a row that was read nests too deep to be read from the store: its only cell, which is
genuine, nests as deep as a reader looks, and stands alone in the payloads of the topic but not in
those of the store, which have pseudocolumns behind it. -/
structure Outgrows (s : TableSource) (row : Row) : Prop where
  not_windowed : s.isWindowed = false
  version_eq : s.version = .current
  unwraps : s.formats.valueFeatures.has .unwrapSingles = true
  not_wraps : s.formats.valueFeatures.has .wrapSingles = false
  exists_cell : ∃ cell, row = [cell] ∧ s.schema.genuineCells s.version row = [cell] ∧
    cell.json.depth = Decoder.maxDepth

/-- What the codecs of the store are asked for by, if there is one. -/
def stored (s : TableSource) : CodecRequests :=
  s.requests s.storedSchema (s.path.child "Materialize")

variable {s : TableSource} {codecs cs : Codecs} {payload : ByteArray} {row : Row}
  {m : RecordMetadata}

/-- The codecs of rows that a source asks for, for any of its schemas. -/
theorem bare_row_of_codecs {schema : Schema} {path : PlanPath}
    (h : (s.requests schema path).codecs = .ok cs) :
    cs.row.width = schema.value.length ∧
      (cs.row.bare = true ↔ schema.value.length = 1 ∧
        s.formats.valueFeatures.has .unwrapSingles = true ∧
          s.formats.valueFeatures.has .wrapSingles = false) := by
  obtain ⟨-, hrow⟩ := CodecRequests.codecs_eq_ok_iff.1 h
  have hcodec := (Codec.ofFormat_eq_ok_iff.1 hrow).2
  rw [hcodec]
  refine ⟨rfl, ?_⟩
  simp only [Bool.and_eq_true, decide_eq_true_eq, Bool.not_eq_true', and_assoc]
  exact Iff.rfl

/-- Of a single cell nothing or all is genuine. -/
theorem genuineCells_singleton (s : Schema) (v : Version) (cell : Value) :
    s.genuineCells v [cell] = [] ∨ s.genuineCells v [cell] = [cell] := by
  rw [Schema.genuineCells]
  cases s.value with
  | nil => exact .inl rfl
  | cons f fs =>
    rw [List.zip_cons_cons, List.zip_nil_right, List.filter_singleton]
    cases s.isGenuine v f.name with
    | true => exact .inr rfl
    | false => exact .inl rfl

/-- The cells that a stored row has besides those that were read hardly nest. -/
theorem depth_mem_storedRow {n : Nat} (hn : 1 ≤ n) (hcells : ∀ v ∈ row, v.json.depth ≤ n) :
    ∀ v ∈ s.storedRow m row, v.json.depth ≤ n := by
  intro v hv
  rcases mem_storedRow hv with hv | hv
  · exact hcells v hv
  · exact (RecordMetadata.position_cell hv).2.2.trans_le hn

/-- A windowed source stores what it reads, in the form in which it reads it. -/
theorem tree_storedRow_of_windowed (hw : s.isWindowed = true)
    (hconsumed : s.consumed.codecs = .ok codecs) (hstored : s.stored.codecs = .ok cs) :
    cs.row.tree (s.storedRow m row) = codecs.row.tree row := by
  have hschema : s.storedSchema = s.schema := by rw [storedSchema, if_pos hw]
  have hbare : cs.row.bare = codecs.row.bare := by
    rw [Bool.eq_iff_iff, (bare_row_of_codecs hstored).2, hschema, (bare_row_of_codecs hconsumed).2]
  rw [storedRow, if_pos hw]
  unfold Codec.tree
  rw [hbare]

/-- A cell that stands alone in the payloads of the topic may stand alone in those of the store, or
it nests less deep than a reader looks, or else it outgrows the store. -/
theorem outgrows_of_depth {cell : Value} (hw : s.isWindowed = false)
    (hconsumed : s.consumed.codecs = .ok codecs) (hstored : s.stored.codecs = .ok cs)
    (hrow : codecs.row.decode payload = .ok [cell]) (hbare : codecs.row.bare = true)
    (hbare' : cs.row.bare = false)
    (hdeep : ¬ ∀ v ∈ s.storedRow m [cell], v.json.depth ≤ 126) : s.Outgrows [cell] := by
  obtain ⟨hwidth, hiff⟩ := bare_row_of_codecs hconsumed
  obtain ⟨-, hunwraps, hwraps⟩ := hiff.1 hbare
  have hcell : cell.json.depth ≤ 127 :=
    Codec.tree_of_bare hbare cell ▸ Codec.depth_tree_of_decode hrow
  have hlen : [cell].length = s.schema.value.length := (Codec.length_of_decode hrow).trans hwidth
  have hstoredRow : s.storedRow m [cell] = s.schema.genuineCells s.version [cell]
      ++ m.position s.version := by rw [storedRow, hw]; rfl
  have hgenuine : s.schema.genuineCells s.version [cell] = [cell] := by
    refine (genuineCells_singleton s.schema s.version cell).resolve_left fun hnil => hdeep ?_
    rw [hstoredRow, hnil]
    exact fun v hv => (RecordMetadata.position_cell hv).2.2.trans_le (by decide)
  refine ⟨hw, ?_, hunwraps, hwraps, cell, rfl, hgenuine, ?_⟩
  · -- an older version stores nothing behind the cell, so that it would stand alone there as well
    by_contra hversion
    have hone : s.storedSchema.value.length = 1 := by
      rw [← length_storedRow (m := m) hlen, hstoredRow, hgenuine, RecordMetadata.position,
        if_neg hversion]
      rfl
    have := (bare_row_of_codecs hstored).2.2 ⟨hone, hunwraps, hwraps⟩
    exact Bool.false_ne_true (hbare'.symm.trans this)
  · refine le_antisymm hcell (Nat.lt_of_not_le fun hle => hdeep ?_)
    exact depth_mem_storedRow (by decide) (List.forall_mem_singleton.2 hle)

/-- A row that outgrows the store nests too deep there. -/
theorem Outgrows.not_depth_le (h : s.Outgrows row) (hlen : row.length = s.schema.value.length)
    (hstored : s.stored.codecs = .ok cs) :
    ¬ (cs.row.tree (s.storedRow m row)).depth ≤ Decoder.maxDepth := by
  obtain ⟨hw, hversion, -, -, cell, rfl, hgenuine, hdepth⟩ := h
  have hstoredRow : s.storedRow m [cell] = cell :: m.position s.version := by
    rw [storedRow, hw, hgenuine]
    rfl
  have hbare : cs.row.bare = false := by
    rw [Bool.eq_false_iff]
    intro hbare
    have hone := ((bare_row_of_codecs hstored).2.1 hbare).1
    rw [← length_storedRow (m := m) hlen, hstoredRow, RecordMetadata.position,
      if_pos hversion] at hone
    simp at hone
  intro hle
  have hcell := (Codec.depth_tree_iff hbare).1 hle cell (by simp [hstoredRow])
  rw [hdepth] at hcell
  exact absurd hcell (by decide)

/-- **Which stored rows nest too deep.** -/
theorem depth_storedRow_le_iff (hconsumed : s.consumed.codecs = .ok codecs)
    (hstored : s.stored.codecs = .ok cs) (hrow : codecs.row.decode payload = .ok row) :
    (cs.row.tree (s.storedRow m row)).depth ≤ Decoder.maxDepth ↔ ¬ s.Outgrows row := by
  have hread := Codec.depth_tree_of_decode hrow
  have hwidth := (bare_row_of_codecs hconsumed).1
  have hlen : row.length = s.schema.value.length := (Codec.length_of_decode hrow).trans hwidth
  refine ⟨fun hle h => h.not_depth_le hlen hstored hle, fun h => ?_⟩
  cases hw : s.isWindowed with
  | true => rwa [tree_storedRow_of_windowed hw hconsumed hstored]
  | false =>
    by_cases hshallow : ∀ v ∈ s.storedRow m row, v.json.depth ≤ 126
    · exact Codec.depth_tree_le hshallow
    cases hbare : codecs.row.bare with
    | false =>
      have hcells := (Codec.depth_tree_iff hbare).1 hread
      exact absurd (depth_mem_storedRow (by decide) hcells) hshallow
    | true =>
      obtain ⟨cell, rfl⟩ := Codec.exists_cell (width_of_codecs hconsumed).2.2.2 hbare
        (Codec.length_of_decode hrow)
      cases hbare' : cs.row.bare with
      | false => exact absurd (outgrows_of_depth hw hconsumed hstored hrow hbare hbare' hshallow) h
      | true =>
        obtain ⟨-, hwidth', -, hproper⟩ := width_of_codecs hstored
        obtain ⟨v, hv⟩ := Codec.exists_cell hproper hbare'
          ((length_storedRow (m := m) hlen).trans hwidth'.symm)
        rw [hv, Codec.tree_of_bare hbare']
        refine depth_mem_storedRow (m := m) (by decide) ?_ v (hv ▸ List.mem_singleton_self v)
        exact List.forall_mem_singleton.2 (Codec.tree_of_bare hbare cell ▸ hread)

/-- **Which rows can be read from the topic and not from the store.** -/
theorem exists_decode_storedRow_iff (hconsumed : s.consumed.codecs = .ok codecs)
    (hstored : s.stored.codecs = .ok cs) (hrow : codecs.row.decode payload = .ok row) :
    (∃ held, cs.row.decode (cs.row.payload (s.storedRow m row)) = .ok held) ↔
      ¬ s.Outgrows row := by
  obtain ⟨-, hwidth, -, hproper⟩ := width_of_codecs hstored
  have hlen : row.length = s.schema.value.length :=
    (Codec.length_of_decode hrow).trans (bare_row_of_codecs hconsumed).1
  rw [← depth_storedRow_le_iff (m := m) hconsumed hstored hrow]
  exact Codec.exists_decode_toUTF8_iff hproper ((length_storedRow hlen).trans hwidth.symm)
    (isReadable_storedRow (Codec.of_decode hrow).1)

end TableSource
end StreamTables
