import StreamTables.Proofs.Schema.Genuine
import StreamTables.Proofs.Stage.Merge
import StreamTables.Proofs.Table.Process

/-!
# The rows of a source, on their way

What the stages in front of the store and behind it make of a row can be said without stages: a row
is cut down to its genuine cells, and cells are put behind them.

## What is here

* `TableSource.storedRow`: what goes into the store, if there is one.
* `TableSource.completed`, `TableSource.emittedRow`: what is emitted.
* `TableSource.applyAll_before`, `TableSource.applyAll_after`: the stages do no more than that.
* `TableSource.applyAll_after_eq_error`: why they may fail.
-/

set_option autoImplicit false

namespace StreamTables

/-- The pseudocolumns of a record, all that the current version has. -/
def RecordMetadata.pseudocolumns (m : RecordMetadata) : List Value :=
  [.bigint m.timestamp, .integer m.partition, .bigint m.offset]

namespace Stage

variable {key : Key} {m : RecordMetadata}

theorem applyAll_append (xs ys : List Stage) (row : Option Row) :
    applyAll key m (xs ++ ys) row = applyAll key m xs row >>= applyAll key m ys := by
  induction xs generalizing row with
  | nil => rfl
  | cons x xs ih =>
    rw [List.cons_append, applyAll, applyAll]
    cases x.apply key m row with
    | error e => rfl
    | ok r => exact ih r

theorem applyAll_singleton (stage : Stage) (row : Option Row) :
    applyAll key m [stage] row = stage.apply key m row := by
  rw [applyAll]
  cases stage.apply key m row <;> rfl

/-- Tombstones pass every stage. -/
theorem applyAll_none (stages : List Stage) : applyAll key m stages none = .ok none := by
  induction stages with
  | nil => rfl
  | cons stage stages ih => exact ih

/-- **The projection keeps the genuine cells**, also where there is none. -/
theorem applyAll_project? {s : Schema} (v : Version) {row : Row} (h : row.length = s.value.length) :
    applyAll key m (project? s v).toList (some row) = .ok (some (s.genuineCells v row)) := by
  rw [project?]
  cases hp : s.projection? v with
  | none => rw [s.genuineCells_of_projection?_eq_none hp h]; rfl
  | some p =>
    obtain ⟨hwidth, hcells⟩ := s.cells_of_projection? hp h
    rw [Option.map_some, Option.toList_some, applyAll_singleton, apply, Stage.row,
      if_pos (h.trans hwidth.symm), hcells]
    rfl

end Stage

namespace TableSource

variable {s : TableSource} {key : Key} {m : RecordMetadata} {row : Row}

/-- What goes into the store of a source: of a windowed one the row as it was read, and of any other
its genuine cells with the position of the record. -/
def storedRow (s : TableSource) (m : RecordMetadata) (row : Row) : Row :=
  if s.isWindowed then row else s.schema.genuineCells s.version row ++ m.position s.version

/-- The row that genuine cells are completed to: behind them stand the pseudocolumns, the key, and
the window bounds if the source is windowed. -/
def completed (s : TableSource) (key : Key) (m : RecordMetadata) (genuine : Row) : Row :=
  genuine ++ m.pseudocolumns ++ key ++ if s.isWindowed then m.windowCells else []

/-- What the table of a source emits. -/
def emittedRow (s : TableSource) (key : Key) (m : RecordMetadata) (row : Row) : Row :=
  s.completed key m (s.schema.genuineCells s.projectedVersion row)

theorem length_storedRow (h : row.length = s.schema.value.length) :
    (s.storedRow m row).length = s.storedSchema.value.length := by
  rw [storedRow, storedSchema]
  split
  · exact h
  · have hposition : (m.position s.version).length = s.version.storedColumns.length :=
      (List.mapM_eq_ok_iff.1 (m.mapM_storedColumns s.version)).length_eq.symm
    rw [List.length_append, s.schema.length_genuineCells h, hposition, Schema.stored,
      List.length_append, List.length_map]

theorem mem_storedRow {v : Value} (h : v ∈ s.storedRow m row) :
    v ∈ row ∨ v ∈ m.position s.version := by
  rw [storedRow] at h
  split at h
  · exact .inl h
  · exact (List.mem_append.1 h).imp_left Schema.mem_of_mem_genuineCells

/-- **The stages in front of the store** make the row that is stored. -/
theorem applyAll_before (h : row.length = s.schema.value.length) :
    Stage.applyAll key m s.before (some row) = .ok (some (s.storedRow m row)) := by
  rw [before, storedRow]
  split
  · rfl
  · rw [Stage.applyAll_append, Stage.applyAll_project? s.version h]
    refine (Stage.applyAll_singleton _ _).trans ?_
    rw [Stage.apply, Stage.row_appendStored]
    rfl

/-- A row that was held falls into its genuine cells and the position. -/
theorem exists_of_restores_append {v : Version} {stored : Bool} {cells held : Row}
    (h : Row.Restores stored (cells ++ m.position v) held) :
    ∃ g, Row.Restores stored cells g ∧ held = g ++ m.position v := by
  have hgenuine := List.forall₂_take_append held cells (m.position v) h.flip
  have hposition := List.forall₂_drop_append held cells (m.position v) h.flip
  refine ⟨held.take cells.length, hgenuine.flip, ?_⟩
  have hcolumns := List.mapM_eq_ok_iff.1 (m.mapM_storedColumns v)
  have hsame : held.drop cells.length = m.position v := by
    have hequal : List.Forall₂ (fun c c' => Value.equal c' c = true) (m.position v)
        (held.drop cells.length) := by
      refine ((List.forall₂_and_left _ _).2 ⟨fun c hc => ?_, hposition.flip⟩).imp
        fun c c' (hc : (c.IsReadable ∧ c.DoublesReadBack) ∧ Value.Restores stored c c') =>
          hc.2.equal hc.1.1 fun _ => hc.1.2
      exact ⟨(RecordMetadata.position_cell hc).1, (RecordMetadata.position_cell hc).2.1⟩
    clear hgenuine hposition h
    generalize held.drop cells.length = p at hequal
    generalize m.position v = q at hcolumns hequal
    generalize v.storedColumns = cs at hcolumns
    induction hcolumns generalizing p with
    | nil => cases hequal; rfl
    | cons hc _ ih =>
      cases hequal with
      | cons hcc hrest =>
        rw [RecordMetadata.eq_of_equal hc hcc, ih _ hrest]
  rw [← hsame, List.take_append_drop]

/-- What a stored row is served as: the stored values of system columns are those of the record. -/
theorem row_serveStored {v : Version} (g : Row) :
    (Stage.serveStored v).row key m (g ++ m.position v) = .ok (g ++ m.pseudocolumns ++ key) := by
  have hcolumns := List.mapM_eq_ok_iff.1 (m.mapM_storedColumns v)
  have hfill := Layout.fill_eq_mapM hcolumns Version.current.columns
  rw [m.mapM_current] at hfill
  rw [Stage.serveStored, Stage.row_serve hcolumns.length_eq.symm]
  dsimp only [Layout.served]
  rw [hfill]
  rfl

/-- What a row of a windowed table is completed to. -/
theorem row_completeWindowed (g : Row) {out : Row} :
    (Stage.completeWindowed .current).row key m g = .ok out ↔
      m.window.isSome = true ∧ out = g ++ m.pseudocolumns ++ key ++ m.windowCells := by
  rw [Stage.completeWindowed, Stage.row, m.mapM_current]
  constructor
  · intro h
    obtain ⟨cells, hcells, h⟩ := Except.bind_eq_ok_iff.1 h
    cases hcells
    obtain ⟨bounds, hbounds, h⟩ := Except.bind_eq_ok_iff.1 h
    obtain ⟨hw, rfl⟩ := RecordMetadata.mapM_windowBounds.1 hbounds
    exact ⟨hw, (Except.ok.inj h).symm⟩
  · rintro ⟨hw, rfl⟩
    refine Except.bind_eq_ok_iff.2 ⟨_, rfl, Except.bind_eq_ok_iff.2 ⟨_, ?_, rfl⟩⟩
    exact RecordMetadata.mapM_windowBounds.2 ⟨hw, rfl⟩

/-- A row of a windowed table is projected and completed. -/
theorem applyAll_after_windowed {held : Row} (hlen : held.length = s.schema.value.length)
    {out : Option Row} :
    Stage.applyAll key m ((Stage.project? s.schema .current).toList ++ [.completeWindowed .current])
        (some held) = .ok out ↔
      m.window.isSome = true ∧ out = some (s.schema.genuineCells .current held
        ++ m.pseudocolumns ++ key ++ m.windowCells) := by
  rw [Stage.applyAll_append, Stage.applyAll_project? .current hlen]
  show Stage.applyAll key m [.completeWindowed .current] _ = .ok out ↔ _
  rw [Stage.applyAll_singleton, Stage.apply, Except.map_eq_ok_iff]
  constructor
  · rintro ⟨r, hr, rfl⟩
    obtain ⟨hsome, rfl⟩ := (row_completeWindowed _).1 hr
    exact ⟨hsome, rfl⟩
  · rintro ⟨hsome, rfl⟩
    exact ⟨_, (row_completeWindowed _).2 ⟨hsome, rfl⟩, rfl⟩

/-- **The stages behind the store** complete what became of the genuine cells, if the bounds of the
window are there where they are needed. -/
theorem applyAll_after {stored : Bool} {held : Row} (hrow : row.length = s.schema.value.length)
    (h : Row.Restores stored (s.storedRow m row) held) :
    ∃ g, Row.Restores stored (s.schema.genuineCells s.projectedVersion row) g ∧
      ∀ out, Stage.applyAll key m s.after (some held) = .ok out ↔
        (s.isWindowed = true → m.window.isSome = true) ∧ out = some (s.completed key m g) := by
  rw [projectedVersion, after]
  rw [storedRow] at h
  simp only [completed]
  cases hw : s.isWindowed with
  | true =>
    rw [hw, if_pos rfl] at h
    have hheld : held.length = s.schema.value.length := h.length_eq.symm.trans hrow
    refine ⟨s.schema.genuineCells .current held, ?_, fun out => ?_⟩
    · rw [if_pos rfl]
      exact Schema.forall₂_genuineCells h
    · rw [if_pos rfl, if_pos rfl, applyAll_after_windowed hheld]
      simp only [forall_const]
  | false =>
    have hfalse : ¬ false = true := Bool.false_ne_true
    rw [hw, if_neg hfalse] at h
    obtain ⟨g, hg, rfl⟩ := exists_of_restores_append h
    refine ⟨g, ?_, fun out => ?_⟩
    · rw [if_neg hfalse]
      exact hg
    · rw [if_neg hfalse, if_neg hfalse, List.append_nil, Stage.applyAll_singleton, Stage.apply,
        row_serveStored]
      exact ⟨fun h => ⟨fun h' => absurd h' hfalse, (Except.ok.inj h).symm⟩, fun h => h.2 ▸ rfl⟩

/-- **Why a row is not completed**: the source is windowed, and the record has no window. -/
theorem applyAll_after_eq_error {stored : Bool} {held : Row} {e : Error}
    (hrow : row.length = s.schema.value.length) (h : Row.Restores stored (s.storedRow m row) held)
    (he : Stage.applyAll key m s.after (some held) = .error e) :
    s.isWindowed = true ∧ m.window = none ∧
      e = .missingWindow SystemColumn.windowStart.name := by
  cases hw : s.isWindowed with
  | true =>
    rw [storedRow, hw, if_pos rfl] at h
    rw [after, hw, if_pos rfl, Stage.applyAll_append,
      Stage.applyAll_project? .current (h.length_eq.symm.trans hrow)] at he
    rcases Except.bind_eq_error_iff.1 he with he | ⟨r, hr, he⟩
    · cases he
    · cases hr
      rw [Stage.applyAll_singleton, Stage.apply, Stage.completeWindowed, Stage.row,
        m.mapM_current] at he
      cases hbounds : SystemColumn.windowBounds.mapM m.value with
      | error e' =>
        obtain ⟨hnone, rfl⟩ := RecordMetadata.mapM_windowBounds_eq_error hbounds
        rw [hbounds] at he
        cases he
        exact ⟨rfl, hnone, rfl⟩
      | ok bounds =>
        rw [hbounds] at he
        cases he
  | false =>
    obtain ⟨g, -, hcompleted⟩ := applyAll_after hrow h
    have hok := (hcompleted _).2 ⟨fun hw' => absurd (hw.symm.trans hw') Bool.false_ne_true, rfl⟩
    cases he.symm.trans hok

/-! ## Rows up to equality -/

theorem isReadable_pseudocolumns : Row.IsReadable m.pseudocolumns := by
  intro c hc
  refine (RecordMetadata.integer_cell ?_).1
  rcases List.mem_cons.1 hc with rfl | hc
  · exact .inr ⟨_, rfl⟩
  rcases List.mem_cons.1 hc with rfl | hc
  · exact .inl ⟨_, rfl⟩
  · exact .inr ⟨_, List.mem_singleton.1 hc⟩

theorem isReadable_windowCells : Row.IsReadable m.windowCells := by
  intro c hc
  refine (RecordMetadata.integer_cell (.inr ?_)).1
  rw [RecordMetadata.windowCells] at hc
  split at hc
  · rcases List.mem_cons.1 hc with rfl | hc
    · exact ⟨_, rfl⟩
    · exact ⟨_, List.mem_singleton.1 hc⟩
  · exact absurd hc List.not_mem_nil

/-- Cells that are equal are completed to rows that are. -/
theorem listEqual_completed {g g' : Row} (h : Value.listEqual g g' = true)
    (hkey : Row.IsReadable key) :
    Value.listEqual (s.completed key m g) (s.completed key m g') = true := by
  have hbounds : Row.IsReadable (if s.isWindowed then m.windowCells else []) := by
    split
    · exact isReadable_windowCells
    · exact List.forall_mem_nil _
  have hsame : ∀ {r : Row}, Row.IsReadable r → List.Forall₂ (fun v w => v.equal w = true) r r :=
    fun hr => Value.listEqual_iff.1 (Row.listEqual_refl hr)
  rw [completed, completed, Value.listEqual_iff]
  exact .append (.append (.append (Value.listEqual_iff.1 h) (hsame isReadable_pseudocolumns))
    (hsame hkey)) (hsame hbounds)

end TableSource
end StreamTables
