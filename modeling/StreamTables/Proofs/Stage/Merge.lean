import StreamTables.Proofs.Stage.Layout
import StreamTables.Proofs.SystemColumn.Growth
import StreamTables.Stage.Basic

/-!
# Stored now, served later

Between the stage that appends the pseudocolumns which are stored and the stage that completes the
row there may be years: the row was stored with the metadata of one record, and is served with those
of another, under a version that has more pseudocolumns.  The serving stage is told nothing but
which columns were stored.  It finds them by counting from the end of the row, and then merges them
into the columns that it has to show.  This file says that no cell is lost on the way, and that each
shows the record that it should.

## What is here

* `Layout.firstMisplaced?_eq_none_iff`: columns are in order if they are a subsequence of those that
  are served.
* `Layout.Merges`, `Layout.exists_merges`: what a merge is, and that there is one.
* `Layout.Merges.forall₂`: which values it has if no column comes twice.
* `Stage.row_serve`, `Stage.serve_eq_error_iff`: what the serving stage makes of a row, and the rows
  that it refuses.
* `Stage.serve_appendStored`: the two stages, one after the other.
-/

set_option autoImplicit false

namespace StreamTables

namespace Layout

/-! ## Merges -/

section Merges

variable {α β ε : Type}

/-- The values of columns, some of which are stored: each stored value is at a place of its column,
all of them come in their order and once, and at the other places the values are resolved. -/
inductive Merges (resolve : α → Except ε β) : List (α × β) → List α → List β → Prop where
  | nil : Merges resolve [] [] []
  | stored {a : α} {b : β} {stored : List (α × β)} {target : List α} {cells : List β}
    (rest : Merges resolve stored target cells) :
    Merges resolve ((a, b) :: stored) (a :: target) (b :: cells)
  | resolved {a : α} {b : β} {stored : List (α × β)} {target : List α} {cells : List β}
    (value : resolve a = .ok b) (rest : Merges resolve stored target cells) :
    Merges resolve stored (a :: target) (b :: cells)

theorem Merges.sublist {resolve : α → Except ε β} {stored : List (α × β)} {target : List α}
    {cells : List β} (h : Merges resolve stored target cells) :
    (stored.map Prod.fst).Sublist target := by
  induction h with
  | nil => exact .slnil
  | stored _ ih => exact ih.cons_cons _
  | resolved _ _ ih => exact ih.cons _

end Merges

variable {α β ε : Type} [DecidableEq α] {resolve resolve' : α → Except ε β} {target : List α}
  {stored : List (α × β)} {cells : List β}

/-- **Columns are in order if they are a subsequence of those that are served**, and only then.  The
first place that a column may take is as good as any, as it leaves the most for those behind it. -/
theorem firstMisplaced?_eq_none_iff {names target : List α} :
    firstMisplaced? names target = none ↔ names.Sublist target := by
  induction names generalizing target with
  | nil => exact iff_of_true rfl (List.nil_sublist target)
  | cons a names ih =>
    rw [firstMisplaced?]
    induction target with
    | nil => exact iff_of_false nofun fun h => nomatch h
    | cons b target ihtarget =>
      by_cases hab : b = a
      · subst hab
        rw [List.dropWhile_cons_of_neg (by simp)]
        exact ih.trans List.cons_sublist_cons.symm
      · rw [List.dropWhile_cons_of_pos (by simpa using hab)]
        refine ihtarget.trans ⟨fun h => h.cons b, fun h => ?_⟩
        exact h.of_cons_of_ne (Ne.symm hab)

theorem sublist (l : Layout α) : l.stored.Sublist l.target :=
  firstMisplaced?_eq_none_iff.1 l.inOrder

/-- **Stored columns in order can be merged** into columns whose values are known. -/
theorem exists_merges (hsub : (stored.map Prod.fst).Sublist target)
    (hok : ∀ a ∈ target, ∃ b, resolve a = .ok b) :
    ∃ cells, fill resolve stored target = .ok cells ∧ Merges resolve stored target cells := by
  induction target generalizing stored with
  | nil =>
    obtain rfl : stored = [] := List.map_eq_nil_iff.1 (List.sublist_nil.1 hsub)
    exact ⟨[], rfl, .nil⟩
  | cons a target ih =>
    obtain ⟨⟨b, hb⟩, htarget⟩ := List.forall_mem_cons.1 hok
    cases stored with
    | nil =>
      have hnil : (([] : List (α × β)).map Prod.fst).Sublist target := List.nil_sublist target
      obtain ⟨cells, hfill, hmerges⟩ := ih hnil htarget
      refine ⟨b :: cells, ?_, .resolved hb hmerges⟩
      rw [fill, hb, hfill]
      rfl
    | cons p stored =>
      obtain ⟨s, b'⟩ := p
      rw [fill]
      by_cases hs : s = a
      · subst hs
        obtain ⟨cells, hfill, hmerges⟩ := ih (List.cons_sublist_cons.1 hsub) htarget
        refine ⟨b' :: cells, ?_, .stored hmerges⟩
        rw [if_pos rfl, hfill]
        rfl
      · have hlater : (((s, b') :: stored).map Prod.fst).Sublist target := hsub.of_cons_of_ne hs
        obtain ⟨cells, hfill, hmerges⟩ := ih hlater htarget
        refine ⟨b :: cells, ?_, .resolved hb hmerges⟩
        rw [if_neg hs, hb, hfill]
        rfl

/-- **If no column comes twice, its name says where its value is from.** -/
theorem Merges.forall₂ (h : Merges resolve stored target cells) (hnodup : target.Nodup)
    (hstored : ∀ p ∈ stored, resolve' p.1 = .ok p.2) :
    List.Forall₂
      (fun a b => (if a ∈ stored.map Prod.fst then resolve' a else resolve a) = .ok b)
      target cells := by
  induction h with
  | nil => exact .nil
  | @stored a b stored target cells _ ih =>
    obtain ⟨ha, hnodup⟩ := List.nodup_cons.1 hnodup
    obtain ⟨hb, hstored⟩ := List.forall_mem_cons.1 hstored
    have hne : ∀ c ∈ target, c ≠ a := fun c hc hca => ha (hca ▸ hc)
    refine .cons ?_ (((List.forall₂_and_left _ _).2 ⟨hne, ih hnodup hstored⟩).imp ?_)
    · rw [List.map_cons, if_pos (List.mem_cons_self ..)]
      exact hb
    · rintro c d ⟨hca, hcd⟩
      simpa only [List.map_cons, List.mem_cons, or_iff_right hca] using hcd
  | @resolved a b stored target cells hb hrest ih =>
    obtain ⟨ha, hnodup⟩ := List.nodup_cons.1 hnodup
    refine .cons ?_ (ih hnodup hstored)
    rw [if_neg fun hmem => ha (hrest.sublist.subset hmem)]
    exact hb

end Layout

/-- The pseudocolumns that are stored are those of the version, but for the timestamp. -/
theorem Version.mem_storedColumns {v : Version} {c : SystemColumn} :
    c ∈ v.storedColumns ↔ c ∈ v.columns ∧ c ≠ .rowTime := by
  rw [v.storedColumns_eq_filter, List.mem_filter, decide_eq_true_eq]

/-! ## Stages -/

namespace Stage

variable {key : Key} {m : RecordMetadata} {l : Layout SystemColumn} {e : Error}

/-- A row whose last cells are those that were stored is served as the merge of these, between its
other cells and the key. -/
theorem row_serve {user cells : Row} (h : cells.length = l.stored.length) :
    (serve l).row key m (user ++ cells)
      = (Layout.fill m.value (l.stored.zip cells) l.target).map
          fun merged => user ++ merged ++ key := by
  have hlong : ¬ (user ++ cells).length < l.stored.length := by
    rw [List.length_append]
    omega
  have huser : (user ++ cells).length - l.stored.length = user.length := by
    rw [List.length_append]
    omega
  rw [Stage.row]
  refine (if_neg hlong).trans ?_
  dsimp only
  rw [huser, List.drop_left, List.take_left]
  cases Layout.fill m.value (l.stored.zip cells) l.target <;> rfl

/-- **There is such a merge**, unless a window bound is to be shown. -/
theorem exists_row_serve (hl : ∀ c ∈ l.target, c ∉ SystemColumn.windowBounds) (key : Key)
    (m : RecordMetadata) (user : Row) {cells : Row} (h : cells.length = l.stored.length) :
    ∃ merged, (serve l).row key m (user ++ cells) = .ok (user ++ merged ++ key) ∧
      Layout.Merges m.value (l.stored.zip cells) l.target merged := by
  have hsub : ((l.stored.zip cells).map Prod.fst).Sublist l.target := by
    rw [List.map_fst_zip (by omega)]
    exact l.sublist
  obtain ⟨merged, hfill, hmerges⟩ :=
    Layout.exists_merges hsub fun c hc => m.value_isOk (hl c hc)
  exact ⟨merged, by rw [row_serve h, hfill]; rfl, hmerges⟩

/-- **A row is refused if it is shorter than what was stored**, and for no other reason. -/
theorem serve_eq_error_iff (hl : ∀ c ∈ l.target, c ∉ SystemColumn.windowBounds) {row : Row} :
    (serve l).apply key m (some row) = .error e ↔
      row.length < l.stored.length ∧ e = .shortStoredRow l.stored.length row.length := by
  by_cases hshort : row.length < l.stored.length
  · have herror : (serve l).apply key m (some row)
        = .error (.shortStoredRow l.stored.length row.length) := by
      rw [apply, Stage.row]
      exact congrArg (Except.map some) (if_pos hshort)
    rw [herror]
    exact ⟨fun h => ⟨hshort, (Except.error.inj h).symm⟩, fun h => congrArg Except.error h.2.symm⟩
  · refine iff_of_false (fun h => ?_) fun h => hshort h.1
    have hcells : (row.drop (row.length - l.stored.length)).length = l.stored.length := by
      rw [List.length_drop]
      omega
    obtain ⟨merged, hrow, -⟩ :=
      exists_row_serve hl key m (row.take (row.length - l.stored.length)) hcells
    rw [List.take_append_drop] at hrow
    rw [apply, hrow] at h
    exact nomatch h

/-- Served rows show no window bounds. -/
theorem not_mem_windowBounds_target (v : Version) :
    ∀ c ∈ (Layout.served v).target, c ∉ SystemColumn.windowBounds :=
  (by decide : ∀ c ∈ Version.current.columns, c ∉ SystemColumn.windowBounds)

/-- What the stage in front of a store appends is where the record stood in its topic, as far as the
version stores it. -/
theorem row_appendStored (v : Version) (row : Row) :
    (appendStored v).row key m row = .ok (row ++ m.position v) := by
  rw [appendStored, Stage.row, m.mapM_storedColumns]
  rfl

/-- **A row that is stored with one record and served with another** keeps its cells, and gets the
current pseudocolumns and the key behind them.  Each pseudocolumn shows the record that it was
stored with, or else the one that it is served with. -/
theorem exists_row_serveStored (v : Version) (key : Key) (m₁ m₂ : RecordMetadata) (row : Row) :
    ∃ cells, (serveStored v).row key m₂ (row ++ m₁.position v) = .ok (row ++ cells ++ key) ∧
      List.Forall₂
        (fun c cell => (if c ∈ v.storedColumns then m₁.value c else m₂.value c) = .ok cell)
        Version.current.columns cells := by
  have hposition := List.mapM_eq_ok_iff.1 (m₁.mapM_storedColumns v)
  have hnames : (v.storedColumns.zip (m₁.position v)).map Prod.fst = v.storedColumns :=
    List.map_fst_zip hposition.length_eq.le
  have hnodup : Version.current.columns.Nodup :=
    Version.current.nodup_names_columns.of_map SystemColumn.name
  have hstored : ∀ p ∈ v.storedColumns.zip (m₁.position v), m₁.value p.1 = .ok p.2 :=
    fun p hp => (List.forall₂_iff_zip.1 hposition).2 hp
  obtain ⟨cells, hrow, hmerges⟩ :=
    exists_row_serve (not_mem_windowBounds_target v) key m₂ row hposition.length_eq.symm
  have hcells := hmerges.forall₂ hnodup hstored
  exact ⟨cells, hrow, by simpa only [Layout.served, hnames] using hcells⟩

/-- **A row that is stored under a version and served later** keeps its cells, and gets the current
pseudocolumns and the key behind them.  Of these columns, those that the version stores show the
record with which the row was stored, and the others, which are the timestamp and the columns that
are newer than the version, show the record with which it is served.  Tombstones remain what they
are.  The serving stage refuses rows that have fewer cells than the version stores, and no
others. -/
theorem serve_appendStored (v : Version) :
    ∃ layout, Layout.ofVersions v .current = .ok layout ∧
      (∀ (key : Key) (m₁ m₂ : RecordMetadata) (row : Row), ∃ stored cells,
        (appendStored v).apply key m₁ (some row) = .ok (some stored) ∧
          (serve layout).apply key m₂ (some stored) = .ok (some (row ++ cells ++ key)) ∧
          List.Forall₂
            (fun c cell => (if c ∈ v.columns ∧ c ≠ .rowTime then m₁ else m₂).value c = .ok cell)
            Version.current.columns cells) ∧
      (∀ (key : Key) (m₁ m₂ : RecordMetadata), (appendStored v).apply key m₁ none = .ok none ∧
        (serve layout).apply key m₂ none = .ok none) ∧
      ∀ (key : Key) (m : RecordMetadata) (row : Row) (e : Error),
        (serve layout).apply key m (some row) = .error e ↔
          row.length < v.storedColumns.length ∧
            e = .shortStoredRow v.storedColumns.length row.length ∧ e.code = "STREAM_002" := by
  refine ⟨.served v, Layout.ofVersions_current v, fun key m₁ m₂ row => ?_, fun _ _ _ => ⟨rfl, rfl⟩,
    fun key m row e => ?_⟩
  · obtain ⟨cells, hrow, hcells⟩ := exists_row_serveStored v key m₁ m₂ row
    refine ⟨row ++ m₁.position v, cells, ?_, ?_, hcells.imp fun c cell hcell => ?_⟩
    · rw [apply, row_appendStored]
      rfl
    · exact congrArg (Except.map some) hrow
    · rw [apply_ite (RecordMetadata.value · c)]
      simpa only [Version.mem_storedColumns] using hcell
  · rw [serve_eq_error_iff (not_mem_windowBounds_target v)]
    refine and_congr_right fun _ => ⟨?_, And.left⟩
    rintro rfl
    exact ⟨rfl, rfl⟩

/-- Only the timestamp is that of the record with which a row is served. -/
example : (serveStored .current).apply [.integer 7] ⟨9000, 4, 555, none⟩
    (some [.string "a", .integer 1, .bigint 100])
      = .ok (some [.string "a", .bigint 9000, .integer 1, .bigint 100, .integer 7]) := by
  rfl

end Stage
end StreamTables
