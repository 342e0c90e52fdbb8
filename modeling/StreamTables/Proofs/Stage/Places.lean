import Mathlib.Data.Set.List
import StreamTables.Proofs.Stage.Merge

/-!
# Where stored values go

The check of a layout and the merge are two scans over the same columns.  The check runs ahead to
each stored column in turn.  The merge walks over the columns that are served, and peeks at the
stored column that is next.  Columns may come more than once, so there may be several places for a
stored value.  The two scans choose the same ones: what the check has found, the merge fills, and no
stored value is left over.

## What is here

* `Layout.exists_check_iff`: the check accepts columns that are a subsequence of those served, and
  no others.
* `Layout.places`: the places at which the check finds the stored columns.
* `Layout.IsMerged`: values that are stored ones at given places and resolved ones at all others.
* `Layout.isMerged_of_fill`: the merge puts stored values at the places that the check has found.
* `Layout.names`, `Layout.exists_names_eq`: layouts of names.  Those whose names can be resolved are
  those of system columns.
* `Stage.check_agrees_with_serve`: acceptance, and the row that the serving stage makes.
-/

set_option autoImplicit false

namespace StreamTables

namespace Layout

/-! ## Acceptance -/

section Check

variable {α : Type} [DecidableEq α] {stored target : List α} {a b : α}

theorem check_eq_ok_iff {l : Layout α} :
    check stored target = .ok l ↔ l.stored = stored ∧ l.target = target := by
  constructor
  · intro h
    rw [check] at h
    split at h
    · cases h
      exact ⟨rfl, rfl⟩
    · exact nomatch h
  · rintro ⟨rfl, rfl⟩
    exact check_eq_ok l

/-- **The check accepts subsequences of the columns that are served**, and nothing else. -/
theorem exists_check_iff : (∃ l, check stored target = .ok l) ↔ stored.Sublist target := by
  rw [← firstMisplaced?_eq_none_iff]
  constructor
  · rintro ⟨l, h⟩
    obtain ⟨rfl, rfl⟩ := check_eq_ok_iff.1 h
    exact l.inOrder
  · exact fun h => ⟨⟨stored, target, h⟩, check_eq_ok_iff.2 ⟨rfl, rfl⟩⟩

/-- What has to be filled in is what is served and not stored. -/
theorem missing_add_length_stored (l : Layout α) :
    l.missing + l.stored.length = l.target.length :=
  Nat.sub_add_cancel l.sublist.length_le

/-! ## Places -/

/-- The places at which the check finds the stored columns: each is the first place of its column
behind that of the column before it. -/
def places : (stored target : List α) → List Nat
  | [], _ => []
  | a :: stored, target =>
    match target.dropWhile (· ≠ a) with
    | [] => []
    | _ :: rest =>
      let i := (target.takeWhile (· ≠ a)).length
      i :: (places stored rest).map (· + (i + 1))

theorem places_cons_self :
    places (a :: stored) (a :: target) = 0 :: (places stored target).map (· + 1) := by
  rw [places, List.dropWhile_cons_of_neg (by simp), List.takeWhile_cons_of_neg (by simp)]
  rfl

/-- A served column that is not the next one stored is passed over. -/
theorem places_cons_of_ne (h : a ≠ b) :
    places (a :: stored) (b :: target) = (places (a :: stored) target).map (· + 1) := by
  rw [places, places, List.dropWhile_cons_of_pos (by simpa using Ne.symm h),
    List.takeWhile_cons_of_pos (by simpa using Ne.symm h)]
  cases target.dropWhile (· ≠ a) with
  | nil => rfl
  | cons c rest =>
    dsimp only
    rw [List.map_cons, List.map_map, List.length_cons]
    rfl

end Check

/-! ## Merged values -/

section IsMerged

variable {α β ε : Type} {resolve : α → Except ε β} {a : α} {stored target : List α}
  {vals cells : List β}

/-- The values of columns, of which those at some places are stored ones.  Read at these places, in
order, the columns are the stored columns and the values are the stored values.  At every other
place the value is that of its column. -/
structure IsMerged (resolve : α → Except ε β) (stored : List α) (vals : List β) (target : List α)
    (places : List Nat) (cells : List β) : Prop where
  increasing : places.Pairwise (· < ·)
  columns_at : places.map (target[·]?) = stored.map some
  values_at : places.map (cells[·]?) = vals.map some
  length_eq : cells.length = target.length
  resolved : ∀ i ∉ places, ∀ a ∈ target[i]?, ∃ b, resolve a = .ok b ∧ cells[i]? = some b

theorem isMerged_nil : IsMerged resolve ([] : List α) ([] : List β) [] [] [] where
  increasing := .nil
  columns_at := rfl
  values_at := rfl
  length_eq := rfl
  resolved := nofun

theorem pairwise_map_succ {is : List Nat} (h : is.Pairwise (· < ·)) :
    (is.map (· + 1)).Pairwise (· < ·) :=
  h.map _ fun _ _ => Nat.succ_lt_succ

theorem map_getElem?_map_succ {γ : Type} (is : List Nat) (c : γ) (cs : List γ) :
    (is.map (· + 1)).map ((c :: cs)[·]?) = is.map (cs[·]?) := by
  rw [List.map_map]
  exact List.map_congr_left fun i _ => List.getElem?_cons_succ

/-- A stored value in front. -/
theorem IsMerged.cons_stored {is : List Nat} {v : β}
    (h : IsMerged resolve stored vals target is cells) :
    IsMerged resolve (a :: stored) (v :: vals) (a :: target) (0 :: is.map (· + 1))
      (v :: cells) where
  increasing := by
    refine .cons (fun j hj => ?_) (pairwise_map_succ h.increasing)
    obtain ⟨i, -, rfl⟩ := List.mem_map.1 hj
    exact Nat.succ_pos i
  columns_at := by
    rw [List.map_cons, map_getElem?_map_succ, h.columns_at]
    rfl
  values_at := by
    rw [List.map_cons, map_getElem?_map_succ, h.values_at]
    rfl
  length_eq := congrArg (· + 1) h.length_eq
  resolved := by
    intro i hi c hc
    cases i with
    | zero => exact absurd (List.mem_cons_self ..) hi
    | succ i =>
      rw [List.getElem?_cons_succ] at hc ⊢
      exact h.resolved i (fun hmem => hi (List.mem_cons_of_mem _ (List.mem_map_of_mem hmem))) c hc

/-- A resolved value in front. -/
theorem IsMerged.cons_resolved {is : List Nat} {v : β} (hv : resolve a = .ok v)
    (h : IsMerged resolve stored vals target is cells) :
    IsMerged resolve stored vals (a :: target) (is.map (· + 1)) (v :: cells) where
  increasing := pairwise_map_succ h.increasing
  columns_at := by rw [map_getElem?_map_succ, h.columns_at]
  values_at := by rw [map_getElem?_map_succ, h.values_at]
  length_eq := congrArg (· + 1) h.length_eq
  resolved := by
    intro i hi c hc
    cases i with
    | zero =>
      cases hc
      exact ⟨v, hv, rfl⟩
    | succ i =>
      rw [List.getElem?_cons_succ] at hc ⊢
      exact h.resolved i (fun hmem => hi (List.mem_map_of_mem hmem)) c hc

end IsMerged

variable {α β ε : Type} [DecidableEq α] {resolve : α → Except ε β} {stored target : List α}
  {vals cells : List β}

/-- **The merge puts the stored values at the places that the check has found.**  Both scans pass
over the same columns: a column that is not the next one stored. -/
theorem isMerged_of_fill (hsub : stored.Sublist target) (hlen : vals.length = stored.length)
    (h : fill resolve (stored.zip vals) target = .ok cells) :
    IsMerged resolve stored vals target (places stored target) cells := by
  -- on the columns that are served, as the merge walks over them
  induction target generalizing stored vals cells with
  | nil =>
    obtain rfl := List.sublist_nil.1 hsub
    obtain rfl := List.length_eq_zero_iff.1 hlen
    cases h
    exact isMerged_nil
  | cons a target ih =>
    cases stored with
    | nil =>
      obtain rfl := List.length_eq_zero_iff.1 hlen
      obtain ⟨b, hb, h⟩ := Except.bind_eq_ok_iff.1 h
      obtain ⟨cells, hcells, h⟩ := Except.bind_eq_ok_iff.1 h
      cases h
      exact (ih (List.nil_sublist target) rfl hcells).cons_resolved hb
    | cons s stored =>
      obtain ⟨v, vals, rfl⟩ := List.exists_cons_of_length_eq_add_one hlen
      rw [List.zip_cons_cons, fill] at h
      split at h
      · next hs =>
        subst hs
        obtain ⟨cells, hcells, h⟩ := Except.bind_eq_ok_iff.1 h
        cases h
        rw [places_cons_self]
        exact (ih (List.cons_sublist_cons.1 hsub) (Nat.succ.inj hlen) hcells).cons_stored
      · next hs =>
        obtain ⟨b, hb, h⟩ := Except.bind_eq_ok_iff.1 h
        obtain ⟨cells, hcells, h⟩ := Except.bind_eq_ok_iff.1 h
        cases h
        rw [places_cons_of_ne hs]
        exact (ih (hsub.of_cons_of_ne hs) hlen hcells).cons_resolved hb

/-! ## Layouts of names -/

/-- Columns can be merged by their names. -/
theorem fill_map {γ : Type} [DecidableEq γ] {f : α → γ} (hf : Function.Injective f)
    {resolve' : γ → Except ε β} (hresolve : ∀ a, resolve' (f a) = resolve a)
    (stored : List (α × β)) (target : List α) :
    fill resolve' (stored.map (Prod.map f id)) (target.map f) = fill resolve stored target := by
  induction target generalizing stored with
  | nil => rw [List.map_nil, fill, fill]
  | cons a target ih =>
    cases stored with
    | nil =>
      rw [List.map_nil, List.map_cons, fill, fill, hresolve, ← ih]
      rfl
    | cons p stored =>
      obtain ⟨s, b⟩ := p
      have hlater : fill resolve' ((f s, b) :: stored.map (Prod.map f id)) (target.map f)
          = fill resolve ((s, b) :: stored) target := ih ((s, b) :: stored)
      rw [List.map_cons, List.map_cons, Prod.map, fill, fill, ih, hresolve]
      by_cases hs : s = a
      · rw [if_pos hs, if_pos (congrArg f hs)]
        rfl
      · rw [if_neg hs, if_neg fun h => hs (hf h), ← hlater]
        rfl

/-- The layout of the names of columns. -/
def names (l : Layout SystemColumn) : Layout String where
  stored := l.stored.map SystemColumn.name
  target := l.target.map SystemColumn.name
  inOrder := firstMisplaced?_eq_none_iff.2 (l.sublist.map SystemColumn.name)

/-- **Names that can be resolved are those of system columns.** -/
theorem exists_names_eq {l : Layout String} {m : RecordMetadata}
    (h : ∀ n ∈ l.target, ∃ v, m.valueOf n = .ok v) :
    ∃ columns : Layout SystemColumn, columns.names = l := by
  have hrange : ∀ n ∈ l.target, n ∈ Set.range SystemColumn.name := by
    intro n hn
    obtain ⟨v, hv⟩ := h n hn
    rw [RecordMetadata.valueOf] at hv
    split at hv
    · next c hc => exact ⟨c, by simpa using List.find?_some hc⟩
    · cases hv
  obtain ⟨target, htarget⟩ : l.target ∈ Set.range (List.map SystemColumn.name) := by
    rw [Set.range_list_map]
    exact hrange
  obtain ⟨stored, hsub, hstored⟩ := List.sublist_map_iff.1 (htarget ▸ l.sublist)
  refine ⟨⟨stored, target, firstMisplaced?_eq_none_iff.2 hsub⟩, ?_⟩
  cases l
  cases htarget
  cases hstored
  rfl

end Layout

/-! ## The serving stage -/

namespace Stage

open Layout

/-- A row is merged by the names of the columns. -/
theorem row_serve_names {key : Key} {m : RecordMetadata} {l : Layout SystemColumn}
    {user cells : Row} (h : cells.length = l.stored.length) :
    (serve l).row key m (user ++ cells)
      = (fill m.valueOf (l.names.stored.zip cells) l.names.target).map
          fun merged => user ++ merged ++ key := by
  have hzip : l.names.stored.zip cells = (l.stored.zip cells).map (Prod.map SystemColumn.name id) :=
    List.zip_map_left
  rw [row_serve h, hzip, names, fill_map (fun _ _ => SystemColumn.name_inj) m.valueOf_name]

/-- **Check and merge agree.**  Columns are accepted if those stored are a subsequence of those
served, whatever the columns are and however often they come.  If they were accepted, every row that
may have stored values at its end is served, as long as the metadata have values of all columns.
Its own cells come first and the key comes last.  Between them each stored value is at the place
that the check has found for its column, so none is lost and none comes twice, and at every other
place is the value from the metadata. -/
theorem check_agrees_with_serve (stored target : List String) :
    ((∃ l, check stored target = .ok l) ↔ stored.Sublist target) ∧
    ∀ l, check stored target = .ok l →
      l.stored = stored ∧ l.target = target ∧ l.missing + stored.length = target.length ∧
      ∀ (key : Key) (m : RecordMetadata) (row : Row),
        (∀ name ∈ target, ∃ v, m.valueOf name = .ok v) → stored.length ≤ row.length →
          ∃ (columns : Layout SystemColumn) (user cells merged : Row), columns.names = l ∧
            row = user ++ cells ∧ cells.length = stored.length ∧
            (serve columns).apply key m (some row) = .ok (some (user ++ merged ++ key)) ∧
            IsMerged m.valueOf stored cells target (places stored target) merged ∧
            (user ++ merged ++ key).length = row.length + l.missing + key.length := by
  refine ⟨exists_check_iff, fun l hl => ?_⟩
  obtain ⟨rfl, rfl⟩ := check_eq_ok_iff.1 hl
  have hmissing := l.missing_add_length_stored
  refine ⟨rfl, rfl, hmissing, fun key m row hvalues hlong => ?_⟩
  obtain ⟨columns, rfl⟩ := exists_names_eq hvalues
  obtain ⟨user, cells, rfl, hcells⟩ : ∃ user cells, row = user ++ cells ∧
      cells.length = columns.names.stored.length := by
    refine ⟨_, _, (List.take_append_drop (row.length - columns.names.stored.length) row).symm, ?_⟩
    rw [List.length_drop]
    omega
  have hsub : ((columns.names.stored.zip cells).map Prod.fst).Sublist columns.names.target := by
    rw [List.map_fst_zip hcells.ge]
    exact columns.names.sublist
  obtain ⟨merged, hfill, -⟩ := exists_merges hsub hvalues
  have hmerged := isMerged_of_fill columns.names.sublist hcells hfill
  refine ⟨columns, user, cells, merged, rfl, rfl, hcells, ?_, hmerged, ?_⟩
  · rw [apply, row_serve_names (by simpa [names] using hcells), hfill]
    rfl
  · have hlength := hmerged.length_eq
    simp only [List.length_append]
    omega

/-- Columns that come twice: the partition is stored once, and goes to the first of its two places.
The timestamp goes to the second, as its first one is in front of the partition. -/
theorem check_agrees_with_serve_twice :
    ∃ l, check ["ROWPARTITION", "ROWTIME"] ["ROWTIME", "ROWPARTITION", "ROWPARTITION", "ROWTIME"]
        = .ok l ∧ l.missing = 2 ∧
      ∃ columns : Layout SystemColumn, columns.names = l ∧
        (serve columns).apply [.integer 7] ⟨9000, 4, 555, none⟩
            (some [.string "a", .integer 1, .bigint 100])
          = .ok (some [.string "a", .bigint 9000, .integer 1, .integer 4, .bigint 100,
            .integer 7]) := by
  have hplaces : places ["ROWPARTITION", "ROWTIME"]
      ["ROWTIME", "ROWPARTITION", "ROWPARTITION", "ROWTIME"] = [1, 3] := by decide
  obtain ⟨haccepts, hserves⟩ := check_agrees_with_serve ["ROWPARTITION", "ROWTIME"]
    ["ROWTIME", "ROWPARTITION", "ROWPARTITION", "ROWTIME"]
  obtain ⟨l, hl⟩ := haccepts.2 (by decide)
  obtain ⟨-, -, hmissing, hserve⟩ := hserves l hl
  have hvalues : ∀ name ∈ ["ROWTIME", "ROWPARTITION", "ROWPARTITION", "ROWTIME"],
      ∃ v, RecordMetadata.valueOf ⟨9000, 4, 555, none⟩ name = .ok v := by
    simp only [List.forall_mem_cons, List.not_mem_nil, false_imp_iff, implies_true, and_true]
    exact ⟨⟨_, rfl⟩, ⟨_, rfl⟩, ⟨_, rfl⟩, ⟨_, rfl⟩⟩
  obtain ⟨columns, user, cells, merged, hnames, hrow, hcells, happly, hmerged, -⟩ :=
    hserve [.integer 7] ⟨9000, 4, 555, none⟩ [.string "a", .integer 1, .bigint 100] hvalues
      (by decide)
  rw [hplaces] at hmerged
  obtain ⟨u, rfl⟩ : ∃ u, user = [u] := by
    refine List.length_eq_one_iff.1 ?_
    have hlength := congrArg List.length hrow
    simp only [List.length_append, hcells, List.length_cons, List.length_nil] at hlength
    omega
  cases hrow
  match merged, hmerged.length_eq with
  | [first, second, third, fourth], _ =>
    cases hmerged.values_at
    obtain ⟨_, hfirst, hat⟩ := hmerged.resolved 0 (by decide) "ROWTIME" rfl
    cases hfirst
    cases hat
    obtain ⟨_, hthird, hat⟩ := hmerged.resolved 2 (by decide) "ROWPARTITION" rfl
    cases hthird
    cases hat
    exact ⟨l, hl, Nat.add_right_cancel hmissing, columns, hnames, happly⟩

end Stage
end StreamTables
