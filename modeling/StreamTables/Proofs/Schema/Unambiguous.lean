import StreamTables.Proofs.Schema.Acceptance
import StreamTables.Proofs.SqlType.Unambiguous

/-!
# Schemas are written in one way

No two schemas are written alike, as long as no name in them has a backtick.  A column is a field
with a mark behind it if it belongs to the key, and the columns are a listing.  Indexes are not
written, but in a schema they are the places of the columns.

## What is here

* `Column.hasPlainNames`: no name in a column has a backtick.
* `Column.readAlike`: a column is read in one way, up to its index.
* `Column.additions_of_listText`: so are columns.
* `Schema.ext_addition`: the columns of a schema are told from their namespaces, names and types.
* `Schema.text_identifies`: types and schemas that are written alike are alike.
-/

set_option autoImplicit false

namespace StreamTables

open Text

namespace Column

variable {c d : Column} {cs ds : List Column}

/-- Whether neither the name of a column nor those in its type have a backtick. -/
def hasPlainNames (c : Column) : Bool := isPlain c.name && c.type.hasPlainNames

/-- What a column is written with behind its type. -/
def mark (part : Namespace) : List Char :=
  match part with
  | .key => " KEY".toList
  | .value => []

/-- A column, as a field with its mark. -/
def chars (c : Column) : List Char := SqlType.fieldChars c.name c.type ++ mark c.part

theorem toList_text (c : Column) : c.text.toList = c.chars := by
  cases hc : c.part <;> simp [text, hc, SqlType.fieldChars, mark, chars]

theorem toList_listText (cs : List Column) :
    (listText cs).toList = [',', ' '].intercalate (cs.map chars) := by
  rw [listText, String.toList_intercalate, List.map_map, ← funext toList_text]
  rfl

/-- A mark is no part of the type in front of it. -/
theorem stops_mark {part : Namespace} {rest : List Char} (hrest : FollowsItem rest) :
    Stops Char.isUpper (mark part ++ rest) := by
  cases part with
  | key => exact stops_cons rfl
  | value => exact SqlType.stops_of_followsItem hrest

/-- What follows a column is no mark. -/
theorem mark_inj {part part' : Namespace} {rest rest' : List Char} (hrest : FollowsItem rest)
    (hrest' : FollowsItem rest') (h : mark part ++ rest = mark part' ++ rest') :
    part = part' ∧ rest = rest' := by
  have hblank : ∀ {rest cs : List Char}, FollowsItem rest → rest ≠ ' ' :: cs := by
    rintro _ cs hfollows rfl
    exact absurd (hfollows ' ' rfl) (by decide)
  cases part <;> cases part'
  case key.key => exact ⟨rfl, List.append_cancel_left h⟩
  case key.value => exact absurd h.symm (hblank hrest')
  case value.key => exact absurd h (hblank hrest)
  case value.value => exact ⟨rfl, h⟩

/-- **A column is read in one way**, up to its index, which is not written. -/
theorem readAlike (hc : c.hasPlainNames = true) (hd : d.hasPlainNames = true) :
    ReadAlike chars addition c d := by
  intro rest rest' hrest hrest' h
  simp only [hasPlainNames, Bool.and_eq_true] at hc hd
  rw [chars, chars, List.append_assoc, List.append_assoc] at h
  obtain ⟨hname, htype, htail⟩ := SqlType.field_inj hc.1 hd.1 (SqlType.unambiguous hc.2) hd.2
    (stops_mark hrest) (stops_mark hrest') h
  obtain ⟨hpart, heq⟩ := mark_inj hrest hrest' htail
  refine ⟨?_, heq⟩
  rw [addition, addition, field, field, hname, htype, hpart]

/-- **Columns that are written alike are alike**, up to their indexes. -/
theorem additions_of_listText (hcs : ∀ c ∈ cs, c.hasPlainNames = true)
    (hds : ∀ d ∈ ds, d.hasPlainNames = true) (h : listText cs = listText ds) :
    cs.map addition = ds.map addition := by
  have hlisting : [',', ' '].intercalate (cs.map chars) ++ [] =
      [',', ' '].intercalate (ds.map chars) ++ [] := by
    rw [← toList_listText, ← toList_listText, h]
  have hbegin : ∀ (c : Column) (rest : List Char), ¬ FollowsListing (c.chars ++ rest) :=
    fun c rest hfollows => absurd (hfollows '\x60' rfl) (by decide)
  have hend : FollowsListing [] := nofun
  exact (listing_inj (fun c hc d hd => readAlike (hcs c hc) (hds d hd)) hbegin hend hend
    hlisting).1

end Column

namespace Schema

open Columns

variable {s t : Schema}

/-- The fields of a schema are those of its columns, by namespaces. -/
theorem fieldsTo_columns (s : Schema) (part : Namespace) :
    Addition.fieldsTo part (s.columns.map Column.addition) = s.fields part := by
  obtain ⟨hkey, hvalue⟩ := ofPart_of_inOrder s.inOrder
  rw [fieldsTo_addition, columns]
  cases part with
  | key => rw [hkey, keyColumns, map_field_place]; rfl
  | value => rw [hvalue, valueColumns, map_field_place]; rfl

/-- The indexes of columns follow from where the columns are. -/
theorem ext_addition (h : s.columns.map Column.addition = t.columns.map Column.addition) : s = t :=
  ext_fields fun part => by rw [← fieldsTo_columns, h, fieldsTo_columns]

theorem text_inj (hs : ∀ c ∈ s.columns, c.hasPlainNames = true)
    (ht : ∀ c ∈ t.columns, c.hasPlainNames = true) (h : s.text = t.text) : s = t :=
  ext_addition (Column.additions_of_listText hs ht h)

/-- **A schema is known from how it is written**, and so is a type, as long as no name in them has a
backtick.  Lists of columns that operations make and that are written alike are the same, indexes
and all, whatever the operations were. -/
theorem text_identifies :
    (∀ a b : SqlType, a.hasPlainNames = true → b.hasPlainNames = true → a.text = b.text → a = b) ∧
    (∀ s t : Schema, (∀ c ∈ s.columns, c.hasPlainNames = true) →
      (∀ c ∈ t.columns, c.hasPlainNames = true) → s.text = t.text → s = t) ∧
    ∀ ops ops' : List SchemaOperation, ∀ l ∈ (Workbench.runColumns ops).made,
      ∀ m ∈ (Workbench.runColumns ops').made, (∀ c ∈ l.columns, c.hasPlainNames = true) →
        (∀ c ∈ m.columns, c.hasPlainNames = true) →
          Column.listText l.columns = Column.listText m.columns → l = m := by
  refine ⟨fun a b => SqlType.text_inj, fun s t => text_inj, ?_⟩
  intro ops ops' l hl m hm hplain hplain' h
  obtain ⟨s, -, rfl⟩ := Workbench.exists_list_of_mem_made hl
  obtain ⟨t, -, rfl⟩ := Workbench.exists_list_of_mem_made hm
  exact congrArg Schema.list (text_inj hplain hplain' h)

/-- Names may look like more columns and types like more fields.  A builder to which the value was
added before the key, and a list of columns, make what is written alike, and so they make the
same. -/
theorem text_identifies_readings :
    let id : SqlType := .struct [("a, b", .primitive .time), ("c>", .primitive .date)]
    let total : SqlType := .map (.primitive .timestamp) (.array (.primitive .double))
    ∃ l ∈ (Workbench.runColumns
        [.add .value "v> KEY, w" total, .add .key "k, TIME" id, .build]).made,
      ∃ m ∈ (Workbench.runColumns
        [.ofColumns [⟨"k, TIME", id, .key, 0⟩, ⟨"v> KEY, w", total, .value, 0⟩]]).made,
      Column.listText l.columns =
        "`k, TIME` STRUCT<`a, b` TIME, `c>` DATE> KEY, `v> KEY, w` MAP<TIMESTAMP, ARRAY<DOUBLE>>" ∧
      Column.listText m.columns = Column.listText l.columns ∧ l = m := by
  intro id total
  have hl : (⟨[⟨"k, TIME", id, .key, 0⟩, ⟨"v> KEY, w", total, .value, 0⟩], 1⟩ : ColumnList) ∈
      (Workbench.runColumns
        [.add .value "v> KEY, w" total, .add .key "k, TIME" id, .build]).made := by decide
  have hm : (⟨[⟨"k, TIME", id, .key, 0⟩, ⟨"v> KEY, w", total, .value, 0⟩], 1⟩ : ColumnList) ∈
      (Workbench.runColumns
        [.ofColumns [⟨"k, TIME", id, .key, 0⟩, ⟨"v> KEY, w", total, .value, 0⟩]]).made := by decide
  obtain ⟨-, -, hsame⟩ := text_identifies
  exact ⟨_, hl, _, hm, by decide, rfl, hsame _ _ _ hl _ hm (by decide) (by decide) rfl⟩

end Schema
end StreamTables
