import StreamTables.Proofs.Schema.Construction
import StreamTables.Proofs.SqlType.ReadBack

/-!
# Schemas are read back

A schema is written as the list of its columns, and made again from that list.  Indexes are numbers
of 64 bits, so a column can be written only if its index is one.

## What is here

* `Column.readsBack_json`, `Schema.readsBack_json`, `Version.readsBack_json`: what is written is
  read back.
* `Version.decode_eq_ok_iff`, `Schema.decode_eq_ok_iff`: what was read, in terms of numbers and of
  columns.
* `Schema.exists_ofColumns_iff`: the lists of columns that make a schema are those in order.
-/

set_option autoImplicit false

namespace StreamTables

open Json

variable {limit depth : Nat} {j : Json}

theorem Namespace.ofName?_name (n : Namespace) : ofName? n.name = some n := by
  cases n <;> decide

namespace Column

/-- A column is read back if its index can be written. -/
theorem readsBack_json {c : Column} (h : c.index < 2 ^ 64) : decode.ReadsBack limit c.json c := by
  have hindex : (c.index : Int) < 2 ^ 64 := by omega
  refine readsBack_struct
    [⟨"name", .text c.name, fun d => { d with name := some c.name }⟩,
      ⟨"type", c.type.json, fun d => { d with type := some c.type }⟩,
      ⟨"namespace", c.part.json, fun d => { d with part := some c.part }⟩,
      ⟨"index", .int c.index, fun d => { d with index := some c.index }⟩]
    rfl (by decide) (by decide) ?_ rfl
  simp only [List.forall_mem_cons]
  exact ⟨.of_decoder (readsBack_text c.name) fun _ _ => ⟨_, rfl, rfl⟩,
    .of_decoder c.type.readsBack_json fun _ _ => ⟨_, rfl, rfl⟩,
    .of_decoder (readsBack_name c.part.ofName?_name) fun _ _ => ⟨_, rfl, rfl⟩,
    .of_decoder (readsBack_int (Int.natCast_nonneg _) hindex) fun _ _ => ⟨_, rfl, rfl⟩,
    List.forall_mem_nil _⟩

end Column

namespace Schema

/-- What was read of a schema are its columns. -/
theorem decode_eq_ok_iff {s : Schema} :
    decode depth j = .ok s ↔
      ∃ cs, decodeList Column.decode depth j = .ok cs ∧ ofColumns cs = .ok s := by
  rw [decode, Except.bind_eq_ok_iff]
  simp only [Except.mapError_eq_ok_iff]

theorem readsBack_json {s : Schema} (h : ∀ c ∈ s.columns, c.index < 2 ^ 64) :
    decode.ReadsBack limit s.json s := by
  have hcolumns : (decodeList Column.decode).ReadsBack limit s.json s.columns :=
    readsBack_list fun c hc => Column.readsBack_json (h c hc)
  exact ⟨hcolumns.written, fun depth hdepth hlimit =>
    decode_eq_ok_iff.2 ⟨s.columns, hcolumns.eq_ok depth hdepth hlimit, s.ofColumns_columns⟩⟩

/-- **Columns that make a schema are those of the schema.** -/
theorem columns_of_ofColumns {cs : List Column} {s : Schema} (h : ofColumns cs = .ok s) :
    s.columns = cs := by
  obtain ⟨t, -, h⟩ := Except.bind_eq_ok_iff.1 h
  split at h
  · next hcs =>
    cases h
    exact hcs
  · exact nomatch h

theorem place_map_field {part : Namespace} {cs : List Column} (hpart : ∀ c ∈ cs, c.part = part)
    (hindex : ∀ (i : Nat) (c : Column), cs[i]? = some c → c.index = i) :
    place part 0 (cs.map Column.field) = cs := by
  refine List.ext_getElem? fun i => ?_
  rw [getElem?_place, List.getElem?_map]
  cases hc : cs[i]? with
  | none => rfl
  | some c =>
    have hplace : c.part = part ∧ c.index = i := ⟨hpart c (List.mem_of_getElem? hc), hindex i c hc⟩
    simp [Column.field, ← hplace.1, ← hplace.2]

/-- Columns that are in order are those of a schema. -/
theorem exists_columns_eq {key value : List Column} (h : Columns.InOrder key value) :
    ∃ s : Schema, s.columns = key ++ value := by
  refine ⟨⟨key.map Column.field, value.map Column.field, ?_, ?_⟩, ?_⟩
  · rw [List.map_map]
    exact h.nodup_key
  · rw [List.map_map]
    exact h.nodup_value
  · rw [columns, keyColumns, valueColumns, place_map_field h.part_key h.index_key,
      place_map_field h.part_value h.index_value]

/-- **The lists of columns that make a schema are those that are in order.** -/
theorem exists_ofColumns_iff {cs : List Column} :
    (∃ s, ofColumns cs = .ok s) ↔ ∃ key value, cs = key ++ value ∧ Columns.InOrder key value := by
  constructor
  · rintro ⟨s, hs⟩
    exact ⟨_, _, (columns_of_ofColumns hs).symm, s.inOrder⟩
  · rintro ⟨key, value, rfl, h⟩
    obtain ⟨s, hs⟩ := exists_columns_eq h
    exact ⟨s, hs ▸ s.ofColumns_columns⟩

end Schema

namespace Version

theorem ofNumber_eq_ok_iff {n : Int} {v : Version} : ofNumber n = .ok v ↔ n = v := by
  rw [ofNumber]
  constructor
  · intro h
    split at h
    · next hn =>
      cases h
      exact (Int.toNat_of_nonneg hn.2).symm
    · exact nomatch h
  · rintro rfl
    rw [dif_pos ⟨v.isLt, Int.natCast_nonneg _⟩]
    rfl

/-- **The versions that are read are the numbers of those that are registered.** -/
theorem decode_eq_ok_iff {v : Version} :
    decode depth j = .ok v ↔ ∃ n : Numeral, j = .number n ∧ n.integer? = some (v : Int) := by
  have hlt : v.val < 2 := v.isLt
  rw [decode, Except.bind_eq_ok_iff]
  simp only [Except.mapError_eq_ok_iff, ofNumber_eq_ok_iff, decodeInt_eq_ok_iff]
  constructor
  · rintro ⟨i, ⟨n, rfl, hn, -⟩, rfl⟩
    exact ⟨n, rfl, hn⟩
  · rintro ⟨n, rfl, hn⟩
    exact ⟨v, ⟨n, rfl, hn, by omega, by omega⟩, rfl⟩

theorem readsBack_json (v : Version) : decode.ReadsBack limit v.json v where
  written := Numeral.isLiteral_ofInt _
  eq_ok _ _ _ := decode_eq_ok_iff.2 ⟨_, rfl, Numeral.integer?_ofInt _⟩

end Version
end StreamTables
