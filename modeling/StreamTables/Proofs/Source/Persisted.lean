import StreamTables.Proofs.Codec.ReadBack
import StreamTables.Proofs.Json.Fields
import StreamTables.Proofs.Schema.ReadBack
import StreamTables.Source.Json

/-!
# Sources are kept

A source is written when its table is created, and read every time the program starts.  What was
written is read back, unless its types nest so deep that no reader would follow.  And whatever else
may have happened to the text, a source that is read from it has a version that is registered and
columns that make a schema, in whichever of its forms the text gives them.

## What is here

* `TableSource.readsBack_json`: what is written is read back.
* `TableSource.version_of_ofText`, `TableSource.schema_of_ofText`: the version and the columns of a
  source that was read are those that the text gives.
* `TableSource.ofText_readsBack_and_validates`: both together, with the texts that are refused.
-/

set_option autoImplicit false

namespace StreamTables

open Json

variable {limit : Nat}

theorem PlanPath.readsBack_json (p : PlanPath) : decode.ReadsBack limit p.json p :=
  (readsBack_list fun s _ => readsBack_text s).map PlanPath.mk

namespace TableSource

/-! ## What is written -/

/-- **A source is read back** if the indexes of its columns can be written. -/
theorem readsBack_json {s : TableSource} (h : ∀ c ∈ s.schema.columns, c.index < 2 ^ 64) :
    decode.ReadsBack limit s.json s := by
  refine readsBack_struct
    [⟨"topic", .text s.topic, fun d => { d with topic := some s.topic }⟩,
      ⟨"formats", s.formats.json, fun d => { d with formats := some s.formats }⟩,
      ⟨"source_schema", s.schema.json, fun d => { d with schema := some s.schema }⟩,
      ⟨"pseudo_column_version", s.version.json, fun d => { d with version := some s.version }⟩,
      ⟨"window", .orNull Window.json s.window, fun d => { d with window := s.window }⟩,
      ⟨"context", s.path.json, fun d => { d with path := some s.path }⟩]
    rfl (by decide) (by decide) ?_ rfl
  simp only [List.forall_mem_cons]
  exact ⟨.of_decoder (readsBack_text s.topic) fun _ _ => ⟨_, rfl, rfl⟩,
    .of_decoder s.formats.readsBack_json fun _ _ => ⟨_, rfl, rfl⟩,
    .of_decoder (Schema.readsBack_json h) fun _ _ => ⟨_, rfl, rfl⟩,
    .of_decoder s.version.readsBack_json fun _ _ => ⟨_, rfl, rfl⟩,
    .of_decoder (readsBack_orNull (fun w _ => w.readsBack_json) fun _ _ => nofun)
      fun _ _ => ⟨_, rfl, rfl⟩,
    .of_decoder s.path.readsBack_json fun _ _ => ⟨_, rfl, rfl⟩,
    List.forall_mem_nil _⟩

/-! ## What is read -/

/-- All that reading a field does to the schema and the version of a draft. -/
theorem Draft.of_field {depth : Nat} {d d' : Draft} {name : String} {j : Json}
    (h : Draft.field depth d name j = .ok d') :
    (name = "source_schema" ∧ ∃ t, Schema.decode depth j = .ok t ∧ d'.schema = some t ∧
        d'.version = d.version) ∨
      (name = "pseudo_column_version" ∧ ∃ v, Version.decode depth j = .ok v ∧
        d'.version = some v ∧ d'.schema = d.schema) ∨
      (name ≠ "source_schema" ∧ name ≠ "pseudo_column_version" ∧ d'.schema = d.schema ∧
        d'.version = d.version) := by
  unfold Draft.field at h
  split at h
  all_goals
    obtain ⟨a, ha, h⟩ := Except.bind_eq_ok_iff.1 h
    cases h
  · exact .inr (.inr ⟨by decide, by decide, rfl, rfl⟩)
  · exact .inr (.inr ⟨by decide, by decide, rfl, rfl⟩)
  · exact .inl ⟨rfl, a, ha, rfl, rfl⟩
  · exact .inr (.inl ⟨rfl, a, ha, rfl, rfl⟩)
  · exact .inr (.inr ⟨by decide, by decide, rfl, rfl⟩)
  · next hschema hversion _ => exact .inr (.inr ⟨hschema, hversion, rfl, rfl⟩)

theorem ownsField_schema (depth : Nat) :
    OwnsField (Draft.field depth) "source_schema" Draft.schema
      fun j t => ∃ t', t = some t' ∧ Schema.decode depth j = .ok t' where
  own h := by
    rcases Draft.of_field h with ⟨-, t, ht, hdraft, -⟩ | ⟨hname, -⟩ | ⟨hname, -⟩
    · exact ⟨t, hdraft, ht⟩
    · exact absurd hname (by decide)
    · exact absurd rfl hname
  frame h hother := by
    rcases Draft.of_field h with ⟨hname, -⟩ | ⟨-, -, -, -, hschema⟩ | ⟨-, -, hschema, -⟩
    · exact absurd hname hother
    · exact hschema
    · exact hschema

theorem ownsField_version (depth : Nat) :
    OwnsField (Draft.field depth) "pseudo_column_version" Draft.version
      fun j v => ∃ v', v = some v' ∧ Version.decode depth j = .ok v' where
  own h := by
    rcases Draft.of_field h with ⟨hname, -⟩ | ⟨-, v, hv, hdraft, -⟩ | ⟨-, hname, -⟩
    · exact absurd hname (by decide)
    · exact ⟨v, hdraft, hv⟩
    · exact absurd rfl hname
  frame h hother := by
    rcases Draft.of_field h with ⟨-, -, -, -, hversion⟩ | ⟨hname, -⟩ | ⟨-, -, -, hversion⟩
    · exact hversion
    · exact absurd hname hother
    · exact hversion

/-- The source that a draft makes. -/
theorem Draft.of_finish {d : Draft} {s : TableSource}
    (h : (do return ⟨← d.topic, ← d.formats, ← d.schema, ← d.version, d.window, ← d.path⟩ :
      Option TableSource) = some s) : d.schema = some s.schema ∧ d.version = some s.version := by
  obtain ⟨_, -, h⟩ := Option.bind_eq_some_iff.1 h
  obtain ⟨_, -, h⟩ := Option.bind_eq_some_iff.1 h
  obtain ⟨_, hschema, h⟩ := Option.bind_eq_some_iff.1 h
  obtain ⟨_, hversion, h⟩ := Option.bind_eq_some_iff.1 h
  obtain ⟨_, -, h⟩ := Option.bind_eq_some_iff.1 h
  cases h
  exact ⟨hschema, hversion⟩

variable {text : String} {s : TableSource}

/-- **The version of a source that was read** is the number that the text gives. -/
theorem version_of_ofText (h : decode.ofText text = .ok s) :
    (∃ j, Gives fieldNames "pseudo_column_version" (Document.ofText text).tree j) ∧
      ∀ j, Gives fieldNames "pseudo_column_version" (Document.ofText text).tree j →
        ∃ n : Numeral, j = .number n ∧ n.integer? = some (s.version : Int) := by
  obtain ⟨d, draft, -, hfinish, hall, hnone⟩ := of_decodeStruct ownsField_version
    (by decide : "pseudo_column_version" ∈ fieldNames) (by decide)
    (Decoder.ofText_eq_ok_iff.1 h).1
  have hversion := (Draft.of_finish hfinish).2
  refine ⟨?_, fun j hj => ?_⟩
  · by_contra hgiven
    have hempty := hnone (not_exists.1 hgiven)
    exact nomatch hempty.symm.trans hversion
  · obtain ⟨v, hv, hread⟩ := hall j hj
    rw [hversion] at hv
    cases hv
    exact Version.decode_eq_ok_iff.1 hread

/-- **The columns of a source that was read** are those that the text gives. -/
theorem schema_of_ofText (h : decode.ofText text = .ok s) :
    (∃ j, Gives fieldNames "source_schema" (Document.ofText text).tree j) ∧
      ∀ j, Gives fieldNames "source_schema" (Document.ofText text).tree j →
        decodeList Column.decode (Decoder.maxDepth - 1) j = .ok s.schema.columns := by
  obtain ⟨d, draft, hd, hfinish, hall, hnone⟩ := of_decodeStruct ownsField_schema
    (by decide : "source_schema" ∈ fieldNames) (by decide) (Decoder.ofText_eq_ok_iff.1 h).1
  have hschema := (Draft.of_finish hfinish).1
  refine ⟨?_, fun j hj => ?_⟩
  · by_contra hgiven
    have hempty := hnone (not_exists.1 hgiven)
    exact nomatch hempty.symm.trans hschema
  · obtain ⟨t, ht, hread⟩ := hall j hj
    rw [hschema] at ht
    cases ht
    obtain ⟨cs, hcs, hof⟩ := Schema.decode_eq_ok_iff.1 hread
    rw [hd, Nat.add_sub_cancel, Schema.columns_of_ofColumns hof]
    exact hcs

/-! ## Both together -/

/-- **A source that is kept is read back as it was, and no other is read that would not be one.**
Indexes are numbers of 64 bits, and the reader looks into 127 brackets.  A source that was read from
any text has the version that the text gives, which is registered, and the columns that the text
gives, which are in order.  So a text is not accepted if the version it gives has another number, or
none, or if the columns it gives are not in order; columns in order are never refused for it. -/
theorem ofText_readsBack_and_validates :
    (∀ s : TableSource, (∀ c ∈ s.schema.columns, c.index < 2 ^ 64) → s.json.depth ≤ 127 →
      Document.ofText s.json.render = ⟨s.json, true⟩ ∧ decode.ofText s.json.render = .ok s) ∧
    (∀ (text : String) (s : TableSource), decode.ofText text = .ok s →
      (∃ n : Numeral,
        Gives fieldNames "pseudo_column_version" (Document.ofText text).tree (.number n) ∧
          n.integer? = some (s.version : Int)) ∧
      (∃ j, Gives fieldNames "source_schema" (Document.ofText text).tree j ∧
        decodeList Column.decode (Decoder.maxDepth - 1) j = .ok s.schema.columns) ∧
      ∃ key value, s.schema.columns = key ++ value ∧ Columns.InOrder key value) ∧
    (∀ (text : String) (n : Numeral),
      Gives fieldNames "pseudo_column_version" (Document.ofText text).tree (.number n) →
        (∀ v : Version, n.integer? ≠ some (v : Int)) → ∀ s, decode.ofText text ≠ .ok s) ∧
    (∀ (text : String) (j : Json) (cs : List Column),
      Gives fieldNames "source_schema" (Document.ofText text).tree j →
        decodeList Column.decode (Decoder.maxDepth - 1) j = .ok cs →
          (¬ ∃ key value, cs = key ++ value ∧ Columns.InOrder key value) →
            ∀ s, decode.ofText text ≠ .ok s) ∧
    ∀ cs : List Column, (∃ t, Schema.ofColumns cs = .ok t) ↔
      ∃ key value, cs = key ++ value ∧ Columns.InOrder key value := by
  refine ⟨fun s hindex hdepth => ?_, fun text s h => ?_, fun text n hn hother s h => ?_,
    fun text j cs hj hcs horder s h => ?_, fun cs => Schema.exists_ofColumns_iff⟩
  · have hread : decode.ReadsBack Decoder.maxDepth s.json s := readsBack_json hindex
    exact ⟨Document.ofText_render hread.written, hread.ofText_render hdepth⟩
  · obtain ⟨⟨i, hi⟩, hversion⟩ := version_of_ofText h
    obtain ⟨⟨j, hj⟩, hschema⟩ := schema_of_ofText h
    obtain ⟨n, rfl, hn⟩ := hversion i hi
    exact ⟨⟨n, hi, hn⟩, ⟨j, hj, hschema j hj⟩, _, _, rfl, s.schema.inOrder⟩
  · obtain ⟨m, hm, hversion⟩ := (version_of_ofText h).2 _ hn
    cases hm
    exact hother s.version hversion
  · have hcolumns := hcs.symm.trans ((schema_of_ofText h).2 j hj)
    exact horder ⟨_, _, Except.ok.inj hcolumns, s.schema.inOrder⟩

/-- What a source is written as, but with other columns and the number of another version. -/
def jsonWith (s : TableSource) (columns : List Column) (version : Int) : Json :=
  .record [("topic", .text s.topic), ("formats", s.formats.json),
    ("source_schema", .array (columns.map Column.json)), ("pseudo_column_version", .int version),
    ("window", .orNull Window.json s.window), ("context", s.path.json)]

theorem tree_jsonWith (s : TableSource) {columns : List Column}
    (h : ∀ c ∈ columns, c.index < 2 ^ 64) (version : Int) :
    (Document.ofText (s.jsonWith columns version).render).tree = s.jsonWith columns version := by
  have hformats : Formats.decode.ReadsBack 0 s.formats.json s.formats := s.formats.readsBack_json
  have hcolumns : (decodeList Column.decode).ReadsBack 0
      (.array (columns.map Column.json)) columns :=
    readsBack_list fun c hc => Column.readsBack_json (h c hc)
  have hwindow : (decodeOptional Window.decode).ReadsBack 0
      (.orNull Window.json s.window) s.window :=
    readsBack_orNull (fun w _ => w.readsBack_json) fun _ _ => nofun
  have hpath : PlanPath.decode.ReadsBack 0 s.path.json s.path := s.path.readsBack_json
  have hwritten : (s.jsonWith columns version).IsWritten := by
    refine isWritten_record ?_
    simp only [List.forall_mem_cons]
    exact ⟨⟨by decide, rfl⟩, ⟨by decide, hformats.written⟩, ⟨by decide, hcolumns.written⟩,
      ⟨by decide, Numeral.isLiteral_ofInt version⟩, ⟨by decide, hwindow.written⟩,
      ⟨by decide, hpath.written⟩, List.forall_mem_nil _⟩
  rw [Document.ofText_render hwritten]

/-- A source of measurements, with names that need escapes. -/
def measurements : TableSource where
  topic := "größe \"a\\b\"\n"
  formats := ⟨"KAFKA", "JSON", ⟨true, false⟩, ⟨true, true⟩⟩
  schema :=
    { key := [⟨"Gerät", .struct [("ids", .array (.primitive .bigint)), ("", .decimal 3 9)]⟩]
      value := [⟨"Gerät", .map (.primitive .string) (.array (.decimal 10 2))⟩, ⟨"t", .struct []⟩]
      nodup_key := by simp
      nodup_value := by simp }
  version := .legacy
  window := some ⟨.session, none⟩
  path := ⟨["CTAS_1", "Source"]⟩

/-- Measurements are read back, with the version that is written.  With a version of the future they
are refused, and so they are with a single column that does not stand at its index. -/
theorem ofText_readsBack_and_validates_measurements :
    decode.ofText (measurements.jsonWith measurements.schema.columns 0).render = .ok measurements ∧
      (∃ n : Numeral, Gives fieldNames "pseudo_column_version"
        (Document.ofText measurements.json.render).tree (.number n) ∧ n.integer? = some 0) ∧
      (∀ s, decode.ofText (measurements.jsonWith measurements.schema.columns 2).render ≠ .ok s) ∧
      ∀ s, decode.ofText (measurements.jsonWith [⟨"t", .primitive .time, .key, 1⟩] 0).render
        ≠ .ok s := by
  obtain ⟨hback, hread, hversion, hschema, horder⟩ := ofText_readsBack_and_validates
  have hindex : ∀ c ∈ measurements.schema.columns, c.index < 2 ^ 64 := by decide
  have hindex' : ∀ c ∈ [(⟨"t", .primitive .time, .key, 1⟩ : Column)], c.index < 2 ^ 64 := by decide
  have hcolumns : (decodeList Column.decode).ReadsBack 126
      (.array [Column.json ⟨"t", .primitive .time, .key, 1⟩]) [⟨"t", .primitive .time, .key, 1⟩] :=
    readsBack_list fun c hc => Column.readsBack_json (hindex' c hc)
  have hmeasurements := (hback measurements hindex (by decide)).2
  refine ⟨hmeasurements, (hread _ measurements hmeasurements).1, hversion _ (.ofInt 2) ?_ ?_,
    hschema _ _ _ ?_ (hcolumns.eq_ok 126 (by decide) (by decide)) ?_⟩
  · rw [tree_jsonWith _ hindex]
    exact .named rfl (List.mem_of_getElem? (i := 3) rfl)
  · rw [Numeral.integer?_ofInt]
    decide
  · rw [tree_jsonWith _ hindex']
    exact .named rfl (List.mem_of_getElem? (i := 2) rfl)
  · rw [← horder]
    rintro ⟨s, hs⟩
    exact nomatch hs

end TableSource
end StreamTables
