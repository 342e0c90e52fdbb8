import StreamTables.Proofs.Schema.Compatible
import StreamTables.Proofs.Schema.Serving

/-!
# Rebuilding schemas that stand in for each other

Schemas are compared place by place, and a rebuild takes columns out, moves the key and puts others
behind it.  It never looks at a type, though.  Schemas that stand in for each other have the same
names in the same places, so they lose the same columns, and what they gain are copies of their
keys, which stand in for each other as the keys do, and system columns, which are the same for both.
So a plan may rebuild the schemas first and compare them afterwards, or the other way round.

## What is here

* `Schema.map_name_of_accepts`, `Schema.isGenuine_of_accepts`: the names of schemas that stand in
  for each other, and what is genuine among them.
* `Schema.forall₂_genuine`: their genuine columns stand in for each other.
* `Schema.servedFields_accepts`: so do the columns that are put behind these for serving.
* `Schema.compatibleWith_rebuild`: so do the schemas after any rebuild.
-/

set_option autoImplicit false

namespace StreamTables
namespace Schema

variable {s t s' t' : Schema} {v : Version} {windowed : Bool} {fs gs : List Field}

/-! ## Names -/

/-- Fields that stand in for others have their names. -/
theorem map_name_of_accepts (h : List.Forall₂ Field.Accepts fs gs) :
    fs.map Field.name = gs.map Field.name := by
  induction h with
  | nil => rfl
  | cons hfg _ ih => rw [List.map_cons, List.map_cons, hfg.1, ih]

/-- Whether a name is one of the key is seen from the names of the key. -/
theorem isKey_eq_any (s : Schema) (name : String) :
    s.isKey name = (s.key.map Field.name).any fun n => n = name := by
  rw [List.any_map]
  rfl

theorem isKey_of_accepts (h : List.Forall₂ Field.Accepts s.key t.key) (name : String) :
    s.isKey name = t.isKey name := by
  rw [isKey_eq_any, isKey_eq_any, map_name_of_accepts h]

/-- **What is genuine in a schema is so in one that stands in for it.** -/
theorem isGenuine_of_accepts (h : List.Forall₂ Field.Accepts s.key t.key) (name : String) :
    s.isGenuine v name = t.isGenuine v name := by
  rw [isGenuine, isGenuine, isKey_of_accepts h]

/-! ## The parts of a rebuild -/

/-- **The same columns are left out of both schemas.** -/
theorem forall₂_genuine (h : s.compatibleWith t = true) :
    List.Forall₂ Field.Accepts (s.genuine v).value (t.genuine v).value := by
  obtain ⟨hkey, hvalue⟩ := compatibleWith_iff.1 h
  refine List.rel_filter (fun f g hfg => ?_) hvalue
  show s.isGenuine v f.name = true ↔ t.isGenuine v g.name = true
  rw [isGenuine_of_accepts hkey, hfg.1]

theorem accepts_same (fs : List Field) : List.Forall₂ Field.Accepts fs fs :=
  List.forall₂_same.2 fun f _ => f.accepts_refl

/-- Behind the genuine columns both schemas get the same system columns, and their own keys. -/
theorem servedFields_accepts (h : List.Forall₂ Field.Accepts s.key t.key) :
    List.Forall₂ Field.Accepts (s.servedFields windowed v) (t.servedFields windowed v) :=
  .append (.append (accepts_same _) h) (accepts_same _)

/-- A schema can be served if one that stands in for it can. -/
theorem exists_served_congr (h : List.Forall₂ Field.Accepts s.key t.key) :
    (∃ s', s.served windowed v = .ok s') ↔ ∃ t', t.served windowed v = .ok t' := by
  rw [exists_served_iff, exists_served_iff]
  exact forall₂_congr fun c _ => by rw [isKey_of_accepts h]

/-! ## Whole schemas -/

theorem compatibleWith_genuine (h : s.compatibleWith t = true) (v : Version) :
    (s.genuine v).compatibleWith (t.genuine v) = true :=
  compatibleWith_iff.2 ⟨(compatibleWith_iff.1 h).1, forall₂_genuine h⟩

theorem compatibleWith_stored (h : s.compatibleWith t = true) (v : Version) :
    (s.stored v).compatibleWith (t.stored v) = true :=
  compatibleWith_iff.2
    ⟨(compatibleWith_iff.1 h).1, .append (forall₂_genuine h) (accepts_same _)⟩

theorem compatibleWith_keyOnly (h : s.compatibleWith t = true) :
    s.keyOnly.compatibleWith t.keyOnly = true :=
  compatibleWith_iff.2 ⟨(compatibleWith_iff.1 h).1, (compatibleWith_iff.1 h).1⟩

theorem compatibleWith_served (h : s.compatibleWith t = true)
    (hs : s.served windowed v = .ok s') (ht : t.served windowed v = .ok t') :
    s'.compatibleWith t' = true := by
  have hkey : List.Forall₂ Field.Accepts s.key t.key := (compatibleWith_iff.1 h).1
  rw [served_eq] at hs ht
  obtain ⟨hs_value, hs_key⟩ := fields_of_addAll hs
  obtain ⟨ht_value, ht_key⟩ := fields_of_addAll ht
  refine compatibleWith_iff.2 ⟨?_, ?_⟩
  · rw [show s'.key = s.key from hs_key .key nofun, show t'.key = t.key from ht_key .key nofun]
    exact hkey
  · rw [show s'.value = _ from hs_value, show t'.value = _ from ht_value]
    exact .append (forall₂_genuine h) (servedFields_accepts hkey)

/-- **Schemas that stand in for each other do so after every rebuild**, in the same direction: when
only their genuine columns are left, when they are rebuilt for a store, when their values are copies
of their keys, and when they are served.  Either both of them can be served or neither can. -/
theorem compatibleWith_rebuild (h : s.compatibleWith t = true) (v : Version) (windowed : Bool) :
    ((∃ s', s.served windowed v = .ok s') ↔ ∃ t', t.served windowed v = .ok t') ∧
      (∀ s' t', s.served windowed v = .ok s' → t.served windowed v = .ok t' →
        s'.compatibleWith t' = true) ∧
      (s.genuine v).compatibleWith (t.genuine v) = true ∧
      (s.stored v).compatibleWith (t.stored v) = true ∧
      s.keyOnly.compatibleWith t.keyOnly = true :=
  ⟨exists_served_congr (compatibleWith_iff.1 h).1, fun _ _ => compatibleWith_served h,
    compatibleWith_genuine h v, compatibleWith_stored h v, compatibleWith_keyOnly h⟩

/-- Levels of water in tanks, in numbers of a type.  The value has a copy of the key, and a column
that is named like a window bound. -/
def levels (type : SqlType) : Schema where
  key := [⟨"TANK", type⟩]
  value := [⟨"TANK", type⟩, ⟨"LEVEL", type⟩, ⟨"WINDOWEND", .primitive .date⟩]
  nodup_key := by simp
  nodup_value := by simp

/-- Levels in integers stand in for levels in wider numbers, also in windows: the copy of the key is
at another place then, and so is the window bound, which has another type. -/
theorem compatibleWith_rebuild_levels :
    (levels (.primitive .bigint)).compatibleWith (levels (.primitive .integer)) = true ∧
      ∃ s t, (levels (.primitive .bigint)).served true .legacy = .ok s ∧
        (levels (.primitive .integer)).served true .legacy = .ok t ∧
        s.value = [⟨"LEVEL", .primitive .bigint⟩, ⟨"ROWTIME", .primitive .bigint⟩,
          ⟨"TANK", .primitive .bigint⟩, ⟨"WINDOWSTART", .primitive .bigint⟩,
          ⟨"WINDOWEND", .primitive .bigint⟩] ∧
        s.compatibleWith t = true := by
  have h : (levels (.primitive .bigint)).compatibleWith (levels (.primitive .integer)) = true := by
    decide
  obtain ⟨hiff, hserved, -⟩ := compatibleWith_rebuild h .legacy true
  obtain ⟨s, hs, hvalue⟩ :
      ∃ s ∈ ((levels (.primitive .bigint)).served true .legacy).toOption,
        s.value = [⟨"LEVEL", .primitive .bigint⟩, ⟨"ROWTIME", .primitive .bigint⟩,
          ⟨"TANK", .primitive .bigint⟩, ⟨"WINDOWSTART", .primitive .bigint⟩,
          ⟨"WINDOWEND", .primitive .bigint⟩] := by decide
  rw [Option.mem_def, Except.toOption_eq_some_iff] at hs
  obtain ⟨t, ht⟩ := hiff.1 ⟨s, hs⟩
  exact ⟨h, s, t, hs, ht, hvalue, hserved s t hs ht⟩

end Schema
end StreamTables
