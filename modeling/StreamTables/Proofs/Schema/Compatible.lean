import StreamTables.Proofs.SqlType.Order
import StreamTables.Proofs.Traversal
import StreamTables.Schema.Basic

/-!
# Schemas that stand in for each other

Schemas are compared column by column along their whole width, and a column says which namespace it
is in.  So keys are compared with keys and values with values, and what holds of the casts between
the types of two columns holds of schemas: they can be chained, and schemas that stand in for each
other are one.

## What is here

* `Field.Accepts`: whether cells of a field may stand in for those of another.
* `Schema.compatibleWith_iff`: schemas are compared namespace by namespace.
* `castsTo_compatibleWith_order`: casts between types, and the comparison of schemas, are orders.
-/

set_option autoImplicit false

namespace StreamTables

namespace Field

variable {f g h : Field}

/-- Whether cells of another field may stand in for those of this one. -/
def Accepts (f g : Field) : Prop := f.name = g.name ∧ g.type.castsTo f.type = true

theorem accepts_refl (f : Field) : f.Accepts f := ⟨rfl, f.type.castsTo_refl⟩

theorem Accepts.trans (hfg : f.Accepts g) (hgh : g.Accepts h) : f.Accepts h :=
  ⟨hfg.1.trans hgh.1, SqlType.castsTo_trans hgh.2 hfg.2⟩

theorem Accepts.antisymm (hfg : f.Accepts g) (hgf : g.Accepts f) (hf : f.type.ScalesFit)
    (hg : g.type.ScalesFit) : f = g := by
  obtain ⟨name, type⟩ := f
  obtain ⟨name', type'⟩ := g
  obtain rfl : name = name' := hfg.1
  obtain rfl : type = type' := SqlType.castsTo_antisymm hf hg hgf.2 hfg.2
  rfl

end Field

namespace Schema

variable {s t u : Schema}

/-! ## Namespace by namespace -/

/-- Whether cells of another column may stand in for those of this one. -/
def ColumnAccepts (c d : Column) : Prop := c.part = d.part ∧ c.field.Accepts d.field

theorem compatibleWith_iff_forall₂_columns :
    s.compatibleWith t = true ↔ List.Forall₂ ColumnAccepts s.columns t.columns := by
  rw [compatibleWith, List.forall₂_iff_zip]
  simp only [Bool.and_eq_true, decide_eq_true_eq, List.all_eq_true, Prod.forall, Column.sameName]
  refine and_congr_right fun _ => forall₂_congr fun c d => imp_congr_right fun _ => ?_
  exact ⟨fun ⟨⟨hname, hpart⟩, hcast⟩ => ⟨hpart, hname, hcast⟩,
    fun ⟨hpart, hname, hcast⟩ => ⟨⟨hname, hpart⟩, hcast⟩⟩

theorem forall₂_place {part : Namespace} {i j : Nat} {fs gs : List Field} :
    List.Forall₂ ColumnAccepts (place part i fs) (place part j gs) ↔
      List.Forall₂ Field.Accepts fs gs := by
  induction fs generalizing i j gs with
  | nil => cases gs <;> simp [place]
  | cons f fs ih =>
    cases gs with
    | nil => simp [place]
    | cons g gs =>
      rw [place, place, List.forall₂_cons, List.forall₂_cons, ih]
      exact and_congr_left fun _ => ⟨fun h => h.2, fun h => ⟨rfl, h⟩⟩

/-- No column of the key is compared with one of the value. -/
theorem forall₂_place_append {i j k l : Nat} {fs gs fs' gs' : List Field} :
    List.Forall₂ ColumnAccepts (place .key i fs ++ place .value k fs')
        (place .key j gs ++ place .value l gs') ↔
      List.Forall₂ Field.Accepts fs gs ∧ List.Forall₂ Field.Accepts fs' gs' := by
  induction fs generalizing i j gs with
  | nil =>
    cases gs with
    | nil => simp [place, forall₂_place]
    | cons g gs => cases fs' <;> simp [place, ColumnAccepts]
  | cons f fs ih =>
    cases gs with
    | nil => cases gs' <;> simp [place, ColumnAccepts]
    | cons g gs =>
      rw [place, place, List.cons_append, List.cons_append, List.forall₂_cons, List.forall₂_cons,
        ih, and_assoc]
      exact and_congr_left fun _ => ⟨fun h => h.2, fun h => ⟨rfl, h⟩⟩

/-- **Schemas are compared namespace by namespace.** -/
theorem compatibleWith_iff : s.compatibleWith t = true ↔
    List.Forall₂ Field.Accepts s.key t.key ∧ List.Forall₂ Field.Accepts s.value t.value := by
  rw [compatibleWith_iff_forall₂_columns]
  exact forall₂_place_append

/-! ## The order of schemas -/

/-- Whether all decimals in a schema have at least as many digits as places. -/
def ScalesFit (s : Schema) : Prop := ∀ c ∈ s.columns, c.type.ScalesFit

instance (s : Schema) : Decidable s.ScalesFit :=
  inferInstanceAs (Decidable (∀ c ∈ s.columns, c.type.ScalesFit))

theorem scalesFit_of_mem (h : s.ScalesFit) (part : Namespace) {f : Field}
    (hf : f ∈ s.fields part) : f.type.ScalesFit := by
  have hmem : ∀ {fs : List Field} {part : Namespace}, (∀ c ∈ place part 0 fs, c ∈ s.columns) →
      f ∈ fs → f.type.ScalesFit := by
    intro fs part hsub hf
    rw [← map_field_place part 0 fs] at hf
    obtain ⟨c, hc, rfl⟩ := List.mem_map.1 hf
    exact h c (hsub c hc)
  cases part with
  | key => exact hmem (fun _ => List.mem_append_left _) hf
  | value => exact hmem (fun _ => List.mem_append_right _) hf

theorem compatibleWith_refl (s : Schema) : s.compatibleWith s = true :=
  compatibleWith_iff.2 ⟨List.forall₂_same.2 fun f _ => f.accepts_refl,
    List.forall₂_same.2 fun f _ => f.accepts_refl⟩

theorem compatibleWith_trans (hst : s.compatibleWith t = true) (htu : t.compatibleWith u = true) :
    s.compatibleWith u = true := by
  have htrans : ∀ f g h : Field, f.Accepts g → g.Accepts h → f.Accepts h :=
    fun _ _ _ => Field.Accepts.trans
  rw [compatibleWith_iff] at *
  exact ⟨hst.1.comp htrans htu.1, hst.2.comp htrans htu.2⟩

theorem eq_of_forall₂_accepts {fs gs : List Field} (hf : ∀ f ∈ fs, f.type.ScalesFit)
    (hg : ∀ g ∈ gs, g.type.ScalesFit) (hfg : List.Forall₂ Field.Accepts fs gs)
    (hgf : List.Forall₂ Field.Accepts gs fs) : fs = gs := by
  have hleft := (List.forall₂_and_left _ _).2 ⟨hf, hfg⟩
  have hright := ((List.forall₂_and_left _ _).2 ⟨hg, hgf⟩).flip
  have heq : List.Forall₂ Eq fs gs :=
    List.Forall₂.mp (fun _ _ ⟨hf, hfg⟩ ⟨hg, hgf⟩ => hfg.antisymm hgf hf hg) hleft hright
  rwa [List.forall₂_eq_eq_eq] at heq

theorem compatibleWith_antisymm (hs : s.ScalesFit) (ht : t.ScalesFit)
    (hst : s.compatibleWith t = true) (hts : t.compatibleWith s = true) : s = t := by
  rw [compatibleWith_iff] at hst hts
  exact Schema.ext
    (eq_of_forall₂_accepts (fun _ => scalesFit_of_mem hs .key)
      (fun _ => scalesFit_of_mem ht .key) hst.1 hts.1)
    (eq_of_forall₂_accepts (fun _ => scalesFit_of_mem hs .value)
      (fun _ => scalesFit_of_mem ht .value) hst.2 hts.2)

/-- **Casts between types, and schemas that stand in for each other, are orders.**  Every type
casts to itself, casts can be chained, and so can the comparisons of schemas.  Types whose decimals
have no more places than digits cast to each other only if they are the same, and so do schemas of
such types. -/
theorem castsTo_compatibleWith_order :
    (∀ a : SqlType, a.castsTo a = true) ∧
      (∀ a b c : SqlType, a.castsTo b = true → b.castsTo c = true → a.castsTo c = true) ∧
      (∀ a b : SqlType, a.ScalesFit → b.ScalesFit → a.castsTo b = true → b.castsTo a = true →
        a = b) ∧
      (∀ s : Schema, s.compatibleWith s = true) ∧
      (∀ s t u : Schema, s.compatibleWith t = true → t.compatibleWith u = true →
        s.compatibleWith u = true) ∧
      ∀ s t : Schema, s.ScalesFit → t.ScalesFit → s.compatibleWith t = true →
        t.compatibleWith s = true → s = t :=
  ⟨SqlType.castsTo_refl, fun _ _ _ => SqlType.castsTo_trans,
    fun _ _ => SqlType.castsTo_antisymm, compatibleWith_refl, fun _ _ _ => compatibleWith_trans,
    fun _ _ => compatibleWith_antisymm⟩

/-- Readings of a meter, in numbers of a type. -/
def readings (type : SqlType) : Schema where
  key := [⟨"METER", .primitive .string⟩]
  value := [⟨"READINGS", .map (.primitive .timestamp) (.array type)⟩]
  nodup_key := by simp
  nodup_value := by simp

/-- Readings in integers stand in for readings in decimals that have room for wider integers, and
so for readings in doubles. -/
theorem castsTo_compatibleWith_order_readings :
    (readings (.primitive .double)).compatibleWith (readings (.decimal 21 2)) = true ∧
      (readings (.decimal 21 2)).compatibleWith (readings (.primitive .integer)) = true ∧
      (readings (.primitive .double)).compatibleWith (readings (.primitive .integer)) = true ∧
      (readings (.decimal 21 2)).ScalesFit ∧ (readings (.decimal 21 3)).ScalesFit ∧
      ¬ ((readings (.decimal 21 2)).compatibleWith (readings (.decimal 21 3)) = true ∧
        (readings (.decimal 21 3)).compatibleWith (readings (.decimal 21 2)) = true) := by
  obtain ⟨-, -, -, -, htrans, hantisymm⟩ := castsTo_compatibleWith_order
  have hdouble : (readings (.primitive .double)).compatibleWith (readings (.decimal 21 2)) = true :=
    by decide
  have hdecimal :
      (readings (.decimal 21 2)).compatibleWith (readings (.primitive .integer)) = true := by decide
  have hfit : (readings (.decimal 21 2)).ScalesFit ∧ (readings (.decimal 21 3)).ScalesFit := by
    decide
  have hne : readings (.decimal 21 2) ≠ readings (.decimal 21 3) := by decide
  exact ⟨hdouble, hdecimal, htrans _ _ _ hdouble hdecimal, hfit.1, hfit.2,
    fun ⟨h, h'⟩ => hne (hantisymm _ _ hfit.1 hfit.2 h h')⟩

end Schema
end StreamTables
