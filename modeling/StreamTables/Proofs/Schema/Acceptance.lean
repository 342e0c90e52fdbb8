import StreamTables.Proofs.Schema.Additions
import StreamTables.Proofs.Schema.ReadBack

/-!
# Which lists of columns make a schema

A list of columns makes a schema if its columns are those of the schema, so the list has to be in
order already: the key first, names apart, and every index the place of its column.  The columns are
added one by one, and the indexes are compared only when all have been added.  So of the faults of a
list the first in the list is the one that is reported, a column of the key that comes too late
before a name that is taken, and wrong indexes last of all.

## What is here

* `Columns.Sound`, `Columns.Indexed`: what a list that makes a schema has to satisfy.
* `Columns.Faulty`: the fault that decides the error.
* `Columns.ofPart_of_inOrder`: the columns of a key and a value, told apart by their namespaces.
* `Schema.addColumns_eq_addEach`: columns of which the key comes first are added like any others.
* `Schema.ofColumns_eq_error_iff`: the error is that of the fault.
* `Schema.ofColumns_exact`: which lists make a schema, which schema, and what the others are told.
-/

set_option autoImplicit false

namespace StreamTables

/-- A column on its way to its namespace, without its index. -/
def Column.addition (c : Column) : Addition := ⟨c.part, c.field⟩

namespace Columns

open Schema

variable {part : Namespace} {c : Column} {cs before after key value : List Column}

/-- The columns of one namespace, in order. -/
def ofPart (part : Namespace) (cs : List Column) : List Column := cs.filter fun c => c.part = part

/-- Columns that can be added one after the other. -/
structure Sound (cs : List Column) : Prop where
  /-- Behind a column of the value there are only others of the value. -/
  keyFirst : cs.Pairwise fun c d => c.part = .value → d.part = .value
  /-- No name comes twice in a namespace. -/
  apart : ∀ part, ((ofPart part cs).map Column.name).Nodup

/-- The index of every column is its place among those of its namespace. -/
def Indexed (cs : List Column) : Prop :=
  ∀ (part : Namespace) (i : Nat) (c : Column), (ofPart part cs)[i]? = some c → c.index = i

/-- A column of the key comes behind one of the value. -/
def IsLate (before : List Column) (c : Column) : Prop :=
  c.part = .key ∧ ∃ d ∈ before, d.part = .value

/-- A column has the name of one in front of it in its namespace. -/
def IsTaken (before : List Column) (c : Column) : Prop :=
  ∃ d ∈ before, d.part = c.part ∧ d.name = c.name

/-- The columns at the places that they have, the key first. -/
def reindexed (cs : List Column) : List Column :=
  place .key 0 ((ofPart .key cs).map Column.field) ++
    place .value 0 ((ofPart .value cs).map Column.field)

/-- The fault of a list of columns, and the error that it makes. -/
inductive Faulty : List Column → Error → Prop
  | late {before after : List Column} {c : Column} (hbefore : Sound before)
    (hlate : IsLate before c) :
    Faulty (before ++ c :: after) (.internal (.keyAfterValue c.name))
  | taken {before after : List Column} {c : Column} (hbefore : Sound before)
    (hplace : ¬ IsLate before c) (htaken : IsTaken before c) :
    Faulty (before ++ c :: after) (.duplicateColumn c.part c.name c.type)
  /-- Only the indexes are wrong. -/
  | sparse {cs : List Column} (hsound : Sound cs) (hindex : ¬ Indexed cs) :
    Faulty cs (.internal (.sparseIndexes (reindexed cs)))

/-! ## Columns by namespace -/

theorem ofPart_append : ofPart part (before ++ after) = ofPart part before ++ ofPart part after :=
  List.filter_append ..

theorem ofPart_eq_self (h : ∀ c ∈ cs, c.part = part) : ofPart part cs = cs := by
  simpa [ofPart, List.filter_eq_self] using h

theorem ofPart_eq_nil {other : Namespace} (h : ∀ c ∈ cs, c.part = other) (hne : part ≠ other) :
    ofPart part cs = [] := by
  simp only [ofPart, List.filter_eq_nil_iff, decide_eq_true_eq]
  exact fun c hc hpart => hne (hpart.symm.trans (h c hc))

theorem part_of_mem_ofPart (h : c ∈ ofPart part cs) : c.part = part := by
  simpa using (List.mem_filter.1 h).2

theorem fieldsTo_addition (part : Namespace) (cs : List Column) :
    Addition.fieldsTo part (cs.map Column.addition) = (ofPart part cs).map Column.field := by
  rw [Addition.fieldsTo, List.filter_map, List.map_map]
  rfl

/-- If the key comes first, a list is its key and its value behind it. -/
theorem eq_ofPart_append (h : cs.Pairwise fun c d => c.part = .value → d.part = .value) :
    cs = ofPart .key cs ++ ofPart .value cs := by
  induction cs with
  | nil => rfl
  | cons c cs ih =>
    rw [List.pairwise_cons] at h
    cases hc : c.part with
    | key =>
      have hcs := ih h.2
      simp [ofPart, hc] at hcs ⊢
      exact hcs
    | value =>
      have hall : ∀ d ∈ c :: cs, d.part = .value :=
        List.forall_mem_cons.2 ⟨hc, fun d hd => h.1 d hd hc⟩
      have hkey : ofPart .key (c :: cs) = [] := ofPart_eq_nil hall (by decide)
      rw [hkey, ofPart_eq_self hall, List.nil_append]

/-- The key and the value of a list that is in order are its columns of the two namespaces. -/
theorem ofPart_of_inOrder (h : InOrder key value) :
    ofPart .key (key ++ value) = key ∧ ofPart .value (key ++ value) = value := by
  have hnoKey : ofPart .key value = [] := ofPart_eq_nil h.part_value (by decide)
  have hnoValue : ofPart .value key = [] := ofPart_eq_nil h.part_key (by decide)
  constructor
  · rw [ofPart_append, ofPart_eq_self h.part_key, hnoKey, List.append_nil]
  · rw [ofPart_append, ofPart_eq_self h.part_value, hnoValue, List.nil_append]

/-- **A list is in order if its columns are sound and at their places.** -/
theorem exists_inOrder_iff :
    (∃ key value, cs = key ++ value ∧ InOrder key value) ↔ Sound cs ∧ Indexed cs := by
  constructor
  · rintro ⟨key, value, rfl, h⟩
    obtain ⟨hkey, hvalue⟩ := ofPart_of_inOrder h
    refine ⟨⟨?_, fun part => ?_⟩, fun part => ?_⟩
    · rw [List.pairwise_append]
      refine ⟨?_, ?_, fun c _ d hd _ => h.part_value d hd⟩
      · exact List.pairwise_of_forall_mem_list fun c hc _ _ hvalue =>
          nomatch (h.part_key c hc).symm.trans hvalue
      · exact List.pairwise_of_forall_mem_list fun c _ d hd _ => h.part_value d hd
    · cases part with
      | key => exact hkey.symm ▸ h.nodup_key
      | value => exact hvalue.symm ▸ h.nodup_value
    · cases part with
      | key => exact hkey.symm ▸ h.index_key
      | value => exact hvalue.symm ▸ h.index_value
  · rintro ⟨hsound, hindex⟩
    exact ⟨_, _, eq_ofPart_append hsound.keyFirst, {
      part_key := fun _ => part_of_mem_ofPart
      part_value := fun _ => part_of_mem_ofPart
      index_key := hindex .key
      index_value := hindex .value
      nodup_key := hsound.apart .key
      nodup_value := hsound.apart .value }⟩

/-! ## One more column -/

theorem isTaken_iff : IsTaken before c ↔ c.name ∈ (ofPart c.part before).map Column.name := by
  simp [IsTaken, ofPart, and_assoc]

theorem sound_nil : Sound [] := ⟨.nil, fun _ => List.nodup_nil⟩

/-- **A column may follow unless it comes too late or its name is taken.** -/
theorem sound_concat_iff :
    Sound (before ++ [c]) ↔ Sound before ∧ ¬ IsLate before c ∧ ¬ IsTaken before c := by
  have hlate : (∀ d ∈ before, d.part = .value → c.part = .value) ↔ ¬ IsLate before c := by
    cases hc : c.part <;> simp [IsLate, hc]
  have hself : ofPart c.part [c] = [c] := by simp [ofPart]
  have hother : ∀ part, part ≠ c.part → ofPart part [c] = [] := by
    intro part hpart
    simp [ofPart, hpart.symm]
  rw [isTaken_iff]
  constructor
  · rintro ⟨hfirst, hapart⟩
    rw [List.pairwise_append] at hfirst
    have hnodup := hapart c.part
    rw [ofPart_append, hself, List.map_append, List.nodup_append] at hnodup
    refine ⟨⟨hfirst.1, fun part => ?_⟩, hlate.1 fun d hd => ?_, fun hmem => ?_⟩
    · have hpart := hapart part
      rw [ofPart_append, List.map_append] at hpart
      exact hpart.sublist (List.sublist_append_left ..)
    · exact hfirst.2.2 d hd c (List.mem_singleton_self c)
    · exact hnodup.2.2 _ hmem _ (List.mem_singleton_self _) rfl
  · rintro ⟨hbefore, hplace, hfree⟩
    refine ⟨?_, fun part => ?_⟩
    · rw [List.pairwise_append]
      refine ⟨hbefore.keyFirst, List.pairwise_singleton .., fun d hd e he => ?_⟩
      exact List.mem_singleton.1 he ▸ hlate.2 hplace d hd
    · by_cases hpart : part = c.part
      · subst hpart
        rw [ofPart_append, hself, List.map_append, List.nodup_append]
        refine ⟨hbefore.apart c.part, by simp, fun a ha b hb hab => hfree ?_⟩
        exact List.mem_singleton.1 hb ▸ hab ▸ ha
      · rw [ofPart_append, hother part hpart, List.append_nil]
        exact hbefore.apart part

/-- **A list that makes no schema has a fault.** -/
theorem exists_faulty (h : ¬ (Sound cs ∧ Indexed cs)) : ∃ e, Faulty cs e := by
  by_cases hsound : Sound cs
  · exact ⟨_, .sparse hsound fun hindex => h ⟨hsound, hindex⟩⟩
  · obtain ⟨before, c, after, rfl, hbefore, hc⟩ := List.exists_append_of_not sound_nil hsound
    by_cases hlate : IsLate before c
    · exact ⟨_, .late hbefore hlate⟩
    · by_cases htaken : IsTaken before c
      · exact ⟨_, .taken hbefore hlate htaken⟩
      · exact absurd (sound_concat_iff.2 ⟨hbefore, hlate, htaken⟩) hc

/-! ## The columns, as they are written -/

theorem map_text_place (h : ∀ c ∈ cs, c.part = part) (index : Nat) :
    (place part index (cs.map Column.field)).map Column.text = cs.map Column.text := by
  induction cs generalizing index with
  | nil => rfl
  | cons c cs ih =>
    rw [List.forall_mem_cons] at h
    obtain ⟨rfl, h⟩ := h
    rw [List.map_cons, place, List.map_cons, List.map_cons, ih h]
    rfl

/-- Indexes are not written, so a list reads the same with the indexes that it should have. -/
theorem listText_reindexed (h : Sound cs) :
    Column.listText (reindexed cs) = Column.listText cs := by
  have htexts : (reindexed cs).map Column.text = cs.map Column.text := by
    rw [reindexed, List.map_append, map_text_place fun _ => part_of_mem_ofPart,
      map_text_place fun _ => part_of_mem_ofPart, ← List.map_append,
      ← eq_ofPart_append h.keyFirst]
  rw [Column.listText, htexts, Column.listText]

end Columns

namespace Schema

open Columns

variable {s t : Schema} {inValue : Bool} {c : Column} {cs before after : List Column} {e : Error}

/-! ## Adding columns one by one -/

/-- **Columns of which the key comes first are added like any others.** -/
theorem addColumns_eq_addEach (h : cs.Pairwise fun c d => c.part = .value → d.part = .value)
    (hin : inValue = true → ∀ c ∈ cs, c.part = .value) :
    addColumns inValue s cs = s.addEach (cs.map Column.addition) := by
  induction cs generalizing inValue s with
  | nil => rw [addColumns]; rfl
  | cons c cs ih =>
    rw [List.pairwise_cons] at h
    rw [addColumns, List.map_cons, addEach_cons, Column.addition]
    cases hc : c.part with
    | key =>
      cases inValue with
      | true => exact absurd (hc.symm.trans (hin rfl c (List.mem_cons_self ..))) (by decide)
      | false =>
        exact congrArg (Except.bind _) (funext fun t => ih h.2 fun hfalse =>
          absurd hfalse Bool.false_ne_true)
    | value => exact congrArg (Except.bind _) (funext fun t => ih h.2 fun _ d hd => h.1 d hd hc)

/-- The columns in front are added first. If there are any of the value among them, no column of
the key may follow. -/
theorem addColumns_append :
    addColumns inValue s (before ++ after) = (addColumns inValue s before).bind fun t =>
      addColumns (inValue || before.any fun c => c.part = .value) t after := by
  induction before generalizing inValue s with
  | nil =>
    rw [addColumns, List.any_nil, Bool.or_false]
    rfl
  | cons c before ih =>
    rw [List.cons_append, addColumns, addColumns, List.any_cons]
    cases hc : c.part with
    | key =>
      cases inValue with
      | true => rfl
      | false =>
        dsimp only
        cases s.add .key c.field with
        | error e => rfl
        | ok t => exact ih
    | value =>
      dsimp only
      cases s.add .value c.field with
      | error e => rfl
      | ok t =>
        rw [Bool.or_comm]
        exact ih

/-- Sound columns are all added, each to its namespace. -/
theorem exists_addColumns (h : Sound cs) :
    ∃ t, addColumns false empty cs = .ok t ∧
      ∀ part, t.fields part = (ofPart part cs).map Column.field := by
  have hwith : ∀ part, empty.fieldsWith (cs.map Column.addition) part
      = (ofPart part cs).map Column.field := by
    intro part
    rw [fieldsWith, fieldsTo_addition]
    cases part <;> rfl
  have hapart : empty.StaysApart (cs.map Column.addition) := by
    intro part
    rw [hwith, List.map_map]
    exact h.apart part
  have hadd : addColumns false empty cs = empty.addEach (cs.map Column.addition) :=
    addColumns_eq_addEach h.keyFirst fun hfalse => absurd hfalse Bool.false_ne_true
  obtain ⟨t, ht⟩ := addEach_eq_ok hapart
  refine ⟨t, hadd.trans ht, fun part => ?_⟩
  rw [fields_of_addEach ht, hwith]

/-! ## The error -/

theorem ofColumns_eq_error (h : addColumns false empty cs = .error e) :
    ofColumns cs = .error e := by
  rw [ofColumns, h]
  rfl

theorem ofColumns_of_late (hbefore : Sound before) (hlate : IsLate before c) :
    ofColumns (before ++ c :: after) = .error (.internal (.keyAfterValue c.name)) := by
  obtain ⟨t, ht, -⟩ := exists_addColumns hbefore
  have hany : (before.any fun d => d.part = .value) = true := by simpa using hlate.2
  -- its place is looked at before its name, which may be taken as well
  refine ofColumns_eq_error ?_
  rw [addColumns_append, ht, hany, Except.bind, addColumns, hlate.1]
  rfl

theorem ofColumns_of_taken (hbefore : Sound before) (hplace : ¬ IsLate before c)
    (htaken : IsTaken before c) :
    ofColumns (before ++ c :: after) = .error (.duplicateColumn c.part c.name c.type) := by
  obtain ⟨t, ht, hfields⟩ := exists_addColumns hbefore
  have hmem : c.field.name ∈ (t.fields c.part).map Field.name := by
    rw [hfields, List.map_map]
    exact isTaken_iff.1 htaken
  have hadd : t.add c.part c.field = .error (.duplicateColumn c.part c.name c.type) :=
    add_eq_error hmem
  refine ofColumns_eq_error ?_
  rw [addColumns_append, ht, Except.bind, addColumns]
  cases hc : c.part with
  | key =>
    have hany : (before.any fun d => d.part = .value) = false := by
      simpa [IsLate, hc] using hplace
    rw [hc] at hadd
    simp [hany, hadd, Bind.bind, Except.bind]
  | value =>
    rw [hc] at hadd
    simp [hadd, Bind.bind, Except.bind]

/-- Sound columns are all added, and then those that came out are compared with those that went
in. -/
theorem ofColumns_of_sparse (hsound : Sound cs) (hindex : ¬ Indexed cs) :
    ofColumns cs = .error (.internal (.sparseIndexes (reindexed cs))) := by
  obtain ⟨t, ht, hfields⟩ := exists_addColumns hsound
  have hcolumns : t.columns = reindexed cs := by
    rw [columns, keyColumns, valueColumns, reindexed, ← hfields, ← hfields]
    rfl
  have hne : t.columns ≠ cs := fun heq => by
    have hinOrder := exists_inOrder_iff.1 ⟨_, _, heq.symm, t.inOrder⟩
    exact hindex hinOrder.2
  rw [ofColumns, ht, ← hcolumns]
  exact if_neg hne

/-- **The fault of a list decides the error.** -/
theorem ofColumns_of_faulty (h : Faulty cs e) : ofColumns cs = .error e := by
  cases h with
  | late hbefore hlate => exact ofColumns_of_late hbefore hlate
  | taken hbefore hplace htaken => exact ofColumns_of_taken hbefore hplace htaken
  | sparse hsound hindex => exact ofColumns_of_sparse hsound hindex

/-- **The error is that of the fault**, and there is one for every list that makes no schema. -/
theorem ofColumns_eq_error_iff : ofColumns cs = .error e ↔ Faulty cs e := by
  refine ⟨fun h => ?_, ofColumns_of_faulty⟩
  have hnot : ¬ (Sound cs ∧ Indexed cs) := fun hvalid => by
    obtain ⟨t, ht⟩ := exists_ofColumns_iff.2 (exists_inOrder_iff.2 hvalid)
    exact nomatch ht.symm.trans h
  obtain ⟨e', he'⟩ := exists_faulty hnot
  rw [ofColumns_of_faulty he'] at h
  exact Except.error.inj h ▸ he'

/-! ## Lists of columns, exactly -/

/-- **Which lists of columns make a schema.**  Those do whose key comes first, in which no name
comes twice in a namespace, and every index is the place of its column; and they are the columns of
the schema that they make.  Any other list is refused for its fault.  If only its indexes are wrong,
what is said shows its columns as they are. -/
theorem ofColumns_exact (cs : List Column) :
    ((∃ s, ofColumns cs = .ok s) ↔ Sound cs ∧ Indexed cs) ∧
    (∀ s, ofColumns cs = .ok s → s.columns = cs) ∧
    (∀ e, ofColumns cs = .error e ↔ Faulty cs e) ∧
    (∀ e, ofColumns cs = .error e → e.code = "SCHEMA_001" ∨ e.code = internalCode) ∧
    (Sound cs → ∀ e, ofColumns cs = .error e →
      e.message = "column indexes of schema " ++ Column.listText cs ++ " are not dense") := by
  refine ⟨exists_ofColumns_iff.trans exists_inOrder_iff, fun s hs => columns_of_ofColumns hs,
    fun e => ofColumns_eq_error_iff, fun e he => ?_, fun hsound e he => ?_⟩
  · cases ofColumns_eq_error_iff.1 he with
    | taken => exact .inl rfl
    | late => exact .inr rfl
    | sparse => exact .inr rfl
  · have hindex : ¬ Indexed cs := fun hindex => by
      obtain ⟨t, ht⟩ := exists_ofColumns_iff.2 (exists_inOrder_iff.2 ⟨hsound, hindex⟩)
      exact nomatch ht.symm.trans he
    rw [ofColumns_of_faulty (.sparse hsound hindex)] at he
    rw [← Except.error.inj he, ← listText_reindexed hsound]
    rfl

/-- Columns of orders with many faults.  The first index is wrong.  The third column comes too late,
and its name is taken, as that of the fourth is: it is the third that is reported, for its place.
Without it the fourth is, and without both the indexes are. -/
theorem ofColumns_exact_orders :
    let id : Column := ⟨"ID", .primitive .integer, .key, 1⟩
    let item : Column := ⟨"ITEM", .primitive .string, .value, 0⟩
    let late : Column := ⟨"ID", .primitive .bytes, .key, 1⟩
    let again : Column := ⟨"ITEM", .primitive .date, .value, 5⟩
    ofColumns [id, item, late, again] = .error (.internal (.keyAfterValue "ID")) ∧
    ofColumns [id, item, again] = .error (.duplicateColumn .value "ITEM" (.primitive .date)) ∧
    (∃ e, ofColumns [id, item] = .error e ∧ e.message =
      "column indexes of schema `ID` INTEGER KEY, `ITEM` STRING are not dense") ∧
    ∃ s, ofColumns [{ id with index := 0 }, item] = .ok s ∧
      s.columns = [{ id with index := 0 }, item] := by
  intro id item late again
  have hsound : Sound [id, item] := ⟨by decide, fun part => by cases part <;> decide⟩
  have hindex : ¬ Indexed [id, item] := fun h => nomatch h .key 0 id rfl
  obtain ⟨-, -, hlate, -⟩ := ofColumns_exact [id, item, late, again]
  obtain ⟨-, -, htaken, -⟩ := ofColumns_exact [id, item, again]
  obtain ⟨-, -, hsparse, -, hmessage⟩ := ofColumns_exact [id, item]
  obtain ⟨hok, hcolumns, -⟩ := ofColumns_exact [{ id with index := 0 }, item]
  obtain ⟨s, hs⟩ := hok.2 ⟨⟨by decide, fun part => by cases part <;> decide⟩, fun part i c hc => by
    cases part <;> rcases i with _ | i <;> cases hc <;> rfl⟩
  have he := (hsparse _).2 (.sparse hsound hindex)
  refine ⟨(hlate _).2 ?_, (htaken _).2 ?_, ⟨_, he, (hmessage hsound _ he).trans (by decide)⟩, s, hs,
    hcolumns s hs⟩
  · exact @Faulty.late [id, item] [again] late hsound ⟨rfl, item, by decide, rfl⟩
  · exact @Faulty.taken [id, item] [] again hsound (fun h => nomatch h.1)
      ⟨item, by decide, rfl, rfl⟩

end Schema
end StreamTables
