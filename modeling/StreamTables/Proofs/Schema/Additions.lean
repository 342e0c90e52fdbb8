import StreamTables.Proofs.Schema.Construction
import StreamTables.Proofs.Traversal

/-!
# Columns in any order

A builder takes columns one at a time and in bulk, for the key and for the value, as the calls
come.  Every call looks at one namespace only, and the index of a column is the number of those in
front of it there.  So what the calls come to does not depend on how the two namespaces take turns:
bulk calls are single additions in a row, and only the additions to the key, in their order, and
those to the value, in theirs, are left in the schema.

## What is here

* `Addition`, `Addition.fieldsTo`: a field on its way to a namespace, and the fields that go to one.
* `Schema.addEach`: fields that are added one after the other, to either namespace.
* `Schema.addEach_eq_error_iff`: the first of them whose name is taken is the one that is reported.
* `BuilderCall`, `ColumnBuilder.callAll`: the calls that a builder takes.
* `Schema.callAll_builder`: a row of calls is a row of additions, of columns as of fields.
* `ColumnBuilder.callAll_exact`: what a row of calls comes to.
-/

set_option autoImplicit false

namespace StreamTables

/-- A field on its way to a namespace. -/
structure Addition where
  part : Namespace
  field : Field

namespace Addition

/-- The fields among additions that go to one namespace, in order. -/
def fieldsTo (part : Namespace) (as : List Addition) : List Field :=
  (as.filter fun a => a.part = part).map field

/-- The error if the name of the field is taken. -/
def clash (a : Addition) : Error := .duplicateColumn a.part a.field.name a.field.type

variable {part : Namespace} {a : Addition} {as bs : List Addition}

@[simp] theorem fieldsTo_nil : fieldsTo part [] = [] := rfl

theorem fieldsTo_append : fieldsTo part (as ++ bs) = fieldsTo part as ++ fieldsTo part bs := by
  simp [fieldsTo]

theorem fieldsTo_cons_self : fieldsTo a.part (a :: as) = a.field :: fieldsTo a.part as := by
  simp [fieldsTo]

theorem fieldsTo_cons_of_ne (h : part ≠ a.part) : fieldsTo part (a :: as) = fieldsTo part as := by
  simp [fieldsTo, h.symm]

end Addition

/-! ## Additions to a schema -/

namespace Schema

open Addition

variable {s t : Schema} {part : Namespace} {a : Addition} {as bs before after : List Addition}

/-- Appends fields to their namespaces in order, up to the first name that is taken. -/
def addEach (s : Schema) (as : List Addition) : Except Error Schema :=
  as.foldlM (fun t a => t.add a.part a.field) s

/-- The fields of a namespace, and behind them those that are to be added to it. -/
def fieldsWith (s : Schema) (as : List Addition) (part : Namespace) : List Field :=
  s.fields part ++ fieldsTo part as

/-- Names stay apart within each namespace if all additions are made. -/
def StaysApart (s : Schema) (as : List Addition) : Prop :=
  ∀ part, ((s.fieldsWith as part).map Field.name).Nodup

theorem addEach_cons :
    s.addEach (a :: as) = (s.add a.part a.field).bind fun t => t.addEach as := rfl

theorem addEach_append : s.addEach (as ++ bs) = (s.addEach as).bind fun t => t.addEach bs :=
  List.foldlM_append

theorem addAll_eq_addEach (fs : List Field) :
    s.addAll part fs = s.addEach (fs.map fun f => ⟨part, f⟩) := by
  rw [addEach, List.foldlM_map]
  rfl

theorem fieldsWith_nil : s.fieldsWith [] part = s.fields part := List.append_nil _

/-- What is still to be added is the same after a step. -/
theorem fieldsWith_of_add (h : s.add a.part a.field = .ok t) (part : Namespace) :
    t.fieldsWith as part = s.fieldsWith (a :: as) part := by
  obtain ⟨hself, hother⟩ := fields_of_add h
  by_cases hpart : part = a.part
  · subst hpart
    rw [fieldsWith, fieldsWith, hself, fieldsTo_cons_self, List.append_assoc,
      List.singleton_append]
  · rw [fieldsWith, fieldsWith, hother part hpart, fieldsTo_cons_of_ne hpart]

theorem staysApart_nil : s.StaysApart [] := fun part => by
  rw [fieldsWith_nil]
  exact s.nodup_fields part

/-- One more addition is in order if its name is not among those of its namespace. -/
theorem staysApart_concat_iff :
    s.StaysApart (as ++ [a]) ↔
      s.StaysApart as ∧ a.field.name ∉ (s.fieldsWith as a.part).map Field.name := by
  have hself : (s.fieldsWith (as ++ [a]) a.part).map Field.name
      = (s.fieldsWith as a.part).map Field.name ++ [a.field.name] := by
    simp [fieldsWith, fieldsTo_append, fieldsTo_cons_self]
  have hother : ∀ part, part ≠ a.part → s.fieldsWith (as ++ [a]) part = s.fieldsWith as part := by
    intro part hpart
    simp [fieldsWith, fieldsTo_append, fieldsTo_cons_of_ne hpart]
  have happend : ((s.fieldsWith as a.part).map Field.name ++ [a.field.name]).Nodup ↔
      ((s.fieldsWith as a.part).map Field.name).Nodup ∧
        a.field.name ∉ (s.fieldsWith as a.part).map Field.name := by
    simp [List.nodup_append, List.mem_map]
  constructor
  · intro h
    have hfree := happend.1 (hself ▸ h a.part)
    refine ⟨fun part => ?_, hfree.2⟩
    by_cases hpart : part = a.part
    · exact hpart ▸ hfree.1
    · exact hother part hpart ▸ h part
  · rintro ⟨h, hfree⟩ part
    by_cases hpart : part = a.part
    · subst hpart
      rw [hself]
      exact happend.2 ⟨h a.part, hfree⟩
    · rw [hother part hpart]
      exact h part

/-! ### Success -/

/-- Additions that were all made stand behind the fields that were there. -/
theorem fields_of_addEach (h : s.addEach as = .ok t) (part : Namespace) :
    t.fields part = s.fieldsWith as part := by
  induction as generalizing s with
  | nil =>
    cases h
    exact fieldsWith_nil.symm
  | cons a as ih =>
    obtain ⟨u, hu, h⟩ := Except.bind_eq_ok_iff.1 h
    rw [ih h, fieldsWith_of_add hu]

theorem staysApart_of_addEach (h : s.addEach as = .ok t) : s.StaysApart as := fun part => by
  rw [← fields_of_addEach h part]
  exact t.nodup_fields part

theorem addEach_eq_ok (h : s.StaysApart as) : ∃ t, s.addEach as = .ok t := by
  induction as generalizing s with
  | nil => exact ⟨s, rfl⟩
  | cons a as ih =>
    have free : a.field.name ∉ (s.fields a.part).map Field.name := by
      have happend := h a.part
      rw [fieldsWith, fieldsTo_cons_self, List.map_append, List.nodup_append] at happend
      exact fun hmem => happend.2.2 _ hmem _ (List.mem_cons_self ..) rfl
    obtain ⟨u, hu⟩ := add_eq_ok free
    obtain ⟨t, ht⟩ := ih fun part => (fieldsWith_of_add hu part).symm ▸ h part
    exact ⟨t, by rw [addEach_cons, hu]; exact ht⟩

/-- **Additions are all made if names stay apart**, and only then. -/
theorem exists_addEach_iff : (∃ t, s.addEach as = .ok t) ↔ s.StaysApart as :=
  ⟨fun ⟨_, h⟩ => staysApart_of_addEach h, addEach_eq_ok⟩

/-! ### Failure -/

/-- **The first addition whose name is taken stops the rest.** -/
theorem addEach_eq_error (h : s.StaysApart before)
    (taken : a.field.name ∈ (s.fieldsWith before a.part).map Field.name) :
    s.addEach (before ++ a :: after) = .error a.clash := by
  obtain ⟨t, ht⟩ := addEach_eq_ok h
  rw [← fields_of_addEach ht a.part] at taken
  have hstop : t.addEach (a :: after) = .error a.clash := by
    rw [addEach_cons, add_eq_error taken]
    rfl
  rw [addEach_append, ht]
  exact hstop

/-- **Additions fail at the first of them whose name is taken.** -/
theorem addEach_eq_error_iff {e : Error} :
    s.addEach as = .error e ↔
      ∃ before a after, as = before ++ a :: after ∧ s.StaysApart before ∧
        a.field.name ∈ (s.fieldsWith before a.part).map Field.name ∧ e = a.clash := by
  constructor
  · intro h
    have hnot : ¬ s.StaysApart as := fun hapart => by
      obtain ⟨t, ht⟩ := addEach_eq_ok hapart
      exact nomatch ht.symm.trans h
    obtain ⟨before, a, after, rfl, hbefore, ha⟩ := List.exists_append_of_not staysApart_nil hnot
    have taken : a.field.name ∈ (s.fieldsWith before a.part).map Field.name :=
      Decidable.byContradiction fun hfree => ha (staysApart_concat_iff.2 ⟨hbefore, hfree⟩)
    rw [addEach_eq_error hbefore taken] at h
    exact ⟨before, a, after, rfl, hbefore, taken, (Except.error.inj h).symm⟩
  · rintro ⟨before, a, after, rfl, hbefore, taken, rfl⟩
    exact addEach_eq_error hbefore taken

/-- **How the namespaces take turns does not count**, only what goes to each of them. -/
theorem addEach_congr (h : ∀ part, fieldsTo part as = fieldsTo part bs) :
    (s.addEach as).toOption = (s.addEach bs).toOption := by
  have hwith : ∀ part, s.fieldsWith as part = s.fieldsWith bs part := fun part => by
    rw [fieldsWith, h part, fieldsWith]
  by_cases hapart : s.StaysApart as
  · have hapart' : s.StaysApart bs := fun part => hwith part ▸ hapart part
    obtain ⟨t, ht⟩ := addEach_eq_ok hapart
    obtain ⟨t', ht'⟩ := addEach_eq_ok hapart'
    have heq : t = t' := ext_fields fun part => by
      rw [fields_of_addEach ht, fields_of_addEach ht', hwith]
    rw [ht, ht', heq]
  · have hnone : ∀ cs, ¬ s.StaysApart cs → (s.addEach cs).toOption = none := by
      intro cs hcs
      cases hadd : s.addEach cs with
      | error e => rfl
      | ok t => exact absurd (staysApart_of_addEach hadd) hcs
    rw [hnone as hapart, hnone bs fun h => hapart fun part => (hwith part).symm ▸ h part]

end Schema

/-! ## Calls to a builder -/

/-- A call to a builder. -/
inductive BuilderCall where
  | add (part : Namespace) (name : String) (type : SqlType)
  /-- Only the names and types of the columns count. -/
  | addColumns (part : Namespace) (columns : List Column)

/-- The single additions that a call comes to. -/
def BuilderCall.additions : BuilderCall → List Addition
  | add part name type => [⟨part, name, type⟩]
  | addColumns part columns => columns.map fun c => ⟨part, c.field⟩

open BuilderCall (additions)

namespace Schema

variable {s : Schema}

/-- What a call does to a schema, which is its own builder. -/
def call (s : Schema) : BuilderCall → Except Error Schema
  | .add part name type => s.add part ⟨name, type⟩
  | .addColumns part columns => s.addAll part (columns.map Column.field)

/-- Calls, one after the other, up to the first that fails. -/
def callAll (s : Schema) (calls : List BuilderCall) : Except Error Schema := calls.foldlM call s

theorem call_eq_addEach (s : Schema) (c : BuilderCall) : s.call c = s.addEach c.additions := by
  cases c with
  | add part name type =>
    rw [call, additions, addEach_cons]
    cases s.add part ⟨name, type⟩ <;> rfl
  | addColumns part columns =>
    rw [call, additions, addAll_eq_addEach, List.map_map]
    rfl

/-- **A row of calls is a row of single additions**, whichever of them came in bulk. -/
theorem callAll_eq_addEach (s : Schema) (calls : List BuilderCall) :
    s.callAll calls = s.addEach (calls.flatMap additions) := by
  induction calls generalizing s with
  | nil => rfl
  | cons c calls ih =>
    rw [callAll, List.foldlM_cons, List.flatMap_cons, addEach_append, call_eq_addEach]
    exact congrArg (Except.bind _) (funext ih)

end Schema

namespace ColumnBuilder

open Schema Addition

variable {b start : ColumnBuilder} {s : Schema} {part : Namespace} {as : List Addition}

/-- What a call does to a builder. -/
def call (b : ColumnBuilder) : BuilderCall → Except Error ColumnBuilder
  | .add part name type => b.add part ⟨name, type⟩
  | .addColumns part columns => b.addAll part (columns.map Column.field)

/-- Calls, one after the other, up to the first that fails. -/
def callAll (b : ColumnBuilder) (calls : List BuilderCall) : Except Error ColumnBuilder :=
  calls.foldlM call b

/-- The names of a namespace, and behind them those that are to be added to it. -/
def namesWith (b : ColumnBuilder) (as : List Addition) (part : Namespace) : List String :=
  (b.columns part).map Column.name ++ (fieldsTo part as).map Field.name

/-- A new builder, or one that a schema went back into, however that schema was made. -/
inductive IsStart : ColumnBuilder → Prop
  | new : IsStart .empty
  | again {ops : List SchemaOperation} {l : ColumnList} (h : l ∈ (Workbench.runColumns ops).made) :
    IsStart l.asBuilder

theorem columns_builder (s : Schema) (part : Namespace) :
    s.builder.columns part = place part 0 (s.fields part) := by
  cases part <;> rfl

theorem namesWith_builder :
    s.builder.namesWith as part = (s.fieldsWith as part).map Field.name := by
  rw [namesWith, columns_builder, map_name_place, fieldsWith, List.map_append]

theorem call_builder (s : Schema) (c : BuilderCall) :
    s.builder.call c = (s.call c).map builder := by
  cases c with
  | add part name type => exact s.add_builder part ⟨name, type⟩
  | addColumns part columns => exact s.addAll_builder part (columns.map Column.field)

/-- **Calls do to the columns of a schema what they do to the schema.** -/
theorem callAll_builder (s : Schema) (calls : List BuilderCall) :
    s.builder.callAll calls = (s.callAll calls).map builder := by
  induction calls generalizing s with
  | nil => rfl
  | cons c calls ih =>
    rw [callAll, List.foldlM_cons, call_builder, Schema.callAll, List.foldlM_cons]
    cases s.call c with
    | error e => rfl
    | ok t => exact ih t

/-- The additions that calls come to, made to the columns of a schema. -/
theorem callAll_builder_eq_map (s : Schema) (calls : List BuilderCall) :
    s.builder.callAll calls = (s.addEach (calls.flatMap additions)).map builder := by
  rw [callAll_builder, callAll_eq_addEach]

/-- **All calls succeed if names stay apart within each namespace**, and only then. -/
theorem exists_callAll_iff (s : Schema) (calls : List BuilderCall) :
    (∃ b, s.builder.callAll calls = .ok b) ↔
      ∀ part, (s.builder.namesWith (calls.flatMap additions) part).Nodup := by
  simp only [callAll_builder_eq_map, Except.map_eq_ok_iff, namesWith_builder]
  rw [← StaysApart, ← exists_addEach_iff]
  exact ⟨fun ⟨_, t, ht, _⟩ => ⟨t, ht⟩, fun ⟨t, ht⟩ => ⟨_, t, ht, rfl⟩⟩

/-- **What was added stands behind what was there**, in each namespace. -/
theorem eq_ofFields_of_callAll {calls : List BuilderCall} (h : s.builder.callAll calls = .ok b) :
    b = .ofFields (s.key ++ fieldsTo .key (calls.flatMap additions))
      (s.value ++ fieldsTo .value (calls.flatMap additions)) := by
  rw [callAll_builder_eq_map, Except.map_eq_ok_iff] at h
  obtain ⟨t, ht, rfl⟩ := h
  exact congrArg₂ ofFields (fields_of_addEach ht .key) (fields_of_addEach ht .value)

/-- **Calls fail at the first addition whose name is taken.** -/
theorem callAll_eq_error_iff {calls : List BuilderCall} {e : Error} :
    s.builder.callAll calls = .error e ↔
      ∃ before a after, calls.flatMap additions = before ++ a :: after ∧
        (∀ part, (s.builder.namesWith before part).Nodup) ∧
        a.field.name ∈ s.builder.namesWith before a.part ∧ e = a.clash := by
  simp only [callAll_builder_eq_map, Except.map_eq_error_iff, namesWith_builder]
  exact addEach_eq_error_iff

/-- A builder that calls start from has the columns of a schema. -/
theorem IsStart.exists_builder (h : start.IsStart) : ∃ s : Schema, start = s.builder := by
  cases h with
  | new => exact ⟨Schema.empty, rfl⟩
  | @again ops l h =>
    obtain ⟨s, -, rfl⟩ := Workbench.exists_list_of_mem_made h
    exact ⟨s, s.asBuilder_list⟩

/-- **What a row of calls comes to**, whichever of them add in bulk and however the namespaces take
turns.  All calls succeed if the names stay apart within each namespace.  Then the list has the
columns that were there and those that were added, of the key first and each at its place; so rows
of calls that add the same to the key and the same to the value make the same list, or none.
Otherwise the first addition that repeats a name is reported.  What else a bulk call says of its
columns than their names and types does not count. -/
theorem callAll_exact (hstart : start.IsStart) (calls : List BuilderCall) :
    (∃ s : Schema, start = s.builder ∧ start.callAll calls = (s.callAll calls).map builder) ∧
    ((∃ b, start.callAll calls = .ok b) ↔
      ∀ part, (start.namesWith (calls.flatMap additions) part).Nodup) ∧
    (∀ b, start.callAll calls = .ok b →
      b.build.key = place .key 0
        (start.key.map Column.field ++ fieldsTo .key (calls.flatMap additions)) ∧
      b.build.value = place .value 0
        (start.value.map Column.field ++ fieldsTo .value (calls.flatMap additions)) ∧
      b.build.columns = b.build.key ++ b.build.value) ∧
    (∀ calls' : List BuilderCall,
      (∀ part, fieldsTo part (calls'.flatMap additions) = fieldsTo part (calls.flatMap additions)) →
        ((start.callAll calls').map build).toOption = ((start.callAll calls).map build).toOption) ∧
    (∀ e, start.callAll calls = .error e ↔
      ∃ before a after, calls.flatMap additions = before ++ a :: after ∧
        (∀ part, (start.namesWith before part).Nodup) ∧
        a.field.name ∈ start.namesWith before a.part ∧
        e = .duplicateColumn a.part a.field.name a.field.type) ∧
    (∀ e, start.callAll calls = .error e → e.code = "SCHEMA_001") ∧
    ∀ calls' : List BuilderCall, calls'.flatMap additions = calls.flatMap additions →
      start.callAll calls' = start.callAll calls := by
  obtain ⟨s, rfl⟩ := hstart.exists_builder
  refine ⟨⟨s, rfl, callAll_builder s calls⟩, exists_callAll_iff s calls, fun b hb => ?_,
    fun calls' hsame => ?_, fun e => callAll_eq_error_iff, fun e he => ?_, fun calls' hsame => ?_⟩
  · have hkey : s.builder.key.map Column.field = s.key := map_field_place .key 0 s.key
    have hvalue : s.builder.value.map Column.field = s.value := map_field_place .value 0 s.value
    rw [hkey, hvalue, eq_ofFields_of_callAll hb]
    exact ⟨List.take_left, List.drop_left, (List.take_append_drop ..).symm⟩
  · simp only [callAll_builder_eq_map, Workbench.toOption_map, addEach_congr hsame]
  · obtain ⟨before, a, after, -, -, -, rfl⟩ := callAll_eq_error_iff.1 he
    rfl
  · rw [callAll_builder_eq_map, callAll_builder_eq_map, hsame]

/-- Accounts that a finished schema goes on with.  What the columns of a bulk call say of places
they had elsewhere is not looked at, and the second bulk call stops halfway. -/
theorem callAll_exact_accounts :
    ∃ l ∈ (Workbench.runColumns [.add .key "id" (.primitive .integer), .build]).made,
      (∃ b, l.asBuilder.callAll
          [.addColumns .value [⟨"name", .primitive .string, .key, 7⟩,
            ⟨"id", .primitive .integer, .key, 0⟩],
            .add .key "region" (.primitive .string)] = .ok b ∧
        b.build.key = [⟨"id", .primitive .integer, .key, 0⟩,
          ⟨"region", .primitive .string, .key, 1⟩] ∧
        b.build.value = [⟨"name", .primitive .string, .value, 0⟩,
          ⟨"id", .primitive .integer, .value, 1⟩]) ∧
      l.asBuilder.callAll
          [.add .value "name" (.primitive .string), .addColumns .value
            [⟨"city", .primitive .string, .key, 0⟩, ⟨"name", .primitive .bytes, .key, 1⟩],
            .add .key "id" (.primitive .integer)] =
        .error (.duplicateColumn .value "name" (.primitive .bytes)) := by
  have hmade : (⟨[⟨"id", .primitive .integer, .key, 0⟩], 1⟩ : ColumnList) ∈
      (Workbench.runColumns [.add .key "id" (.primitive .integer), .build]).made := by decide
  refine ⟨_, hmade, ?_, ?_⟩
  · obtain ⟨-, hok, hbuilt, -⟩ := callAll_exact (.again hmade)
      [.addColumns .value [⟨"name", .primitive .string, .key, 7⟩,
        ⟨"id", .primitive .integer, .key, 0⟩], .add .key "region" (.primitive .string)]
    obtain ⟨b, hb⟩ := hok.2 fun part => by cases part <;> decide
    exact ⟨b, hb, (hbuilt b hb).1, (hbuilt b hb).2.1⟩
  · obtain ⟨-, -, -, -, herror, -⟩ := callAll_exact (.again hmade)
      [.add .value "name" (.primitive .string), .addColumns .value
        [⟨"city", .primitive .string, .key, 0⟩, ⟨"name", .primitive .bytes, .key, 1⟩],
        .add .key "id" (.primitive .integer)]
    refine (herror _).2
      ⟨[⟨.value, "name", .primitive .string⟩, ⟨.value, "city", .primitive .string⟩],
        ⟨.value, "name", .primitive .bytes⟩, [⟨.key, "id", .primitive .integer⟩], rfl, ?_, ?_, rfl⟩
    · intro part
      cases part <;> decide
    · decide

end ColumnBuilder
end StreamTables
