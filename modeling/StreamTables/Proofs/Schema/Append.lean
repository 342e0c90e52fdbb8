import StreamTables.Schema.Rebuild

/-!
# Appending fields, all together

`Schema.add` takes one field at a time and stops at the first name that is taken.  This file says
what a whole list of fields comes to: `Schema.addAll` succeeds exactly when the names stay apart,
and then the fields stand behind those that were there.

## What is here

* `Schema.fields_of_add`, `Schema.fields_of_addAll`: what was appended, and where.
* `Schema.addAll_eq_ok`: fields whose names stay apart are all taken.
* `Schema.nodup_of_addAll`: only such fields are.
* `Schema.addAll_eq_error`: the first field whose name is taken is the one that is reported.
* `Schema.exists_of_addAll_eq_error`: every error is about one of the fields.
-/

set_option autoImplicit false

namespace StreamTables
namespace Schema

variable {part other : Namespace} {s t : Schema} {f : Field} {fs : List Field}

theorem nodup_fields (s : Schema) (part : Namespace) : ((s.fields part).map Field.name).Nodup := by
  cases part with
  | key => exact s.nodup_key
  | value => exact s.nodup_value

/-- Two schemas with the same fields in both namespaces are one. -/
theorem ext_fields (h : ∀ part, s.fields part = t.fields part) : s = t :=
  Schema.ext (h .key) (h .value)

/-! ## One field -/

theorem fields_append_self (free : f.name ∉ (s.fields part).map Field.name) :
    (s.append part f free).fields part = s.fields part ++ [f] := by
  cases part <;> rfl

theorem fields_append_of_ne (free : f.name ∉ (s.fields part).map Field.name) (h : other ≠ part) :
    (s.append part f free).fields other = s.fields other := by
  cases part <;> cases other <;> first | rfl | exact absurd rfl h

/-- What a field that was added did to the namespace it was added to, and to the other one. -/
theorem fields_of_add (h : s.add part f = .ok t) :
    t.fields part = s.fields part ++ [f] ∧
      ∀ other, other ≠ part → t.fields other = s.fields other := by
  rw [add] at h
  split at h
  · exact nomatch h
  · next free =>
    cases h
    exact ⟨fields_append_self free, fun _ hne => fields_append_of_ne free hne⟩

theorem add_eq_ok (free : f.name ∉ (s.fields part).map Field.name) : ∃ t, s.add part f = .ok t :=
  ⟨s.append part f free, dif_neg free⟩

theorem add_eq_error (taken : f.name ∈ (s.fields part).map Field.name) :
    s.add part f = .error (.duplicateColumn part f.name f.type) :=
  dif_pos taken

/-! ## Many fields -/

theorem addAll_nil : s.addAll part [] = .ok s := rfl

theorem addAll_append {gs : List Field} :
    s.addAll part (fs ++ gs) = s.addAll part fs >>= fun t => t.addAll part gs :=
  List.foldlM_append

theorem addAll_cons : s.addAll part (f :: fs) = (s.add part f).bind fun t => t.addAll part fs := rfl

/-- Fields that were all added stand behind those that were there, and the other namespace is as
it was. -/
theorem fields_of_addAll (h : s.addAll part fs = .ok t) :
    t.fields part = s.fields part ++ fs ∧
      ∀ other, other ≠ part → t.fields other = s.fields other := by
  induction fs generalizing s with
  | nil =>
    rw [addAll_nil] at h
    cases h
    exact ⟨(List.append_nil _).symm, fun _ _ => rfl⟩
  | cons f fs ih =>
    rw [addAll_cons] at h
    cases hadd : s.add part f with
    | error e => rw [hadd] at h; exact nomatch h
    | ok u =>
      rw [hadd] at h
      obtain ⟨hself, hother⟩ := ih h
      obtain ⟨hself', hother'⟩ := fields_of_add hadd
      refine ⟨?_, fun other hne => (hother other hne).trans (hother' other hne)⟩
      rw [hself, hself', List.append_assoc, List.singleton_append]

/-- **Fields are all taken if their names stay apart**, from each other and from those that are
there. -/
theorem addAll_eq_ok (h : ((s.fields part ++ fs).map Field.name).Nodup) :
    ∃ t, s.addAll part fs = .ok t := by
  induction fs generalizing s with
  | nil => exact ⟨s, rfl⟩
  | cons f fs ih =>
    have free : f.name ∉ (s.fields part).map Field.name := by
      rw [List.map_append, List.nodup_append] at h
      exact fun hf => h.2.2 _ hf _ (List.mem_cons_self ..) rfl
    obtain ⟨u, hu⟩ := add_eq_ok free
    have hu' : ((u.fields part ++ fs).map Field.name).Nodup := by
      rw [(fields_of_add hu).1, List.append_assoc]
      exact h
    obtain ⟨t, ht⟩ := ih hu'
    exact ⟨t, by rw [addAll_cons, hu]; exact ht⟩

/-- Fields that were all added have names that stay apart. -/
theorem nodup_of_addAll (h : s.addAll part fs = .ok t) :
    ((s.fields part ++ fs).map Field.name).Nodup := by
  rw [← (fields_of_addAll h).1]
  exact t.nodup_fields part

/-- **The first field whose name is taken stops the rest.** -/
theorem addAll_eq_error {gs : List Field} (h : ((s.fields part ++ fs).map Field.name).Nodup)
    (taken : f.name ∈ (s.fields part ++ fs).map Field.name) :
    s.addAll part (fs ++ f :: gs) = .error (.duplicateColumn part f.name f.type) := by
  obtain ⟨t, ht⟩ := addAll_eq_ok h
  rw [← (fields_of_addAll ht).1] at taken
  rw [addAll_append, ht]
  change t.addAll part (f :: gs) = _
  rw [addAll_cons, add_eq_error taken]
  rfl

/-- The error is about one of the fields that were to be added. -/
theorem exists_of_addAll_eq_error {e : Error} (h : s.addAll part fs = .error e) :
    ∃ f ∈ fs, e = .duplicateColumn part f.name f.type := by
  induction fs generalizing s with
  | nil => exact nomatch h
  | cons f fs ih =>
    by_cases taken : f.name ∈ (s.fields part).map Field.name
    · rw [addAll_cons, add_eq_error taken] at h
      cases h
      exact ⟨f, List.mem_cons_self .., rfl⟩
    · obtain ⟨u, hu⟩ := add_eq_ok taken
      rw [addAll_cons, hu] at h
      obtain ⟨g, hg, rfl⟩ := ih h
      exact ⟨g, List.mem_cons_of_mem _ hg, rfl⟩

/-- Fields of the schema `t` are all that is added to `s` to make it. -/
theorem addAll_eq_of_fields (hself : t.fields part = s.fields part ++ fs)
    (hother : ∀ other, other ≠ part → t.fields other = s.fields other) :
    s.addAll part fs = .ok t := by
  obtain ⟨u, hu⟩ : ∃ u, s.addAll part fs = .ok u :=
    addAll_eq_ok (by rw [← hself]; exact t.nodup_fields part)
  obtain ⟨hu1, hu2⟩ := fields_of_addAll hu
  rw [hu, ext_fields (s := u) (t := t)]
  intro p
  by_cases hp : p = part
  · rw [hp, hu1, hself]
  · rw [hu2 p hp, hother p hp]

end Schema
end StreamTables
