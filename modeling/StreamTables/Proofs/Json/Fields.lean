import StreamTables.Proofs.Json.ReadBack

/-!
# The fields of a struct that was read

A struct is read from an object or from an array, and in an object its fields may come in any order
and with others between them.  This file says what is known of one field of a struct that was read,
however it was given: the text gives it once, and it passed the decoder of the field.

## What is here

* `Json.Gives`: a tree gives a value for a field.
* `Json.OwnsField`: the component of a draft that a field is read into.
* `Json.of_decodeFields_cons`: all that reading a field can do.
* `Json.of_decodeStruct`: what was read into the component is what the tree gives for the field.
-/

set_option autoImplicit false

namespace StreamTables
namespace Json

/-- A tree gives a value for a field of a struct: an object under the name of the field, and an
array at its place. -/
inductive Gives (names : List String) (name : String) : Json → Json → Prop
  | named {fields : List (Literal × Json)} {literal : Literal} {j : Json}
      (hname : literal.text? = some name) (h : (literal, j) ∈ fields) :
      Gives names name (.object fields) j
  | placed {items : List Json} {i : Nat} {j : Json}
      (hname : names[i]? = some name) (h : items[i]? = some j) :
      Gives names name (.array items) j

variable {σ α γ : Type} {names : List String} {name : String}

/-- A field is read into a component of the draft, and nothing else is. What was read into it
satisfies a condition. -/
structure OwnsField (field : σ → String → Json → Except Refusal σ) (name : String) (get : σ → γ)
    (p : Json → γ → Prop) : Prop where
  own : ∀ {draft draft' : σ} {j : Json}, field draft name j = .ok draft' → p j (get draft')
  frame : ∀ {draft draft' : σ} {other : String} {j : Json}, field draft other j = .ok draft' →
    other ≠ name → get draft' = get draft

variable {field : σ → String → Json → Except Refusal σ} {get : σ → γ} {p : Json → γ → Prop}

/-- All that reading the first field of an object can do: a field that is known is read, for the
first time, and any other is passed over. -/
theorem of_decodeFields_cons {seen : List String} {literal : Literal} {j : Json}
    {fields : List (Literal × Json)} {draft draft' : σ}
    (h : decodeFields names field seen ((literal, j) :: fields) draft = .ok draft') :
    ∃ other, literal.text? = some other ∧
      ((other ∉ seen ∧ ∃ between, field draft other j = .ok between ∧
          decodeFields names field (other :: seen) fields between = .ok draft') ∨
        (other ∉ names ∧ decodeFields names field seen fields draft = .ok draft')) := by
  rw [decodeFields] at h
  split at h
  · cases h
  · next other htext =>
    refine ⟨other, htext, ?_⟩
    split at h
    · split at h
      · cases h
      · next hseen =>
        exact .inl ⟨fun hmem => hseen (List.contains_iff_mem.2 hmem), Except.bind_eq_ok_iff.1 h⟩
    · next hunknown =>
      split at h
      · exact .inr ⟨fun hmem => hunknown (List.contains_iff_mem.2 hmem), h⟩
      · cases h

/-- The field of an object that is read into a component comes once, or not at all. -/
theorem OwnsField.of_decodeFields (ho : OwnsField field name get p) (hname : name ∈ names)
    {seen : List String} {fields : List (Literal × Json)} {draft draft' : σ}
    (h : decodeFields names field seen fields draft = .ok draft') :
    (∀ f ∈ fields, f.1.text? = some name → name ∉ seen ∧ p f.2 (get draft')) ∧
      ((∀ f ∈ fields, f.1.text? ≠ some name) → get draft' = get draft) := by
  induction fields generalizing seen draft with
  | nil =>
    cases h
    exact ⟨List.forall_mem_nil _, fun _ => rfl⟩
  | cons f fields ih =>
    simp only [List.forall_mem_cons]
    obtain ⟨other, hother, hstep⟩ := of_decodeFields_cons h
    by_cases heq : other = name
    · subst heq
      rcases hstep with ⟨hseen, between, hread, hrest⟩ | ⟨hunknown, -⟩
      · obtain ⟨hall, hnone⟩ := ih hrest
        -- The field is not given again, since its name has been seen.
        have hlast : ∀ f ∈ fields, f.1.text? ≠ some other := fun f hf htext =>
          (hall f hf htext).1 (List.mem_cons_self ..)
        refine ⟨⟨fun _ => ⟨hseen, ?_⟩, fun f hf htext => absurd htext (hlast f hf)⟩,
          fun hfirst => absurd hother hfirst.1⟩
        rw [hnone hlast]
        exact ho.own hread
      · exact absurd hname hunknown
    · have hne : f.1.text? ≠ some name := fun htext =>
        heq (Option.some.inj (hother.symm.trans htext))
      rcases hstep with ⟨-, between, hread, hrest⟩ | ⟨-, hrest⟩
      · obtain ⟨hall, hnone⟩ := ih hrest
        refine ⟨⟨fun htext => absurd htext hne, fun f hf htext => ?_⟩, fun hfirst => ?_⟩
        · obtain ⟨hunseen, hp⟩ := hall f hf htext
          exact ⟨fun hmem => hunseen (List.mem_cons_of_mem _ hmem), hp⟩
        · rw [hnone hfirst.2, ho.frame hread heq]
      · obtain ⟨hall, hnone⟩ := ih hrest
        exact ⟨⟨fun htext => absurd htext hne, hall⟩, fun hfirst => hnone hfirst.2⟩

/-- The item of an array that is read into a component is the one at its place. -/
theorem OwnsField.of_decodeItems (ho : OwnsField field name get p) (hnodup : names.Nodup)
    {items : List Json} {draft draft' : σ} (h : decodeItems field names items draft = .ok draft') :
    (∀ (i : Nat) (j : Json), names[i]? = some name → items[i]? = some j → p j (get draft')) ∧
      ((∀ (i : Nat) (j : Json), names[i]? = some name → items[i]? ≠ some j) →
        get draft' = get draft) := by
  induction names generalizing items draft with
  | nil =>
    cases h
    exact ⟨fun _ _ hname => (nomatch hname), fun _ => rfl⟩
  | cons first names ih =>
    cases items with
    | nil =>
      cases h
      exact ⟨fun _ _ _ hitem => (nomatch hitem), fun _ => rfl⟩
    | cons item items =>
      rw [List.nodup_cons] at hnodup
      rw [decodeItems] at h
      obtain ⟨between, hread, hrest⟩ := Except.bind_eq_ok_iff.1 h
      obtain ⟨hall, hnone⟩ := ih hnodup.2 hrest
      by_cases heq : first = name
      · subst heq
        have hlast : ∀ i : Nat, names[i]? ≠ some first := fun i hi =>
          hnodup.1 (List.mem_of_getElem? hi)
        refine ⟨fun i j hname hitem => ?_, fun hfirst => absurd rfl (hfirst 0 item rfl)⟩
        cases i with
        | zero =>
          cases hitem
          rw [hnone fun i _ hi => absurd hi (hlast i)]
          exact ho.own hread
        | succ i => exact absurd hname (hlast i)
      · refine ⟨fun i j hname hitem => ?_, fun hfirst => ?_⟩
        · cases i with
          | zero => exact absurd (Option.some.inj hname) heq
          | succ i => exact hall i j hname hitem
        · rw [hnone fun i j => hfirst (i + 1) j, ho.frame hread heq]

/-- **What was read into a component is what the tree gives for its field**, and if the tree does
not give it, the component is as it was. -/
theorem of_decodeStruct {field : Nat → σ → String → Json → Except Refusal σ}
    {p : Nat → Json → γ → Prop} {empty : σ} {finish : σ → Option α} {depth : Nat} {j : Json} {a : α}
    (ho : ∀ d, OwnsField (field d) name get (p d)) (hname : name ∈ names) (hnodup : names.Nodup)
    (h : decodeStruct names field empty finish depth j = .ok a) :
    ∃ d draft, depth = d + 1 ∧ finish draft = some a ∧
      (∀ i, Gives names name j i → p d i (get draft)) ∧
      ((∀ i, ¬ Gives names name j i) → get draft = get empty) := by
  unfold decodeStruct at h
  split at h
  · next d fields =>
    obtain ⟨draft, hread, hfinish⟩ := Except.bind_eq_ok_iff.1 h
    obtain ⟨hall, hnone⟩ := (ho d).of_decodeFields hname hread
    refine ⟨d, draft, rfl, orRefuse_eq_ok_iff.1 hfinish, fun i hi => ?_, fun hi => hnone ?_⟩
    · cases hi with
      | named htext hmem => exact (hall _ hmem htext).2
    · exact fun f hf htext => hi f.2 (.named htext hf)
  · next d items =>
    obtain ⟨draft, hread, hrest⟩ := Except.bind_eq_ok_iff.1 h
    obtain ⟨hall, hnone⟩ := (ho d).of_decodeItems hnodup hread
    split at hrest
    · refine ⟨d, draft, rfl, orRefuse_eq_ok_iff.1 hrest, fun i hi => ?_, fun hi => hnone ?_⟩
      · cases hi with
        | placed hplace hitem => exact hall _ i hplace hitem
      · exact fun i j hplace hitem => hi j (.placed hplace hitem)
    · exact nomatch hrest
  · exact nomatch h

end Json
end StreamTables
