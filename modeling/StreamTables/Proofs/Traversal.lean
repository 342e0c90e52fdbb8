import Mathlib.Data.List.Forall2
import Mathlib.Data.List.Induction

/-!
# Steps that may fail, and lists of them

## What is here

* `Except.bind_eq_ok_iff`, `Except.map_eq_ok_iff`, `Except.mapError_eq_ok_iff`,
  `Except.toOption_eq_some_iff`: what a success consists of.
* `Except.bind_eq_error_iff`, `Except.map_eq_error_iff`: where a failure comes from.
* `List.mapM_eq_ok_iff`: a traversal succeeds if each of its steps does.
* `List.Forall₂.append`, `List.Forall₂.comp`, `List.Forall₂.exists_of_mem`: lists related one by
  one.
* `List.find?_eq_of_imp`: two conditions that find the same.
* `List.exists_append_of_not`: the first element at which a property of lists is lost.
-/

set_option autoImplicit false

variable {α β ε : Type}

theorem Except.bind_eq_ok_iff {x : Except ε α} {f : α → Except ε β} {b : β} :
    x >>= f = .ok b ↔ ∃ a, x = .ok a ∧ f a = .ok b := by
  cases x with
  | error e => exact ⟨(nomatch ·), fun ⟨_, h, _⟩ => nomatch h⟩
  | ok a => exact ⟨fun h => ⟨a, rfl, h⟩, fun ⟨_, h, hf⟩ => by cases h; exact hf⟩

theorem Except.bind_eq_error_iff {x : Except ε α} {f : α → Except ε β} {e : ε} :
    x >>= f = .error e ↔ x = .error e ∨ ∃ a, x = .ok a ∧ f a = .error e := by
  cases x with
  | error e' =>
    constructor
    · exact fun h => .inl (congrArg Except.error (Except.error.inj h))
    · rintro (h | ⟨_, h, -⟩)
      · exact congrArg Except.error (Except.error.inj h)
      · exact nomatch h
  | ok a =>
    constructor
    · exact fun h => .inr ⟨a, rfl, h⟩
    · rintro (h | ⟨_, h, hf⟩)
      · exact nomatch h
      · cases h
        exact hf

theorem Except.map_eq_ok_iff {x : Except ε α} {f : α → β} {b : β} :
    x.map f = .ok b ↔ ∃ a, x = .ok a ∧ f a = b := by
  cases x with
  | error e => exact ⟨(nomatch ·), fun ⟨_, h, _⟩ => nomatch h⟩
  | ok a => exact ⟨fun h => ⟨a, rfl, Except.ok.inj h⟩, fun ⟨_, h, hf⟩ => by cases h; rw [← hf]; rfl⟩

theorem Except.map_eq_error_iff {x : Except ε α} {f : α → β} {e : ε} :
    x.map f = .error e ↔ x = .error e := by
  cases x with
  | error e' => exact ⟨fun h => congrArg error (error.inj h), fun h => congrArg error (error.inj h)⟩
  | ok a => exact ⟨(nomatch ·), (nomatch ·)⟩

theorem Except.mapError_eq_ok_iff {ε' : Type} {x : Except ε α} {f : ε → ε'} {a : α} :
    x.mapError f = .ok a ↔ x = .ok a := by
  cases x with
  | error e => exact ⟨(nomatch ·), (nomatch ·)⟩
  | ok b => exact ⟨fun h => congrArg ok (Except.ok.inj h), fun h => congrArg ok (Except.ok.inj h)⟩

theorem Except.toOption_eq_some_iff {x : Except ε α} {a : α} : x.toOption = some a ↔ x = .ok a := by
  cases x with
  | error e => exact ⟨(nomatch ·), (nomatch ·)⟩
  | ok b =>
    exact ⟨fun h => congrArg ok (Option.some.inj h), fun h => congrArg some (Except.ok.inj h)⟩

/-- **A traversal succeeds if each of its steps does.** -/
theorem List.mapM_eq_ok_iff {f : α → Except ε β} {as : List α} {bs : List β} :
    as.mapM f = .ok bs ↔ List.Forall₂ (fun a b => f a = .ok b) as bs := by
  induction as generalizing bs with
  | nil =>
    rw [List.mapM_nil, List.forall₂_nil_left_iff]
    exact ⟨fun h => (Except.ok.inj h).symm, fun h => h ▸ rfl⟩
  | cons a as ih =>
    rw [List.mapM_cons, Except.bind_eq_ok_iff, List.forall₂_cons_left_iff]
    constructor
    · rintro ⟨b, hb, h⟩
      obtain ⟨cs, hcs, h⟩ := Except.bind_eq_ok_iff.1 h
      exact ⟨b, cs, hb, ih.1 hcs, (Except.ok.inj h).symm⟩
    · rintro ⟨b, cs, hb, hcs, rfl⟩
      exact ⟨b, hb, Except.bind_eq_ok_iff.2 ⟨cs, ih.2 hcs, rfl⟩⟩

/-- Each element of a list has a partner in a related one. -/
theorem List.Forall₂.exists_of_mem {r : α → β → Prop} {as : List α} {bs : List β}
    (h : List.Forall₂ r as bs) {a : α} (ha : a ∈ as) : ∃ b ∈ bs, r a b := by
  induction h with
  | nil => exact nomatch ha
  | cons hab _ ih =>
    rcases List.mem_cons.1 ha with rfl | ha
    · exact ⟨_, List.mem_cons_self .., hab⟩
    · obtain ⟨b, hb, hr⟩ := ih ha
      exact ⟨b, List.mem_cons_of_mem _ hb, hr⟩

theorem List.Forall₂.append {r : α → β → Prop} {as cs : List α} {bs ds : List β}
    (h : List.Forall₂ r as bs) (h' : List.Forall₂ r cs ds) :
    List.Forall₂ r (as ++ cs) (bs ++ ds) := by
  induction h with
  | nil => exact h'
  | cons hab _ ih => exact .cons hab ih

/-- Lists that relate to a third one, one by one. -/
theorem List.Forall₂.comp {γ : Type} {r : α → β → Prop} {q : β → γ → Prop} {p : α → γ → Prop}
    (hrq : ∀ a b c, r a b → q b c → p a c) {as : List α} {bs : List β} {cs : List γ}
    (h : List.Forall₂ r as bs) (h' : List.Forall₂ q bs cs) : List.Forall₂ p as cs := by
  induction h generalizing cs with
  | nil =>
    cases h'
    exact .nil
  | cons hab _ ih =>
    cases h' with
    | cons hbc h' => exact .cons (hrq _ _ _ hab hbc) (ih h')

/-- If what is found by a weaker condition satisfies a stronger one, the stronger one finds it. -/
theorem List.find?_eq_of_imp {p q : α → Bool} {as : List α}
    (himp : ∀ a ∈ as, q a = true → p a = true) (hfound : ∀ a ∈ as.find? p, q a = true) :
    as.find? p = as.find? q := by
  induction as with
  | nil => rfl
  | cons a as ih =>
    rw [List.forall_mem_cons] at himp
    by_cases hp : p a = true
    · have hfind : (a :: as).find? p = some a := List.find?_cons_of_pos hp
      rw [hfind, List.find?_cons_of_pos (hfound a hfind)]
    · have hq : ¬ q a = true := fun h => hp (himp.1 h)
      rw [List.find?_cons_of_neg hp] at hfound ⊢
      rw [List.find?_cons_of_neg hq]
      exact ih himp.2 hfound

/-- **A property that holds of no elements and not of all is lost somewhere**, at the first element
with which it does not hold. -/
theorem List.exists_append_of_not {p : List α → Prop} {as : List α} (hnil : p []) (h : ¬ p as) :
    ∃ before a after, as = before ++ a :: after ∧ p before ∧ ¬ p (before ++ [a]) := by
  induction as using List.reverseRecOn with
  | nil => exact absurd hnil h
  | append_singleton as a ih =>
    by_cases has : p as
    · exact ⟨as, a, [], rfl, has, h⟩
    · obtain ⟨before, b, after, rfl, hbefore, hb⟩ := ih has
      exact ⟨before, b, after ++ [a], List.append_assoc .., hbefore, hb⟩

theorem Option.Rel.isSome_eq {r : α → β → Prop} {a : Option α} {b : Option β}
    (h : Option.Rel r a b) : a.isSome = b.isSome := by
  cases h <;> rfl
