/-!
# Listings are read in one way

Columns and the fields of structs are written one behind the other, with a comma and a blank between
them, and commas and blanks also occur inside of them.  So a listing cannot be split at its commas.
It can be read from the left: each item says itself where it ends, whatever follows it.

## What is here

* `Text.Stops`: what follows a run of characters of one kind, at the place where it ends.
* `Text.append_inj_of_stops`: the run and what follows it are told apart in one way.
* `Text.FollowsItem`, `Text.FollowsListing`: what may follow an item and what may follow a listing.
* `Text.listing_inj`: if the items are read in one way, so is the listing.
-/

set_option autoImplicit false

namespace StreamTables
namespace Text

/-! ## Runs of characters -/

/-- A text that does not go on with a character of the kind. -/
def Stops (kind : Char → Bool) (rest : List Char) : Prop := ∀ c ∈ rest.head?, kind c = false

variable {kind : Char → Bool} {run run' rest rest' : List Char}

theorem stops_nil : Stops kind [] := nofun

theorem stops_cons {c : Char} (h : kind c = false) : Stops kind (c :: rest) := by
  intro d hd
  cases hd
  exact h

/-- A run in front of a text in which it stops is what can be taken of its kind. -/
theorem takeWhile_run (hrun : ∀ c ∈ run, kind c = true) (hrest : Stops kind rest) :
    (run ++ rest).takeWhile kind = run := by
  rw [List.takeWhile_append_of_pos hrun]
  cases rest with
  | nil => simp
  | cons c rest => simp [hrest c rfl]

/-- **A run ends where its characters do**, so it and the rest are told apart in one way. -/
theorem append_inj_of_stops (hrun : ∀ c ∈ run, kind c = true) (hrun' : ∀ c ∈ run', kind c = true)
    (hrest : Stops kind rest) (hrest' : Stops kind rest') (h : run ++ rest = run' ++ rest') :
    run = run' ∧ rest = rest' := by
  have heq : run = run' := by
    rw [← takeWhile_run hrun hrest, h, takeWhile_run hrun' hrest']
  subst heq
  exact ⟨rfl, List.append_cancel_left h⟩

/-! ## Listings -/

/-- What may follow an item: nothing, a comma, or the bracket at the end of the listing. -/
def FollowsItem (rest : List Char) : Prop := ∀ c ∈ rest.head?, c = ',' ∨ c = '>'

/-- What may follow a listing: nothing, or the bracket at its end. -/
def FollowsListing (rest : List Char) : Prop := ∀ c ∈ rest.head?, c = '>'

variable {α β : Type} {write : α → List Char} {key : α → β} {a b : α} {as bs : List α}

/-- Two items that are written alike are alike, and what follows them is the same. -/
def ReadAlike (write : α → List Char) (key : α → β) (a b : α) : Prop :=
  ∀ rest rest', FollowsItem rest → FollowsItem rest' → write a ++ rest = write b ++ rest' →
    key a = key b ∧ rest = rest'

/-- Items that follow others, each behind a comma and a blank. -/
def continued (write : α → List Char) (as : List α) : List Char :=
  as.flatMap fun a => ',' :: ' ' :: write a

theorem intercalate_cons (write : α → List Char) (a : α) (as : List α) :
    [',', ' '].intercalate ((a :: as).map write) = write a ++ continued write as := by
  induction as generalizing a with
  | nil => simp [continued]
  | cons b as ih =>
    rw [List.map_cons, List.map_cons, List.intercalate_cons_cons, ← List.map_cons, ih b]
    simp [continued]

/-- Items that follow others are a listing behind a comma and a blank. -/
theorem continued_cons (write : α → List Char) (a : α) (as : List α) :
    continued write (a :: as) = [',', ' '] ++ [',', ' '].intercalate ((a :: as).map write) := by
  rw [intercalate_cons]
  rfl

theorem followsItem_continued (hrest : FollowsListing rest) :
    FollowsItem (continued write as ++ rest) := by
  cases as with
  | nil => exact fun c hc => .inr (hrest c hc)
  | cons a as =>
    intro c hc
    cases hc
    exact .inl rfl

/-- What follows a listing is no comma. -/
theorem ne_comma_of_followsListing (hrest : FollowsListing rest) (cs : List Char) :
    rest ≠ ',' :: cs := by
  rintro rfl
  exact absurd (hrest ',' rfl) (by decide)

/-- Items that follow others are read one by one: a comma says that there is one more. -/
theorem continued_inj (hread : ∀ a ∈ as, ∀ b ∈ bs, ReadAlike write key a b)
    (hrest : FollowsListing rest) (hrest' : FollowsListing rest')
    (h : continued write as ++ rest = continued write bs ++ rest') :
    as.map key = bs.map key ∧ rest = rest' := by
  -- what follows an item is the rest of the listing, so `hread` is needed for every remainder
  induction as generalizing bs with
  | nil =>
    cases bs with
    | nil => exact ⟨rfl, h⟩
    | cons b bs => exact absurd h (ne_comma_of_followsListing hrest _)
  | cons a as ih =>
    cases bs with
    | nil => exact absurd h.symm (ne_comma_of_followsListing hrest' _)
    | cons b bs =>
      have hitems : write a ++ (continued write as ++ rest) =
          write b ++ (continued write bs ++ rest') := by
        simpa [continued] using h
      obtain ⟨hkey, htail⟩ := hread a (List.mem_cons_self ..) b (List.mem_cons_self ..) _ _
        (followsItem_continued hrest) (followsItem_continued hrest') hitems
      obtain ⟨hkeys, heq⟩ := ih (fun a ha b hb =>
        hread a (List.mem_cons_of_mem _ ha) b (List.mem_cons_of_mem _ hb)) htail
      exact ⟨List.cons_eq_cons.2 ⟨hkey, hkeys⟩, heq⟩

/-- **A listing is read in one way if its items are**, and if none of them begins like what follows
a listing. -/
theorem listing_inj (hread : ∀ a ∈ as, ∀ b ∈ bs, ReadAlike write key a b)
    (hwrite : ∀ a rest, ¬ FollowsListing (write a ++ rest))
    (hrest : FollowsListing rest) (hrest' : FollowsListing rest')
    (h : [',', ' '].intercalate (as.map write) ++ rest =
      [',', ' '].intercalate (bs.map write) ++ rest') :
    as.map key = bs.map key ∧ rest = rest' := by
  cases as with
  | nil =>
    cases bs with
    | nil => exact ⟨rfl, h⟩
    | cons b bs =>
      have heq : rest = write b ++ (continued write bs ++ rest') := by
        rw [← List.append_assoc, ← intercalate_cons]
        exact h
      exact absurd (heq ▸ hrest) (hwrite b _)
  | cons a as =>
    cases bs with
    | nil =>
      have heq : rest' = write a ++ (continued write as ++ rest) := by
        rw [← List.append_assoc, ← intercalate_cons]
        exact h.symm
      exact absurd (heq ▸ hrest') (hwrite a _)
    | cons b bs =>
      refine continued_inj hread hrest hrest' ?_
      rw [continued_cons, continued_cons]
      exact congrArg ([',', ' '] ++ ·) h

end Text
end StreamTables
