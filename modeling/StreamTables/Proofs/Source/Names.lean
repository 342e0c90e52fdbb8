import StreamTables.Proofs.Source.FailedBuild
import StreamTables.Proofs.Source.Stored
import StreamTables.Proofs.Text.Pieces

/-!
# What the name of a store tells

A store and the topic behind it are named after the steps that lead to their source, with hyphens
between them.  A step may have hyphens of its own, and these look no different.  So a name tells the
pieces between the hyphens, but not which of them made up a step, and sources at different places of
a plan may share a store name and a topic.  Steps without hyphens keep them apart.

## What is here

* `PlanPath.pieces`: the steps of a path, cut at their hyphens.
* `PlanPath.operatorName_eq_iff`: two names are the same if the pieces are.
* `PlanPath.IsPlain`, `PlanPath.eq_of_pieces_eq`: paths that are known from their pieces.
* `TableSource.name_of_mem_stores`: the stores of a table have the name of its source.
* `TableSource.names_eq_iff_pieces`: which sources share their names.
-/

set_option autoImplicit false

namespace StreamTables

/-! ## Paths -/

namespace PlanPath

variable {p q : PlanPath}

/-- The steps of a path, cut at their hyphens.  A path without steps counts as an empty step. -/
def pieces (p : PlanPath) : List (List Char) :=
  if p.steps = [] then [[]] else p.steps.flatMap fun step => step.toList.splitOn '-'

/-- **The pieces of a path are those of its name.** -/
theorem splitOn_operatorName (p : PlanPath) : p.operatorName.toList.splitOn '-' = p.pieces := by
  obtain ⟨steps⟩ := p
  cases steps with
  | nil => rfl
  | cons step steps =>
    have hhyphen : "-".toList = ['-'] := rfl
    rw [operatorName, String.toList_intercalate, hhyphen, List.map_cons,
      Text.splitOn_intercalate_cons, ← List.map_cons, List.flatMap_map, pieces,
      if_neg (List.cons_ne_nil _ _)]

/-- **A name tells the pieces of a path**, and nothing else. -/
theorem operatorName_eq_iff : p.operatorName = q.operatorName ↔ p.pieces = q.pieces := by
  have hjoin : ∀ name : String, ['-'].intercalate (name.toList.splitOn '-') = name.toList :=
    fun _ => List.intercalate_splitOn '-'
  rw [← splitOn_operatorName, ← splitOn_operatorName]
  refine ⟨fun h => by rw [h], fun h => String.toList_inj.1 ?_⟩
  rw [← hjoin p.operatorName, h, hjoin]

/-- A path that is known from its pieces: no step has a hyphen, and there is not just an empty
step. -/
def IsPlain (p : PlanPath) : Prop := (∀ step ∈ p.steps, '-' ∉ step.toList) ∧ p.steps ≠ [""]

instance (p : PlanPath) : Decidable p.IsPlain := inferInstanceAs (Decidable (_ ∧ _))

theorem pieces_of_isPlain (h : p.IsPlain) (hsteps : p.steps ≠ []) :
    p.pieces = p.steps.map String.toList := by
  have hwhole : ∀ text ∈ p.steps.map String.toList, '-' ∉ text := List.forall_mem_map.2 h.1
  rw [pieces, if_neg hsteps, ← Text.flatMap_splitOn_eq_self hwhole, List.flatMap_map]

/-- A plain path with steps does not come to one empty piece. -/
theorem pieces_ne_of_isPlain (h : p.IsPlain) (hsteps : p.steps ≠ []) : p.pieces ≠ [[]] := by
  rw [pieces_of_isPlain h hsteps]
  intro heq
  obtain ⟨step, hstep, hempty⟩ := List.map_eq_singleton_iff.1 heq
  exact h.2 (hstep.trans (congrArg (fun s => [s]) (String.toList_inj.1 hempty)))

theorem eq_of_pieces_eq (hp : p.IsPlain) (hq : q.IsPlain) (h : p.pieces = q.pieces) : p = q := by
  have hempty : ∀ {r : PlanPath}, r.steps = [] → r.pieces = [[]] := fun hr => if_pos hr
  have hext : p.steps = q.steps → p = q := congrArg PlanPath.mk
  by_cases hpsteps : p.steps = []
  · by_cases hqsteps : q.steps = []
    · exact hext (hpsteps.trans hqsteps.symm)
    · exact absurd (h.symm.trans (hempty hpsteps)) (pieces_ne_of_isPlain hq hqsteps)
  · by_cases hqsteps : q.steps = []
    · exact absurd (h.trans (hempty hqsteps)) (pieces_ne_of_isPlain hp hpsteps)
    · rw [pieces_of_isPlain hp hpsteps, pieces_of_isPlain hq hqsteps] at h
      exact hext (List.map_injective_iff.2 (fun _ _ => String.toList_inj.1) h)

end PlanPath

/-! ## Sources -/

theorem Settings.changelogTopic_inj (settings : Settings) {store store' : String} :
    settings.changelogTopic store = settings.changelogTopic store' ↔ store = store' := by
  rw [changelogTopic, changelogTopic, String.append_left_inj, String.append_right_inj]

namespace TableSource

variable {s s' : TableSource} {plan : Plan}

theorem storeName_eq_iff : s.storeName = s'.storeName ↔ s.path.pieces = s'.path.pieces := by
  rw [storeName, storeName, String.append_left_inj, PlanPath.operatorName_eq_iff]

/-- The stores of a table have the name of its source. -/
theorem name_of_mem_stores {t : Table} (ht : s.table plan = .ok t) {store : Store}
    (hstore : store ∈ t.stores) : store.name = s.storeName := by
  obtain ⟨codecs, -, h⟩ := Except.bind_eq_ok_iff.1 ht
  obtain ⟨made, hmade, h⟩ := Except.bind_eq_ok_iff.1 h
  have htable : t = s.tableWith codecs made [] := (Except.ok.inj h).symm
  rw [htable, stores_tableWith, Option.mem_toList] at hstore
  subst hstore
  rw [materialized?] at hmade
  split at hmade
  · obtain ⟨_, hnew, hsome⟩ := Except.bind_eq_ok_iff.1 hmade
    cases hsome
    obtain ⟨_, -, hnew⟩ := Except.bind_eq_ok_iff.1 hnew
    cases hnew
    rfl
  · cases hmade

/-- **The names of two sources are the same if their paths have the same pieces**, and only then.
Both the store and the topic behind it have such a name, whatever the settings are.  Paths whose
steps have no hyphens are kept apart, unless one of them is a single empty step. -/
theorem names_eq_iff_pieces (settings : Settings) (s s' : TableSource) :
    (s.storeName = s'.storeName ↔ s.path.pieces = s'.path.pieces) ∧
    (settings.changelogTopic s.storeName = settings.changelogTopic s'.storeName ↔
      s.path.pieces = s'.path.pieces) ∧
    (s.path.IsPlain → s'.path.IsPlain → s.path ≠ s'.path →
      s.storeName ≠ s'.storeName ∧
        settings.changelogTopic s.storeName ≠ settings.changelogTopic s'.storeName) ∧
    (∀ plan t, s.table plan = .ok t → ∀ store ∈ t.stores, store.name = s.storeName) ∧
    ∀ (streams : Streams) plan built, (streams.build settings plan s).2 = .ok built →
      built.storeName = s.storeName ∧
        built.changelogTopic = settings.changelogTopic s.storeName := by
  have hstore : s.storeName = s'.storeName ↔ s.path.pieces = s'.path.pieces := storeName_eq_iff
  have htopic : settings.changelogTopic s.storeName = settings.changelogTopic s'.storeName ↔
      s.path.pieces = s'.path.pieces := settings.changelogTopic_inj.trans hstore
  refine ⟨hstore, htopic, fun hs hs' hne => ?_, fun plan t ht store => name_of_mem_stores ht,
    fun streams plan built hbuilt => ?_⟩
  · have hpieces : s.path.pieces ≠ s'.path.pieces :=
      fun h => hne (PlanPath.eq_of_pieces_eq hs hs' h)
    exact ⟨fun h => hpieces (hstore.1 h), fun h => hpieces (htopic.1 h)⟩
  · rw [Streams.build] at hbuilt
    split at hbuilt
    · cases hbuilt
    · obtain ⟨schema, -, h⟩ := Except.bind_eq_ok_iff.1 hbuilt
      cases h
      exact ⟨rfl, rfl⟩

end TableSource

/-! ## Logins on phones -/

namespace Logins

/-- Logins on phones, as a step of the plan of logins. -/
def phoneStep : TableSource :=
  { source with topic := "phones", path := ⟨["Logins", "Phone", "Source"]⟩ }

/-- Logins on phones, with a plan of their own. -/
def phonePlan : TableSource :=
  { source with topic := "calls", path := ⟨["Logins-Phone", "Source"]⟩ }

end Logins

open Logins in
/-- Both tables can be built in one application.  Their paths differ, and their names do not: of two
stores of one name, the one that is found is not the one to which a record was just written. -/
theorem Streams.stores_of_one_name :
    phoneStep.path ≠ phonePlan.path ∧
    ((empty.build {} ⟨[]⟩ phoneStep).2.map fun built => (built.storeName, built.changelogTopic))
      = .ok ("Logins-Phone-Source-Reduce", "rowflow-Logins-Phone-Source-Reduce-changelog") ∧
    ((((empty.build {} ⟨[]⟩ phoneStep).1).build {} ⟨[]⟩ phonePlan).2.map
        fun built => (built.storeName, built.changelogTopic))
      = .ok ("Logins-Phone-Source-Reduce", "rowflow-Logins-Phone-Source-Reduce-changelog") ∧
    ((empty.after [.build {} ⟨[]⟩ phoneStep, .build {} ⟨[]⟩ phonePlan,
        .pipe "calls" message]).store? "Logins-Phone-Source-Reduce").map Store.size = some 0 ∧
    ((empty.after [.build {} ⟨[]⟩ phoneStep, .build {} ⟨[]⟩ phonePlan,
        .pipe "calls" message]).table? 1).map (fun t => t.stores.map Store.size) = some [1] := by
  decide +kernel

open Logins in
/-- The names of logins are not those of logins on phones, whose steps have no hyphens either. -/
theorem TableSource.names_eq_iff_pieces_logins :
    source.path.IsPlain ∧ phoneStep.path.IsPlain ∧ source.path ≠ phoneStep.path ∧
    source.storeName ≠ phoneStep.storeName ∧
    (⟨"shop", true⟩ : Settings).changelogTopic source.storeName
      ≠ (⟨"shop", true⟩ : Settings).changelogTopic phoneStep.storeName ∧
    phoneStep.storeName = phonePlan.storeName := by
  obtain ⟨-, -, hapart, -⟩ := names_eq_iff_pieces ⟨"shop", true⟩ source phoneStep
  obtain ⟨hstore, -⟩ := names_eq_iff_pieces {} phoneStep phonePlan
  have hsource : source.path.IsPlain := by decide
  have hstep : phoneStep.path.IsPlain := by decide
  obtain ⟨hne, hne'⟩ := hapart hsource hstep (by decide)
  exact ⟨hsource, hstep, by decide, hne, hne', hstore.2 (by decide)⟩

end StreamTables
