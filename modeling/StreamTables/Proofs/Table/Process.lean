import StreamTables.Proofs.Store.Pass
import StreamTables.Source.Build

/-!
# The way of a record through the table of a source

The table of a source has at most one store.  So the way of a record has three parts: the stages in
front of the store, the store, and the stages behind it.  The stages themselves never change, and
all that a table has besides them is its store and its output.

## What is here

* `Stage.applyAll`: stages one after the other.
* `TableSource.before`, `TableSource.after`: the stages in front of the store and behind it.
* `TableSource.tableWith`: the table of a source with a store and an output.
* `TableSource.run_eq`: the way of a row.
-/

set_option autoImplicit false

namespace StreamTables

/-! ## Stages -/

/-- What stages do to a record, one after the other. -/
def Stage.applyAll (key : Key) (m : RecordMetadata) :
    List Stage → Option Row → Except Error (Option Row)
  | [], row => .ok row
  | stage :: stages, row => stage.apply key m row >>= applyAll key m stages

theorem Stage.apply_identity (key : Key) (m : RecordMetadata) (row : Option Row) :
    Stage.identity.apply key m row = .ok row := by
  cases row <;> rfl

/-- The steps of stages that have no store. -/
def Step.storeless (stages : List Stage) : List Step := stages.map (⟨·, none⟩)

namespace Step

variable {key : Key} {m : RecordMetadata}

theorem runAll_storeless (stages : List Stage) (row : Option Row) :
    runAll key m (storeless stages) row
      = (storeless stages, Stage.applyAll key m stages row) := by
  induction stages generalizing row with
  | nil => rfl
  | cons stage stages ih =>
    rw [storeless, List.map_cons, runAll, run, Stage.applyAll]
    cases stage.apply key m row with
    | error e => rfl
    | ok r =>
      rw [show bind (Except.ok r) _ = Stage.applyAll key m stages r from rfl]
      dsimp only [Store.pass]
      rw [← storeless, ih]

/-- Steps behind others are run if those succeed. -/
theorem runAll_append (xs ys : List Step) (row : Option Row) :
    runAll key m (xs ++ ys) row =
      match runAll key m xs row with
      | (xs', .error e) => (xs' ++ ys, .error e)
      | (xs', .ok r) => (xs' ++ (runAll key m ys r).1, (runAll key m ys r).2) := by
  induction xs generalizing row with
  | nil => rfl
  | cons x xs ih =>
    rw [List.cons_append, runAll, runAll]
    rcases x.run key m row with ⟨x', e | r⟩
    · rfl
    · dsimp only
      rw [ih]
      rcases runAll key m xs r with ⟨xs', e | r'⟩ <;> rfl

end Step

namespace TableSource

/-- The stages in front of the store. -/
def before (s : TableSource) : List Stage :=
  if s.isWindowed then []
  else (Stage.project? s.schema s.version).toList ++ [.appendStored s.version]

/-- The stages behind the store. -/
def after (s : TableSource) : List Stage :=
  if s.isWindowed then
    (Stage.project? s.schema .current).toList ++ [.completeWindowed .current]
  else [.serveStored s.version]

/-- The table of a source with a store and an output. -/
def tableWith (s : TableSource) (codecs : Codecs) (store : Option Store)
    (output : List (Key × Option Row)) : Table where
  codecs := codecs
  source := if s.isWindowed then store else none
  steps := s.steps store
  output := output

variable {s : TableSource} {codecs : Codecs} {store : Option Store}
  {output : List (Key × Option Row)} {m : RecordMetadata}

theorem steps_of_windowed (h : s.isWindowed = true) : s.steps store = Step.storeless s.after := by
  rw [steps, completion, projectedVersion, after, if_pos h, if_pos h, if_pos h, Step.storeless,
    List.map_append]
  rfl

theorem steps_of_not_windowed (h : s.isWindowed = false) :
    s.steps store = Step.storeless s.before ++ (⟨.identity, store⟩ :: Step.storeless s.after) := by
  have hw : ¬ s.isWindowed = true := by rw [h]; exact Bool.false_ne_true
  rw [steps, completion, projectedVersion, after, before, if_neg hw, if_neg hw, if_neg hw,
    if_neg hw, Step.storeless, Step.storeless, List.map_append, List.append_assoc]
  rfl

/-- **The way of a row**: through the stages in front of the store, the store, and the stages
behind it.  Only what passes them all is emitted. -/
theorem run_eq (key : Key) (row : Option Row) :
    (s.tableWith codecs store output).run key m row =
      match Stage.applyAll key m s.before row with
      | .error e => (s.tableWith codecs store output, .error e)
      | .ok r =>
        match Store.pass store key r with
        | (store', .error e) => (s.tableWith codecs store' output, .error e)
        | (store', .ok held) =>
          match Stage.applyAll key m s.after held with
          | .error e => (s.tableWith codecs store' output, .error e)
          | .ok out => (s.tableWith codecs store' (output ++ [(key, out)]), .ok ()) := by
  cases h : s.isWindowed with
  | true =>
    have hbefore : s.before = [] := by rw [before, h]; rfl
    rw [hbefore, Stage.applyAll, Table.run]
    simp only [tableWith, h, if_true, steps_of_windowed h]
    rcases Store.pass store key row with ⟨store', e | held⟩
    · rfl
    · dsimp only
      rw [Step.runAll_storeless]
      cases Stage.applyAll key m s.after held <;> rfl
  | false =>
    have hsource : Store.pass none key row = (none, .ok row) := rfl
    rw [Table.run]
    simp only [tableWith, h, Bool.false_eq_true, if_false, steps_of_not_windowed h, hsource,
      Step.runAll_append, Step.runAll_storeless]
    cases Stage.applyAll key m s.before row with
    | error e => rfl
    | ok r =>
      dsimp only
      rw [Step.runAll, Step.run, Stage.apply_identity]
      dsimp only
      rcases Store.pass store key r with ⟨store', e | held⟩
      · rfl
      · dsimp only
        rw [Step.runAll_storeless]
        cases Stage.applyAll key m s.after held <;> rfl

end TableSource
end StreamTables
