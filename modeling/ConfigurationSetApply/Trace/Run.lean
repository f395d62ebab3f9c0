-- SUMMARY: What a run of the processor should look like, read off its log: the schedule of ProcessUnit entries, the dependencies a unit ran after, the progress each unit got, and the outcome of each phase.
import Mathlib.Data.List.Nodup
import ConfigurationSetApply.Trace.Log

/-!
# Properties of runs

The statements about whole runs of `Process` are made of the definitions here. Each
reads the log (or the log and the final state) and says nothing about how the processor
got there, so that it can be compared with what the spec promises.

A `ProcessUnit` entry carries the unit table as it stood when the unit was entered, and
a return entry the table as it stood when `ProcessUnit` returned; "the state of a
dependency at the moment a unit is executed" is read from the first, "what the
dependency's run left" from the second. Intents are read from the input set, which the
processor never changes.
-/

namespace ConfigurationSetApply

open WingetConfigError

-- ---------------------------------------------------------------------------
-- Phases
-- ---------------------------------------------------------------------------

/-- The position of an intent's phase in `ProcessInternal`. -/
def ConfigurationUnitIntent.phase : ConfigurationUnitIntent → Nat
  | .assert => 0
  | .inform => 1
  | .apply => 2

theorem ConfigurationUnitIntent.phase_inj {a b : ConfigurationUnitIntent}
    (h : a.phase = b.phase) : a = b := by
  cases a <;> cases b <;> simp_all [phase]

/-- An intent other than Assert is of the Inform phase or a later one. -/
theorem ConfigurationUnitIntent.inform_phase_le {a : ConfigurationUnitIntent} (h : a ≠ .assert) :
    ConfigurationUnitIntent.inform.phase ≤ a.phase := by
  revert h; cases a <;> decide

/-- An intent other than Assert and Inform is of the Apply phase. -/
theorem ConfigurationUnitIntent.apply_phase_le {a : ConfigurationUnitIntent} (h₁ : a ≠ .assert)
    (h₂ : a ≠ .inform) : ConfigurationUnitIntent.apply.phase ≤ a.phase := by
  revert h₁ h₂; cases a <;> decide

/-- An intent other than Apply is of a phase before Apply's. -/
theorem ConfigurationUnitIntent.phase_lt_apply {a : ConfigurationUnitIntent} (h : a ≠ .apply) :
    a.phase < ConfigurationUnitIntent.apply.phase := by
  revert h; cases a <;> decide

/-- The `errorForFailures` that `ProcessInternal` passes for an intent's phase. -/
def ConfigurationUnitIntent.errorForFailures : ConfigurationUnitIntent → HResult
  | .assert => assertionFailed
  | .inform => dependencyUnsatisfied
  | .apply => setApplyFailed

/-- The `errorForOtherIntents` that `ProcessInternal` passes for an intent's phase. -/
def ConfigurationUnitIntent.errorForOtherIntents : ConfigurationUnitIntent → HResult
  | .assert => assertionFailed
  | .inform => dependencyUnsatisfied
  | .apply => eFail

/-- The intent of the unit at `j` of the input set. -/
def unitIntent (units : List ConfigurationUnit) (j : Nat) : ConfigurationUnitIntent :=
  (unitAt units j).intent

-- ---------------------------------------------------------------------------
-- The schedule
-- ---------------------------------------------------------------------------

/-- The entry of the unit at `i` respects the schedule, given the log `pre` before it:
    the unit was not executed before, no unit of a later phase was, and each of its
    dependencies was executed before and is processed and succeeded in the table of the
    entry. -/
def ScheduledCorrectly (units : List ConfigurationUnit) (pre : List Event) : Event → Prop
  | .processUnit i unitInfo =>
    i ∉ executions pre ∧
    (∀ j ∈ executions pre, (unitIntent units j).phase ≤ (unitIntent units i).phase) ∧
    ∀ d ∈ (unitInfo.getD i default).dependencyIndices,
      d ∈ executions pre ∧ (unitInfo.getD d default).processed = true ∧
        succeeded (unitInfo.getD d default).resultInformation.resultCode
  | _ => True

theorem scheduledCorrectly_of_executed_none {units : List ConfigurationUnit} {pre : List Event}
    {e : Event} (h : e.executed? = none) : ScheduledCorrectly units pre e := by
  cases e <;> simp_all [ScheduledCorrectly]

/-- The `ProcessUnit` entries of the log form a valid execution schedule. -/
def ValidSchedule (units : List ConfigurationUnit) (log : List Event) : Prop :=
  EveryEntry (ScheduledCorrectly units) log

/-- A valid schedule executes no unit twice. -/
theorem ValidSchedule.nodup {units : List ConfigurationUnit} {log : List Event}
    (h : ValidSchedule units log) : (executions log).Nodup := by
  induction log using List.reverseRecOn with
  | nil => simp
  | append_singleton log e ih =>
    rw [ValidSchedule, everyEntry_append_singleton] at h
    have := ih h.1
    cases e <;> simp_all [ScheduledCorrectly, List.nodup_append]

/-- The entry of the unit at `i` comes after no return of a dependency that was manually
    skipped or left a failing result code. -/
def AfterSucceededDependencies (pre : List Event) : Event → Prop
  | .processUnit i unitInfo =>
    ∀ d ∈ (unitInfo.getD i default).dependencyIndices, ∀ result table,
      .processUnitResult d result table ∈ pre →
        (table.getD d default).unit.shouldApply = true ∧
          succeeded (table.getD d default).resultInformation.resultCode
  | _ => True

theorem afterSucceededDependencies_of_executed_none {pre : List Event} {e : Event}
    (h : e.executed? = none) : AfterSucceededDependencies pre e := by
  cases e <;> simp_all [AfterSucceededDependencies]

/-- The entry of the unit at `i` comes after no return of a dependency that returned
    `false`, and after no run of a dependency that is manually skipped. -/
def AfterNoFailedDependency (units : List ConfigurationUnit) (pre : List Event) : Event → Prop
  | .processUnit i unitInfo => ∀ d ∈ (unitInfo.getD i default).dependencyIndices,
    (d, false) ∉ returns pre ∧ (d ∈ executions pre → (unitAt units d).shouldApply = true)
  | _ => True

instance (units : List ConfigurationUnit) (pre : List Event) :
    DecidablePred (AfterNoFailedDependency units pre)
  | .processUnit i unitInfo =>
    inferInstanceAs (Decidable (∀ d ∈ (unitInfo.getD i default).dependencyIndices, _))
  | .setProgress _ | .unitProgress _ _ | .throwIfCancelled _ | .createUnitProcessor _
  | .testSettings _ | .getSettings _ | .applySettings _ | .processingSummary .. | .markPreprocessed _
  | .processUnitResult .. => isTrue trivial

/-- The entry of the unit at `i` finds no failure code in the unit's record, in the table
    of the entry. -/
def EnteredWithoutFailure (_pre : List Event) : Event → Prop
  | .processUnit i unitInfo => succeeded (unitInfo.getD i default).resultInformation.resultCode
  | _ => True

theorem enteredWithoutFailure_of_executed_none {pre : List Event} {e : Event}
    (h : e.executed? = none) : EnteredWithoutFailure pre e := by
  cases e <;> simp_all [EnteredWithoutFailure]

/-- The unit at `d` was executed in `log`, and every return of it there is `true` with a
    succeeded code. -/
def SucceededIn (log : List Event) (d : Nat) : Prop :=
  d ∈ executions log ∧ ∀ result table, .processUnitResult d result table ∈ log →
    result = true ∧ succeeded (table.getD d default).resultInformation.resultCode = true

/-- Every return of `ProcessUnit` in the log is `true` with a succeeded code. -/
def ReturnsSucceeded (log : List Event) : Prop :=
  ∀ d result table, .processUnitResult d result table ∈ log →
    result = true ∧ succeeded (table.getD d default).resultInformation.resultCode = true

/-- Each execution in the log succeeded: every unit executed returned, and every return is
    `true` with a succeeded code. -/
def ExecutionsSucceeded (log : List Event) : Prop :=
  (∀ j ∈ executions log, j ∈ (returns log).map Prod.fst) ∧ ReturnsSucceeded log

/-- The entry of the unit at `i` is for a unit no larger than any unit of its intent not
    executed before whose dependencies, in the table of the entry, all succeeded before. -/
def SmallestReady (units : List ConfigurationUnit) (pre : List Event) : Event → Prop
  | .processUnit i unitInfo =>
    ∀ x < units.length, unitIntent units x = unitIntent units i → x ∉ executions pre →
      (∀ d ∈ (unitInfo.getD x default).dependencyIndices, SucceededIn pre d) → i ≤ x
  | _ => True

theorem smallestReady_of_executed_none {units : List ConfigurationUnit} {pre : List Event}
    {e : Event} (h : e.executed? = none) : SmallestReady units pre e := by
  cases e <;> simp_all [SmallestReady]

-- ---------------------------------------------------------------------------
-- Progress
-- ---------------------------------------------------------------------------

/-- The progress states a unit may get over a run: none, one terminal state, or
    `InProgress` then `Completed`. -/
def AllowedProgress (states : List ConfigurationUnitState) : Prop :=
  states = [] ∨ states = [.completed] ∨ states = [.skipped] ∨ states = [.inProgress, .completed]

/-- The progress states of a unit that `ProcessUnit` marked processed: skipped, or run. -/
def ProcessedProgress (states : List ConfigurationUnitState) : Prop :=
  states = [.skipped] ∨ states = [.inProgress, .completed]

instance : DecidablePred AllowedProgress := fun _ => by unfold AllowedProgress; infer_instance
instance : DecidablePred ProcessedProgress := fun _ => by unfold ProcessedProgress; infer_instance

/-- When `ProcessUnit` returns for the unit at `j`, given the log `pre` before the return,
    the unit got exactly one terminal state. -/
def ReturnedTerminal (pre : List Event) : Event → Prop
  | .processUnitResult j _ _ => ProcessedProgress (unitStates pre j)
  | _ => True

theorem returnedTerminal_of_returned_none {pre : List Event} {e : Event}
    (h : e.returned? = none) : ReturnedTerminal pre e := by
  cases e <;> simp_all [ReturnedTerminal]

theorem ProcessedProgress.allowed {states : List ConfigurationUnitState}
    (h : ProcessedProgress states) : AllowedProgress states := by
  rcases h with h | h <;> simp [AllowedProgress, h]

-- ---------------------------------------------------------------------------
-- Cancellation
-- ---------------------------------------------------------------------------

/-- After a poll that observed the token set, the log records no call into a processor. -/
def NoCallAfterCancellation (log : List Event) : Prop :=
  ∀ pre post, log = pre ++ .throwIfCancelled true :: post → ∀ e ∈ post, e.isCall = false

-- ---------------------------------------------------------------------------
-- Phases of the real run
-- ---------------------------------------------------------------------------

/-- Every unit of intent `intent` was executed and returned `true`. -/
def PhaseSucceeded (units : List ConfigurationUnit) (log : List Event)
    (intent : ConfigurationUnitIntent) : Prop :=
  ∀ j < units.length, unitIntent units j = intent → j ∈ executions log ∧ (j, true) ∈ returns log

/-- Some unit of intent `intent` was executed and returned `false`. -/
def PhaseHasFailure (units : List ConfigurationUnit) (log : List Event)
    (intent : ConfigurationUnitIntent) : Prop :=
  ∃ j ∈ executions log, unitIntent units j = intent ∧ (j, false) ∈ returns log

instance (units : List ConfigurationUnit) (log : List Event) (intent : ConfigurationUnitIntent) :
    Decidable (PhaseHasFailure units log intent) :=
  inferInstanceAs (Decidable (∃ j ∈ executions log, _))

-- ---------------------------------------------------------------------------
-- Validation
-- ---------------------------------------------------------------------------

section Validation

variable (getNormalizedIdentifier : String → String) (units : List ConfigurationUnit)

/-- The units at `i < j` have non-empty identifiers that normalize to the same string. -/
def Duplicate (i j : Nat) : Prop :=
  i < j ∧ (unitAt units i).identifier.isEmpty = false ∧
    (unitAt units j).identifier.isEmpty = false ∧
    getNormalizedIdentifier (unitAt units i).identifier =
      getNormalizedIdentifier (unitAt units j).identifier

/-- Among the units before `k`, the unit at `j` and another one have non-empty identifiers
    that normalize to the same string. -/
def CollidesWithin (k j : Nat) : Prop :=
  j < k ∧ ∃ i < k, i ≠ j ∧ (unitAt units i).identifier.isEmpty = false ∧
    (unitAt units j).identifier.isEmpty = false ∧
    getNormalizedIdentifier (unitAt units i).identifier =
      getNormalizedIdentifier (unitAt units j).identifier

instance (k j : Nat) : Decidable (CollidesWithin getNormalizedIdentifier units k j) :=
  inferInstanceAs (Decidable (_ ∧ ∃ i < k, _))

instance (i j : Nat) : Decidable (Duplicate getNormalizedIdentifier units i j) :=
  inferInstanceAs (Decidable (_ ∧ _))

/-- Two units of the set have the same non-empty identifier, after normalization. -/
def HasDuplicate : Prop := ∃ i j, j < units.length ∧ Duplicate getNormalizedIdentifier units i j

instance : Decidable (HasDuplicate getNormalizedIdentifier units) :=
  decidable_of_iff (∃ j < units.length, ∃ i < j, Duplicate getNormalizedIdentifier units i j)
    ⟨fun ⟨j, hj, i, _, hd⟩ => ⟨i, j, hj, hd⟩, fun ⟨i, j, hj, hd⟩ => ⟨j, hj, i, hd.1, hd⟩⟩

/-- The dependency string `d` names a unit of the set: one whose non-empty identifier
    normalizes as `d` does. -/
def NamesUnit (d : String) : Prop :=
  ∃ j < units.length, (unitAt units j).identifier.isEmpty = false ∧
    getNormalizedIdentifier (unitAt units j).identifier = getNormalizedIdentifier d

instance (d : String) : Decidable (NamesUnit getNormalizedIdentifier units d) :=
  inferInstanceAs (Decidable (∃ j < units.length, _))

/-- The first non-empty dependency string of the unit at `i`, in declaration order, that
    names no unit. -/
def firstMissing (i : Nat) : Option String :=
  (unitAt units i).dependencies.find? fun d =>
    !d.isEmpty && !decide (NamesUnit getNormalizedIdentifier units d)

/-- A unit of the set has a non-empty dependency that normalizes to no unit's non-empty
    identifier. -/
def HasMissing : Prop :=
  ∃ i < units.length, ∃ d ∈ (unitAt units i).dependencies, d.isEmpty = false ∧
    ∀ j < units.length, (unitAt units j).identifier.isEmpty = false →
      getNormalizedIdentifier (unitAt units j).identifier ≠ getNormalizedIdentifier d

end Validation

end ConfigurationSetApply
