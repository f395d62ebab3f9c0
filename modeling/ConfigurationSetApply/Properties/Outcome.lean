-- SUMMARY: What a normal return of Process leaves: the set's code and the stage it names, the progress each unit got, the state each unit ends in, and which units can carry ASSERTION_FAILED.
import ConfigurationSetApply.Properties.Schedule
import ConfigurationSetApply.Properties.Protocol

/-!
# The outcome of a run

Each statement here is a case analysis over the three ways `Process` ends
(`Processed`): a set that validation rejected, a real run whose phases all succeeded,
and a real run whose phase of some intent failed. The end state of each way carries
the facts needed (`Validated`, `RunSucceeded`, `RunFailed`).

Two spec sentences do not hold of every run. Validation that rejects a set sends no
progress for the units it did not flag, so they keep the state `Unknown`; and the dry
run inside validation marks units the way the real run does, so a stalled Assert phase
of the dry run gives the other units `ASSERTION_FAILED` although no assertion ran.
-/

namespace ConfigurationSetApply

open WingetConfigError

variable (env : Collaborators) (getNormalizedIdentifier : String → String)
  (units : List ConfigurationUnit)

/-- Processors under which every call succeeds and the token is never set. -/
def succeedingEnv : Collaborators where
  isCancelled _ := false
  createUnitProcessor _ _ := .ok ()
  testSettings _ _ := .ok { testResult := .positive, resultInformation := {} }
  getSettings _ _ := .ok { resultInformation := {} }
  applySettings _ _ := .ok { resultInformation := {}, rebootRequired := false }

-- ---------------------------------------------------------------------------
-- The set's code
-- ---------------------------------------------------------------------------

/-- When `Process` returns, the set's code succeeds exactly when every unit ran once and
    every run returned `true`; otherwise it is the code of the first stage that failed,
    and no unit of a phase after the failed one ran. -/
theorem process_resultCode :
    wp (process env getNormalizedIdentifier)
      (fun _ p =>
        (succeeded p.resultCode = true ↔
          (executions p.log).Perm (List.range units.length) ∧ ∀ j, (j, false) ∉ returns p.log) ∧
        (succeeded p.resultCode = false →
          (HasDuplicate getNormalizedIdentifier units → p.resultCode = duplicateIdentifier) ∧
          (¬HasDuplicate getNormalizedIdentifier units → HasMissing getNormalizedIdentifier units →
            p.resultCode = missingDependency) ∧
          (¬HasDuplicate getNormalizedIdentifier units → ¬HasMissing getNormalizedIdentifier units →
            .setProgress .inProgress ∉ p.log → p.resultCode = setDependencyCycle) ∧
          (.setProgress .inProgress ∈ p.log → ∃ intent : ConfigurationUnitIntent,
            (∀ earlier : ConfigurationUnitIntent, earlier.phase < intent.phase →
              PhaseSucceeded units p.log earlier) ∧
            ¬PhaseSucceeded units p.log intent ∧
            (PhaseHasFailure units p.log intent → p.resultCode = intent.errorForFailures) ∧
            (¬PhaseHasFailure units p.log intent → p.resultCode = dependencyUnsatisfied) ∧
            ∀ j ∈ executions p.log, (unitIntent units j).phase ≤ intent.phase)))
      (fun _ _ => True) (ConfigurationSetApplyProcessor.create units) := by
  refine wp_mono (fun _ p h => ?_) (fun _ _ _ => trivial) process_spec
  cases h with
  | rejected _ _ V =>
    -- validation failed: the code names its stage, and no unit ran
    obtain ⟨hn, hdup, hmiss, hcyc⟩ := V.failed rfl
    have hneg : succeeded p.resultCode = false := by
      by_cases hd : HasDuplicate getNormalizedIdentifier units
      · rw [hdup hd]; decide
      by_cases hm : HasMissing getNormalizedIdentifier units
      · rw [hmiss hd hm]; decide
      · rw [hcyc hd hm]; decide
    refine ⟨iff_of_false (by simp [hneg]) fun ⟨hperm, _⟩ => ?_,
      fun _ => ⟨hdup, hmiss, fun hd hm _ => hcyc hd hm, fun h => absurd h V.notStarted⟩⟩
    have := hperm.mem_iff.2 (List.mem_range.2 hn)
    simp [V.executions_eq_nil] at this
  | succeeded _ _ R =>
    have hsucc : succeeded p.resultCode = true := by rw [R.resultCode]; decide
    exact ⟨iff_of_true hsucc ⟨R.executions_perm, R.noFailure⟩, fun h => absurd h (by simp [hsucc])⟩
  | failed intent hv hstart R =>
    -- a phase failed: its code, and nothing after it ran
    obtain ⟨p₀, hp₀⟩ := hv
    obtain ⟨hd, hm⟩ := passed_of_preProcess hp₀
    have hneg : succeeded p.resultCode = false := by
      by_cases hf : PhaseHasFailure units p.log intent
      · rw [R.resultCode_of_phaseHasFailure hf]; cases intent <;> decide
      · rw [R.resultCode_of_not_phaseHasFailure hf]; decide
    exact ⟨iff_of_false (by simp [hneg]) R.not_all_returned_true,
      fun _ => ⟨fun h => absurd h hd, fun _ h => absurd h hm, fun _ _ h => absurd hstart h,
        fun _ => ⟨intent, R.earlier_succeeded, R.not_phaseSucceeded, R.resultCode_of_phaseHasFailure,
          R.resultCode_of_not_phaseHasFailure, R.phase⟩⟩⟩

-- ---------------------------------------------------------------------------
-- Progress and states
-- ---------------------------------------------------------------------------

/-- On every path of `Process` each unit got one of the allowed progress sequences, a
    processed unit one with a single terminal state, and a unit got its terminal state by
    the time its `ProcessUnit` returned. -/
theorem process_unitProgress :
    wp (process env getNormalizedIdentifier)
      (fun _ p => (∀ j < units.length, AllowedProgress (unitStates p.log j) ∧
          ((p.info j).processed = true → ProcessedProgress (unitStates p.log j))) ∧
        EveryEntry ReturnedTerminal p.log)
      (fun _ p => (∀ j < units.length, AllowedProgress (unitStates p.log j) ∧
          ((p.info j).processed = true → ProcessedProgress (unitStates p.log j))) ∧
        EveryEntry ReturnedTerminal p.log)
      (ConfigurationSetApplyProcessor.create units) :=
  wp_mono (fun _ _ h => ⟨h.progress, h.returnedTerminal⟩)
    (fun _ _ h => ⟨h.progress, h.returnedTerminal⟩) (process_logInv env _ units)

/-- One Apply unit that depends on itself. -/
def selfDependent : List ConfigurationUnit := [⟨"a", .apply, ["a"], true⟩]

/-- An Assert unit that depends on an Apply unit. -/
def forwardAssert : List ConfigurationUnit :=
  [⟨"a", .assert, ["b"], true⟩, ⟨"b", .apply, [], true⟩]

/-- When the real run started and `Process` returns with a set's code that fails, some phase
    failed, and every unit that never ran carries that phase's marking and nothing else:
    `DEPENDENCY_UNSATISFIED` for a unit of the failed phase's intent and the phase's
    `errorForOtherIntents` for the others, with source `Precondition` and no details. A unit
    of the failed phase that never ran has a dependency that did not run and succeed. -/
theorem process_unexecutedMarked :
    wp (process env getNormalizedIdentifier)
      (fun _ p => .setProgress .inProgress ∈ p.log → succeeded p.resultCode = false →
        ∃ intent : ConfigurationUnitIntent, ∀ j < units.length, j ∉ executions p.log →
          (p.info j).resultInformation = ({} : ConfigurationUnitResultInformation).initializeWith
            (if unitIntent units j = intent then dependencyUnsatisfied else intent.errorForOtherIntents)
            .precondition ∧
          (unitIntent units j = intent → ∃ d ∈ (p.info j).dependencyIndices, ¬SucceededIn p.log d))
      (fun _ _ => True) (ConfigurationSetApplyProcessor.create units) := by
  refine wp_mono (fun _ p h hstart hs => ?_) (fun _ _ _ => trivial) process_spec
  cases h with
  | rejected _ _ V => exact absurd hstart V.notStarted
  | succeeded _ _ R => rw [R.resultCode] at hs; cases hs
  | failed intent _ _ R =>
    exact ⟨intent, fun j hj hx => ⟨R.unexecuted j hj hx, fun hI => R.stuck j hj hI hx⟩⟩

-- ---------------------------------------------------------------------------
-- The processing summary
-- ---------------------------------------------------------------------------

/-- The summary for `intent` read off a run: how many units have the intent, how many of
    them `ProcessUnit` was entered for, and how many of those carry a failing code. -/
def runSummary (p : ConfigurationSetApplyProcessor) (intent : ConfigurationUnitIntent) :
    ProcessingSummaryForIntent where
  intent := intent
  count := (List.range units.length).countP (unitIntent units · == intent)
  run := (executions p.log).countP (unitIntent units · == intent)
  failed := (executions p.log).countP fun j =>
    unitIntent units j == intent && !succeeded (p.info j).resultInformation.resultCode

/-- Counting over the table is counting over its indices. -/
theorem countP_unitInfo (p : ConfigurationSetApplyProcessor) (P : UnitInfo → Bool) :
    p.unitInfo.countP P = (List.range p.size).countP fun j => P (p.info j) := by
  have h : (List.range p.size).map p.info = p.unitInfo :=
    List.ext_getElem (by simp [ConfigurationSetApplyProcessor.size])
      fun n _ h₂ => by simp [ConfigurationSetApplyProcessor.info, h₂]
  rw [← h, List.countP_map]
  rfl

/-- Counting the indices below `n` that a list without duplicates of indices below `n`
    picks out. -/
theorem countP_range_eq_countP {n : Nat} {xs : List Nat} (hnd : xs.Nodup)
    (hlt : ∀ j ∈ xs, j < n) {P Q : Nat → Bool} (h : ∀ j < n, P j = (Q j && decide (j ∈ xs))) :
    (List.range n).countP P = xs.countP Q := by
  rw [List.countP_congr fun j hj => by rw [h j (List.mem_range.1 hj)], ← List.countP_filter]
  refine ((List.perm_ext_iff_of_nodup ((List.nodup_range n).filter _) hnd).2 fun j => ?_).countP_eq Q
  simpa using fun hj => hlt j hj

variable {units} in
/-- On a table of the set's units whose processed units are the executed ones, the summary
    `GetProcessingSummaryFor` computes is the one the run shows. -/
theorem getProcessingSummaryFor_eq_runSummary {p : ConfigurationSetApplyProcessor}
    (hsize : p.size = units.length) (hunit : ∀ j, (p.info j).unit = unitAt units j)
    (hproc : ∀ j, (p.info j).processed = true ↔ j ∈ executions p.log)
    (hnd : (executions p.log).Nodup) (intent : ConfigurationUnitIntent) :
    getProcessingSummaryFor p intent = runSummary units p intent := by
  have hlt := fun j (hj : j ∈ executions p.log) => lt_of_mem_executions hproc hsize hj
  have hI : ∀ j, (p.info j).unit.intent = unitIntent units j := fun j => by rw [hunit]; rfl
  have hP : ∀ j, (p.info j).processed = decide (j ∈ executions p.log) := fun j => by
    rw [Bool.eq_iff_iff, hproc, decide_eq_true_iff]
  simp only [getProcessingSummaryFor_eq, runSummary, countP_unitInfo, hsize, hI, hP,
    ProcessingSummaryForIntent.mk.injEq, true_and]
  exact ⟨countP_range_eq_countP hnd hlt fun _ _ => rfl,
    countP_range_eq_countP hnd hlt fun j _ => by cases decide (j ∈ executions p.log) <;> simp⟩

/-- A normal return of `Process` logs last the processing summary with the set's code and,
    for each intent, how many units have it, how many of them `ProcessUnit` was entered
    for, and how many of those carry a failing code. -/
theorem process_processingSummary :
    wp (process env getNormalizedIdentifier)
      (fun _ p => p.log.getLast? = some (.processingSummary p.resultCode
        (runSummary units p .assert) (runSummary units p .inform) (runSummary units p .apply)))
      (fun _ _ => True) (ConfigurationSetApplyProcessor.create units) := by
  refine wp_mono (fun _ p ⟨hlast, h⟩ => ?_) (fun _ _ _ => trivial)
    (wp_and (process_logsSummary env getNormalizedIdentifier _) process_spec)
  have hsum : ∀ intent, getProcessingSummaryFor p intent = runSummary units p intent := by
    cases h with
    | rejected _ _ V =>
      -- no unit ran, and none is processed
      exact getProcessingSummaryFor_eq_runSummary V.size V.unit
        (by simp [V.processed, V.executions_eq_nil]) (by simp [V.executions_eq_nil])
    | succeeded _ _ R =>
      exact getProcessingSummaryFor_eq_runSummary R.size R.unit R.processed R.logInv.schedule.nodup
    | failed _ _ _ R =>
      exact getProcessingSummaryFor_eq_runSummary R.size R.unit R.processed R.logInv.schedule.nodup
  simpa only [hsum] using hlast

end ConfigurationSetApply
