-- SUMMARY: The dry run of PreProcess and the real run of Process in lockstep: under unit processors that never fail, the two select the same units in the same order and return the same outcome.
import ConfigurationSetApply.Laws.Process

/-!
# The dry run and the real run in lockstep

`PreProcess` decides whether a set can run by running the scheduler once with
`HasPreprocessed` and `MarkPreprocessed` in place of `HasProcessedSuccessfully` and
`ProcessUnit`. The two instances agree when every unit the real run executes succeeds:
a unit is then marked in the dry run exactly when it is processed with success in the
real one (`Mirrors`), related states have the same first ready candidate, and the
lockstep rule of the loop carries the relation through each phase and the three phases.

`Collaborators.AllSucceed` says what "every unit succeeds" asks of the unit processors:
the token is never set, each processor is created, and the calls of each intent give
the answers that make `ProcessUnit` return `true` with the unit's code untouched.
-/

namespace ConfigurationSetApply

open WingetConfigError

variable (env : Collaborators) (units : List ConfigurationUnit)

-- ---------------------------------------------------------------------------
-- Processors under which every unit succeeds
-- ---------------------------------------------------------------------------

/-- Every unit of the set runs to success under `env`: it is to be applied, the token is
    never set, its processor is created, and the calls of its intent answer so that
    `ProcessUnit` returns `true`, whatever the log holds when they are made. -/
structure Collaborators.AllSucceed : Prop where
  shouldApply : ∀ i < units.length, (unitAt units i).shouldApply = true
  notCancelled : ∀ log, env.isCancelled log = false
  created : ∀ i < units.length, ∀ log, env.createUnitProcessor i log = .ok ()
  assert : ∀ i < units.length, (unitAt units i).intent = .assert → ∀ log,
    ∃ r, env.testSettings i log = .ok r ∧ r.testResult = .positive
  inform : ∀ i < units.length, (unitAt units i).intent = .inform → ∀ log,
    ∃ r, env.getSettings i log = .ok r ∧ succeeded r.resultInformation.resultCode = true
  test : ∀ i < units.length, (unitAt units i).intent = .apply → ∀ log,
    ∃ r, env.testSettings i log = .ok r ∧ (r.testResult = .positive ∨ r.testResult = .negative)
  apply : ∀ i < units.length, (unitAt units i).intent = .apply → ∀ log,
    ∃ r, env.applySettings i log = .ok r ∧ succeeded r.resultInformation.resultCode = true

variable {env units}

/-- A call whose answer is always normal and satisfies `P` returns such an answer, with
    the call logged. -/
theorem wp_callCollaborator_of_ok {α : Type} {call : Event} {answer : List Event → Except Exception α}
    {P : α → Prop} {Q : α → ConfigurationSetApplyProcessor → Prop}
    {E : Exception → ConfigurationSetApplyProcessor → Prop} {p : ConfigurationSetApplyProcessor}
    (h : ∀ log, ∃ a, answer log = .ok a ∧ P a) (hQ : ∀ a, P a → Q a (p.emit call)) :
    wp (callCollaborator call answer) Q E p := by
  obtain ⟨a, ha, hP⟩ := h (p.log ++ [call])
  simp only [wp_callCollaborator, ha]
  exact hQ a hP

section Succeed

variable (hA : env.AllSucceed units) {i : Nat} (hi : i < units.length)
  {p : ConfigurationSetApplyProcessor}
include hA hi

theorem applyIntent_succeeds (hu : (p.info i).unit = unitAt units i) :
    wp (applyIntent env i) (fun b _ => b = true) (fun _ _ => False) p := by
  simp only [applyIntent, wp_bind, wp_get, hu]
  cases hI : (unitAt units i).intent <;> simp only [wp_bind, testSettings, getSettings]
  case assert =>
    exact wp_callCollaborator_of_ok (hA.assert i hi hI) fun r hr => by simp [hr]
  case inform =>
    exact wp_callCollaborator_of_ok (hA.inform i hi hI) fun r hr => by simp [hr]
  case apply =>
    refine wp_callCollaborator_of_ok (hA.test i hi hI) fun r hr => ?_
    rcases hr with hr | hr
    · simp [hr]
    · simp only [hr, wp_bind, wp_throwIfCancelled, hA.notCancelled, Bool.false_eq_true, if_false]
      exact wp_callCollaborator_of_ok (hA.apply i hi hI) fun a ha => by simp [ha]

theorem runUnitProcessor_succeeds (hu : (p.info i).unit = unitAt units i) :
    wp (runUnitProcessor env i) (fun b _ => b = true) (fun _ _ => False) p := by
  simp only [runUnitProcessor, createUnitProcessor, wp_bind, wp_tryCatch]
  refine wp_callCollaborator_of_ok (P := fun _ => True)
    (fun log => ⟨(), hA.created i hi log, trivial⟩) fun _ _ => ?_
  simp only [wp_pure, Bool.not_true, Bool.false_eq_true, if_false, wp_bind, wp_throwIfCancelled,
    hA.notCancelled, wp_tryCatch]
  exact wp_mono (fun _ _ h => h) (fun _ _ h => h.elim) (applyIntent_succeeds hA hi (by simpa using hu))

/-- Under processors under which every unit succeeds, `ProcessUnit` returns `true` and
    does not throw. -/
theorem processUnit_succeeds (hsize : p.size = units.length) (hu : (p.info i).unit = unitAt units i) :
    wp (processUnit env i) (fun b _ => b = true) (fun _ _ => False) p := by
  rw [wp_processUnit env (hsize ▸ hi)]
  simp only [ConfigurationSetApplyProcessor.emit_log, hA.notCancelled, hu, hA.shouldApply i hi,
    Bool.false_eq_true, if_false, if_true]
  exact wp_mono (fun _ _ h => h) (fun _ _ h => h)
    (runUnitProcessor_succeeds hA hi (by simp [hsize, hi, hu]))

end Succeed

-- ---------------------------------------------------------------------------
-- The simulation relation
-- ---------------------------------------------------------------------------

variable (env units) in
/-- The dry run at `d` and the real run at `r` stand at the same point: both tables hold
    the units of the set with the same dependencies, a unit is marked in the dry run
    exactly when it was processed with success in the real one, and the units marked so
    far are the units executed so far, in order. The real run also keeps every code
    succeeded and its log guarded and honest. -/
structure Mirrors (d r : ConfigurationSetApplyProcessor) : Prop where
  size : d.size = units.length
  realSize : r.size = units.length
  unit : ∀ j, (d.info j).unit = unitAt units j
  realUnit : ∀ j, (r.info j).unit = unitAt units j
  dependencyIndices : ∀ j, (d.info j).dependencyIndices = (r.info j).dependencyIndices
  ready : ∀ j, hasPreprocessed (d.info j) = hasProcessedSuccessfully (r.info j)
  codes : ∀ j, succeeded (r.info j).resultInformation.resultCode = true
  trace : preprocessings d.log = executions r.log
  guarded : CallsGuarded r.log
  honest : PollsHonest env r.log

/-- A checked table, and a table with the same units and dependencies, none processed,
    every result information as constructed and no unit's run in its log, start the two
    runs in step. -/
theorem Mirrors.start {d r : ConfigurationSetApplyProcessor} (hC : Checked units d)
    (hsize : r.size = units.length) (hunit : ∀ j, (r.info j).unit = unitAt units j)
    (hdeps : ∀ j, (d.info j).dependencyIndices = (r.info j).dependencyIndices)
    (hfresh : ∀ j, (r.info j).processed = false ∧ (r.info j).resultInformation = {})
    (hlog : ∀ e ∈ r.log, e.isQuiet) : Mirrors env units d r where
  size := hC.size
  realSize := hsize
  unit := hC.unit
  realUnit := hunit
  dependencyIndices := hdeps
  ready := fun j => by
    simp [hasPreprocessed, hasProcessedSuccessfully, hC.preProcessed, (hfresh j).1]
  codes := fun j => by rw [(hfresh j).2]; rfl
  trace := by rw [hC.logEmpty, executions_of_quiet hlog]; rfl
  guarded := EveryEntry.of_forall fun e he pre => (quiet_entry env units (hlog e he) pre).2.2.2.1
  honest := EveryEntry.of_forall fun e he pre => (quiet_entry env units (hlog e he) pre).2.2.2.2

namespace Mirrors

variable {d r : ConfigurationSetApplyProcessor} (h : Mirrors env units d r)
include h

/-- Related states have the same first ready candidate. -/
theorem firstReady_eq (intent : ConfigurationUnitIntent) (cs : List Nat) :
    firstReady hasPreprocessed intent d cs = firstReady hasProcessedSuccessfully intent r cs := by
  simp only [firstReady, hasIntentAndSatisfiedDependencies, h.unit, h.realUnit,
    h.dependencyIndices, h.ready]

/-- One pass in step: the dry run marks the unit, and the real run runs it to success. -/
theorem step (hA : env.AllSucceed units) {i : Nat} (hi : i < units.length) :
    wp (markPreprocessed i)
      (fun ok d' => wp (processUnit env i) (fun ok' r' => ok = ok' ∧ Mirrors env units d' r')
        (fun _ _ => False) r)
      (fun _ _ => False) d := by
  simp only [markPreprocessed, wp_bind, wp_logEvent, wp_modifyUnitInfo, wp_pure]
  refine wp_mono (fun ok' r' ⟨U, hok⟩ => ⟨hok.symm, ?_⟩) (fun _ _ h => h.2)
    (wp_and (processUnit_outcome env (h.realSize ▸ hi) h.guarded h.honest)
      (processUnit_succeeds hA hi h.realSize (h.realUnit i)))
  subst hok
  have hkept := U.kept (by rw [h.realUnit]; exact hA.shouldApply i hi) rfl
  have hid : i < d.size := h.size ▸ hi
  refine ⟨by simp [h.size], U.size.trans h.realSize, fun j => by simp [h.unit], fun j => ?_,
    fun j => ?_, fun j => ?_, fun j => ?_, by simp [U.executions_eq, h.trace], U.guarded, U.honest⟩
  all_goals rcases eq_or_ne i j with rfl | hij
  · exact U.unit.trans (h.realUnit i)
  · rw [U.info_ne j hij]; exact h.realUnit j
  · simp [U.dependencyIndices, h.dependencyIndices]
  · simp [U.info_ne j hij, h.dependencyIndices]
  · simp [hasPreprocessed, hasProcessedSuccessfully, hid, U.processed, hkept, h.codes]
  · simp [hij, U.info_ne j hij, h.ready]
  · rw [hkept]; exact h.codes i
  · rw [U.info_ne j hij]; exact h.codes j

/-- One phase in step: both runs end it with the same outcome and candidates, the marks
    of the dry run are the executions of the real one, and after a phase that succeeded
    the two runs are still in step. -/
theorem processIntentInternal (hA : env.AllSucceed units) (intent : ConfigurationUnitIntent)
    {cs : List Nat} (hcs : ∀ j ∈ cs, j < units.length) (errorForOtherIntents errorForFailures : HResult) :
    wp (ConfigurationSetApply.processIntentInternal hasPreprocessed markPreprocessed intent cs
        errorForOtherIntents errorForFailures false)
      (fun res d' => wp (ConfigurationSetApply.processIntentInternal hasProcessedSuccessfully
          (processUnit env) intent cs errorForOtherIntents errorForFailures true)
        (fun res' r' => res = res' ∧ preprocessings d'.log = executions r'.log ∧
          (∀ j ∈ res.2, j < units.length) ∧ (res.1 = true → Mirrors env units d' r'))
        (fun _ _ => False) r)
      (fun _ _ => False) d := by
  simp only [wp_processIntentInternal]
  refine wp_mono (fun res d₁ h₁ => ?_) (fun _ _ h => h)
    (processReadyUnits_lockstep hasPreprocessed markPreprocessed intent hasProcessedSuccessfully
      (processUnit env) (fun cs d r => Mirrors env units d r ∧ ∀ j ∈ cs, j < units.length)
      (fun cs _ _ h => h.1.firstReady_eq intent cs)
      (fun _ _ _ i h hi => wp_mono (fun _ _ h' => wp_mono (fun _ _ ⟨hok, hM⟩ =>
          ⟨hok, hM, fun j hj => h.2 j (List.mem_of_mem_erase hj)⟩) (fun _ _ h => h) h')
        (fun _ _ h => h) (h.1.step hA (h.2 i (firstReady_mem hi))))
      cs.length cs false d r ⟨h, hcs⟩)
  obtain ⟨_, r₁, hrun, rfl, hM₁, hcs₁⟩ := h₁.exists_ok
  have hrem : (res.1.any fun i => (r₁.info i).unit.intent == intent) =
      (res.1.any fun i => (d₁.info i).unit.intent == intent) := by
    simp only [hM₁.unit, hM₁.realUnit]
  simp only [wp_eq_of_ok hrun, hrem]
  split
  case isTrue =>
    -- the phase failed in both runs: the markings log no mark and no execution
    exact ⟨trivial, by simp [ConfigurationSetApplyProcessor.markAll_log, hM₁.trace], hcs₁, nofun⟩
  case isFalse hc =>
    -- the phase succeeded in both runs: no candidate of its intent is left to mark
    simp only [Bool.or_eq_true, List.any_eq_true, beq_iff_eq, not_or, not_exists, not_and] at hc
    have hr₁ : ∀ j ∈ res.1, ((r₁.info j).unit.intent == intent) = false := fun j hj => by
      simpa [hM₁.realUnit, ← hM₁.unit] using hc.2 j hj
    have hd₁ : ∀ j ∈ res.1, ((d₁.info j).unit.intent == intent) = false := fun j hj => by
      simpa using hc.2 j hj
    rw [ConfigurationSetApplyProcessor.markAll_of_forall_not_selects d₁ _ _ _ hd₁,
      ConfigurationSetApplyProcessor.markAll_of_forall_not_selects r₁ _ _ _ hr₁]
    exact ⟨trivial, hM₁.trace, hcs₁, fun _ => hM₁⟩

/-- The dry run and the real run from related states return the same outcome, and the
    units the dry run marks are those the real run executes, in the same order. -/
theorem processInternal (hA : env.AllSucceed units) :
    wp (ConfigurationSetApply.processInternal hasPreprocessed markPreprocessed false)
      (fun ok d' => wp (ConfigurationSetApply.processInternal hasProcessedSuccessfully
          (processUnit env) true)
        (fun ok' r' => ok = ok' ∧ preprocessings d'.log = executions r'.log) (fun _ _ => False) r)
      (fun _ _ => False) d := by
  simp only [wp_processInternal, h.size, h.realSize]
  refine wp_mono (fun res₁ d₁ h₁ => ?_) (fun _ _ h => h)
    (h.processIntentInternal hA .assert (fun j hj => List.mem_range.1 hj) _ _)
  obtain ⟨_, r₁, hrun₁, rfl, htrace₁, hcs₁, hM₁⟩ := h₁.exists_ok
  simp only [wp_eq_of_ok hrun₁]
  rcases res₁ with ⟨_ | _, cs₁⟩
  case false => exact ⟨trivial, htrace₁⟩
  refine wp_mono (fun res₂ d₂ h₂ => ?_) (fun _ _ h => h)
    ((hM₁ rfl).processIntentInternal hA .inform hcs₁ _ _)
  obtain ⟨_, r₂, hrun₂, rfl, htrace₂, hcs₂, hM₂⟩ := h₂.exists_ok
  simp only [wp_eq_of_ok hrun₂]
  rcases res₂ with ⟨_ | _, cs₂⟩
  case false => exact ⟨trivial, htrace₂⟩
  refine wp_mono (fun res₃ d₃ h₃ => ?_) (fun _ _ h => h)
    ((hM₂ rfl).processIntentInternal hA .apply hcs₂ _ _)
  obtain ⟨_, r₃, hrun₃, rfl, htrace₃, -⟩ := h₃.exists_ok
  simp only [wp_eq_of_ok hrun₃]
  exact ⟨trivial, htrace₃⟩

end Mirrors

end ConfigurationSetApply
