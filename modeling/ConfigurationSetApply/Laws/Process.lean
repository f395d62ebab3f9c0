-- SUMMARY: What Process does end to end: a set rejected by validation, or a real run that ended in success or in a failed phase, with the log invariant on every path, also when it throws.
import ConfigurationSetApply.Laws.PreProcess

/-!
# Laws of `Process`

`Process` on a constructed processor ends in one of three ways when it returns normally
(`Processed`): validation rejected the set and the real run never started, or it
started and all three phases succeeded, or it started and one phase failed. Each way
keeps the end state its stage left (`Validated`, `RunSucceeded`, `RunFailed`), since
what `Process` does afterwards, the set's `Completed` event and the summary, changes no
unit and no code (`Finishes`). On every path, also when a cancellation escapes, the log
keeps `LogInv`.
-/

namespace ConfigurationSetApply

open WingetConfigError

variable (env : Collaborators) (getNormalizedIdentifier : String → String)
  (units : List ConfigurationUnit)

-- ---------------------------------------------------------------------------
-- The last two events
-- ---------------------------------------------------------------------------

@[simp] theorem wp_logProcessingSummary (resultCode : HResult) {Q : Unit → ConfigurationSetApplyProcessor → Prop}
    {E : Exception → ConfigurationSetApplyProcessor → Prop} :
    wp (logProcessingSummary resultCode) Q E = fun p =>
      Q () (p.emit (.processingSummary resultCode (getProcessingSummaryFor p .assert)
        (getProcessingSummaryFor p .inform) (getProcessingSummaryFor p .apply))) := rfl

@[simp] theorem wp_logProcessingSummaryForApply
    {Q : Unit → ConfigurationSetApplyProcessor → Prop}
    {E : Exception → ConfigurationSetApplyProcessor → Prop} :
    wp logProcessingSummaryForApply Q E = fun p =>
      Q () (p.emit (.processingSummary p.resultCode (getProcessingSummaryFor p .assert)
        (getProcessingSummaryFor p .inform) (getProcessingSummaryFor p .apply))) := rfl

/-- `p'` is `p` with entries about no unit's run appended, none of them the set's
    `InProgress`: the table and the code are those of `p`. -/
def Finishes (p p' : ConfigurationSetApplyProcessor) : Prop :=
  p'.unitInfo = p.unitInfo ∧ p'.resultCode = p.resultCode ∧
    ∃ L, p'.log = p.log ++ L ∧ ∀ e ∈ L, e.isQuiet ∧ e ≠ .setProgress .inProgress

namespace Finishes

variable {env getNormalizedIdentifier units} {p p' : ConfigurationSetApplyProcessor} (h : Finishes p p')
include h

theorem info_eq (j : Nat) : p'.info j = p.info j := by
  simp only [ConfigurationSetApplyProcessor.info, h.1]

theorem size_eq : p'.size = p.size := by
  simp only [ConfigurationSetApplyProcessor.size, h.1]

theorem executions_eq : executions p'.log = executions p.log := by
  obtain ⟨L, hL, hq⟩ := h.2.2
  rw [hL, executions_append, executions_of_quiet fun e he => (hq e he).1, List.append_nil]

theorem returns_eq : returns p'.log = returns p.log := by
  obtain ⟨L, hL, hq⟩ := h.2.2
  rw [hL, returns_append, returns_of_quiet fun e he => (hq e he).1, List.append_nil]

theorem logInv (R : LogInv env units p) : LogInv env units p' := by
  obtain ⟨L, hL, hq⟩ := h.2.2
  exact R.append_quiet (fun e he => (hq e he).1) hL fun j => by rw [h.info_eq]

theorem runSucceeded (R : RunSucceeded env units p) : RunSucceeded env units p' where
  logInv := h.logInv R.logInv
  resultCode := h.2.1.trans R.resultCode
  size := h.size_eq.trans R.size
  unit := fun j => by rw [h.info_eq]; exact R.unit j
  processed := fun j => by rw [h.info_eq, h.executions_eq]; exact R.processed j
  returned := by rw [h.returns_eq, h.executions_eq]; exact R.returned
  executed := fun j hj => h.executions_eq ▸ R.executed j hj
  noFailure := fun j => h.returns_eq ▸ R.noFailure j
  terminal := fun j hj => by rw [h.info_eq]; exact R.terminal j hj

theorem runFailed {intent : ConfigurationUnitIntent} {errorForOtherIntents errorForFailures : HResult}
    (R : RunFailed env units intent errorForOtherIntents errorForFailures p) :
    RunFailed env units intent errorForOtherIntents errorForFailures p' where
  logInv := h.logInv R.logInv
  size := h.size_eq.trans R.size
  unit := fun j => by rw [h.info_eq]; exact R.unit j
  processed := fun j => by rw [h.info_eq, h.executions_eq]; exact R.processed j
  returned := by rw [h.returns_eq, h.executions_eq]; exact R.returned
  earlier := fun j hj hlt => h.executions_eq ▸ R.earlier j hj hlt
  phase := fun j hj => R.phase j (h.executions_eq ▸ hj)
  failureIntent := fun j hj => R.failureIntent j (h.returns_eq ▸ hj)
  outcome := by rw [h.returns_eq, h.executions_eq, h.2.1]; exact R.outcome
  terminal := fun j hj => by rw [h.info_eq]; exact R.terminal j hj
  unexecuted := fun j hj hne => by rw [h.info_eq]; exact R.unexecuted j hj (h.executions_eq ▸ hne)
  stuck := fun j hj hI hne => by
    obtain ⟨d, hd, hns⟩ := R.stuck j hj hI (h.executions_eq ▸ hne)
    obtain ⟨L, hL, -⟩ := h.2.2
    refine ⟨d, by rw [h.info_eq]; exact hd, fun hs => hns ⟨h.executions_eq ▸ hs.1, fun b t hm => ?_⟩⟩
    exact hs.2 b t (by rw [hL]; exact List.mem_append_left _ hm)

theorem validated {ok : Bool} (V : Validated getNormalizedIdentifier units ok p) :
    Validated getNormalizedIdentifier units ok p' := by
  obtain ⟨L, hL, hq⟩ := h.2.2
  have hs : ∀ j, unitStates p'.log j = unitStates p.log j := fun j => by
    rw [hL, unitStates_append, unitStates_of_quiet (fun e he => (hq e he).1), List.append_nil]
  exact {
    size := h.size_eq.trans V.size
    unit := fun j => by rw [h.info_eq]; exact V.unit j
    processed := fun j => by rw [h.info_eq]; exact V.processed j
    log := fun e he => by
      rw [hL, List.mem_append] at he
      exact he.elim (V.log e) fun he => .inr (hq e he)
    progress := fun j => by rw [hs]; exact V.progress j
    assertion := fun j hj => by
      rw [h.info_eq] at hj ⊢; rw [h.2.1]; exact V.assertion j hj
    passed := fun hok => by
      obtain ⟨hd, hm, hrc, hlog, hfresh⟩ := V.passed hok
      refine ⟨hd, hm, h.2.1.trans hrc, fun e he => ?_, fun j => by rw [h.info_eq]; exact hfresh j⟩
      rw [hL, List.mem_append] at he
      exact he.elim (hlog e) fun he => (hq e he).1
    failed := fun hok => by rw [h.2.1]; exact V.failed hok }

end Finishes

/-- The set's `Completed` event and the summary finish any state. -/
theorem finishes_summary (p : ConfigurationSetApplyProcessor) :
    Finishes p ((p.emit (.setProgress .completed)).emit (.processingSummary p.resultCode
      (getProcessingSummaryFor p .assert) (getProcessingSummaryFor p .inform)
      (getProcessingSummaryFor p .apply))) :=
  ⟨rfl, rfl, _, List.append_assoc _ _ _, by simp⟩

/-- The pass of `GetProcessingSummaryFor` adds, from any summary it starts at, the records
    of the intent, those of them processed, and those processed with a failing code. -/
theorem foldl_processingSummary (intent : ConfigurationUnitIntent) (l : List UnitInfo)
    (r : ProcessingSummaryForIntent) :
    l.foldl (fun result u =>
      if u.unit.intent == intent then
        { result with
          count := result.count + 1
          run := if u.processed then result.run + 1 else result.run
          failed := if u.processed && !succeeded u.resultInformation.resultCode
            then result.failed + 1 else result.failed }
      else result) r =
    { r with
      count := r.count + l.countP (·.unit.intent == intent)
      run := r.run + l.countP fun u => u.unit.intent == intent && u.processed
      failed := r.failed + l.countP fun u =>
        u.unit.intent == intent && (u.processed && !succeeded u.resultInformation.resultCode) } := by
  induction l generalizing r with
  | nil => simp
  | cons u l ih =>
    rw [List.foldl_cons, ih]
    by_cases hI : u.unit.intent = intent <;> cases hp : u.processed <;>
      cases hs : succeeded u.resultInformation.resultCode <;> simp +arith [hI, hp, hs, List.countP_cons]

/-- `GetProcessingSummaryFor` counts, over the table, the units of the intent, those of
    them processed, and those processed with a failing code. -/
theorem getProcessingSummaryFor_eq (p : ConfigurationSetApplyProcessor)
    (intent : ConfigurationUnitIntent) :
    getProcessingSummaryFor p intent =
      { intent
        count := p.unitInfo.countP (·.unit.intent == intent)
        run := p.unitInfo.countP fun u => u.unit.intent == intent && u.processed
        failed := p.unitInfo.countP fun u =>
          u.unit.intent == intent && (u.processed && !succeeded u.resultInformation.resultCode) } := by
  rw [getProcessingSummaryFor, foldl_processingSummary]
  simp

/-- From any state, a normal return of `Process` logs last the summary of the table it
    ends with, and the set's code. -/
theorem process_logsSummary (p : ConfigurationSetApplyProcessor) :
    wp (process env getNormalizedIdentifier)
      (fun _ p' => p'.log.getLast? = some (.processingSummary p'.resultCode
        (getProcessingSummaryFor p' .assert) (getProcessingSummaryFor p' .inform)
        (getProcessingSummaryFor p' .apply)))
      (fun _ _ => True) p := by
  simp only [process, wp_tryCatch, wp_bind, wp_logProcessingSummary,
    wp_logProcessingSummaryForApply, wp_throw]
  refine wp_mono (fun ok p₁ _ => ?_) (fun _ _ _ => trivial) (wp_self _ p)
  cases ok
  case false => simp [getProcessingSummaryFor]
  case true =>
    simp only [if_true, wp_bind, wp_sendSetProgress, wp_pure, wp_get]
    exact wp_mono (fun _ _ _ => by simp [getProcessingSummaryFor]) (fun _ _ _ => trivial)
      (wp_self _ _)

-- ---------------------------------------------------------------------------
-- The three ways out
-- ---------------------------------------------------------------------------

variable {env getNormalizedIdentifier units}

/-- The log a validation leaves keeps `LogInv`: it records no unit run, and at most one
    `Completed` event for each unit, none of them processed. -/
theorem Validated.logInv {ok : Bool} {p : ConfigurationSetApplyProcessor}
    (V : Validated getNormalizedIdentifier units ok p) : LogInv env units p := by
  have hentry : ∀ e ∈ p.log, ∀ pre, ScheduledCorrectly units pre e ∧
      AfterSucceededDependencies pre e ∧ ReturnedTerminal pre e ∧
      (e.isCall → lastPoll pre = some false) ∧
      ∀ cancelled, e = .throwIfCancelled cancelled → cancelled = env.isCancelled pre :=
    fun e he pre => by
      rcases V.log e he with ⟨j, rfl⟩ | ⟨hq, -⟩
      · simp [ScheduledCorrectly, AfterSucceededDependencies, ReturnedTerminal]
      · exact quiet_entry env units hq pre
  have hnone : ∀ e ∈ p.log, e.executed? = none := fun e he => by
    rcases V.log e he with ⟨j, rfl⟩ | ⟨hq, -⟩
    · rfl
    · exact (Event.isQuiet_views hq).2.1
  exact {
    schedule := EveryEntry.of_forall fun e he pre => (hentry e he pre).1
    dependents := EveryEntry.of_forall fun e he pre => (hentry e he pre).2.1
    returnedTerminal := EveryEntry.of_forall fun e he pre => (hentry e he pre).2.2.1
    guarded := EveryEntry.of_forall fun e he pre => (hentry e he pre).2.2.2.1
    honest := EveryEntry.of_forall fun e he pre => (hentry e he pre).2.2.2.2
    entered := EveryEntry.of_forall fun e he _ => enteredWithoutFailure_of_executed_none (hnone e he)
    smallest := EveryEntry.of_forall fun e he _ => smallestReady_of_executed_none (hnone e he)
    progress := fun j _ => ⟨by rcases V.progress j with h | h <;> simp [h, AllowedProgress],
      fun h => by simp [V.processed] at h⟩ }

variable (env getNormalizedIdentifier units) in
/-- How a normal return of `Process` on a constructed processor ends. -/
inductive Processed (p : ConfigurationSetApplyProcessor) : Prop
  /-- Validation rejected the set, and the real run never started. -/
  | rejected (validation : ∃ p₀, preProcess getNormalizedIdentifier
        (ConfigurationSetApplyProcessor.create units) = .ok false p₀)
      (logInv : LogInv env units p) (validated : Validated getNormalizedIdentifier units false p)
  /-- Validation passed, and the three phases of the real run succeeded. -/
  | succeeded (validation : ∃ p₀, preProcess getNormalizedIdentifier
        (ConfigurationSetApplyProcessor.create units) = .ok true p₀)
      (started : .setProgress .inProgress ∈ p.log) (run : RunSucceeded env units p)
  /-- Validation passed, and the phase of `intent` failed. -/
  | failed (intent : ConfigurationUnitIntent)
      (validation : ∃ p₀, preProcess getNormalizedIdentifier
        (ConfigurationSetApplyProcessor.create units) = .ok true p₀)
      (started : .setProgress .inProgress ∈ p.log)
      (run : RunFailed env units intent intent.errorForOtherIntents intent.errorForFailures p)

/-- A set that passed validation has no duplicate identifier and no missing dependency. -/
theorem passed_of_preProcess {p₀ : ConfigurationSetApplyProcessor}
    (h : preProcess getNormalizedIdentifier (ConfigurationSetApplyProcessor.create units) = .ok true p₀) :
    ¬HasDuplicate getNormalizedIdentifier units ∧ ¬HasMissing getNormalizedIdentifier units :=
  have V := (preProcess_spec.of_ok h).1
  ⟨(V.passed rfl).1, (V.passed rfl).2.1⟩

/-- A set that validation rejected never got the set's `InProgress`. -/
theorem Validated.notStarted {ok : Bool} {p : ConfigurationSetApplyProcessor}
    (V : Validated getNormalizedIdentifier units ok p) : .setProgress .inProgress ∉ p.log := fun h => by
  rcases V.log _ h with ⟨j, hj⟩ | ⟨-, hne⟩
  · cases hj
  · exact hne rfl

/-- A set that validation rejected had no unit run. -/
theorem Validated.executions_eq_nil {ok : Bool} {p : ConfigurationSetApplyProcessor}
    (V : Validated getNormalizedIdentifier units ok p) : executions p.log = [] :=
  List.filterMap_eq_nil_iff.2 fun e he => by
    rcases V.log e he with ⟨j, rfl⟩ | ⟨hq, -⟩
    · rfl
    · exact (Event.isQuiet_views hq).2.1

/-- A set that validation rejected had no unit return. -/
theorem Validated.returns_eq_nil {ok : Bool} {p : ConfigurationSetApplyProcessor}
    (V : Validated getNormalizedIdentifier units ok p) : returns p.log = [] :=
  List.filterMap_eq_nil_iff.2 fun e he => by
    rcases V.log e he with ⟨j, rfl⟩ | ⟨hq, -⟩
    · rfl
    · exact (Event.isQuiet_views hq).2.2

/-- A validated table whose set got its `InProgress` has no unit's run in its log. -/
theorem Validated.quiet_started {p : ConfigurationSetApplyProcessor}
    (V : Validated getNormalizedIdentifier units true p) :
    ∀ e ∈ (p.emit (.setProgress .inProgress)).log, e.isQuiet := fun e he => by
  rw [ConfigurationSetApplyProcessor.emit_log, List.mem_append, List.mem_singleton] at he
  exact he.elim ((V.passed rfl).2.2.2.1 e) fun he => he ▸ rfl

variable (env) in
/-- A validated table whose set got its `InProgress` starts the real run. -/
theorem Validated.runInv {p : ConfigurationSetApplyProcessor}
    (V : Validated getNormalizedIdentifier units true p) :
    RunInv env units .assert (List.range units.length) false (p.emit (.setProgress .inProgress)) :=
  have ⟨_, _, hrc, _, hfresh⟩ := V.passed rfl
  RunInv.start V.quiet_started hrc V.size V.unit fun j =>
    ⟨V.processed j, by simp [(hfresh j).2], (hfresh j).1⟩

theorem Processed.logInv {p : ConfigurationSetApplyProcessor}
    (h : Processed env getNormalizedIdentifier units p) : LogInv env units p := by
  cases h with
  | rejected _ R => exact R
  | succeeded _ _ R => exact R.logInv
  | failed _ _ _ R => exact R.logInv

/-- `Process` on a constructed processor: a normal return ends in one of the ways of
    `Processed`, and an exception escapes only a `ProcessUnit` that never returned. -/
theorem process_spec :
    wp (process env getNormalizedIdentifier) (fun _ p => Processed env getNormalizedIdentifier units p)
      (fun _ p => RunThrew env units p) (ConfigurationSetApplyProcessor.create units) := by
  simp only [process, wp_tryCatch, wp_bind]
  refine wp_mono (fun ok p₁ ⟨⟨V, _⟩, hval⟩ => ?_) (fun _ _ h => h.1.elim)
    (wp_and preProcess_spec (wp_self _ _))
  cases ok
  case false =>
    -- validation rejected the set
    simp only [Bool.false_eq_true, if_false, wp_bind, wp_pure, wp_sendSetProgress, wp_get,
      wp_logProcessingSummary, wp_logProcessingSummaryForApply]
    have hF := finishes_summary p₁
    exact .rejected ⟨p₁, hval⟩ (hF.logInv V.logInv) (hF.validated V)
  case true =>
    -- the real run starts from the validated table
    have R := V.runInv env
    simp only [if_true, wp_bind, wp_sendSetProgress, wp_pure, wp_get, wp_logProcessingSummary,
      wp_logProcessingSummaryForApply, wp_throw]
    refine wp_mono (fun ok p₃ ⟨hs, hf, hpre⟩ => ?normal) (fun _ p₃ h => ?thrown) R.processInternal
    case thrown =>
      -- a cancellation escaped: the summary is logged and the exception rethrown
      exact ⟨h.logInv.append_quiet (L := [_]) (by simp) rfl fun _ => rfl, by simpa using h.unreturned⟩
    case normal =>
      have hF := finishes_summary p₃
      have hstart : .setProgress .inProgress ∈ p₃.log := hpre.subset (by simp)
      replace hstart := hF.2.2.elim fun L hL => hL.1 ▸ List.mem_append_left L hstart
      cases ok
      case false =>
        obtain ⟨intent, hI⟩ := hf rfl
        exact .failed intent ⟨p₁, hval⟩ hstart (hF.runFailed hI)
      case true => exact .succeeded ⟨p₁, hval⟩ hstart (hF.runSucceeded (hs rfl))

variable (env getNormalizedIdentifier units) in
/-- Every path of `Process` on a constructed processor ends with a log that `LogInv`
    holds of. -/
theorem process_logInv :
    wp (process env getNormalizedIdentifier) (fun _ p => LogInv env units p)
      (fun _ p => LogInv env units p) (ConfigurationSetApplyProcessor.create units) :=
  wp_mono (fun _ _ h => h.logInv) (fun _ _ h => h.logInv) process_spec

end ConfigurationSetApply
