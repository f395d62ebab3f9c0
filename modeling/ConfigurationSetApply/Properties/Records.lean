-- SUMMARY: A unit's record is final once its ProcessUnit returns; a unit to apply that returned true keeps the result information it was constructed with, and a unit not to apply ends marked manually skipped, on every way out of Process; all from one induction over the real run.
import ConfigurationSetApply.Laws.Frames

/-!
# Records once a unit returned

`ProcessUnit` leaves a unit's record (its result information, the result with its state
and flags, `Processed`) in the table, and the log entry of its return holds the table as it
stood then. After that nothing writes the record again: the loop picks only candidates,
which never ran, and the markings at the end of a phase write only the candidates left.
`Frozen` says that every unit that returned still has the record it returned with
(`process_recordsFinal`).

The real run enters only candidates untouched since validation, whose result and result
information are as constructed, so every return entry satisfies what `ProcessUnit` makes
of such a record (`ReturnsSatisfy`). With `Frozen` this is what the unit ends with
(`process_finalRecordsSatisfy`). Two instances: a unit to apply that returned `true` keeps
the result information it was constructed with (`ReturnedClean`,
`process_successLeavesResultInformation`), and a unit not to apply ends marked manually
skipped (`ReturnedSkipped`, `process_skippedUnitsMarked`). Since `MANUALLY_SKIPPED` is a
failure code, no unit that depends on a unit not to apply is ever entered
(`EnteredOnApplied`, `process_skippedBlocksDependents`).

Both are kept along the real run by the same argument, stated once as `process_runInduction`:
a property of the state that every return and exception of `ProcessUnit` on the unit the
loop picked keeps, that the markings of unreturned candidates keep, and that holds of a log
with no return, holds on every way out of `Process`.
-/

namespace ConfigurationSetApply

open WingetConfigError

variable {env : Collaborators} {getNormalizedIdentifier : String → String}
  {units : List ConfigurationUnit} {intent : ConfigurationUnitIntent}
  {cs : List Nat} {hasFailure : Bool} {p p' : ConfigurationSetApplyProcessor} {i : Nat}

/-- A step that appends no return keeps the return entries of the log. -/
theorem mem_log_of_returns_eq {log log' : List Event} (hpre : log <+: log')
    (hret : returns log' = returns log) {j : Nat} {b : Bool} {t : List UnitInfo}
    (hm : .processUnitResult j b t ∈ log') : .processUnitResult j b t ∈ log := by
  obtain ⟨L, rfl⟩ := hpre
  have hL : returns L = [] := by
    simpa only [returns_append, List.append_right_eq_self] using hret
  rcases List.mem_append.1 hm with hm | hm
  · exact hm
  · exact absurd (mem_returns_of_mem hm) (by simp [hL])

theorem mem_executions_of_mem {log : List Event} {j : Nat} {t : List UnitInfo}
    (h : .processUnit j t ∈ log) : j ∈ executions log :=
  List.mem_filterMap.2 ⟨_, h, rfl⟩

theorem mem_log_of_executions_eq {log log' : List Event} (hpre : log <+: log')
    (hexec : executions log' = executions log) {j : Nat} {t : List UnitInfo}
    (hm : .processUnit j t ∈ log') : .processUnit j t ∈ log := by
  obtain ⟨L, rfl⟩ := hpre
  have hL : executions L = [] := by
    simpa only [executions_append, List.append_right_eq_self] using hexec
  rcases List.mem_append.1 hm with hm | hm
  · exact hm
  · exact absurd (mem_executions_of_mem hm) (by simp [hL])

/-- Every unit that `ProcessUnit` returned for has the record it returned with. -/
def Frozen (p : ConfigurationSetApplyProcessor) : Prop :=
  ∀ j result table, .processUnitResult j result table ∈ p.log → p.info j = table.getD j default

namespace Frozen

/-- A step that appends no return and leaves every unit that returned alone keeps it. -/
theorem of_frame (F : Frozen p) (hpre : p.log <+: p'.log) (hret : returns p'.log = returns p.log)
    (hinfo : ∀ j ∈ (returns p.log).map Prod.fst, p'.info j = p.info j) : Frozen p' :=
  fun j b t hm => by
  have hm := mem_log_of_returns_eq hpre hret hm
  rw [hinfo j (List.mem_map_of_mem Prod.fst (mem_returns_of_mem hm))]
  exact F j b t hm

theorem withResultCode (F : Frozen p) (c : HResult) : Frozen (p.withResultCode c) := F

theorem emit (F : Frozen p) {e : Event} (he : e.returned? = none) : Frozen (p.emit e) :=
  F.of_frame (List.prefix_append _ _)
    (by rw [ConfigurationSetApplyProcessor.emit_log, returns_append, returns_cons, he]; simp)
    fun _ _ => rfl

/-- Marking candidates that never returned keeps it. -/
theorem markAll (F : Frozen p) {selects : ConfigurationUnitIntent → Bool} {c : HResult}
    {sendProgress : Bool} (hcs : ∀ j ∈ cs, j ∉ (returns p.log).map Prod.fst) :
    Frozen (p.markAll selects c sendProgress cs) := by
  refine F.of_frame (by rw [ConfigurationSetApplyProcessor.markAll_log]; exact List.prefix_append _ _)
    (by cases sendProgress <;> simp [ConfigurationSetApplyProcessor.markAll_log]) fun j hj => ?_
  rw [ConfigurationSetApplyProcessor.markAll_info, if_neg]
  exact fun h => hcs j h.1 hj

/-- The end of `Process` appends quiet entries only. -/
theorem finishes (F : Frozen p) (h : Finishes p p') : Frozen p' := by
  have ⟨_, _, L, hL, _⟩ := h
  exact F.of_frame ⟨L, hL.symm⟩ h.returns_eq fun j _ => h.info_eq j

end Frozen

-- ---------------------------------------------------------------------------
-- Properties kept by the real run
-- ---------------------------------------------------------------------------

/-- The candidates of the real run never returned. -/
theorem RunInv.candidates_unreturned (R : RunInv env units intent cs hasFailure p) :
    ∀ j ∈ cs, j ∉ (returns p.log).map Prod.fst :=
  fun j hj h => (R.fresh j hj).1 (R.returned ▸ h)

section RunInduction

/-! A property `I` of the state that each return and each exception of `ProcessUnit` on the
unit the loop picked keeps, and that the markings of unreturned candidates and the set's code
keep, holds all along the real run. Properties that hold of a log with no return and that
the end of `Process` keeps then hold on every way out of `Process` (`process_runInduction`). -/

variable (I : ConfigurationSetApplyProcessor → Prop)
  (hreturned : ∀ intent cs hasFailure p p' i result, RunInv env units intent cs hasFailure p →
    I p → firstReady hasProcessedSuccessfully intent p cs = some i →
    UnitReturned env i p p' result → I p')
  (hthrew : ∀ intent cs hasFailure p p' i, RunInv env units intent cs hasFailure p → I p →
    firstReady hasProcessedSuccessfully intent p cs = some i → UnitThrew env i p p' → I p')
  (hmark : ∀ p selects c cs, ConfigurationSetApply.succeeded c = false → I p →
    (∀ j ∈ cs, j ∉ (returns p.log).map Prod.fst) → I (p.markAll selects c true cs))
  (hcode : ∀ p c, I p → I (p.withResultCode c))

include hreturned hthrew in
theorem RunInv.loop_induction (R : RunInv env units intent cs hasFailure p) (hI : I p) :
    wp (processReadyUnits hasProcessedSuccessfully (processUnit env) intent cs.length cs hasFailure)
      (fun _ => I) (fun _ => I) p :=
  wp_mono (fun _ _ h => h.1.2) (fun _ _ h => h)
    (processReadyUnits_rule _ _ _ (fun cs hf p₁ => RunInv env units intent cs hf p₁ ∧ I p₁)
      (fun _ _ _ i ⟨R₁, I₁⟩ hi => wp_mono (fun _ _ h => ⟨R₁.step hi h, hreturned _ _ _ _ _ _ _ R₁ I₁ hi h⟩)
        (fun _ _ h => hthrew _ _ _ _ _ _ R₁ I₁ hi h)
        (processUnit_outcome env (R₁.size ▸ R₁.lt i (firstReady_mem hi)) R₁.guarded R₁.honest))
      _ _ _ _ ⟨R, hI⟩)

include hreturned hthrew hmark hcode in
/-- One phase of the real run keeps `I` on every way out: the markings of a phase that
    fails write failure codes, and only on the candidates left, which never returned. -/
theorem RunInv.processIntent_induction (R : RunInv env units intent cs false p) (hI : I p)
    (errorForOtherIntents errorForFailures : HResult)
    (hother : ConfigurationSetApply.succeeded errorForOtherIntents = false) :
    wp (processIntentInternal hasProcessedSuccessfully (processUnit env) intent cs
        errorForOtherIntents errorForFailures true)
      (fun _ => I) (fun _ => I) p := by
  rw [wp_processIntentInternal]
  refine wp_mono (fun r p₁ ⟨⟨R₁, _⟩, I₁⟩ => ?_) (fun _ _ h => h.2)
    (wp_and R.loop (R.loop_induction I hreturned hthrew hI))
  have I₂ := hmark _ (· == intent) dependencyUnsatisfied _ (by decide) I₁ R₁.candidates_unreturned
  dsimp only
  split
  · refine hcode _ _ (hmark _ _ _ _ hother I₂ fun j hj => ?_)
    simpa [ConfigurationSetApplyProcessor.markAll_log] using R₁.candidates_unreturned j hj
  · exact I₂

include hreturned hthrew hmark hcode in
/-- The real run keeps `I` on every way out. -/
theorem RunInv.processInternal_induction
    (R : RunInv env units .assert (List.range units.length) false p) (hI : I p) :
    wp (ConfigurationSetApply.processInternal hasProcessedSuccessfully (processUnit env) true)
      (fun _ => I) (fun _ => I) p := by
  have phase := fun {intent cs p} (R : RunInv env units intent cs false p) =>
    R.processIntent_induction I hreturned hthrew hmark hcode
  rw [wp_processInternal, R.size]
  refine wp_mono (fun r₁ p₁ ⟨⟨h₁, _⟩, I₁⟩ => ?_) (fun _ _ h => h.2)
    (wp_and (R.processIntent _ _) (phase R hI _ _ (by decide)))
  split
  case isFalse => exact I₁
  case isTrue hr₁ =>
    obtain ⟨R₁, d₁⟩ := h₁ hr₁
    refine wp_mono (fun r₂ p₂ ⟨⟨h₂, _⟩, I₂⟩ => ?_) (fun _ _ h => h.2)
      (wp_and ((R₁.nextPhase d₁ .inform rfl).processIntent _ _)
        (phase (R₁.nextPhase d₁ .inform rfl) I₁ _ _ (by decide)))
    split
    case isFalse => exact I₂
    case isTrue hr₂ =>
      obtain ⟨R₂, d₂⟩ := h₂ hr₂
      exact phase (R₂.nextPhase d₂ .apply rfl) I₂ _ _ (by decide)

variable (env getNormalizedIdentifier units)

include hreturned hthrew hmark hcode in
/-- A property that holds of every state whose log has no return, that the real run keeps
    and that the end of `Process` keeps, holds on every way out of `Process`. -/
theorem process_runInduction (hstart : ∀ p, returns p.log = [] → executions p.log = [] → I p)
    (hfinishes : ∀ p p', I p → Finishes p p' → I p') :
    wp (process env getNormalizedIdentifier) (fun _ => I) (fun _ => I)
      (ConfigurationSetApplyProcessor.create units) := by
  simp only [process, wp_tryCatch, wp_bind]
  refine wp_mono (fun ok p₁ ⟨V, _⟩ => ?_) (fun _ _ h => h.elim) preProcess_spec
  cases ok
  case false =>
    -- validation logs no return
    simp only [Bool.false_eq_true, if_false, wp_bind, wp_pure, wp_sendSetProgress, wp_get,
      wp_logProcessingSummary, wp_logProcessingSummaryForApply]
    exact hfinishes _ _ (hstart _ V.returns_eq_nil V.executions_eq_nil) (finishes_summary p₁)
  case true =>
    simp only [if_true, wp_bind, wp_sendSetProgress, wp_pure, wp_get, wp_logProcessingSummary,
      wp_logProcessingSummaryForApply, wp_throw]
    exact wp_mono (fun _ p₃ h => hfinishes _ _ h (finishes_summary p₃))
      (fun _ p₃ h => hfinishes p₃ _ h ⟨rfl, rfl, [_], rfl, by simp⟩)
      ((V.runInv env).processInternal_induction I hreturned hthrew hmark hcode
        (hstart _ (by simp [V.returns_eq_nil]) (by simp [V.executions_eq_nil])))

end RunInduction

-- ---------------------------------------------------------------------------
-- The records at a return
-- ---------------------------------------------------------------------------

/-- A `ProcessUnit` that threw on the unit the loop picked wrote only that unit, which had
    not returned, and appended no return. -/
theorem RunInv.frozen_threw (R : RunInv env units intent cs hasFailure p)
    (hi : firstReady hasProcessedSuccessfully intent p cs = some i) (h : UnitThrew env i p p') :
    Frozen p' := by
  obtain ⟨L, -, heq, -⟩ := h.log
  refine Frozen.of_frame R.frozen ⟨_, heq.symm⟩ h.returns_eq fun j hj => h.info_ne j ?_
  rintro rfl
  exact R.candidates_unreturned _ (firstReady_mem hi) hj

theorem Frozen.of_returns_nil (h : returns p.log = []) : Frozen p :=
  fun _ _ _ hm => absurd (mem_returns_of_mem hm) (by simp [h])

/-- Every return of `ProcessUnit` in the log satisfies `P`, read with the value returned and
    the unit's record as the entry holds it. -/
def ReturnsSatisfy (P : Bool → UnitInfo → Prop) (p : ConfigurationSetApplyProcessor) :
    Prop :=
  ∀ j result table, .processUnitResult j result table ∈ p.log → P result (table.getD j default)

theorem ReturnsSatisfy.of_frame {P : Bool → UnitInfo → Prop} (C : ReturnsSatisfy P p)
    (hpre : p.log <+: p'.log) (hret : returns p'.log = returns p.log) : ReturnsSatisfy P p' :=
  fun j r t hm => C j r t (mem_log_of_returns_eq hpre hret hm)

/-- A return on the unit the loop picked satisfies `P` as soon as every return of a unit
    entered with its result information as constructed does. -/
theorem RunInv.returnsSatisfy {P : Bool → UnitInfo → Prop}
    (hP : ∀ i p p' result, (p.info i).resultInformation = {} →
      UnitReturned env i p p' result → P result (p'.info i))
    (R : RunInv env units intent cs hasFailure p) (C : ReturnsSatisfy P p)
    (hi : firstReady hasProcessedSuccessfully intent p cs = some i) {result : Bool}
    (h : UnitReturned env i p p' result) : ReturnsSatisfy P p' := fun j r t hm => by
  rcases h.mem_log_returned hm with hm | ⟨rfl, rfl, rfl⟩
  · exact C j r t hm
  · exact hP _ _ _ _ (R.fresh j (firstReady_mem hi)).2.2.2 h

/-- Every `true` that `ProcessUnit` returned for a unit to apply came with the unit's result
    information as it was constructed. -/
def ReturnedClean (result : Bool) (u : UnitInfo) : Prop :=
  u.unit.shouldApply = true → result = true → u.resultInformation = {}

/-- Every return for a unit not to apply is `true`, with the unit marked manually skipped:
    code `MANUALLY_SKIPPED` from `Precondition`, empty details, state `Skipped`, and
    `Processed` set. -/
def ReturnedSkipped (result : Bool) (u : UnitInfo) : Prop :=
  u.unit.shouldApply = false → result = true ∧
    u.resultInformation = { resultCode := manuallySkipped, resultSource := .precondition } ∧
    u.result.state = .skipped ∧ u.processed = true

theorem UnitReturned.returnedClean (hinfo : (p.info i).resultInformation = {}) {result : Bool}
    (h : UnitReturned env i p p' result) : ReturnedClean result (p'.info i) := fun hs hr => by
  rw [h.kept (h.unit ▸ hs) hr, hinfo]

theorem UnitReturned.returnedSkipped (hinfo : (p.info i).resultInformation = {}) {result : Bool}
    (h : UnitReturned env i p p' result) : ReturnedSkipped result (p'.info i) := fun hs => by
  rw [h.unit] at hs
  obtain ⟨hr, hri⟩ := h.skip hs
  rw [hri, hinfo, h.state, hs]
  exact ⟨hr, rfl, rfl, h.processed⟩

/-- Every unit `ProcessUnit` was entered for depends only on units to apply, by the
    dependency indices of the table as it stood at the entry. -/
def EnteredOnApplied (units : List ConfigurationUnit) (p : ConfigurationSetApplyProcessor) :
    Prop :=
  ∀ k table, .processUnit k table ∈ p.log →
    ∀ d ∈ (table.getD k default).dependencyIndices, (unitAt units d).shouldApply = true

theorem EnteredOnApplied.of_frame (C : EnteredOnApplied units p) (hpre : p.log <+: p'.log)
    (hexec : executions p'.log = executions p.log) : EnteredOnApplied units p' :=
  fun k t hm => C k t (mem_log_of_executions_eq hpre hexec hm)

/-- The unit the loop picks depends only on units to apply: a unit not to apply that ran
    returned with the code `MANUALLY_SKIPPED`, which is no success, so no unit depending on
    it is ever ready. -/
theorem RunInv.ready_applied (R : RunInv env units intent cs hasFailure p)
    (S : ReturnsSatisfy ReturnedSkipped p)
    (hi : firstReady hasProcessedSuccessfully intent p cs = some i) :
    ∀ d ∈ (p.info i).dependencyIndices, (unitAt units d).shouldApply = true := by
  intro d hd
  have hsat := (hasIntentAndSatisfiedDependencies_eq_true.1 (firstReady_ready hi)).2 d hd
  simp only [hasProcessedSuccessfully, Bool.and_eq_true] at hsat
  have hex := (R.processed d).1 hsat.1
  rw [← R.returned] at hex
  obtain ⟨⟨_, r⟩, hr, rfl⟩ := List.mem_map.1 hex
  obtain ⟨t, ht⟩ := exists_of_mem_returns hr
  have hF := R.frozen _ r t ht
  rw [← R.unit, hF]
  by_contra hs
  have ⟨_, hinfo, _⟩ := S _ r t ht (Bool.eq_false_iff.2 hs)
  rw [hF, hinfo] at hsat
  exact absurd hsat.2 (by decide)

/-- An entry of `ProcessUnit` on the unit the loop picked keeps `EnteredOnApplied`. -/
theorem RunInv.enteredOnApplied (R : RunInv env units intent cs hasFailure p)
    (S : ReturnsSatisfy ReturnedSkipped p) (C : EnteredOnApplied units p)
    (hi : firstReady hasProcessedSuccessfully intent p cs = some i) {M : List Event}
    (hM : executions M = []) (hlog : p'.log = p.log ++ .processUnit i p.unitInfo :: M) :
    EnteredOnApplied units p' := fun k t hm => by
  rw [hlog, ← List.singleton_append, ← List.append_assoc] at hm
  rcases List.mem_append.1 hm with hm | hm
  · rcases List.mem_append.1 hm with hm | hm
    · exact C k t hm
    · obtain ⟨rfl, rfl⟩ := by simpa using hm
      exact R.ready_applied S hi
  · exact absurd (mem_executions_of_mem hm) (by simp [hM])

-- ---------------------------------------------------------------------------
-- Process
-- ---------------------------------------------------------------------------

variable (env getNormalizedIdentifier units)

/-- `Process` keeps the records final on every way out. -/
theorem process_frozen :
    wp (process env getNormalizedIdentifier) (fun _ => Frozen) (fun _ => Frozen)
      (ConfigurationSetApplyProcessor.create units) :=
  process_runInduction env getNormalizedIdentifier units Frozen
    (fun _ _ _ _ _ _ _ R _ hi h => (R.step hi h).frozen)
    (fun _ _ _ _ _ _ R _ hi h => R.frozen_threw hi h) (fun _ _ _ _ _ F h => F.markAll h)
    (fun _ _ F => F.withResultCode _) (fun _ h _ => Frozen.of_returns_nil h)
    fun _ _ F h => F.finishes h

/-- For every set, every normalization and every behaviour of the collaborators, on a normal
    return of `Process` and when an exception escapes, every unit that `ProcessUnit`
    returned for still has the record it returned with: its result information, its result
    with the state and the flags, and `Processed`. No marking after a failed phase, no
    summary and no exception changes a unit's record once the unit ran. -/
theorem process_recordsFinal :
    wp (process env getNormalizedIdentifier)
      (fun _ p => ∀ j result table, .processUnitResult j result table ∈ p.log →
        p.info j = table.getD j default)
      (fun _ p => ∀ j result table, .processUnitResult j result table ∈ p.log →
        p.info j = table.getD j default)
      (ConfigurationSetApplyProcessor.create units) :=
  process_frozen env getNormalizedIdentifier units

/-- `Process` keeps `ReturnsSatisfy P` on every way out, for every `P` that each return of a
    unit entered as constructed satisfies. -/
theorem process_returnsSatisfy (P : Bool → UnitInfo → Prop)
    (hP : ∀ i p p' result, (p.info i).resultInformation = {} →
      UnitReturned env i p p' result → P result (p'.info i)) :
    wp (process env getNormalizedIdentifier) (fun _ => ReturnsSatisfy P)
      (fun _ => ReturnsSatisfy P) (ConfigurationSetApplyProcessor.create units) :=
  process_runInduction env getNormalizedIdentifier units (ReturnsSatisfy P)
    (fun _ _ _ _ _ _ _ R C hi h => R.returnsSatisfy hP C hi h)
    (fun _ _ _ _ _ _ _ C _ h => C.of_frame (let ⟨_, _, heq, _⟩ := h.log; ⟨_, heq.symm⟩)
      h.returns_eq)
    (fun _ _ _ _ _ C _ => C.of_frame
      (by rw [ConfigurationSetApplyProcessor.markAll_log]; exact List.prefix_append _ _)
      (by simp [ConfigurationSetApplyProcessor.markAll_log]))
    (fun _ _ C => C) (fun _ h _ _ _ _ hm => absurd (mem_returns_of_mem hm) (by simp [h]))
    fun _ _ C h => C.of_frame (let ⟨_, _, L, hL, _⟩ := h; ⟨L, hL.symm⟩) h.returns_eq

/-- The final record of a unit that `ProcessUnit` returned for is the one its return entry
    holds, and that record satisfies `P`. -/
theorem process_finalRecordsSatisfy (P : Bool → UnitInfo → Prop)
    (hP : ∀ i p p' result, (p.info i).resultInformation = {} →
      UnitReturned env i p p' result → P result (p'.info i)) :
    wp (process env getNormalizedIdentifier)
      (fun _ p => ∀ j result, (j, result) ∈ returns p.log → P result (p.info j))
      (fun _ p => ∀ j result, (j, result) ∈ returns p.log → P result (p.info j))
      (ConfigurationSetApplyProcessor.create units) := by
  refine wp_mono (fun _ p ⟨F, C⟩ j r hj => ?_) (fun _ p ⟨F, C⟩ j r hj => ?_)
    (wp_and (process_frozen env getNormalizedIdentifier units)
      (process_returnsSatisfy env getNormalizedIdentifier units P hP))
  all_goals
    obtain ⟨t, ht⟩ := exists_of_mem_returns hj
    rw [F j r t ht]
    exact C j r t ht

/-- For every set, every normalization and every behaviour of the collaborators, on a normal
    return of `Process` and when an exception escapes, a unit to apply (`ShouldApply` set)
    that `ProcessUnit` returned `true` for ends with its result information as constructed:
    code `S_OK`, empty details and source `None`. A run that succeeds writes no result
    information, and nothing writes it after the unit ran. -/
theorem process_successLeavesResultInformation :
    wp (process env getNormalizedIdentifier)
      (fun _ p => ∀ j, (j, true) ∈ returns p.log → (unitAt units j).shouldApply = true →
        (p.info j).resultInformation = {})
      (fun _ p => ∀ j, (j, true) ∈ returns p.log → (unitAt units j).shouldApply = true →
        (p.info j).resultInformation = {})
      (ConfigurationSetApplyProcessor.create units) := by
  refine wp_mono (fun _ p ⟨C, U⟩ j hj hs => ?_) (fun _ p ⟨C, U⟩ j hj hs => ?_)
    (wp_and (process_finalRecordsSatisfy env getNormalizedIdentifier units ReturnedClean
        fun _ _ _ _ hi h => h.returnedClean hi)
      (process_keepsUnits env getNormalizedIdentifier units))
  all_goals exact C j true hj (by rw [U j]; exact hs) rfl

/-- For every set, every normalization and every behaviour of the collaborators, on a normal
    return of `Process` and when an exception escapes, a unit not to apply (`ShouldApply`
    clear) that `ProcessUnit` returned for was returned `true` and ends marked manually
    skipped: code `WINGET_CONFIG_ERROR_MANUALLY_SKIPPED` from `Precondition` with empty
    details, state `Skipped`, and `Processed` set. No collaborator answer and no later
    marking changes that record. -/
theorem process_skippedUnitsMarked :
    wp (process env getNormalizedIdentifier)
      (fun _ p => ∀ j result, (j, result) ∈ returns p.log → (unitAt units j).shouldApply = false →
        result = true ∧
          (p.info j).resultInformation = { resultCode := manuallySkipped, resultSource := .precondition } ∧
          (p.info j).result.state = .skipped ∧ (p.info j).processed = true)
      (fun _ p => ∀ j result, (j, result) ∈ returns p.log → (unitAt units j).shouldApply = false →
        result = true ∧
          (p.info j).resultInformation = { resultCode := manuallySkipped, resultSource := .precondition } ∧
          (p.info j).result.state = .skipped ∧ (p.info j).processed = true)
      (ConfigurationSetApplyProcessor.create units) := by
  refine wp_mono (fun _ p ⟨C, U⟩ j r hj hs => ?_) (fun _ p ⟨C, U⟩ j r hj hs => ?_)
    (wp_and (process_finalRecordsSatisfy env getNormalizedIdentifier units ReturnedSkipped
        fun _ _ _ _ hi h => h.returnedSkipped hi)
      (process_keepsUnits env getNormalizedIdentifier units))
  all_goals exact C j r hj (by rw [U j]; exact hs)

/-- `Process` keeps `EnteredOnApplied` on every way out. -/
theorem process_enteredOnApplied :
    wp (process env getNormalizedIdentifier)
      (fun _ p => ReturnsSatisfy ReturnedSkipped p ∧ EnteredOnApplied units p)
      (fun _ p => ReturnsSatisfy ReturnedSkipped p ∧ EnteredOnApplied units p)
      (ConfigurationSetApplyProcessor.create units) :=
  process_runInduction env getNormalizedIdentifier units
    (fun p => ReturnsSatisfy ReturnedSkipped p ∧ EnteredOnApplied units p)
    (fun _ _ _ _ _ _ _ R ⟨S, C⟩ hi h =>
      ⟨R.returnsSatisfy (fun _ _ _ _ hi h => h.returnedSkipped hi) S hi h,
        let ⟨L, hL, _, heq⟩ := h.log
        R.enteredOnApplied S C hi (M := L ++ [.processUnitResult _ _ _])
          (by simp [executions_append, executions_of_isRunOf hL]) (by simpa using heq)⟩)
    (fun _ _ _ _ _ _ R ⟨S, C⟩ hi h =>
      let ⟨L, hL, heq, _⟩ := h.log
      ⟨S.of_frame ⟨_, heq.symm⟩ h.returns_eq,
        R.enteredOnApplied S C hi (executions_of_isRunOf hL) heq⟩)
    (fun _ _ _ _ _ ⟨S, C⟩ _ =>
      have hpre : _ <+: _ := by
        rw [ConfigurationSetApplyProcessor.markAll_log]; exact List.prefix_append _ _
      ⟨S.of_frame hpre (by simp [ConfigurationSetApplyProcessor.markAll_log]),
        C.of_frame hpre (by simp [ConfigurationSetApplyProcessor.markAll_log])⟩)
    (fun _ _ I => I)
    (fun _ h h' => ⟨fun _ _ _ hm => absurd (mem_returns_of_mem hm) (by simp [h]),
      fun _ _ hm => absurd (mem_executions_of_mem hm) (by simp [h'])⟩)
    fun _ _ ⟨S, C⟩ h =>
      have ⟨_, _, L, hL, hE⟩ := h
      ⟨S.of_frame ⟨L, hL.symm⟩ h.returns_eq, C.of_frame ⟨L, hL.symm⟩ h.executions_eq⟩

/-- For every set, every normalization and every behaviour of the collaborators, on a normal
    return of `Process` and when an exception escapes, `ProcessUnit` was never entered for a
    unit that depends on a unit not to apply: every unit it was entered for depends, by the
    dependency indices of the table at the entry, only on units whose `ShouldApply` is set.
    A skipped unit is marked `MANUALLY_SKIPPED`, a failure code, so no unit that depends on
    it is ever ready. -/
theorem process_skippedBlocksDependents :
    wp (process env getNormalizedIdentifier)
      (fun _ p => ∀ k table, .processUnit k table ∈ p.log →
        ∀ d ∈ (table.getD k default).dependencyIndices, (unitAt units d).shouldApply = true)
      (fun _ p => ∀ k table, .processUnit k table ∈ p.log →
        ∀ d ∈ (table.getD k default).dependencyIndices, (unitAt units d).shouldApply = true)
      (ConfigurationSetApplyProcessor.create units) :=
  wp_mono (fun _ _ h => h.2) (fun _ _ h => h.2)
    (process_enteredOnApplied env getNormalizedIdentifier units)

end ConfigurationSetApply
