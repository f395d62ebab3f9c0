-- SUMMARY: A failure code, once a unit has one, stays one: every stage of Process writes only failure codes over results, ProcessUnit runs only on units without one, and so every table a run passes through keeps the failure codes of the tables before it.
import ConfigurationSetApply.Properties.Records

/-!
# Failure codes are kept

A unit's result code is written by `Initialize` with a fixed code, by the markings of the
scheduler, and by `ProcessUnit` for the unit it runs; nothing else writes it. Every fixed
code the validation and the scheduler write is a failure code (`DUPLICATE_IDENTIFIER`,
`MISSING_DEPENDENCY`, `DEPENDENCY_UNSATISFIED`, `ASSERTION_FAILED`, `E_FAIL`), so those
stages keep every failure code from every state (`FailuresKept`). `ProcessUnit` rewrites
only the record of its own unit, and `Process` enters it only on a unit without a failure
code, on every run and whatever the collaborators answer.

Along a whole run, the tables the run passes through are the one validation leaves, the
tables the log records at each entry and each return of `ProcessUnit`, and the one the run
ends with. Each of them keeps the failure codes of every table before it
(`process_failuresPersist`): `FailuresPersist` is kept by each step of the real run
(`process_runInduction`), and validation either leaves no failure code or ends the run.
-/

namespace ConfigurationSetApply

open WingetConfigError

variable (env : Collaborators) (getNormalizedIdentifier : String → String)
  (units : List ConfigurationUnit)

-- ---------------------------------------------------------------------------
-- The relation
-- ---------------------------------------------------------------------------

/-- Every unit whose result code is a failure code in `p` still has one in `p'`. -/
def FailuresKept (p p' : ConfigurationSetApplyProcessor) : Prop :=
  ∀ j, succeeded (p.info j).resultInformation.resultCode = false →
    succeeded (p'.info j).resultInformation.resultCode = false

instance : IsPreorder _ FailuresKept where
  refl _ _ h := h
  trans _ _ _ h₁ h₂ j h := h₂ j (h₁ j h)

namespace FailuresKept

variable {p p' : ConfigurationSetApplyProcessor} {i : Nat}

theorem emit {e : Event} : FailuresKept p (p.emit e) := fun _ h => h

theorem withResultCode {c : HResult} : FailuresKept p (p.withResultCode c) := fun _ h => h

theorem addToIndex {identifier : String} : FailuresKept p (p.addToIndex identifier i) :=
  fun _ h => h

theorem progress {state : ConfigurationUnitState} : FailuresKept p (p.progress state i) :=
  fun _ h => by rwa [ConfigurationSetApplyProcessor.progress_info_resultInformation]

/-- A write that leaves a failure code a failure code keeps every failure. -/
theorem modifyUnit {f : UnitInfo → UnitInfo}
    (hf : ∀ u : UnitInfo, succeeded u.resultInformation.resultCode = false →
      succeeded (f u).resultInformation.resultCode = false) :
    FailuresKept p (p.modifyUnit i f) := fun j hj => by
  rw [ConfigurationSetApplyProcessor.modifyUnit_info]
  split
  · exact hf _ hj
  · exact hj

theorem markAll {selects : ConfigurationUnitIntent → Bool} {c : HResult} (hc : succeeded c = false)
    (sendProgress : Bool) (cs : List Nat) : FailuresKept p (p.markAll selects c sendProgress cs) :=
  fun j hj => by
    rw [ConfigurationSetApplyProcessor.markAll_info]
    split
    · exact hc
    · exact hj

/-- What changes only the record of a unit without a failure code keeps every failure. -/
theorem of_info_ne (h : ∀ j, i ≠ j → p'.info j = p.info j)
    (hi : succeeded (p.info i).resultInformation.resultCode = true) : FailuresKept p p' :=
  fun j hj => by
  have hij : i ≠ j := by rintro rfl; simp [hi] at hj
  rwa [h j hij]

theorem of_onlyUnit (h : OnlyUnit i p p') (hi : succeeded (p.info i).resultInformation.resultCode = true) :
    FailuresKept p p' :=
  of_info_ne h.2.1 hi

end FailuresKept

section Primitives

variable {i : Nat}

theorem keepsFailures_initializeResult {c : HResult} (hc : succeeded c = false)
    (resultSource : ConfigurationUnitResultSource) :
    Keeps FailuresKept (initializeResult i c resultSource) :=
  Keeps.modify fun _ => .modifyUnit fun _ _ => hc

theorem keepsFailures_modifyUnitInfo {f : UnitInfo → UnitInfo}
    (hf : ∀ u, (f u).resultInformation.resultCode = u.resultInformation.resultCode) :
    Keeps FailuresKept (modifyUnitInfo i f) :=
  Keeps.modify fun _ => .modifyUnit fun u h => (hf u).symm ▸ h

theorem keepsFailures_sendProgress {state : ConfigurationUnitState} :
    Keeps FailuresKept (sendProgress state i) :=
  Keeps.modify fun _ => .progress

theorem keepsFailures_setResultCode {c : HResult} : Keeps FailuresKept (setResultCode c) :=
  Keeps.modify fun _ => .withResultCode

end Primitives

-- ---------------------------------------------------------------------------
-- Validation
-- ---------------------------------------------------------------------------

/-- `AddUnitToMap` writes only `DUPLICATE_IDENTIFIER`. -/
theorem addUnitToMap_keepsFailures (i : Nat) :
    Keeps FailuresKept (addUnitToMap getNormalizedIdentifier i) := by
  unfold addUnitToMap sendProgressIfNotComplete
  dsimp only
  repeat' first
    | with_reducible refine Keeps.bind ?_ fun _ => ?_
    | split
    | with_reducible exact Keeps.pure _
    | with_reducible exact Keeps.get
    | with_reducible exact keepsFailures_initializeResult (by decide) _
    | with_reducible exact keepsFailures_sendProgress
    | with_reducible exact Keeps.modify fun _ => .addToIndex

theorem addUnitsToMap_keepsFailures :
    ∀ cs, Keeps FailuresKept (addUnitsToMap getNormalizedIdentifier cs)
  | [] => Keeps.pure _
  | i :: rest => (addUnitToMap_keepsFailures _ i).bind fun _ =>
      (addUnitsToMap_keepsFailures rest).bind fun _ => Keeps.pure _

/-- The dependency loop writes only `MISSING_DEPENDENCY`, besides the details and the
    dependency indices. -/
theorem resolveDependencies_keepsFailures (i : Nat) (ds : List String) :
    Keeps FailuresKept (resolveDependencies getNormalizedIdentifier i ds) := by
  induction ds with
  | nil => exact Keeps.pure _
  | cons d rest ih =>
    rw [resolveDependencies]
    repeat' first
      | with_reducible refine Keeps.bind ?_ fun _ => ?_
      | split
      | with_reducible exact Keeps.pure _
      | with_reducible exact Keeps.get
      | exact ih
      | with_reducible exact keepsFailures_initializeResult (by decide) _
      | with_reducible exact keepsFailures_sendProgress
      | with_reducible exact keepsFailures_modifyUnitInfo fun _ => rfl

theorem resolveAllDependencies_keepsFailures :
    ∀ cs, Keeps FailuresKept (resolveAllDependencies getNormalizedIdentifier cs)
  | [] => Keeps.pure _
  | i :: rest => Keeps.get.bind fun _ => (resolveDependencies_keepsFailures _ i _).bind fun _ =>
      (resolveAllDependencies_keepsFailures rest).bind fun _ => Keeps.pure _

theorem markPreprocessed_keepsFailures (i : Nat) : Keeps FailuresKept (markPreprocessed i) :=
  (Keeps.modify fun _ => .emit).bind fun _ =>
    (keepsFailures_modifyUnitInfo fun _ => by rfl).bind fun _ => Keeps.pure _

-- ---------------------------------------------------------------------------
-- The scheduler
-- ---------------------------------------------------------------------------

/-- A marking with a failure code keeps every failure; the phases and `ProcessInternal`
    then keep what their action keeps (`keeps_processIntentInternal`). -/
theorem markRemaining_keepsFailures (selects : ConfigurationUnitIntent → Bool) (c : HResult)
    (sendProgress : Bool) (cs : List Nat) (hc : succeeded c = false) :
    Keeps FailuresKept (markRemaining selects c sendProgress cs) := fun p => by
  rw [wp_markRemaining]
  exact FailuresKept.markAll hc _ _

-- ---------------------------------------------------------------------------
-- Process
-- ---------------------------------------------------------------------------

/-- `ProcessUnit` keeps every failure from a state where its own unit has none. -/
theorem processUnit_keepsFailures (i : Nat) (p : ConfigurationSetApplyProcessor)
    (hi : succeeded (p.info i).resultInformation.resultCode = true) :
    wp (processUnit env i) (fun _ => FailuresKept p) (fun _ => FailuresKept p) p :=
  wp_mono (fun _ _ h => .of_onlyUnit h hi) (fun _ _ h => .of_onlyUnit h hi) (processUnit_keeps env i p)

/-- The stages of `Process`, one by one: the identifier pass and the dependency pass, call by
    call, and the dry run keep every failure code from every state, as do a phase whose
    action keeps them and the markings the phases make; `ProcessUnit` keeps every failure
    code from every state where its own unit has none; and on every run of `Process`,
    normal or cancelled, `ProcessUnit` is entered only on units without one. -/
theorem process_keepsFailures :
    (∀ i, Keeps FailuresKept (addUnitToMap getNormalizedIdentifier i)) ∧
    (∀ i ds, Keeps FailuresKept (resolveDependencies getNormalizedIdentifier i ds)) ∧
    Keeps FailuresKept (processInternal hasPreprocessed markPreprocessed false) ∧
    (∀ (check : UnitInfo → Bool) (action : Nat → ProcessorM Bool),
      (∀ i, Keeps FailuresKept (action i)) →
      ∀ intent cs errorForOtherIntents errorForFailures sendProgress,
        succeeded errorForOtherIntents = false →
        Keeps FailuresKept (processIntentInternal check action intent cs errorForOtherIntents
          errorForFailures sendProgress)) ∧
    (∀ selects sendProgress cs, ∀ c ∈ [dependencyUnsatisfied, assertionFailed, eFail],
      Keeps FailuresKept (markRemaining selects c sendProgress cs)) ∧
    (∀ i p, succeeded (p.info i).resultInformation.resultCode = true →
      wp (processUnit env i) (fun _ => FailuresKept p) (fun _ => FailuresKept p) p) ∧
    wp (process env getNormalizedIdentifier) (fun _ p => EveryEntry EnteredWithoutFailure p.log)
      (fun _ p => EveryEntry EnteredWithoutFailure p.log)
      (ConfigurationSetApplyProcessor.create units) :=
  ⟨addUnitToMap_keepsFailures _, resolveDependencies_keepsFailures _,
    keeps_processInternal markPreprocessed_keepsFailures markRemaining_keepsFailures
      (fun _ => keepsFailures_setResultCode) false,
    fun _ _ hact _ _ _ _ _ he => keeps_processIntentInternal hact markRemaining_keepsFailures
      (fun _ => keepsFailures_setResultCode) _ _ he _ _,
    fun _ _ _ c hc => markRemaining_keepsFailures _ c _ _
      ((by decide : ∀ c ∈ [dependencyUnsatisfied, assertionFailed, eFail], succeeded c = false) c hc),
    processUnit_keepsFailures env,
    wp_mono (fun _ _ h => h.entered) (fun _ _ h => h.entered) (process_logInv env _ units)⟩

-- ---------------------------------------------------------------------------
-- Along a run
-- ---------------------------------------------------------------------------

/-- The unit table an entry records: the table at an entry of `ProcessUnit` and at its
    return. -/
@[simp] def Event.table? : Event → Option (List UnitInfo)
  | .processUnit _ t | .processUnitResult _ _ t => some t
  | _ => none

/-- The tables the log records, in order. -/
def recordedTables (log : List Event) : List (List UnitInfo) := log.filterMap Event.table?

@[simp] theorem recordedTables_nil : recordedTables [] = [] := rfl

@[simp] theorem recordedTables_append (log log' : List Event) :
    recordedTables (log ++ log') = recordedTables log ++ recordedTables log' :=
  List.filterMap_append _ _ _

@[simp] theorem recordedTables_cons (e : Event) (log : List Event) :
    recordedTables (e :: log) = e.table?.toList ++ recordedTables log := by
  rw [recordedTables, recordedTables, List.filterMap_cons]; cases e.table? <;> rfl

/-- Entries that are no entry and no return of `ProcessUnit` record no table. -/
theorem recordedTables_eq_nil {L : List Event} (hx : executions L = []) (hr : returns L = []) :
    recordedTables L = [] :=
  List.filterMap_eq_nil_iff.2 fun e he => by
    have := List.filterMap_eq_nil_iff.1 hx e he
    have := List.filterMap_eq_nil_iff.1 hr e he
    cases e <;> simp_all

theorem Finishes.recordedTables_eq {p p' : ConfigurationSetApplyProcessor} (h : Finishes p p') :
    recordedTables p'.log = recordedTables p.log := by
  obtain ⟨-, -, L, hL, hq⟩ := h
  rw [hL, recordedTables_append, recordedTables_eq_nil (executions_of_quiet fun e he => (hq e he).1)
    (returns_of_quiet fun e he => (hq e he).1), List.append_nil]

/-- Every unit whose result code is a failure code in the table `t` still has one in `t'`. -/
def TableFailuresKept (t t' : List UnitInfo) : Prop :=
  ∀ j, succeeded (t.getD j default).resultInformation.resultCode = false →
    succeeded (t'.getD j default).resultInformation.resultCode = false

instance : IsPreorder _ TableFailuresKept where
  refl _ _ h := h
  trans _ _ _ h₁ h₂ j h := h₂ j (h₁ j h)

/-- Every table the log records, and the table of the state, keeps the failure codes of
    each table recorded before it. -/
def FailuresPersist (p : ConfigurationSetApplyProcessor) : Prop :=
  (recordedTables p.log ++ [p.unitInfo]).Pairwise TableFailuresKept

namespace FailuresPersist

variable {p p' : ConfigurationSetApplyProcessor} {i : Nat}

theorem start (h : recordedTables p.log = []) : FailuresPersist p := by
  simp [FailuresPersist, h]

/-- A step that keeps every failure and records the tables `l`, each of which keeps the
    failure codes of the state before the step and has its own kept by the state after. -/
theorem append (F : FailuresPersist p) (hk : FailuresKept p p') {l : List (List UnitInfo)}
    (hlog : recordedTables p'.log = recordedTables p.log ++ l)
    (hl : ∀ t ∈ l, TableFailuresKept p.unitInfo t ∧ TableFailuresKept t p'.unitInfo)
    (hpw : l.Pairwise TableFailuresKept) : FailuresPersist p' := by
  have ⟨hold, _, hcur⟩ := List.pairwise_append.1 F
  rw [FailuresPersist, hlog, List.append_assoc, List.pairwise_append, List.pairwise_append]
  refine ⟨hold, ⟨hpw, List.pairwise_singleton _ _, fun t ht _ hx => ?_⟩, fun a ha b hb => ?_⟩
  · rw [List.mem_singleton.1 hx]
    exact (hl t ht).2
  · have hap : TableFailuresKept a p.unitInfo := hcur a ha _ (List.mem_singleton_self _)
    rcases List.mem_append.1 hb with hb | hb
    · exact trans_of _ hap (hl b hb).1
    · rw [List.mem_singleton.1 hb]
      exact trans_of _ hap hk

/-- A step that keeps every failure and records no table. -/
theorem of_frame (F : FailuresPersist p) (hk : FailuresKept p p')
    (hlog : recordedTables p'.log = recordedTables p.log) : FailuresPersist p' :=
  F.append hk (l := []) (by rw [hlog, List.append_nil]) (by simp) List.Pairwise.nil

/-- A return of `ProcessUnit` on a unit without a failure code records the table at its
    entry and at its return. -/
theorem returned (F : FailuresPersist p) {result : Bool} (h : UnitReturned env i p p' result)
    (hi : succeeded (p.info i).resultInformation.resultCode = true) : FailuresPersist p' :=
  have hk : FailuresKept p p' := .of_info_ne h.info_ne hi
  let ⟨_, hL, _, heq⟩ := h.log
  F.append hk (l := [p.unitInfo, p'.unitInfo])
    (by simp [heq, recordedTables_eq_nil (executions_of_isRunOf hL) (returns_of_isRunOf hL)])
    (List.forall_mem_cons.2 ⟨⟨refl_of _ _, hk⟩, List.forall_mem_singleton.2 ⟨hk, refl_of _ _⟩⟩)
    (List.pairwise_pair.2 hk)

/-- An exception of `ProcessUnit` on a unit without a failure code records the table at its
    entry. -/
theorem threw (F : FailuresPersist p) (h : UnitThrew env i p p')
    (hi : succeeded (p.info i).resultInformation.resultCode = true) : FailuresPersist p' :=
  have hk : FailuresKept p p' := .of_info_ne h.info_ne hi
  let ⟨_, hL, heq, _⟩ := h.log
  F.append hk (l := [p.unitInfo])
    (by simp [heq, recordedTables_eq_nil (executions_of_isRunOf hL) (returns_of_isRunOf hL)])
    (List.forall_mem_singleton.2 ⟨refl_of _ _, hk⟩)
    (List.pairwise_singleton _ _)

end FailuresPersist

variable {env units} in
/-- The unit the real run picks has no failure code: it is a candidate, untouched since
    validation. -/
theorem RunInv.picked_noFailure {intent : ConfigurationUnitIntent} {cs : List Nat}
    {hasFailure : Bool} {p : ConfigurationSetApplyProcessor} {i : Nat}
    (R : RunInv env units intent cs hasFailure p)
    (hi : firstReady hasProcessedSuccessfully intent p cs = some i) :
    ConfigurationSetApply.succeeded (p.info i).resultInformation.resultCode = true := by
  rw [(R.fresh i (firstReady_mem hi)).2.2.2]
  rfl

/-- Every run of `Process` keeps `FailuresPersist`: the real run enters `ProcessUnit` only on
    units without a failure code, and everything else writes failure codes only. -/
theorem process_keepsFailuresPersist :
    wp (process env getNormalizedIdentifier) (fun _ => FailuresPersist) (fun _ => FailuresPersist)
      (ConfigurationSetApplyProcessor.create units) :=
  process_runInduction env getNormalizedIdentifier units FailuresPersist
    (fun _ _ _ _ _ _ _ R F hi h => F.returned env h (R.picked_noFailure hi))
    (fun _ _ _ _ _ _ R F hi h => F.threw env h (R.picked_noFailure hi))
    (fun _ _ _ _ hc F _ => F.of_frame (.markAll hc _ _)
      (by simp [ConfigurationSetApplyProcessor.markAll_log, recordedTables]))
    (fun _ _ F => F.of_frame .withResultCode rfl)
    (fun _ hr hx => .start (recordedTables_eq_nil hx hr))
    fun _ _ F h => F.of_frame (fun j hj => by rwa [h.info_eq]) h.recordedTables_eq

/-- When validation rejects the set, `Process` ends normally, with the set-level `Completed`
    and the summary appended to the state validation left. -/
theorem process_ofRejected {p₀ : ConfigurationSetApplyProcessor}
    (hp₀ : preProcess getNormalizedIdentifier (ConfigurationSetApplyProcessor.create units) =
      .ok false p₀) :
    wp (process env getNormalizedIdentifier) (fun _ => Finishes p₀) (fun _ _ => False)
      (ConfigurationSetApplyProcessor.create units) := by
  simp only [process, wp_tryCatch, wp_bind, wp_eq_of_ok hp₀, Bool.false_eq_true, if_false,
    wp_pure, wp_sendSetProgress, wp_logProcessingSummaryForApply]
  exact finishes_summary p₀

/-- The tables a run passes through keep the failure codes of the tables before them: the
    table validation leaves, the tables the log records, and the table the run ends with. -/
theorem process_tablesKeepFailures :
    wp (process env getNormalizedIdentifier)
      (fun _ p => ∀ ok p₀, preProcess getNormalizedIdentifier
          (ConfigurationSetApplyProcessor.create units) = .ok ok p₀ →
        (p₀.unitInfo :: (recordedTables p.log ++ [p.unitInfo])).Pairwise TableFailuresKept)
      (fun _ p => ∀ ok p₀, preProcess getNormalizedIdentifier
          (ConfigurationSetApplyProcessor.create units) = .ok ok p₀ →
        (p₀.unitInfo :: (recordedTables p.log ++ [p.unitInfo])).Pairwise TableFailuresKept)
      (ConfigurationSetApplyProcessor.create units) := by
  have along := process_keepsFailuresPersist env getNormalizedIdentifier units
  rcases hv : preProcess getNormalizedIdentifier (ConfigurationSetApplyProcessor.create units)
    with ⟨ok, p₀⟩ | ⟨_, _⟩
  case error => exact wp_mono (fun _ _ _ _ _ h => nomatch h) (fun _ _ _ _ _ h => nomatch h) along
  have V := (preProcess_spec.of_ok hv).1
  cases ok
  case false =>
    -- rejected: the run ends with the table validation left, and records none
    refine wp_mono (fun _ p ⟨hF, F⟩ _ _ h => ?_) (fun _ _ h => h.1.elim)
      (wp_and (process_ofRejected env getNormalizedIdentifier units hv) along)
    cases h
    have hlog : recordedTables p.log = [] := by
      rw [hF.recordedTables_eq, recordedTables_eq_nil V.executions_eq_nil V.returns_eq_nil]
    refine List.pairwise_cons.2 ⟨fun t ht => ?_, F⟩
    rw [hlog, List.nil_append, List.mem_singleton] at ht
    rw [ht, hF.1]
    exact refl_of _ _
  case true =>
    -- accepted: validation leaves no failure code at all
    have hnone : ∀ t, TableFailuresKept p₀.unitInfo t := fun t j hj => by
      rw [ConfigurationSetApplyProcessor.unitInfo_getD, ((V.passed rfl).2.2.2.2 j).1] at hj
      exact absurd hj (by decide)
    refine wp_mono (fun _ p F _ _ h => ?_) (fun _ p F _ _ h => ?_) along <;>
      cases h <;> exact List.pairwise_cons.2 ⟨fun t _ => hnone t, F⟩

end ConfigurationSetApply
