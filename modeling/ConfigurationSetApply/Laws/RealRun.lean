-- SUMMARY: The real run: the invariant of the state between two units, kept by each ProcessUnit, and what it gives when ProcessUnit throws.
import ConfigurationSetApply.Laws.Scheduler
import ConfigurationSetApply.Trace.Run

/-!
# The invariant of the real run

`RunInv` is what holds of the real run between two calls of `ProcessUnit`, in the phase
of one intent with its candidate list and failure flag. Its fields are of three kinds:
properties of the log (units run in an order that respects their dependencies, each unit
only after the units it depends on succeeded, each return after a terminal progress
event, every collaborator call guarded and answered honestly, every entry for the smallest
ready unit without a failure code), the bookkeeping that relates candidates, executions
and returns, and the facts about each unit's record
that the scheduler's next choice depends on.

`RunInv.step` is the step lemma: a return of `ProcessUnit` on the unit the loop picked
keeps the invariant, with the unit erased and the flag updated. It uses nothing of
`ProcessUnit` but its inversion `UnitReturned`. `RunInv.threw` says what is left when
`ProcessUnit` throws instead: `LogInv`, the part of the invariant that survives to the
end of `Process`.
-/

namespace ConfigurationSetApply

open WingetConfigError

variable (env : Collaborators) (units : List ConfigurationUnit)

/-- What holds of the log at every point of a run of `Process`, also when it throws. -/
structure LogInv (p : ConfigurationSetApplyProcessor) : Prop where
  schedule : ValidSchedule units p.log
  dependents : EveryEntry AfterSucceededDependencies p.log
  returnedTerminal : EveryEntry ReturnedTerminal p.log
  progress : ∀ j < units.length, AllowedProgress (unitStates p.log j) ∧
    ((p.info j).processed = true → ProcessedProgress (unitStates p.log j))
  guarded : CallsGuarded p.log
  honest : PollsHonest env p.log
  entered : EveryEntry EnteredWithoutFailure p.log
  smallest : EveryEntry (SmallestReady units) p.log

/-- Every property of the log holds at an entry about no unit's run. -/
theorem quiet_entry {e : Event} (he : e.isQuiet) (pre : List Event) :
    ScheduledCorrectly units pre e ∧ AfterSucceededDependencies pre e ∧ ReturnedTerminal pre e ∧
      (e.isCall → lastPoll pre = some false) ∧
      ∀ cancelled, e = .throwIfCancelled cancelled → cancelled = env.isCancelled pre := by
  cases e <;> simp_all [ScheduledCorrectly, AfterSucceededDependencies, ReturnedTerminal]

/-- The real run between two calls of `ProcessUnit`, in the phase of `intent` with the
    candidates `cs` and the failure flag `hasFailure`. -/
structure RunInv (intent : ConfigurationUnitIntent) (cs : List Nat) (hasFailure : Bool)
    (p : ConfigurationSetApplyProcessor) : Prop where
  schedule : ValidSchedule units p.log
  dependents : EveryEntry AfterSucceededDependencies p.log
  returnedTerminal : EveryEntry ReturnedTerminal p.log
  guarded : CallsGuarded p.log
  honest : PollsHonest env p.log
  /-- The set's code is still `S_OK`, and the table holds the units of the set. -/
  resultCode : p.resultCode = 0
  size : p.size = units.length
  unit : ∀ j, (p.info j).unit = unitAt units j
  /-- The candidates are distinct units, untouched since `PreProcess`. -/
  nodup : cs.Nodup
  sorted : cs.Pairwise (· < ·)
  lt : ∀ j ∈ cs, j < units.length
  fresh : ∀ j ∈ cs, j ∉ executions p.log ∧ unitStates p.log j = [] ∧
    (p.info j).result.state = .unknown ∧ (p.info j).resultInformation = {}
  /-- Every unit is a candidate or was executed, and executed units are processed. -/
  covered : ∀ j < units.length, j ∈ cs ∨ j ∈ executions p.log
  processed : ∀ j, (p.info j).processed = true ↔ j ∈ executions p.log
  /-- Every unit of an earlier phase was executed, and no unit of a later one. -/
  earlier : ∀ j < units.length, (unitIntent units j).phase < intent.phase →
    j ∈ executions p.log
  phase : ∀ j ∈ executions p.log, (unitIntent units j).phase ≤ intent.phase
  /-- Every execution returned; the flag says whether one returned `false`, which only
      a unit of this phase can have. -/
  returned : (returns p.log).map Prod.fst = executions p.log
  failure : hasFailure = true ↔ ∃ j, (j, false) ∈ returns p.log
  failureIntent : ∀ j, (j, false) ∈ returns p.log → unitIntent units j = intent
  /-- A unit's record is what its `ProcessUnit` left. -/
  frozen : ∀ j result table, .processUnitResult j result table ∈ p.log →
    p.info j = table.getD j default
  skipped : ∀ j ∈ executions p.log, (p.info j).unit.shouldApply = false →
    (p.info j).resultInformation.resultCode = manuallySkipped
  terminal : ∀ j ∈ executions p.log, ProcessedProgress (unitStates p.log j) ∧
    ((p.info j).result.state = .completed ∨ (p.info j).result.state = .skipped)
  /-- No unit was entered with a failure code, and each entry was for the smallest unit
      ready. -/
  entered : EveryEntry EnteredWithoutFailure p.log
  smallest : EveryEntry (SmallestReady units) p.log

variable {env units} {intent : ConfigurationUnitIntent} {cs : List Nat} {hasFailure : Bool}
  {p p' : ConfigurationSetApplyProcessor} {i : Nat}

theorem RunInv.logInv (R : RunInv env units intent cs hasFailure p) : LogInv env units p where
  schedule := R.schedule
  dependents := R.dependents
  returnedTerminal := R.returnedTerminal
  guarded := R.guarded
  honest := R.honest
  entered := R.entered
  smallest := R.smallest
  progress := fun j hj => by
    rcases R.covered j hj with hc | he
    · obtain ⟨hne, hs, -⟩ := R.fresh j hc
      simp [hs, AllowedProgress, R.processed, hne]
    · exact ⟨(R.terminal j he).1.allowed, fun _ => (R.terminal j he).1⟩

/-- Appending entries about no unit's run keeps `LogInv`. -/
theorem LogInv.append_quiet (R : LogInv env units p) {L : List Event} (hL : ∀ e ∈ L, e.isQuiet)
    (hlog : p'.log = p.log ++ L) (hp : ∀ j, (p'.info j).processed = (p.info j).processed) :
    LogInv env units p' := by
  have hq := fun e he pre => quiet_entry env units (hL e he) pre
  refine ⟨?_, ?_, ?_, fun j hj => ?_, ?_, ?_, ?_, ?_⟩ <;> rw [hlog]
  · exact (everyEntry_append_of_forall fun e he pre => (hq e he pre).1).2 R.schedule
  · exact (everyEntry_append_of_forall fun e he pre => (hq e he pre).2.1).2 R.dependents
  · exact (everyEntry_append_of_forall fun e he pre => (hq e he pre).2.2.1).2 R.returnedTerminal
  · rw [unitStates_append, unitStates_of_quiet hL, List.append_nil, hp]
    exact R.progress j hj
  · exact (everyEntry_append_of_forall fun e he pre => (hq e he pre).2.2.2.1).2 R.guarded
  · exact (everyEntry_append_of_forall fun e he pre => (hq e he pre).2.2.2.2).2 R.honest
  · exact (everyEntry_append_of_forall fun e he _ =>
      enteredWithoutFailure_of_executed_none (Event.isQuiet_views (hL e he)).2.1).2 R.entered
  · exact (everyEntry_append_of_forall fun e he _ =>
      smallestReady_of_executed_none (Event.isQuiet_views (hL e he)).2.1).2 R.smallest

/-- A table that passed validation, whose log has no entry about a unit's run, starts the
    real run: every unit is a fresh candidate of the Assert phase. -/
theorem RunInv.start (hlog : ∀ e ∈ p.log, e.isQuiet) (hrc : p.resultCode = 0)
    (hsize : p.size = units.length) (hunit : ∀ j, (p.info j).unit = unitAt units j)
    (hfresh : ∀ j, (p.info j).processed = false ∧ (p.info j).result.state = .unknown ∧
      (p.info j).resultInformation = {}) :
    RunInv env units .assert (List.range units.length) false p := by
  have hq := fun e he pre => quiet_entry env units (hlog e he) pre
  have hexec := executions_of_quiet hlog
  have hret := returns_of_quiet hlog
  exact {
    schedule := EveryEntry.of_forall fun e he pre => (hq e he pre).1
    dependents := EveryEntry.of_forall fun e he pre => (hq e he pre).2.1
    returnedTerminal := EveryEntry.of_forall fun e he pre => (hq e he pre).2.2.1
    guarded := EveryEntry.of_forall fun e he pre => (hq e he pre).2.2.2.1
    honest := EveryEntry.of_forall fun e he pre => (hq e he pre).2.2.2.2
    resultCode := hrc
    size := hsize
    unit := hunit
    nodup := List.nodup_range _
    sorted := List.pairwise_lt_range _
    lt := fun j hj => List.mem_range.1 hj
    fresh := fun j _ => ⟨by simp [hexec], unitStates_of_quiet hlog j, (hfresh j).2⟩
    covered := fun j hj => .inl (List.mem_range.2 hj)
    processed := fun j => by simp [(hfresh j).1, hexec]
    earlier := fun _ _ h => absurd h (Nat.not_lt_zero _)
    phase := fun j hj => by simp [hexec] at hj
    returned := by rw [hret, hexec]; rfl
    failure := by simp [hret]
    failureIntent := by simp [hret]
    frozen := fun j result table h => absurd (hlog _ h) (by simp)
    skipped := fun j hj => by simp [hexec] at hj
    terminal := fun j hj => by simp [hexec] at hj
    entered := EveryEntry.of_forall fun e he _ =>
      enteredWithoutFailure_of_executed_none (Event.isQuiet_views (hlog e he)).2.1
    smallest := EveryEntry.of_forall fun e he _ =>
      smallestReady_of_executed_none (Event.isQuiet_views (hlog e he)).2.1 }

/-- A unit that succeeded in the log is processed with success in the table. -/
theorem RunInv.processedSuccessfully (R : RunInv env units intent cs hasFailure p) {d : Nat}
    (h : SucceededIn p.log d) : hasProcessedSuccessfully (p.info d) = true := by
  obtain ⟨b, hmem⟩ : ∃ b, (d, b) ∈ returns p.log := by
    obtain ⟨⟨d', b⟩, hmem, rfl⟩ := List.mem_map.1 (R.returned ▸ h.1 : d ∈ (returns p.log).map Prod.fst)
    exact ⟨b, hmem⟩
  obtain ⟨t, ht⟩ := exists_of_mem_returns hmem
  simp only [hasProcessedSuccessfully, Bool.and_eq_true, (R.processed d).2 h.1, true_and]
  rw [R.frozen d b t ht]
  exact (h.2 b t ht).2

/-- The unit the loop picks is a candidate of the phase, not executed before, whose
    dependencies are executed, processed and succeeded, whose record carries no failure
    code, and which is the smallest candidate of the phase that is ready. -/
theorem RunInv.entry (R : RunInv env units intent cs hasFailure p)
    (hi : firstReady hasProcessedSuccessfully intent p cs = some i) :
    ScheduledCorrectly units p.log (.processUnit i p.unitInfo) ∧
      AfterSucceededDependencies p.log (.processUnit i p.unitInfo) ∧
      EnteredWithoutFailure p.log (.processUnit i p.unitInfo) ∧
      SmallestReady units p.log (.processUnit i p.unitInfo) := by
  obtain ⟨hI, hdeps⟩ := hasIntentAndSatisfiedDependencies_eq_true.1 (firstReady_ready hi)
  simp only [hasProcessedSuccessfully, Bool.and_eq_true] at hdeps
  replace hI : unitIntent units i = intent := by rw [← hI, R.unit]; rfl
  refine ⟨⟨(R.fresh i (firstReady_mem hi)).1, fun j hj => ?_, fun d hd => ?_⟩, fun d hd b t hm => ?_,
    by simp only [EnteredWithoutFailure, ConfigurationSetApplyProcessor.unitInfo_getD,
      (R.fresh i (firstReady_mem hi)).2.2.2]; rfl, fun x hx hxI hxe hxd => ?_⟩
  · rw [hI]; exact R.phase j hj
  · simp only [ConfigurationSetApplyProcessor.unitInfo_getD] at hd ⊢
    exact ⟨(R.processed d).1 (hdeps d hd).1, hdeps d hd⟩
  · simp only [ConfigurationSetApplyProcessor.unitInfo_getD] at hd
    have hexec := (R.processed d).1 (hdeps d hd).1
    rw [← R.frozen d b t hm]
    refine ⟨?_, (hdeps d hd).2⟩
    by_contra hs
    have := (hdeps d hd).2
    rw [R.skipped d hexec (by simpa using hs)] at this
    exact absurd this (by decide)
  · -- a candidate of the phase whose dependencies succeeded is ready, and comes no earlier
    simp only [ConfigurationSetApplyProcessor.unitInfo_getD] at hxd
    refine firstReady_le hi R.sorted ((R.covered x hx).resolve_right hxe)
      (hasIntentAndSatisfiedDependencies_eq_true.2 ⟨?_, fun d hd => R.processedSuccessfully (hxd d hd)⟩)
    rw [R.unit]; exact hxI.trans hI

theorem UnitReturned.returnedTerminal {result : Bool} (h : UnitReturned env i p p' result)
    (hR : EveryEntry ReturnedTerminal p.log) (hfresh : unitStates p.log i = []) :
    EveryEntry ReturnedTerminal p'.log := by
  obtain ⟨L, hL, hs, heq⟩ := h.log
  rw [heq, everyEntry_append_singleton, everyEntry_append, everyEntry_cons]
  refine ⟨⟨hR, trivial, EveryEntry.of_forall fun e he _ =>
    returnedTerminal_of_returned_none (Event.isRunOf_views (hL e he)).2.1⟩, ?_⟩
  simp only [ReturnedTerminal, unitStates_append, unitStates_cons, hfresh, hs]
  split <;> simp [ProcessedProgress]

theorem UnitThrew.returnedTerminal (h : UnitThrew env i p p')
    (hR : EveryEntry ReturnedTerminal p.log) : EveryEntry ReturnedTerminal p'.log := by
  obtain ⟨L, hL, heq, -⟩ := h.log
  rw [heq, everyEntry_append, everyEntry_cons]
  exact ⟨hR, trivial, EveryEntry.of_forall fun e he _ =>
    returnedTerminal_of_returned_none (Event.isRunOf_views (hL e he)).2.1⟩

/-- A return of `ProcessUnit` on the unit the loop picked keeps the invariant, with the
    unit erased from the candidates and the flag updated. -/
theorem RunInv.step {result : Bool} (R : RunInv env units intent cs hasFailure p)
    (hi : firstReady hasProcessedSuccessfully intent p cs = some i)
    (h : UnitReturned env i p p' result) :
    RunInv env units intent (cs.erase i) (hasFailure || !result) p' := by
  have hmem := firstReady_mem hi
  obtain ⟨hnew, hfresh, -, -⟩ := R.fresh i hmem
  obtain ⟨hsched, hdep, hent, hsm⟩ := R.entry hi
  have hI : unitIntent units i = intent := by
    rw [← (hasIntentAndSatisfiedDependencies_eq_true.1 (firstReady_ready hi)).1, R.unit]; rfl
  have hcs : ∀ j, j ∈ cs.erase i ↔ j ≠ i ∧ j ∈ cs := fun j => R.nodup.mem_erase_iff
  have hexec := h.executions_eq
  have hret := h.returns_eq
  have info_ne : ∀ j, j ≠ i → p'.info j = p.info j := fun j hj => h.info_ne j (Ne.symm hj)
  exact {
    schedule := (h.everyEntry_iff fun _ _ => scheduledCorrectly_of_executed_none).2
      ⟨R.schedule, hsched⟩
    dependents := (h.everyEntry_iff fun _ _ => afterSucceededDependencies_of_executed_none).2
      ⟨R.dependents, hdep⟩
    returnedTerminal := h.returnedTerminal R.returnedTerminal hfresh
    guarded := h.guarded
    honest := h.honest
    resultCode := h.resultCode.trans R.resultCode
    size := h.size.trans R.size
    unit := fun j => by
      by_cases hj : j = i
      · subst hj; rw [h.unit, R.unit]
      · rw [info_ne j hj, R.unit]
    nodup := R.nodup.erase i
    sorted := R.sorted.sublist (List.erase_sublist _ _)
    lt := fun j hj => R.lt j ((hcs j).1 hj).2
    fresh := fun j hj => by
      obtain ⟨hji, hj⟩ := (hcs j).1 hj
      obtain ⟨a, b, c, d⟩ := R.fresh j hj
      exact ⟨by simp [hexec, a, hji], by rw [h.unitStates_ne (Ne.symm hji), b],
        by rw [info_ne j hji, c], by rw [info_ne j hji, d]⟩
    covered := fun j hj => by
      by_cases hji : j = i
      · exact .inr (by simp [hexec, hji])
      · rcases R.covered j hj with h' | h'
        · exact .inl ((hcs j).2 ⟨hji, h'⟩)
        · exact .inr (by simp [hexec, h'])
    processed := fun j => by
      by_cases hji : j = i
      · subst hji; simp [hexec, h.processed]
      · rw [info_ne j hji, R.processed]; simp [hexec, hji]
    earlier := fun j hj hlt => by simp [hexec, R.earlier j hj hlt]
    phase := fun j hj => by
      rw [hexec, List.mem_append, List.mem_singleton] at hj
      rcases hj with hj | rfl
      · exact R.phase j hj
      · rw [hI]
    returned := by simp [hexec, hret, R.returned]
    failure := by cases result <;> simp [hret, R.failure]
    failureIntent := fun j hj => by
      simp only [hret, List.mem_append, List.mem_singleton, Prod.mk.injEq] at hj
      rcases hj with hj | ⟨rfl, -⟩
      · exact R.failureIntent j hj
      · exact hI
    frozen := fun j b t hm => by
      rcases h.mem_log_returned hm with hm | ⟨rfl, -, rfl⟩
      · have hj : j ∈ executions p.log := by
          rw [← R.returned]; exact List.mem_map_of_mem Prod.fst (mem_returns_of_mem hm)
        have hji : j ≠ i := fun e => hnew (e ▸ hj)
        rw [info_ne j hji, R.frozen j b t hm]
      · rfl
    skipped := fun j hj hs => by
      by_cases hji : j = i
      · subst hji
        rw [h.unit] at hs
        simp [(h.skip hs).2, ConfigurationUnitResultInformation.initializeWith]
      · rw [info_ne j hji] at hs ⊢
        exact R.skipped j (by simpa [hexec, hji] using hj) hs
    terminal := fun j hj => by
      by_cases hji : j = i
      · subst hji
        rw [h.unitStates_self, hfresh, h.state]
        split <;> simp [ProcessedProgress]
      · rw [h.unitStates_ne (Ne.symm hji), info_ne j hji]
        exact R.terminal j (by simpa [hexec, hji] using hj)
    entered := (h.everyEntry_iff fun _ _ => enteredWithoutFailure_of_executed_none).2
      ⟨R.entered, hent⟩
    smallest := (h.everyEntry_iff fun _ _ => smallestReady_of_executed_none).2 ⟨R.smallest, hsm⟩ }

/-- When `ProcessUnit` throws on the unit the loop picked, the log invariant holds. -/
theorem RunInv.threw (R : RunInv env units intent cs hasFailure p)
    (hi : firstReady hasProcessedSuccessfully intent p cs = some i)
    (h : UnitThrew env i p p') : LogInv env units p' where
  schedule := (h.everyEntry_iff fun _ _ => scheduledCorrectly_of_executed_none).2
    ⟨R.schedule, (R.entry hi).1⟩
  dependents := (h.everyEntry_iff fun _ _ => afterSucceededDependencies_of_executed_none).2
    ⟨R.dependents, (R.entry hi).2.1⟩
  returnedTerminal := h.returnedTerminal R.returnedTerminal
  guarded := h.guarded
  honest := h.honest
  entered := (h.everyEntry_iff fun _ _ => enteredWithoutFailure_of_executed_none).2
    ⟨R.entered, (R.entry hi).2.2.1⟩
  smallest := (h.everyEntry_iff fun _ _ => smallestReady_of_executed_none).2
    ⟨R.smallest, (R.entry hi).2.2.2⟩
  progress := fun j hj => by
    obtain ⟨hnew, hfresh, -, -⟩ := R.fresh i (firstReady_mem hi)
    by_cases hji : j = i
    · subst hji
      obtain ⟨L, -, heq, hcase⟩ := h.log
      rw [heq, unitStates_append, unitStates_cons, hfresh]
      rcases hcase with ⟨hinfo, hs⟩ | ⟨-, hs⟩
      · rw [hinfo, hs, R.processed]
        simp [AllowedProgress, hnew]
      · simp [hs, AllowedProgress, ProcessedProgress]
    · rw [h.unitStates_ne (Ne.symm hji), h.info_ne j (Ne.symm hji)]
      exact R.logInv.progress j hj

variable (env units) in
/-- The real run after an exception escaped `ProcessUnit`: the log invariant holds, and a
    unit was executed that never returned. -/
structure RunThrew (p : ConfigurationSetApplyProcessor) : Prop where
  logInv : LogInv env units p
  unreturned : ∃ j ∈ executions p.log, j ∉ (returns p.log).map Prod.fst

/-- The unit whose `ProcessUnit` threw was executed and never returned. -/
theorem RunInv.runThrew (R : RunInv env units intent cs hasFailure p)
    (hi : firstReady hasProcessedSuccessfully intent p cs = some i)
    (h : UnitThrew env i p p') : RunThrew env units p' :=
  ⟨R.threw hi h, i, by simp [h.executions_eq], by
    rw [h.returns_eq, R.returned]; exact (R.fresh i (firstReady_mem hi)).1⟩

/-- A phase that ends with no failure and no candidate of its intent hands the invariant
    on to the next phase. -/
theorem RunInv.nextPhase (R : RunInv env units intent cs false p)
    (hdone : ∀ j ∈ cs, unitIntent units j ≠ intent) (intent' : ConfigurationUnitIntent)
    (hnext : intent'.phase = intent.phase + 1) : RunInv env units intent' cs false p :=
  have hnone : ∀ j, (j, false) ∉ returns p.log := by simpa using R.failure
  { R with
    earlier := fun j hj hlt => by
      rcases Nat.lt_or_eq_of_le (Nat.le_of_lt_succ (hnext ▸ hlt)) with h | h
      · exact R.earlier j hj h
      · exact (R.covered j hj).resolve_left fun hc =>
          hdone j hc (ConfigurationUnitIntent.phase_inj h)
    phase := fun j hj => by have := R.phase j hj; omega
    failure := by simpa using hnone
    failureIntent := fun j hj => (hnone j hj).elim }

/-- The loop of a phase of the real run keeps the invariant and only appends to the log,
    and ends with no candidate ready; an exception leaves the run as `RunThrew`. -/
theorem RunInv.loop (R : RunInv env units intent cs hasFailure p) :
    wp (processReadyUnits hasProcessedSuccessfully (processUnit env) intent cs.length cs hasFailure)
      (fun r p' => RunInv env units intent r.1 r.2 p' ∧
        firstReady hasProcessedSuccessfully intent p' r.1 = none ∧ p.log <+: p'.log)
      (fun _ p' => RunThrew env units p') p := by
  refine wp_mono (fun r p' h => ⟨h.1.1, h.2 le_rfl, h.1.2⟩) (fun _ _ h => h)
    (processReadyUnits_rule _ _ _ (fun cs hf p' => RunInv env units intent cs hf p' ∧ p.log <+: p'.log)
      ?_ _ _ _ _ ⟨R, List.prefix_refl _⟩)
  intro cs hf p₁ i ⟨R₁, hpre⟩ hi
  have hlt : i < p₁.size := R₁.size ▸ R₁.lt i (firstReady_mem hi)
  exact wp_mono (fun _ _ h => ⟨R₁.step hi h, hpre.trans h.log_prefix⟩) (fun _ _ h => R₁.runThrew hi h)
    (processUnit_outcome env hlt R₁.guarded R₁.honest)

/-! ## The end of the real run -/

variable (env units) in
/-- The real run after the phase of `intent` failed and marked what was left. -/
structure RunFailed (intent : ConfigurationUnitIntent) (errorForOtherIntents errorForFailures : HResult)
    (p : ConfigurationSetApplyProcessor) : Prop where
  logInv : LogInv env units p
  size : p.size = units.length
  unit : ∀ j, (p.info j).unit = unitAt units j
  processed : ∀ j, (p.info j).processed = true ↔ j ∈ executions p.log
  returned : (returns p.log).map Prod.fst = executions p.log
  earlier : ∀ j < units.length, (unitIntent units j).phase < intent.phase →
    j ∈ executions p.log
  phase : ∀ j ∈ executions p.log, (unitIntent units j).phase ≤ intent.phase
  failureIntent : ∀ j, (j, false) ∈ returns p.log → unitIntent units j = intent
  /-- A unit of the phase returned `false`, or one never became ready; the set's code
      says which. -/
  outcome : ((∃ j, (j, false) ∈ returns p.log) ∧ p.resultCode = errorForFailures) ∨
    ((∀ j, (j, false) ∉ returns p.log) ∧ p.resultCode = dependencyUnsatisfied ∧
      ∃ j < units.length, unitIntent units j = intent ∧ j ∉ executions p.log)
  terminal : ∀ j < units.length,
    (p.info j).result.state = .completed ∨ (p.info j).result.state = .skipped
  /-- A unit that did not run carries the code of the failed phase's marking. -/
  unexecuted : ∀ j < units.length, j ∉ executions p.log →
    (p.info j).resultInformation = ({} : ConfigurationUnitResultInformation).initializeWith
      (if unitIntent units j = intent then dependencyUnsatisfied else errorForOtherIntents)
      .precondition
  /-- A unit of the phase that did not run has a dependency that did not succeed. -/
  stuck : ∀ j < units.length, unitIntent units j = intent → j ∉ executions p.log →
    ∃ d ∈ (p.info j).dependencyIndices, ¬SucceededIn p.log d

/-- A phase that ends with a failure, or with a candidate of its intent left, marks every
    candidate and sets the set's code. -/
theorem RunInv.fail (R : RunInv env units intent cs hasFailure p)
    (hnone : firstReady hasProcessedSuccessfully intent p cs = none)
    (hfail : (hasFailure || cs.any fun j => (p.info j).unit.intent == intent) = true)
    (errorForOtherIntents errorForFailures : HResult) :
    RunFailed env units intent errorForOtherIntents errorForFailures
      (((p.markAll (· == intent) dependencyUnsatisfied true cs).markAll (· != intent)
          errorForOtherIntents true cs).withResultCode
        (if hasFailure then errorForFailures else dependencyUnsatisfied)) := by
  have hI : ∀ j, (p.info j).unit.intent = unitIntent units j := fun j => by rw [R.unit]; rfl
  have hlog : ∀ {P : List Event → Event → Prop}, (∀ pre j s, P pre (.unitProgress j s)) →
      (EveryEntry P ((p.markAll (· == intent) dependencyUnsatisfied true cs).markAll (· != intent)
        errorForOtherIntents true cs).log ↔ EveryEntry P p.log) := fun hP => by
    simp only [ConfigurationSetApplyProcessor.markAll_log, if_true, List.append_assoc]
    refine everyEntry_append_of_forall ?_
    simp only [List.mem_append, List.mem_map]
    rintro e (⟨a, -, rfl⟩ | ⟨a, -, rfl⟩) pre <;> exact hP _ _ _
  have hexec : executions ((p.markAll (· == intent) dependencyUnsatisfied true cs).markAll
      (· != intent) errorForOtherIntents true cs).log = executions p.log := by
    simp [ConfigurationSetApplyProcessor.markAll_log]
  have hret : returns ((p.markAll (· == intent) dependencyUnsatisfied true cs).markAll
      (· != intent) errorForOtherIntents true cs).log = returns p.log := by
    simp [ConfigurationSetApplyProcessor.markAll_log]
  have hstates := ConfigurationSetApplyProcessor.markAll_markAll_unitStates p true R.nodup intent
    errorForOtherIntents
  have hinfo := ConfigurationSetApplyProcessor.markAll_markAll_info p true intent
    errorForOtherIntents cs
  refine {
    logInv := {
      schedule := (hlog fun _ _ _ => trivial).2 R.schedule
      dependents := (hlog fun _ _ _ => trivial).2 R.dependents
      returnedTerminal := (hlog fun _ _ _ => trivial).2 R.returnedTerminal
      guarded := (hlog fun _ _ _ => by simp).2 R.guarded
      honest := (hlog fun _ _ _ => by simp).2 R.honest
      entered := (hlog fun _ _ _ => trivial).2 R.entered
      smallest := (hlog fun _ _ _ => trivial).2 R.smallest
      progress := fun j hj => ?_ }
    size := by simp [R.size]
    unit := fun j => by simp [R.unit]
    processed := fun j => by simp [hexec, R.processed]
    returned := by simp [hexec, hret, R.returned]
    earlier := fun j hj hlt => by simpa [hexec] using R.earlier j hj hlt
    phase := fun j hj => R.phase j (by simpa [hexec] using hj)
    failureIntent := fun j hj => R.failureIntent j (by simpa [hret] using hj)
    outcome := ?_
    terminal := fun j hj => ?_
    unexecuted := fun j hj hne => ?_
    stuck := fun j hj hjI hne => ?_ }
  · rw [ConfigurationSetApplyProcessor.withResultCode_log, hstates]
    by_cases hc : j ∈ cs
    · obtain ⟨hne, hs, -⟩ := R.fresh j hc
      simp [hc, hs, AllowedProgress, R.processed, hne]
    · simpa [hc] using R.logInv.progress j hj
  · cases hasFailure
    · obtain ⟨j, hj, hjI⟩ : ∃ j ∈ cs, (p.info j).unit.intent = intent := by simpa using hfail
      have hnone : ∀ j, (j, false) ∉ returns p.log := by simpa using R.failure
      refine .inr ⟨by simpa [hret] using hnone, by simp, j, R.lt j hj, by rw [← hI j, hjI],
        by simpa [hexec] using (R.fresh j hj).1⟩
    · exact .inl ⟨by simpa [hret] using R.failure.1 rfl, by simp⟩
  · rcases R.covered j hj with hc | he
    · simp [hinfo, hc, R.size ▸ hj]
    · have hc : j ∉ cs := fun hc => (R.fresh j hc).1 he
      simpa [hinfo, hc] using (R.terminal j he).2
  · have hc : j ∈ cs := (R.covered j hj).resolve_right (by simpa [hexec] using hne)
    simp [hinfo, hc, R.size ▸ hj, (R.fresh j hc).2.2.2, hI]
  · -- no candidate was ready when the loop stopped
    have hc : j ∈ cs := (R.covered j hj).resolve_right (by simpa [hexec] using hne)
    by_contra hall
    push_neg at hall
    refine absurd (hasIntentAndSatisfiedDependencies_eq_true.2 ⟨(hI j).trans hjI,
      fun d hd => R.processedSuccessfully ?_⟩) (by simp [firstReady_eq_none.1 hnone j hc])
    obtain ⟨hde, hret⟩ := hall d (by simpa using hd)
    exact ⟨by simpa [hexec] using hde, fun b t hm => hret b t (by
      simp [ConfigurationSetApplyProcessor.markAll_log, hm])⟩

/-- One phase of the real run hands the invariant on, with no candidate of its intent
    left, when it succeeds, and leaves `RunFailed` when it fails. -/
theorem RunInv.processIntent (R : RunInv env units intent cs false p)
    (errorForOtherIntents errorForFailures : HResult) :
    wp (processIntentInternal hasProcessedSuccessfully (processUnit env) intent cs
        errorForOtherIntents errorForFailures true)
      (fun r p' => (r.1 = true → RunInv env units intent r.2 false p' ∧
          ∀ j ∈ r.2, unitIntent units j ≠ intent) ∧
        (r.1 = false → RunFailed env units intent errorForOtherIntents errorForFailures p') ∧
        p.log <+: p'.log)
      (fun _ p' => RunThrew env units p') p := by
  rw [wp_processIntentInternal]
  refine wp_mono (fun r p₁ ⟨R₁, hnone, hpre⟩ => ?_) (fun _ _ h => h) R.loop
  have hI : ∀ j, (p₁.info j).unit.intent = unitIntent units j := fun j => by rw [R₁.unit]; rfl
  dsimp only
  split
  case isTrue hfail =>
    refine ⟨by simp, fun _ => R₁.fail hnone hfail _ _, hpre.trans ?_⟩
    simp only [ConfigurationSetApplyProcessor.withResultCode_log, ConfigurationSetApplyProcessor.markAll_log,
      List.append_assoc]
    exact List.prefix_append _ _
  case isFalse hok =>
    simp only [Bool.or_eq_true, List.any_eq_true, beq_iff_eq, not_or, not_exists, not_and,
      Bool.not_eq_true] at hok
    rw [ConfigurationSetApplyProcessor.markAll_of_forall_not_selects _ _ _ _
      fun j hj => by simpa using hok.2 j hj]
    refine ⟨fun _ => ⟨hok.1 ▸ R₁, fun j hj => ?_⟩, by simp, hpre⟩
    rw [← hI j]; exact hok.2 j hj

variable (env units) in
/-- The real run after all three phases succeeded. -/
structure RunSucceeded (p : ConfigurationSetApplyProcessor) : Prop where
  logInv : LogInv env units p
  resultCode : p.resultCode = 0
  size : p.size = units.length
  unit : ∀ j, (p.info j).unit = unitAt units j
  processed : ∀ j, (p.info j).processed = true ↔ j ∈ executions p.log
  returned : (returns p.log).map Prod.fst = executions p.log
  executed : ∀ j < units.length, j ∈ executions p.log
  noFailure : ∀ j, (j, false) ∉ returns p.log
  terminal : ∀ j < units.length,
    (p.info j).result.state = .completed ∨ (p.info j).result.state = .skipped

theorem RunInv.succeeded (R : RunInv env units .apply cs false p)
    (hdone : ∀ j ∈ cs, unitIntent units j ≠ .apply) : RunSucceeded env units p := by
  have hexec : ∀ j < units.length, j ∈ executions p.log := fun j hj =>
    (R.covered j hj).elim (fun hc => R.earlier j hj (ConfigurationUnitIntent.phase_lt_apply (hdone j hc))) id
  exact {
    logInv := R.logInv, resultCode := R.resultCode, size := R.size, unit := R.unit
    processed := R.processed, returned := R.returned, executed := hexec
    noFailure := by simpa using R.failure
    terminal := fun j hj => (R.terminal j (hexec j hj)).2 }

/-- The real run ends with all phases succeeded, or with one failed, and only appends to
    the log; an exception leaves the run as `RunThrew`. -/
theorem RunInv.processInternal (R : RunInv env units .assert (List.range units.length) false p) :
    wp (processInternal hasProcessedSuccessfully (processUnit env) true)
      (fun ok p' => (ok = true → RunSucceeded env units p') ∧
        (ok = false → ∃ intent, RunFailed env units intent intent.errorForOtherIntents
          intent.errorForFailures p') ∧ p.log <+: p'.log)
      (fun _ p' => RunThrew env units p') p := by
  rw [wp_processInternal, R.size]
  refine wp_mono (fun r₁ p₁ ⟨h₁, f₁, e₁⟩ => ?_) (fun _ _ h => h) (R.processIntent _ _)
  cases hr₁ : r₁.1
  case false => exact ⟨by simp, fun _ => ⟨.assert, f₁ hr₁⟩, e₁⟩
  case true =>
    obtain ⟨R₁, d₁⟩ := h₁ hr₁
    refine wp_mono (fun r₂ p₂ ⟨h₂, f₂, e₂⟩ => ?_) (fun _ _ h => h)
      ((R₁.nextPhase d₁ .inform rfl).processIntent _ _)
    cases hr₂ : r₂.1
    case false => exact ⟨by simp, fun _ => ⟨.inform, f₂ hr₂⟩, e₁.trans e₂⟩
    case true =>
      obtain ⟨R₂, d₂⟩ := h₂ hr₂
      refine wp_mono (fun r₃ p₃ ⟨h₃, f₃, e₃⟩ => ?_) (fun _ _ h => h)
        ((R₂.nextPhase d₂ .apply rfl).processIntent _ _)
      cases hr₃ : r₃.1
      case false => exact ⟨by simp, fun _ => ⟨.apply, f₃ hr₃⟩, e₁.trans (e₂.trans e₃)⟩
      case true =>
        exact ⟨fun _ => (h₃ hr₃).1.succeeded (h₃ hr₃).2, by simp, e₁.trans (e₂.trans e₃)⟩

/-! ## What the end of a run says -/

/-- Only units of the set are executed: past the end of the table no unit is processed. -/
theorem lt_of_mem_executions (hproc : ∀ j, (p.info j).processed = true ↔ j ∈ executions p.log)
    (hsize : p.size = units.length) {j : Nat} (hj : j ∈ executions p.log) : j < units.length := by
  by_contra h
  have := (hproc j).2 hj
  rw [ConfigurationSetApplyProcessor.info_of_size_le p (by omega : p.size ≤ j)] at this
  exact absurd this (by decide)

/-- An executed unit has one return. -/
theorem returned_unique {log : List Event} (hret : (returns log).map Prod.fst = executions log)
    (hnd : (executions log).Nodup) {j : Nat} {b b' : Bool} (h : (j, b) ∈ returns log)
    (h' : (j, b') ∈ returns log) : b = b' :=
  (Prod.mk.inj (List.inj_on_of_nodup_map (f := Prod.fst) (hret ▸ hnd) h h' rfl)).2

/-- A run whose phases all succeeded executed every unit of the set once. -/
theorem RunSucceeded.executions_perm (R : RunSucceeded env units p) :
    (executions p.log).Perm (List.range units.length) :=
  (List.perm_ext_iff_of_nodup R.logInv.schedule.nodup (List.nodup_range _)).2 fun j =>
    ⟨fun hj => List.mem_range.2 (lt_of_mem_executions R.processed R.size hj),
      fun hj => R.executed j (List.mem_range.1 hj)⟩

namespace RunFailed

variable {errorForOtherIntents errorForFailures : HResult}
  (R : RunFailed env units intent errorForOtherIntents errorForFailures p)
include R

/-- A failed run left a unit unexecuted or a run that returned `false`. -/
theorem not_all_returned_true :
    ¬((executions p.log).Perm (List.range units.length) ∧ ∀ j, (j, false) ∉ returns p.log) := by
  rintro ⟨hperm, hnone⟩
  rcases R.outcome with ⟨⟨j, hj⟩, -⟩ | ⟨-, -, j, hj, -, hne⟩
  · exact hnone j hj
  · exact hne (hperm.mem_iff.2 (List.mem_range.2 hj))

/-- Every phase before the failed one succeeded. -/
theorem earlier_succeeded (earlier : ConfigurationUnitIntent) (h : earlier.phase < intent.phase) :
    PhaseSucceeded units p.log earlier := by
  intro j hj hI
  have hexec := R.earlier j hj (hI ▸ h)
  obtain ⟨⟨j', b⟩, hmem, rfl⟩ := List.mem_map.1 (R.returned ▸ hexec : j ∈ (returns p.log).map Prod.fst)
  refine ⟨hexec, ?_⟩
  cases b
  · rw [R.failureIntent _ hmem] at hI
    subst hI
    exact absurd h (lt_irrefl _)
  · exact hmem

/-- The failed phase did not succeed. -/
theorem not_phaseSucceeded : ¬PhaseSucceeded units p.log intent := by
  intro hs
  rcases R.outcome with ⟨⟨j, hj⟩, -⟩ | ⟨-, -, j, hj, hI, hne⟩
  · have hexec : j ∈ executions p.log := R.returned ▸ List.mem_map_of_mem Prod.fst hj
    have := (hs j (lt_of_mem_executions R.processed R.size hexec) (R.failureIntent j hj)).2
    exact absurd (returned_unique R.returned R.logInv.schedule.nodup hj this) (by decide)
  · exact hne (hs j hj hI).1

/-- The set's code is the phase's `errorForFailures` when one of its runs returned
    `false`, and `DEPENDENCY_UNSATISFIED` otherwise. -/
theorem resultCode_of_phaseHasFailure (h : PhaseHasFailure units p.log intent) :
    p.resultCode = errorForFailures := by
  rcases R.outcome with ⟨-, hrc⟩ | ⟨hnone, -⟩
  · exact hrc
  · obtain ⟨j, -, -, hj⟩ := h
    exact absurd hj (hnone j)

theorem resultCode_of_not_phaseHasFailure (h : ¬PhaseHasFailure units p.log intent) :
    p.resultCode = dependencyUnsatisfied := by
  rcases R.outcome with ⟨⟨j, hj⟩, -⟩ | ⟨-, hrc, -⟩
  · exact absurd ⟨j, R.returned ▸ List.mem_map_of_mem Prod.fst hj, R.failureIntent j hj, hj⟩ h
  · exact hrc

end RunFailed

end ConfigurationSetApply
