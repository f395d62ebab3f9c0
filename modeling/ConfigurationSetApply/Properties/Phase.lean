-- SUMMARY: One phase of the scheduler end to end: the actions its loop takes, the candidates it returns, its outcome and what it marks; and the candidates the phases hand on in both instances of ProcessInternal.
import ConfigurationSetApply.Laws.Phase

/-!
# A phase

`PhaseSpec` states what `ProcessIntentInternal` did when it returned, in the terms of the
spec: the actions of its loop (`PhaseRun`), the candidates it returns, its outcome and the
codes it leaves. `processIntentInternal_spec` proves it of every phase on distinct
candidates, for every dependency check and every action, and that the phase returns
whenever no action throws.

`ProcessInternal` hands the candidates one phase leaves to the next. With actions that keep
the units of the table (`Keeps SameUnits`), a phase that succeeded leaves exactly its
candidates of the other intents, in their order (`PhaseSpec.handsOn`). So the Inform phase
gets the Inform and Apply units, the Apply phase the Apply units, and `ProcessInternal`
runs as `processInternalByIntent`, the phases over these lists, with any error for other
intents in the Apply phase in place of `E_FAIL`.
-/

namespace ConfigurationSetApply

open WingetConfigError

variable (check : UnitInfo → Bool) (action : Nat → ProcessorM Bool)
  (intent : ConfigurationUnitIntent) (errorForOtherIntents errorForFailures : HResult)

-- ---------------------------------------------------------------------------
-- What a phase does
-- ---------------------------------------------------------------------------

/-- The phase of `intent` over the candidates `cs` from `p` returned `res` in `p'`: its loop
    made a run of at most one action per candidate, each on a candidate of the intent whose
    dependencies passed the check when it was picked, and ended in `p₁` with the others
    left, in their order, none of them ready. The phase succeeded exactly when no action
    returned `false` and no candidate of the intent is left, and then changed nothing more;
    when it failed, each candidate left carries `DEPENDENCY_UNSATISFIED` if it has the
    intent and `errorForOtherIntents` if not, and the set's code is `errorForFailures` if an
    action returned `false` and `DEPENDENCY_UNSATISFIED` otherwise. -/
def PhaseSpec (cs : List Nat) (p : ConfigurationSetApplyProcessor) (res : Bool × List Nat)
    (p' : ConfigurationSetApplyProcessor) : Prop :=
  ∃ acts hf p₁, PhaseRun check action intent cs false p acts res.2 hf p₁ ∧
    acts.length ≤ cs.length ∧ (acts.map (·.1)).Nodup ∧
    (∀ x ∈ acts, x.1 ∈ cs ∧ (x.2.1.info x.1).unit.intent = intent ∧
      ∀ d ∈ (x.2.1.info x.1).dependencyIndices, check (x.2.1.info d) = true) ∧
    res.2 = cs.filter (· ∉ acts.map (·.1)) ∧
    (∀ j ∈ res.2, hasIntentAndSatisfiedDependencies p₁ (p₁.info j) intent check = false) ∧
    (res.1 = true ↔ (∀ x ∈ acts, x.2.2 = true) ∧ ∀ j ∈ res.2, (p₁.info j).unit.intent ≠ intent) ∧
    (res.1 = true → p' = p₁) ∧
    (res.1 = false →
      (∀ j ∈ res.2, j < p₁.size → (p'.info j).resultInformation =
        (p₁.info j).resultInformation.initializeWith
          (if (p₁.info j).unit.intent = intent then dependencyUnsatisfied else errorForOtherIntents)
          .precondition) ∧
      p'.resultCode = if ∃ x ∈ acts, x.2.2 = false then errorForFailures else dependencyUnsatisfied)

variable {check action intent errorForOtherIntents errorForFailures}

/-- A phase whose loop made a run from distinct candidates, followed by its two markings,
    meets `PhaseSpec`. -/
theorem phaseSpec_of_run (sendProgress : Bool) {cs : List Nat} (hnd : cs.Nodup)
    {p p₁ : ConfigurationSetApplyProcessor} {acts : List (Nat × ConfigurationSetApplyProcessor × Bool)}
    {rest : List Nat} {hf : Bool} (hrun : PhaseRun check action intent cs false p acts rest hf p₁) :
    let remaining := rest.any fun i => (p₁.info i).unit.intent == intent
    let p₂ := p₁.markAll (· == intent) dependencyUnsatisfied sendProgress rest
    if hf || remaining then
      PhaseSpec check action intent errorForOtherIntents errorForFailures cs p (false, rest)
        ((p₂.markAll (· != intent) errorForOtherIntents sendProgress rest).withResultCode
          (if hf then errorForFailures else dependencyUnsatisfied))
    else PhaseSpec check action intent errorForOtherIntents errorForFailures cs p (true, rest) p₂ := by
  obtain ⟨hnd', hrest⟩ := hrun.remaining hnd
  have hlen := hrun.length_add
  have hstop := firstReady_eq_none.1 hrun.stopped
  have hready : ∀ x ∈ acts, x.1 ∈ cs ∧ (x.2.1.info x.1).unit.intent = intent ∧
      ∀ d ∈ (x.2.1.info x.1).dependencyIndices, check (x.2.1.info d) = true := fun x hx =>
    ⟨(hrun.mem_ready x hx).1, hasIntentAndSatisfiedDependencies_eq_true.1 (hrun.mem_ready x hx).2⟩
  have hflag : hf = true ↔ ∃ x ∈ acts, x.2.2 = false := by simp [hrun.flag]
  dsimp only
  unfold PhaseSpec
  split
  case isTrue hfail =>
    -- the phase failed: both markings, and the set's code
    refine ⟨acts, hf, p₁, hrun, by omega, hnd', hready, hrest, hstop, ?_, nofun, fun _ => ⟨?_, ?_⟩⟩
    · simp only [Bool.false_eq_true, false_iff, not_and, not_forall]
      intro hok
      rcases (Bool.or_eq_true _ _).mp hfail with h | h
      · obtain ⟨x, hx, hfx⟩ := hflag.1 h
        exact absurd (hok x hx) (by simp [hfx])
      · obtain ⟨j, hj, hjI⟩ := List.any_eq_true.1 h
        exact ⟨j, hj, by simpa using hjI⟩
    · intro j hj hjs
      rw [ConfigurationSetApplyProcessor.withResultCode_info,
        ConfigurationSetApplyProcessor.markAll_markAll_info]
      simp [hj, hjs]
    · cases hf <;> simp [hflag.symm]
  case isFalse hok =>
    -- the phase succeeded: nothing of the intent is left to mark
    simp only [Bool.or_eq_true, not_or, Bool.not_eq_true, List.any_eq_false, beq_iff_eq] at hok
    have hp₂ : p₁.markAll (· == intent) dependencyUnsatisfied sendProgress rest = p₁ :=
      ConfigurationSetApplyProcessor.markAll_of_forall_not_selects _ _ _ _
        fun j hj => by simpa using hok.2 j hj
    refine ⟨acts, hf, p₁, hrun, by omega, hnd', hready, hrest, hstop,
      iff_of_true rfl ⟨fun x hx => ?_, hok.2⟩, fun _ => hp₂, nofun⟩
    by_contra hx'
    exact absurd (hflag.2 ⟨x, hx, by simpa using hx'⟩) (by simp [hok.1])

/-- A phase on distinct candidates that returned meets `PhaseSpec`. -/
theorem phaseSpec_of_ok (sendProgress : Bool) {cs : List Nat} (hnd : cs.Nodup)
    {p p' : ConfigurationSetApplyProcessor} {res : Bool × List Nat}
    (hres : processIntentInternal check action intent cs errorForOtherIntents errorForFailures
      sendProgress p = .ok res p') :
    PhaseSpec check action intent errorForOtherIntents errorForFailures cs p res p' := by
  refine wp.of_ok (Q := fun res p' => PhaseSpec check action intent errorForOtherIntents
    errorForFailures cs p res p') (E := fun _ _ => True) ?_ hres
  rw [wp_processIntentInternal]
  exact wp_mono (fun _ _ ⟨_, hrun⟩ => phaseSpec_of_run sendProgress hnd hrun) (fun _ _ _ => trivial)
    (processReadyUnits_phaseRun _ cs false p le_rfl)

variable (check action intent errorForOtherIntents errorForFailures) in
/-- `ProcessIntentInternal` on distinct candidates meets `PhaseSpec` when it returns, for
    every dependency check and every action; and it returns when no action throws. -/
theorem processIntentInternal_spec (sendProgress : Bool) {cs : List Nat} (hnd : cs.Nodup)
    (p : ConfigurationSetApplyProcessor) :
    (∀ res p', processIntentInternal check action intent cs errorForOtherIntents errorForFailures
        sendProgress p = .ok res p' →
      PhaseSpec check action intent errorForOtherIntents errorForFailures cs p res p') ∧
    ((∀ i q, wp (action i) (fun _ _ => True) (fun _ _ => False) q) →
      ∃ res p', processIntentInternal check action intent cs errorForOtherIntents errorForFailures
        sendProgress p = .ok res p') := by
  refine ⟨fun _ _ => phaseSpec_of_ok sendProgress hnd, fun hact => ?_⟩
  have hw : wp (processIntentInternal check action intent cs errorForOtherIntents errorForFailures
      sendProgress) (fun _ _ => True) (fun _ _ => False) p := by
    rw [wp_processIntentInternal]
    exact wp_mono (fun _ _ _ => by dsimp only; split <;> trivial) (fun _ _ h => h)
      (processReadyUnits_returns hact _ cs false p)
  obtain ⟨res, p', h, -⟩ := hw.exists_ok
  exact ⟨res, p', h⟩

-- ---------------------------------------------------------------------------
-- The candidates the phases hand on
-- ---------------------------------------------------------------------------

/-- A phase that succeeded, with actions that keep the units of the table, hands on
    exactly its candidates of the other intents, in their order, in a table of the same
    units. -/
theorem PhaseSpec.handsOn (hkeep : ∀ i, Keeps SameUnits (action i)) {cs rest : List Nat}
    {p p' : ConfigurationSetApplyProcessor}
    (h : PhaseSpec check action intent errorForOtherIntents errorForFailures cs p (true, rest) p') :
    rest = cs.filter (fun j => (p.info j).unit.intent != intent) ∧ SameUnits p p' := by
  obtain ⟨acts, _, p₁, hrun, -, -, hready, hrest, -, hok, hp', -⟩ := h
  obtain ⟨hp₁, hacts⟩ := hrun.sameUnits hkeep
  refine ⟨hrest.trans (List.filter_congr fun j hj => ?_), hp' rfl ▸ hp₁⟩
  by_cases hm : j ∈ acts.map (·.1)
  · -- acted on, so of the intent
    obtain ⟨x, hx, rfl⟩ := List.mem_map.1 hm
    have hI := (hready x hx).2.1
    rw [(hacts x hx).2] at hI
    simp [hm, hI]
  · -- left, so of another intent
    have hI := (hok.1 rfl).2 j (hrest ▸ List.mem_filter.2 ⟨hj, by simpa using hm⟩)
    rw [hp₁.2] at hI
    simp [hm, hI]

/-- A phase whose candidates all have its intent runs the same whatever error it would
    give the candidates of other intents: it has none to mark. -/
theorem processIntentInternal_errorForOtherIntents (hkeep : ∀ i, Keeps SameUnits (action i))
    (sendProgress : Bool) {cs : List Nat} {p : ConfigurationSetApplyProcessor}
    (hcs : ∀ j ∈ cs, (p.info j).unit.intent = intent) (e e' : HResult) :
    processIntentInternal check action intent cs e errorForFailures sendProgress p =
      processIntentInternal check action intent cs e' errorForFailures sendProgress p := by
  refine run_eq_of_wp_iff fun Q E => ?_
  rw [wp_processIntentInternal, wp_processIntentInternal]
  refine wp_congr (wp_mono (fun r p₁ ⟨_, hrun⟩ => ?_) (fun _ _ _ => trivial)
    (processReadyUnits_phaseRun _ cs false p le_rfl))
  have hleft : ∀ j ∈ r.1, (p₁.info j).unit.intent = intent := fun j hj => by
    rw [(hrun.sameUnits hkeep).1.2 j]
    exact hcs j (hrun.mem_left j hj)
  have hmark : ∀ c, (p₁.markAll (· == intent) dependencyUnsatisfied sendProgress r.1).markAll
      (· != intent) c sendProgress r.1 = p₁.markAll (· == intent) dependencyUnsatisfied sendProgress r.1 :=
    fun _ => ConfigurationSetApplyProcessor.markAll_of_forall_not_selects _ _ _ _ fun j hj => by
      simp [hleft j hj]
  simp only [hmark]

/-- The units of `p` whose intent `keep` selects, in input order. -/
def unitsWithIntent (p : ConfigurationSetApplyProcessor) (keep : ConfigurationUnitIntent → Bool) :
    List Nat :=
  (List.range p.size).filter fun j => keep (p.info j).unit.intent

theorem unitsWithIntent_of_sameUnits {p p' : ConfigurationSetApplyProcessor} (h : SameUnits p p')
    (keep : ConfigurationUnitIntent → Bool) : unitsWithIntent p' keep = unitsWithIntent p keep := by
  simp [unitsWithIntent, h.1, h.2]

/-- `ProcessInternal` as the spec describes its candidate lists: the Assert phase over all
    units, the Inform phase over the Inform and Apply units and the Apply phase over the
    Apply units, all in input order, the last with `errorForOtherIntents`. -/
def processInternalByIntent (check : UnitInfo → Bool) (action : Nat → ProcessorM Bool)
    (sendProgress : Bool) (errorForOtherIntents : HResult) : ProcessorM Bool := do
  let p ← get
  let (ok, _) ← processIntentInternal check action .assert (List.range p.size) assertionFailed
    assertionFailed sendProgress
  if !ok then return false
  let (ok, _) ← processIntentInternal check action .inform
    (unitsWithIntent p fun intent => intent == .inform || intent == .apply) dependencyUnsatisfied
    dependencyUnsatisfied sendProgress
  if !ok then return false
  let (ok, _) ← processIntentInternal check action .apply (unitsWithIntent p (· == .apply))
    errorForOtherIntents setApplyFailed sendProgress
  return ok

/-- The Assert phase that succeeded hands on the Inform and Apply units. -/
theorem assertPhase_handsOn (hkeep : ∀ i, Keeps SameUnits (action i)) (sendProgress : Bool)
    {p p' : ConfigurationSetApplyProcessor} {res : Bool × List Nat}
    (hres : processIntentInternal check action .assert (List.range p.size) assertionFailed
      assertionFailed sendProgress p = .ok res p') (hok : res.1 = true) :
    res.2 = unitsWithIntent p (fun intent => intent == .inform || intent == .apply) ∧
      SameUnits p p' := by
  obtain ⟨ok, rest⟩ := res
  obtain rfl : ok = true := hok
  obtain ⟨h₁, h₂⟩ := (phaseSpec_of_ok sendProgress (List.nodup_range _) hres).handsOn hkeep
  exact ⟨h₁.trans (List.filter_congr fun j _ => by cases (p.info j).unit.intent <;> rfl), h₂⟩

/-- The Inform phase over the Inform and Apply units that succeeded hands on the Apply
    units. -/
theorem informPhase_handsOn (hkeep : ∀ i, Keeps SameUnits (action i)) (sendProgress : Bool)
    {p p' : ConfigurationSetApplyProcessor} {res : Bool × List Nat}
    (hres : processIntentInternal check action .inform
      (unitsWithIntent p fun intent => intent == .inform || intent == .apply)
      dependencyUnsatisfied dependencyUnsatisfied sendProgress p = .ok res p')
    (hok : res.1 = true) :
    res.2 = unitsWithIntent p (· == .apply) ∧ SameUnits p p' := by
  obtain ⟨ok, rest⟩ := res
  obtain rfl : ok = true := hok
  obtain ⟨h₁, h₂⟩ :=
    (phaseSpec_of_ok sendProgress ((List.nodup_range _).filter _) hres).handsOn hkeep
  refine ⟨h₁.trans ?_, h₂⟩
  simp only [unitsWithIntent, List.filter_filter]
  exact List.filter_congr fun j _ => by cases (p.info j).unit.intent <;> rfl

/-- `ProcessInternal` runs as `processInternalByIntent`, whatever its error for other
    intents: each phase that succeeded handed on the units of the later intents, so the
    Apply phase has no candidate of another intent to mark. -/
theorem processInternal_eq_byIntent (hkeep : ∀ i, Keeps SameUnits (action i))
    (sendProgress : Bool) (p : ConfigurationSetApplyProcessor) (e : HResult) :
    processInternal check action sendProgress p =
      processInternalByIntent check action sendProgress e p := by
  refine run_eq_of_wp_iff fun Q E => ?_
  rw [wp_processInternal]
  simp only [processInternalByIntent, wp_bind, wp_get]
  refine wp_congr (wp_mono (fun r₁ p₁ hr₁ => ?_) (fun _ _ _ => trivial) (wp_self _ p))
  rcases r₁ with ⟨_ | _, cs₁⟩
  · simp
  -- the Assert phase succeeded: the Inform phase runs on the Inform and Apply units
  obtain ⟨rfl, h₁⟩ := assertPhase_handsOn hkeep sendProgress hr₁ rfl
  simp only [if_true, Bool.not_true, Bool.false_eq_true, if_false, wp_bind]
  refine wp_congr (wp_mono (fun r₂ p₂ hr₂ => ?_) (fun _ _ _ => trivial) (wp_self _ p₁))
  rcases r₂ with ⟨_ | _, cs₂⟩
  · simp
  -- the Inform phase succeeded: the Apply phase runs on the Apply units
  rw [← unitsWithIntent_of_sameUnits h₁] at hr₂
  obtain ⟨rfl, h₂⟩ := informPhase_handsOn hkeep sendProgress hr₂ rfl
  have hcs : ∀ j ∈ unitsWithIntent p (· == .apply), (p₂.info j).unit.intent = .apply :=
    fun j hj => by simpa [(trans_of _ h₁ h₂).2 j] using (List.mem_filter.1 hj).2
  simp only [if_true, Bool.not_true, Bool.false_eq_true, if_false, wp_bind, wp_pure,
    unitsWithIntent_of_sameUnits h₁]
  rw [wp_eq_of_run_eq (processIntentInternal_errorForOtherIntents hkeep sendProgress hcs eFail e)]

/-- What the phases of `ProcessInternal` hand on, from every state: after the Assert phase
    returns `true` the candidates are the Inform and Apply units in input order, in a table
    of the same units; after the Inform phase returns `true` they are the Apply units; and
    `ProcessInternal` runs as `processInternalByIntent` with every error for other intents
    in the Apply phase, so `E_FAIL` is never given to a unit. -/
def PhasesHandOn (check : UnitInfo → Bool) (action : Nat → ProcessorM Bool) : Prop :=
  ∀ (sendProgress : Bool) (p : ConfigurationSetApplyProcessor),
    (∀ res p', processIntentInternal check action .assert (List.range p.size) assertionFailed
        assertionFailed sendProgress p = .ok res p' → res.1 = true →
      res.2 = unitsWithIntent p (fun intent => intent == .inform || intent == .apply) ∧
        SameUnits p p') ∧
    (∀ res p', processIntentInternal check action .inform
        (unitsWithIntent p fun intent => intent == .inform || intent == .apply)
        dependencyUnsatisfied dependencyUnsatisfied sendProgress p = .ok res p' → res.1 = true →
      res.2 = unitsWithIntent p (· == .apply) ∧ SameUnits p p') ∧
    ∀ e, processInternal check action sendProgress p =
      processInternalByIntent check action sendProgress e p

theorem phasesHandOn_of_keeps (hkeep : ∀ i, Keeps SameUnits (action i)) :
    PhasesHandOn check action := fun sendProgress p =>
  ⟨fun _ _ => assertPhase_handsOn hkeep sendProgress,
    fun _ _ => informPhase_handsOn hkeep sendProgress, processInternal_eq_byIntent hkeep sendProgress p⟩

/-- Both instances of `ProcessInternal`, the dry run of `PreProcess` and the real run of
    `Process`, hand on the candidates of the later intents from every state. -/
theorem processInternal_phasesHandOn :
    PhasesHandOn hasPreprocessed markPreprocessed ∧
      ∀ env, PhasesHandOn hasProcessedSuccessfully (processUnit env) :=
  ⟨phasesHandOn_of_keeps fun i => (markPreprocessed_keeps i).mono fun _ _ => OnlyUnit.sameUnits,
    fun env => phasesHandOn_of_keeps fun i =>
      (processUnit_keeps env i).mono fun _ _ => OnlyUnit.sameUnits⟩

/-- Two Assert units, the second depending on the first. -/
def chainedAsserts : List ConfigurationUnit :=
  [⟨"a", .assert, [], true⟩, ⟨"b", .assert, ["a"], true⟩]

/-- The table of `chainedAsserts` as the dependency loop of `PreProcess` leaves it: the
    second unit depends on the first by index. -/
def chainedAssertsResolved : ConfigurationSetApplyProcessor :=
  (ConfigurationSetApplyProcessor.create chainedAsserts).modifyUnit 1 fun u =>
    { u with dependencyIndices := [0] }

theorem processIntentInternal_spec_chainedAsserts :
    [0, 1].Nodup ∧
      (∀ res p', processIntentInternal hasPreprocessed markPreprocessed .assert [0, 1]
          assertionFailed assertionFailed false chainedAssertsResolved = .ok res p' →
        PhaseSpec hasPreprocessed markPreprocessed .assert assertionFailed assertionFailed [0, 1]
          chainedAssertsResolved res p') ∧
      (∀ i q, wp (markPreprocessed i) (fun _ _ => True) (fun _ _ => False) q) ∧
      ∃ res p', processIntentInternal hasPreprocessed markPreprocessed .assert [0, 1]
        assertionFailed assertionFailed false chainedAssertsResolved = .ok res p' :=
  have hmark : ∀ i q, wp (markPreprocessed i) (fun _ _ => True) (fun _ _ => False) q :=
    fun _ _ => trivial
  have h := processIntentInternal_spec hasPreprocessed markPreprocessed .assert assertionFailed
    assertionFailed false (by decide) chainedAssertsResolved
  ⟨by decide, h.1, hmark, h.2 hmark⟩

end ConfigurationSetApply
