-- SUMMARY: What the dry run decides: it agrees with the real run under processors that never fail, and for a set without duplicates or missing dependencies it rejects exactly the graphs with a cycle or a dependency on a later phase, reporting both as a cycle.
import ConfigurationSetApply.Laws.DryRun
import ConfigurationSetApply.Laws.Cycle
import ConfigurationSetApply.Properties.Outcome

/-!
# What the dry run decides

`PreProcess` accepts a set that has no duplicate identifier and no missing dependency
exactly when its dry run passes. Under unit processors under which every unit succeeds
the dry run is the real run with the processors left out: the two pick the same units
in the same order, so a set that validation accepted runs every unit and succeeds.

The dry run fails on every dependency cycle. It also fails without one: the phases run
in the order Assert, Inform, Apply and each runs only units of its intent, so an Assert
unit that depends on an Apply unit is never ready, and `PreProcess` reports the stall
with the code of a cycle. These are the only two ways it fails (`preProcess_rejects_iff`).
-/

namespace ConfigurationSetApply

open WingetConfigError

variable (env : Collaborators) (getNormalizedIdentifier : String → String)
  (units : List ConfigurationUnit)

-- ---------------------------------------------------------------------------
-- The dry run against the real run
-- ---------------------------------------------------------------------------

/-- Under processors under which every unit succeeds, the dry run and the real run from
    any checked table return the same outcome, and the dry run marks the units the real
    run executes, in the same order; and when `PreProcess` accepts the set, `Process`
    executes every unit once and ends with the set's code succeeded. -/
theorem dryRun_simulatesRealRun (hA : env.AllSucceed units) :
    (∀ p, Checked units p →
      wp (processInternal hasPreprocessed markPreprocessed false)
        (fun ok d => wp (processInternal hasProcessedSuccessfully (processUnit env) true)
          (fun ok' r => ok = ok' ∧ preprocessings d.log = executions r.log) (fun _ _ => False) p)
        (fun _ _ => False) p) ∧
    ∀ p₀, preProcess getNormalizedIdentifier (ConfigurationSetApplyProcessor.create units) =
        .ok true p₀ →
      wp (process env getNormalizedIdentifier)
        (fun _ p => (executions p.log).Perm (List.range units.length) ∧
          succeeded p.resultCode = true)
        (fun _ _ => False) (ConfigurationSetApplyProcessor.create units) := by
  refine ⟨fun p hC => (Mirrors.start hC hC.size hC.unit (fun _ => rfl)
    (fun j => ⟨hC.processed j, (hC.fresh j).1⟩) (by simp [hC.logEmpty])).processInternal hA,
    fun p₀ hp₀ => ?_⟩
  -- the real run of Process starts in step with the dry run that accepted the set
  obtain ⟨V, hdry⟩ := preProcess_spec.of_ok hp₀
  obtain ⟨hnd, hnm, -, -, hfresh⟩ := V.passed rfl
  obtain ⟨p₂, p₃, hC, hrun, rfl⟩ := hdry hnd hnm
  have hK := ((DryKept.processInternal (p := p₂) fun j hj => absurd hj (hC.code j)).of_ok hrun).2.2.1 rfl
  have hM : Mirrors env units p₂ (p₀.emit (.setProgress .inProgress)) :=
    Mirrors.start hC (by simp [V.size]) (fun j => by simp [V.unit])
      (fun j => by simp [hK.dependencyIndices])
      (fun j => ⟨by simp [V.processed], by simp [(hfresh j).1]⟩)
      V.quiet_started
  simp only [process, wp_tryCatch, wp_bind, wp_eq_of_ok hp₀, if_true, wp_sendSetProgress, wp_pure,
    wp_get, wp_logProcessingSummary, wp_logProcessingSummaryForApply, wp_throw]
  refine wp_mono (fun ok p₃ ⟨⟨hok, _⟩, hs, _⟩ => ?_) (fun _ _ h => h.1.elim)
    (wp_and ((hM.processInternal hA).of_ok hrun) (V.runInv env).processInternal)
  subst hok
  exact ⟨((finishes_summary p₃).runSucceeded (hs rfl)).executions_perm,
    by simp [(hs rfl).resultCode, succeeded]⟩

/-- Every unit runs to success under `succeedingEnv`, if every unit is to be applied. -/
theorem succeedingEnv_allSucceed (h : ∀ i < units.length, (unitAt units i).shouldApply = true) :
    succeedingEnv.AllSucceed units where
  shouldApply := h
  notCancelled _ := rfl
  created _ _ _ := rfl
  assert _ _ _ _ := ⟨_, rfl, rfl⟩
  inform _ _ _ _ := ⟨_, rfl, rfl⟩
  test _ _ _ _ := ⟨_, rfl, .inl rfl⟩
  apply _ _ _ _ := ⟨_, rfl, rfl⟩

/-- An Assert unit and an Apply unit that depends on it. -/
def assertThenApply : List ConfigurationUnit :=
  [⟨"a", .assert, [], true⟩, ⟨"b", .apply, ["a"], true⟩]

theorem dryRun_simulatesRealRun_assertThenApply :
    succeedingEnv.AllSucceed assertThenApply ∧
    (∀ p, Checked assertThenApply p →
      wp (processInternal hasPreprocessed markPreprocessed false)
        (fun ok d => wp (processInternal hasProcessedSuccessfully (processUnit succeedingEnv) true)
          (fun ok' r => ok = ok' ∧ preprocessings d.log = executions r.log) (fun _ _ => False) p)
        (fun _ _ => False) p) ∧
    ∀ p₀, preProcess id (ConfigurationSetApplyProcessor.create assertThenApply) = .ok true p₀ →
      wp (process succeedingEnv id)
        (fun _ p => (executions p.log).Perm (List.range assertThenApply.length) ∧
          succeeded p.resultCode = true)
        (fun _ _ => False) (ConfigurationSetApplyProcessor.create assertThenApply) :=
  have hA := succeedingEnv_allSucceed assertThenApply (by decide)
  ⟨hA, dryRun_simulatesRealRun succeedingEnv id assertThenApply hA⟩

-- ---------------------------------------------------------------------------
-- Cycles
-- ---------------------------------------------------------------------------

/-- `PreProcess` rejects a set whose table has a dependency cycle, with
    SET_DEPENDENCY_CYCLE when the set has no duplicate identifier and no missing
    dependency. -/
theorem preProcess_rejectsCycle :
    wp (preProcess getNormalizedIdentifier)
      (fun ok p => HasDependencyCycle p → ok = false ∧
        (¬HasDuplicate getNormalizedIdentifier units → ¬HasMissing getNormalizedIdentifier units →
          p.resultCode = setDependencyCycle))
      (fun _ _ => False) (ConfigurationSetApplyProcessor.create units) := by
  refine wp_mono (fun ok p ⟨V, hdry⟩ hc => ?_) (fun _ _ h => h) preProcess_spec
  cases ok
  case false => exact ⟨rfl, (V.failed rfl).2.2.2⟩
  case true =>
    -- the dry run that accepted the set started from a table with the same cycle
    obtain ⟨hnd, hnm, -⟩ := V.passed rfl
    obtain ⟨p₂, p₃, hC, hrun, rfl⟩ := hdry hnd hnm
    have := ((DryInv.processInternal hC.preProcessed).of_ok hrun).2
      (.inl ((hC.dryFrame hrun).hasDependencyCycle_iff.1 hc))
    cases this

/-- For a set with no duplicate identifier and no missing dependency, `PreProcess` fails
    exactly when the dependency graph of its table has a cycle or some unit depends on a
    unit of a later phase (Assert, then Inform, then Apply), and it then fails with
    SET_DEPENDENCY_CYCLE. -/
theorem preProcess_rejects_iff (hnd : ¬HasDuplicate getNormalizedIdentifier units)
    (hnm : ¬HasMissing getNormalizedIdentifier units) :
    wp (preProcess getNormalizedIdentifier)
      (fun ok p => (ok = false ↔ HasDependencyCycle p ∨
          ∃ j d, DependsOn p j d ∧ (p.info j).unit.intent.phase < (p.info d).unit.intent.phase) ∧
        (ok = false → p.resultCode = setDependencyCycle))
      (fun _ _ => False) (ConfigurationSetApplyProcessor.create units) := by
  refine wp_mono (fun ok p ⟨V, hdry⟩ => ⟨?_, fun h => (V.failed h).2.2.2 hnd hnm⟩) (fun _ _ h => h)
    preProcess_spec
  obtain ⟨p₂, p₃, hC, hrun, rfl⟩ := hdry hnd hnm
  have hF := hC.dryFrame hrun
  -- resolved indices name units, so a later dependency is one of a later phase
  have hlater : HasLaterDependency p₂ ↔ ∃ j d, DependsOn p₂ j d ∧
      (p₂.info j).unit.intent.phase < (p₂.info d).unit.intent.phase :=
    exists₂_congr fun j d => and_congr_right fun hjd =>
      or_iff_right (not_le.2 (hC.size ▸ hC.bounded j d hjd.2))
  rw [((DryInv.processInternal hC.preProcessed).of_ok hrun), hF.hasDependencyCycle_iff, hlater,
    hF.dependsOn_eq]
  simp only [hF.unit]

/-- `PreProcess` accepts the set of an Assert unit and an Apply unit depending on it, so
    the set has no duplicate identifier and no missing dependency. -/
theorem assertThenApply_checks :
    ¬HasDuplicate id assertThenApply ∧ ¬HasMissing id assertThenApply := by
  have h : wp (preProcess id) (fun ok _ => ok = true) (fun _ _ => False)
      (ConfigurationSetApplyProcessor.create assertThenApply) := by
    decide
  obtain ⟨ok, p, hp, rfl⟩ := h.exists_ok
  obtain ⟨hnd, hnm, -⟩ := (preProcess_spec.of_ok hp).1.passed rfl
  exact ⟨hnd, hnm⟩

theorem preProcess_rejects_iff_assertThenApply :
    (¬HasDuplicate id assertThenApply ∧ ¬HasMissing id assertThenApply) ∧
      wp (preProcess id)
        (fun ok p => (ok = false ↔ HasDependencyCycle p ∨
            ∃ j d, DependsOn p j d ∧ (p.info j).unit.intent.phase < (p.info d).unit.intent.phase) ∧
          (ok = false → p.resultCode = setDependencyCycle))
        (fun _ _ => False) (ConfigurationSetApplyProcessor.create assertThenApply) :=
  ⟨assertThenApply_checks,
    preProcess_rejects_iff id assertThenApply assertThenApply_checks.1 assertThenApply_checks.2⟩

/-- The set of an Assert unit depending on an Apply unit has no duplicate identifier and
    no missing dependency, and its graph has no cycle, yet `PreProcess` rejects it with
    SET_DEPENDENCY_CYCLE. -/
theorem preProcess_cycleCodeWithoutCycle :
    ¬HasDuplicate id forwardAssert ∧ ¬HasMissing id forwardAssert ∧
      wp (preProcess id)
        (fun ok p => ok = false ∧ p.resultCode = setDependencyCycle ∧ ¬HasDependencyCycle p)
        (fun _ _ => False) (ConfigurationSetApplyProcessor.create forwardAssert) := by
  have hrun : wp (preProcess id)
      (fun ok p => ok = false ∧ p.resultCode = setDependencyCycle ∧ p.size = 2 ∧
        (p.info 0).dependencyIndices = [1] ∧ (p.info 1).dependencyIndices = [])
      (fun _ _ => False) (ConfigurationSetApplyProcessor.create forwardAssert) := by
    decide
  obtain ⟨ok, p, hp, rfl, hrc, hs, h₀, h₁⟩ := hrun.exists_ok
  obtain ⟨-, hdup, hmiss, -⟩ := (preProcess_spec.of_ok hp).1.failed rfl
  have hnd : ¬HasDuplicate id forwardAssert := fun hd => absurd ((hdup hd).symm.trans hrc) (by decide)
  refine ⟨hnd, fun hm => absurd ((hmiss hnd hm).symm.trans hrc) (by decide), ?_⟩
  rw [wp_eq_of_ok hp]
  refine ⟨rfl, hrc, fun ⟨j, hj⟩ => ?_⟩
  -- the only edge goes from the unit at 0 to the unit at 1, which has none
  have edge : ∀ a b, DependsOn p a b → a = 0 ∧ b = 1 := fun a b ⟨ha, hb⟩ => by
    rw [hs] at ha
    obtain rfl | rfl : a = 0 ∨ a = 1 := by omega
    · rw [h₀] at hb; exact ⟨rfl, List.mem_singleton.1 hb⟩
    · rw [h₁] at hb; cases hb
  have path : ∀ a b, Relation.TransGen (DependsOn p) a b → a = 0 ∧ b = 1 := fun a b h => by
    induction h with
    | single h => exact edge _ _ h
    | tail _ h ih => exact absurd (edge _ _ h).1 (by rw [ih.2]; decide)
  have := path j j hj
  omega

end ConfigurationSetApply
