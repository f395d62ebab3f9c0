-- SUMMARY: The order of execution: for a set that passes validation, the dry run, and every real run whose executions all succeed, take the units of each phase in the lexicographically smallest order that puts every unit after its dependencies; and such a real run runs every unit and succeeds.
import ConfigurationSetApply.Laws.Dependencies
import ConfigurationSetApply.Properties.Outcome
import ConfigurationSetApply.Laws.Cycle
import ConfigurationSetApply.Trace.Order

/-!
# The order of execution

`ProcessIntentInternal` scans its candidates front to back and takes the first that is
ready, so within a phase a ready unit of lower input position always goes first. Read on
a whole run, the order of each phase is then the lexicographically smallest order of the
phase's units that puts every unit after its dependencies (`PhasedSchedule.lexSmallest`).

Both runs are shown to produce a `PhasedSchedule` over the dependency indices validation
resolved. The dry run's marks are one by `MarkedCorrectly`, which `DryInv` keeps. The
real run's executions are one when every execution succeeds: each entry was scheduled
after its dependencies and is the smallest unit of its phase that was ready
(`SmallestReady`), over the tables its entries record (`DependenciesKept`). Such a run
does not stall, since the dry run that accepted the set found no cycle and no dependency
on a later phase (`RunFailed.stalled`), and it does not throw, since a run that throws
leaves a unit that never returned (`RunThrew`).

The same argument is what validation promises the real run: after `PreProcess` accepted
the set, a normal return whose runs all succeeded ran every unit once and has the set's
code `S_OK` (`process_completesWhenRunsSucceed`), whatever the processors did otherwise.
-/

namespace ConfigurationSetApply

variable (env : Collaborators) (getNormalizedIdentifier : String → String)
  (units : List ConfigurationUnit)

variable {env units} {p₀ p : ConfigurationSetApplyProcessor}

-- ---------------------------------------------------------------------------
-- The dry run
-- ---------------------------------------------------------------------------

/-- The marks of a dry run that passed from a checked table list every unit once, phase
    after phase, each after its dependencies and smallest among the units of its intent
    that were ready. -/
theorem DryInv.phasedSchedule (hC : Checked units p₀) (h : DryInv p₀ [] p) :
    PhasedSchedule units.length (unitIntent units) (DependsOn p₀) (preprocessings p.log) := by
  obtain ⟨L, hL, hm, hmarked⟩ := h.marks
  rw [hL, hC.logEmpty, List.nil_append]
  have hI : ∀ j, (p₀.info j).unit.intent = unitIntent units j := fun j => by rw [hC.unit]; rfl
  refine ⟨(List.perm_ext_iff_of_nodup (nodup_of_markedCorrectly hmarked) (List.nodup_range _)).2
    fun j => ?_, fun pre j post hs d hd => ?_, fun pre j post hs y hy => ?_,
    fun pre j post hs x hx hxI hxpre hxd => ?_⟩
  · rw [List.mem_range, ← hm j, ← hC.size, ← h.kept.size]
    refine ⟨fun hj => not_le.1 fun hle => ?_, fun hj => (h.covered j (h.kept.size ▸ hj)).resolve_left
      (List.not_mem_nil j)⟩
    rw [ConfigurationSetApplyProcessor.info_of_size_le p hle] at hj
    exact absurd hj (by decide)
  -- each other field is read off the mark of the unit, after the marks before it
  all_goals
    obtain ⟨A, B, rfl, rfl⟩ := exists_mark_of_preprocessings hs
    have hmk : MarkedCorrectly p₀ A (.markPreprocessed j) := hmarked A _ B rfl
  · exact hmk.2.1 d hd.2
  · simpa only [hI] using hmk.2.2.1 y hy
  · exact hmk.2.2.2 x (hC.size ▸ hx) (by rw [hI, hI, hxI]) hxpre fun d hd =>
      hxd d ⟨hC.size ▸ hx, hd⟩

-- ---------------------------------------------------------------------------
-- The real run
-- ---------------------------------------------------------------------------

/-- A real run whose phases and returns all succeeded, from a table `p₀` whose log has no
    entry of a unit's run and whose indices it kept, lists every unit once, phase after
    phase, each after its dependencies and smallest among the units of its intent that
    were ready. -/
theorem RunSucceeded.phasedSchedule (R : RunSucceeded env units p) (hd : DependenciesKept p₀ p)
    (hq : executions p₀.log = []) (hsize : p₀.size = units.length) (hs : ReturnsSucceeded p.log) :
    PhasedSchedule units.length (unitIntent units) (DependsOn p₀) (executions p.log) := by
  -- the table of an entry has the indices of `p₀`: the entry was logged after `p₀`
  have hsnap : ∀ {A j t B}, p.log = A ++ .processUnit j t :: B →
      ∀ x, (t.getD x default).dependencyIndices = (p₀.info x).dependencyIndices := by
    obtain ⟨-, L, hL, ht⟩ := hd
    intro A j t B hsplit
    have hmem : .processUnit j t ∈ p₀.log ++ L := by simp [← hL, hsplit]
    refine (List.mem_append.1 hmem).elim (fun h => ?_) (ht j t)
    have : j ∈ executions p₀.log := List.mem_filterMap.2 ⟨_, h, rfl⟩
    simp [hq] at this
  refine ⟨R.executions_perm, fun pre j post hs' d hjd => ?_, fun pre j post hs' y hy => ?_,
    fun pre j post hs' x hx hxI hxpre hxd => ?_⟩
  all_goals obtain ⟨A, t, B, hlog, rfl⟩ := exists_entry_of_executions hs'
  · exact ((R.logInv.schedule A _ B hlog).2.2 d (by rw [hsnap hlog]; exact hjd.2)).1
  · exact (R.logInv.schedule A _ B hlog).2.1 y hy
  · refine R.logInv.smallest A _ B hlog x hx hxI hxpre fun d hdx => ⟨?_, fun r tb hm => ?_⟩
    · exact hxd d ⟨hsize ▸ hx, by rwa [hsnap hlog] at hdx⟩
    · exact hs d r tb (by simp [hlog, hm])

/-- A real run whose returns all succeeded stalls only on a cycle or on a dependency on a
    later phase, in a table `p₀` with its indices: a unit of the stalled phase that did not
    run waits on a dependency that did not run, which is past the table, of a later phase,
    or itself a unit of the phase that did not run. -/
theorem RunFailed.stalled {intent : ConfigurationUnitIntent}
    {errorForOtherIntents errorForFailures : HResult}
    (R : RunFailed env units intent errorForOtherIntents errorForFailures p)
    (hd : ∀ j, (p.info j).dependencyIndices = (p₀.info j).dependencyIndices)
    (hsize : p₀.size = units.length) (hunit : ∀ j, (p₀.info j).unit = unitAt units j)
    (hs : ReturnsSucceeded p.log) : HasDependencyCycle p₀ ∨ HasLaterDependency p₀ := by
  have hI : ∀ j, (p₀.info j).unit.intent = unitIntent units j := fun j => by rw [hunit]; rfl
  -- no run returned `false`, so a unit of the phase was left
  obtain ⟨j₀, hj₀, hj₀I, hj₀e⟩ : ∃ j < units.length, unitIntent units j = intent ∧
      j ∉ executions p.log := by
    rcases R.outcome with ⟨⟨j, hj⟩, -⟩ | ⟨-, -, h⟩
    · obtain ⟨t, ht⟩ := exists_of_mem_returns hj
      exact absurd (hs j false t ht).1 Bool.false_ne_true
    · exact h
  refine or_iff_not_imp_right.2 fun hlat => ?_
  let S := ((List.range units.length).filter fun j =>
    unitIntent units j = intent ∧ j ∉ executions p.log).toFinset
  refine exists_cycle_of_closed S ⟨j₀, by simp [S, hj₀, hj₀I, hj₀e]⟩ fun j hj => ?_
  simp only [S, List.mem_toFinset, List.mem_filter, List.mem_range, decide_eq_true_eq] at hj
  obtain ⟨hjn, hjI, hje⟩ := hj
  obtain ⟨d, hdj, hdn⟩ := R.stuck j hjn hjI hje
  -- every return is a success, so the dependency did not run
  have hde : d ∉ executions p.log := fun hde => hdn ⟨hde, hs d⟩
  have hjd : DependsOn p₀ j d := ⟨hsize ▸ hjn, hd j ▸ hdj⟩
  have hdlt : d < units.length := not_le.1 fun hle => hlat ⟨j, d, hjd, .inl (hsize ▸ hle)⟩
  have hph : unitIntent units d = intent := by
    refine ConfigurationUnitIntent.phase_inj (le_antisymm ?_ ?_)
    · exact not_lt.1 fun hlt => hlat ⟨j, d, hjd, .inr (by rw [hI, hI, hjI]; exact hlt)⟩
    · exact not_lt.1 fun hlt => hde (R.earlier d hdlt hlt)
  exact ⟨d, by simp [S, hdlt, hph, hde], hjd⟩

-- ---------------------------------------------------------------------------
-- The order of each phase
-- ---------------------------------------------------------------------------

variable (env units)

/-- For every set that `PreProcess` accepts, with the table `p₀` it leaves: the dry run
    marked the units of each intent in the lexicographically smallest order of those units
    that puts every unit after its dependencies of the same intent; and on every run of
    `Process`, normal or not, in which each execution succeeded, the units of each intent
    were executed in that same order. -/
theorem process_lexSmallestOrder {p₀ : ConfigurationSetApplyProcessor}
    (hp₀ : preProcess getNormalizedIdentifier (ConfigurationSetApplyProcessor.create units) =
      .ok true p₀) :
    (∀ intent, LexSmallest (DependsOn p₀)
      ((List.range units.length).filter fun j => unitIntent units j == intent)
      ((preprocessings p₀.log).filter fun j => unitIntent units j == intent)) ∧
    wp (process env getNormalizedIdentifier)
      (fun _ p => ExecutionsSucceeded p.log → ∀ intent, LexSmallest (DependsOn p₀)
        ((List.range units.length).filter fun j => unitIntent units j == intent)
        ((executions p.log).filter fun j => unitIntent units j == intent))
      (fun _ p => ExecutionsSucceeded p.log → ∀ intent, LexSmallest (DependsOn p₀)
        ((List.range units.length).filter fun j => unitIntent units j == intent)
        ((executions p.log).filter fun j => unitIntent units j == intent))
      (ConfigurationSetApplyProcessor.create units) := by
  -- the dry run that accepted the set passed from a checked table
  obtain ⟨V, hdry⟩ := preProcess_spec.of_ok hp₀
  obtain ⟨hnd, hnm, -, hquiet, -⟩ := V.passed rfl
  obtain ⟨p₂, p₃, hC, hrun, hp⟩ := hdry hnd hnm
  rw [if_pos rfl] at hp
  subst hp
  obtain ⟨hok, hD⟩ := (DryInv.run hC.preProcessed).of_ok hrun
  have hF := (hD rfl).kept.toDryFrame
  have hacyclic : ¬(HasDependencyCycle p₀ ∨ HasLaterDependency p₀) := fun h =>
    absurd (hok.2 (by rwa [hF.hasDependencyCycle_iff, hF.hasLaterDependency_iff] at h)) (by decide)
  refine ⟨fun intent => hF.dependsOn_eq ▸ ((hD rfl).phasedSchedule hC).lexSmallest intent, ?_⟩
  refine wp_mono (fun _ p ⟨h, hk⟩ hS intent => ?normal) (fun _ p ⟨h, _⟩ hS => ?thrown)
    (wp_and process_spec (process_keepsDependencies env getNormalizedIdentifier units hp₀))
  case thrown =>
    -- a run that throws left a unit that never returned
    obtain ⟨j, hj, hjr⟩ := h.unreturned
    exact absurd (hS.1 j hj) hjr
  case normal =>
    cases h with
    | rejected hv =>
      obtain ⟨_, hv⟩ := hv
      cases hv.symm.trans hp₀
    | succeeded _ _ R =>
      exact (R.phasedSchedule hk (executions_of_quiet hquiet) V.size hS.2).lexSmallest intent
    | failed _ _ _ R => exact absurd (R.stalled hk.1 V.size V.unit hS.2) hacyclic

/-- Three Apply units, the first depending on the last. -/
def firstDependsOnLast : List ConfigurationUnit :=
  [⟨"c", .apply, ["b"], true⟩, ⟨"a", .apply, [], true⟩, ⟨"b", .apply, [], true⟩]

theorem process_lexSmallestOrder_firstDependsOnLast :
    ∃ p₀, preProcess id (ConfigurationSetApplyProcessor.create firstDependsOnLast) = .ok true p₀ ∧
      (∀ intent, LexSmallest (DependsOn p₀)
        ((List.range firstDependsOnLast.length).filter fun j => unitIntent firstDependsOnLast j == intent)
        ((preprocessings p₀.log).filter fun j => unitIntent firstDependsOnLast j == intent)) ∧
      wp (process succeedingEnv id)
        (fun _ p => ExecutionsSucceeded p.log → ∀ intent, LexSmallest (DependsOn p₀)
          ((List.range firstDependsOnLast.length).filter fun j => unitIntent firstDependsOnLast j == intent)
          ((executions p.log).filter fun j => unitIntent firstDependsOnLast j == intent))
        (fun _ p => ExecutionsSucceeded p.log → ∀ intent, LexSmallest (DependsOn p₀)
          ((List.range firstDependsOnLast.length).filter fun j => unitIntent firstDependsOnLast j == intent)
          ((executions p.log).filter fun j => unitIntent firstDependsOnLast j == intent))
        (ConfigurationSetApplyProcessor.create firstDependsOnLast) :=
  ⟨_, rfl, process_lexSmallestOrder succeedingEnv id firstDependsOnLast rfl⟩

-- ---------------------------------------------------------------------------
-- What validation promises the real run
-- ---------------------------------------------------------------------------

/-- A set that `PreProcess` accepted left a validated table whose dependency graph has no
    cycle and no dependency on a later phase or on no unit. -/
theorem preProcess_accepted_acyclic
    (hp₀ : preProcess getNormalizedIdentifier (ConfigurationSetApplyProcessor.create units) =
      .ok true p₀) :
    Validated getNormalizedIdentifier units true p₀ ∧
      ¬(HasDependencyCycle p₀ ∨ HasLaterDependency p₀) := by
  obtain ⟨V, hdry⟩ := preProcess_spec.of_ok hp₀
  obtain ⟨hnd, hnm, -⟩ := V.passed rfl
  obtain ⟨p₂, p₃, hC, hrun, hp⟩ := hdry hnd hnm
  rw [if_pos rfl] at hp
  subst hp
  obtain ⟨hok, hD⟩ := (DryInv.run hC.preProcessed).of_ok hrun
  have hF := (hD rfl).kept.toDryFrame
  exact ⟨V, fun h =>
    absurd (hok.2 (by rwa [hF.hasDependencyCycle_iff, hF.hasLaterDependency_iff] at h)) (by decide)⟩

/-- For every set that `PreProcess` accepts, every normalization and every behaviour of the
    collaborators, when `Process` returns normally and every run of `ProcessUnit` returned
    `true` with a code that succeeds, every unit ran exactly once and the set's code is
    `S_OK`: once validation has passed, the real run stops early only on a unit that
    failed, never on the dependency graph. -/
theorem process_completesWhenRunsSucceed
    (hp₀ : preProcess getNormalizedIdentifier (ConfigurationSetApplyProcessor.create units) =
      .ok true p₀) :
    wp (process env getNormalizedIdentifier)
      (fun _ p => ReturnsSucceeded p.log →
        p.resultCode = 0 ∧ (executions p.log).Perm (List.range units.length))
      (fun _ _ => True) (ConfigurationSetApplyProcessor.create units) := by
  obtain ⟨V, hacyclic⟩ := preProcess_accepted_acyclic getNormalizedIdentifier units hp₀
  refine wp_mono (fun _ p ⟨h, hk⟩ hs => ?_) (fun _ _ _ => trivial)
    (wp_and process_spec (process_keepsDependencies env getNormalizedIdentifier units hp₀))
  cases h with
  | rejected hv =>
    obtain ⟨_, hv⟩ := hv
    cases hv.symm.trans hp₀
  | succeeded _ _ R => exact ⟨R.resultCode, R.executions_perm⟩
  | failed _ _ _ R => exact absurd (R.stalled hk.1 V.size V.unit hs) hacyclic

/-- The promise for the three Apply units whose first depends on the last, which
    validation accepts. -/
theorem process_completesWhenRunsSucceed_firstDependsOnLast :
    ∃ p₀, preProcess id (ConfigurationSetApplyProcessor.create firstDependsOnLast) = .ok true p₀ ∧
      wp (process succeedingEnv id)
        (fun _ p => ReturnsSucceeded p.log →
          p.resultCode = 0 ∧ (executions p.log).Perm (List.range firstDependsOnLast.length))
        (fun _ _ => True) (ConfigurationSetApplyProcessor.create firstDependsOnLast) :=
  ⟨_, rfl, process_completesWhenRunsSucceed succeedingEnv id firstDependsOnLast rfl⟩

end ConfigurationSetApply
