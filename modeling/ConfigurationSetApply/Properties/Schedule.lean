-- SUMMARY: The order in which Process runs units: a valid schedule, no unit after a dependency whose run left a failing or skipped record, and no processor call after an observed cancellation.
import ConfigurationSetApply.Laws.Process

/-!
# The schedule of a run

The properties here are read off the log of `Process` on every path: they hold when it
returns and when a cancellation escapes it, since each follows from `LogInv`.

A unit runs only after each of its dependencies ran and left a processed record with a
succeeded code. That is a statement about the record the dependency left, not about what
its `ProcessUnit` returned: a unit processor may report a failed test with a result
that carries `S_OK`, and then `ProcessUnit` returns `false` while the record it leaves
still lets the dependent unit run.

A call into a processor comes after a poll that found the token clear, and each poll
observes the token as it stands; a token that stays set once set therefore stops all
calls after the first poll that observed it.
-/

namespace ConfigurationSetApply

variable (env : Collaborators) (getNormalizedIdentifier : String → String)
  (units : List ConfigurationUnit)

-- ---------------------------------------------------------------------------
-- The schedule
-- ---------------------------------------------------------------------------

/-- The units `Process` runs form a valid schedule on every path, and it runs none when
    `PreProcess` rejects the set. -/
theorem process_validSchedule :
    wp (process env getNormalizedIdentifier)
      (fun _ p => ValidSchedule units p.log ∧
        ∀ p₀, preProcess getNormalizedIdentifier (ConfigurationSetApplyProcessor.create units) =
          .ok false p₀ → executions p.log = [])
      (fun _ p => ValidSchedule units p.log) (ConfigurationSetApplyProcessor.create units) := by
  refine wp_mono (fun _ p h => ⟨h.logInv.schedule, fun p₀ hp₀ => ?_⟩) (fun _ _ h => h.logInv.schedule)
    process_spec
  cases h with
  | rejected _ _ V => exact V.executions_eq_nil
  | succeeded hv _ _ | failed _ hv _ _ =>
    obtain ⟨p₁, hp₁⟩ := hv
    rw [hp₁] at hp₀
    cases hp₀

/-- On every path, each unit `Process` runs is the smallest unit of its phase that was ready
    then: no unit of its intent with a smaller index had yet to run while each of its
    dependencies, in the table of the entry, had run and succeeded. This holds whatever the
    processors answer, failures and cancellations included. -/
theorem process_smallestReady :
    wp (process env getNormalizedIdentifier) (fun _ p => EveryEntry (SmallestReady units) p.log)
      (fun _ p => EveryEntry (SmallestReady units) p.log) (ConfigurationSetApplyProcessor.create units) :=
  wp_mono (fun _ _ h => h.smallest) (fun _ _ h => h.smallest)
    (process_logInv env getNormalizedIdentifier units)

-- ---------------------------------------------------------------------------
-- Dependencies that failed
-- ---------------------------------------------------------------------------

/-- A unit processor that reports a failed test of the unit at 0 with a result carrying
    `S_OK`, and passes every other test. -/
def failedTestEnv : Collaborators where
  isCancelled _ := false
  createUnitProcessor _ _ := .ok ()
  testSettings i _ :=
    .ok { testResult := if i = 0 then .failed else .positive, resultInformation := {} }
  getSettings _ _ := .ok { resultInformation := {} }
  applySettings _ _ := .ok { resultInformation := {}, rebootRequired := false }

/-- Two Assert units, the second depending on the first. -/
def dependentAsserts : List ConfigurationUnit :=
  [⟨"a", .assert, [], true⟩, ⟨"b", .assert, ["a"], true⟩]

/-- `ProcessUnit` returns `false` for the first unit, and the second still runs. -/
theorem process_runsAfterFailedDependency :
    ¬wp (process failedTestEnv id)
      (fun _ p => EveryEntry (AfterNoFailedDependency dependentAsserts) p.log)
      (fun _ p => EveryEntry (AfterNoFailedDependency dependentAsserts) p.log)
      (ConfigurationSetApplyProcessor.create dependentAsserts) := by
  decide

/-- No unit runs after a dependency whose `ProcessUnit` returned a record that is
    manually skipped or carries a failing code, on every path of `Process`. -/
theorem process_afterSucceededDependencies :
    wp (process env getNormalizedIdentifier)
      (fun _ p => EveryEntry AfterSucceededDependencies p.log)
      (fun _ p => EveryEntry AfterSucceededDependencies p.log)
      (ConfigurationSetApplyProcessor.create units) :=
  wp_mono (fun _ _ h => h.dependents) (fun _ _ h => h.dependents) (process_logInv env _ units)

-- ---------------------------------------------------------------------------
-- Cancellation
-- ---------------------------------------------------------------------------

variable {env} in
/-- Under a token that stays set, a log whose calls are guarded by a clear poll and whose
    polls are honest has no call after a poll that observed the token set: a later call
    needs a later clear poll, which the token no longer allows. -/
theorem noCallAfterCancellation_of_guarded (hs : env.CancellationSticky) {log : List Event}
    (hg : CallsGuarded log) (hh : PollsHonest env log) : NoCallAfterCancellation log := by
  rintro pre post rfl e he
  by_contra hcall
  obtain ⟨post₁, post₂, rfl⟩ := List.append_of_mem he
  -- the call is guarded by a clear poll after the one that observed the token set
  have hlast : lastPoll (pre ++ .throwIfCancelled true :: post₁) = some false :=
    hg (pre ++ .throwIfCancelled true :: post₁) e post₂ (by simp) (by simpa using hcall)
  have hpost : false ∈ post₁.filterMap Event.poll? := by
    simp only [lastPoll_append, lastPoll_cons, Event.poll?] at hlast
    cases h : lastPoll post₁ with
    | none => simp [h] at hlast
    | some b =>
      simp only [h, Option.or_some, Option.some.injEq] at hlast
      exact List.mem_of_getLast?_eq_some (hlast ▸ h)
  obtain ⟨e', he', hpoll⟩ := List.mem_filterMap.1 hpost
  obtain ⟨a, b, rfl⟩ := List.append_of_mem he'
  cases e' <;> simp only [Event.poll?, Option.some.injEq, reduceCtorEq] at hpoll
  subst hpoll
  -- both polls are honest, and the token stays set between them
  have h₁ := hh pre (.throwIfCancelled true) _ rfl true rfl
  have h₂ := hh (pre ++ .throwIfCancelled true :: a) (.throwIfCancelled false) (b ++ e :: post₂)
    (by simp) false rfl
  have := hs pre (.throwIfCancelled true :: a) h₁.symm
  rw [← h₂] at this
  exact absurd this (by decide)

/-- Under a token that stays set, `Process` makes no call into a processor after a poll
    that observed the token set, on every path. -/
theorem process_noCallAfterCancellation (hs : env.CancellationSticky) :
    wp (process env getNormalizedIdentifier) (fun _ p => NoCallAfterCancellation p.log)
      (fun _ p => NoCallAfterCancellation p.log) (ConfigurationSetApplyProcessor.create units) :=
  wp_mono (fun _ _ h => noCallAfterCancellation_of_guarded hs h.guarded h.honest)
    (fun _ _ h => noCallAfterCancellation_of_guarded hs h.guarded h.honest)
    (process_logInv env _ units)

/-- A token that is set once the unit at 0 has been tested, and a test that finds the unit
    not in its desired state. -/
def cancelAfterTestEnv : Collaborators where
  isCancelled l := l.any (· == .testSettings 0)
  createUnitProcessor _ _ := .ok ()
  testSettings _ _ := .ok { testResult := .negative, resultInformation := {} }
  getSettings _ _ := .ok { resultInformation := {} }
  applySettings _ _ := .ok { resultInformation := {}, rebootRequired := false }

theorem cancelAfterTestEnv_cancellationSticky : cancelAfterTestEnv.CancellationSticky :=
  fun l l' h => by simp_all [cancelAfterTestEnv]

theorem process_noCallAfterCancellation_cancelAfterTest :
    cancelAfterTestEnv.CancellationSticky ∧
      wp (process cancelAfterTestEnv id) (fun _ p => NoCallAfterCancellation p.log)
        (fun _ p => NoCallAfterCancellation p.log)
        (ConfigurationSetApplyProcessor.create [⟨"a", .apply, [], true⟩]) :=
  ⟨cancelAfterTestEnv_cancellationSticky,
    process_noCallAfterCancellation cancelAfterTestEnv id _ cancelAfterTestEnv_cancellationSticky⟩

/-- The poll before the unit's apply observes the token set, and the cancellation it raises
    is caught with the unit's other failures: `Process` returns with the set's code
    `SET_APPLY_FAILED` instead of ending with the cancellation. -/
theorem process_swallowsCancellation :
    cancelAfterTestEnv.CancellationSticky ∧
      wp (process cancelAfterTestEnv id)
        (fun _ p => .throwIfCancelled true ∈ p.log ∧ p.resultCode = WingetConfigError.setApplyFailed)
        (fun _ _ => False) (ConfigurationSetApplyProcessor.create [⟨"a", .apply, [], true⟩]) :=
  ⟨cancelAfterTestEnv_cancellationSticky, by decide⟩

/-- Only a cancellation escapes `Process`: the last poll of the log observed the token set,
    and the processing summary logged last carries `ERROR_CANCELLED`. -/
theorem process_throwsOnlyCancellation :
    wp (process env getNormalizedIdentifier) (fun _ _ => True)
      (fun e p => e = .cancelled ∧ lastPoll p.log = some true ∧
        ∃ assert inform apply,
          p.log.getLast? = some (.processingSummary errorCancelled assert inform apply))
      (ConfigurationSetApplyProcessor.create units) := by
  simp only [process, wp_tryCatch, wp_bind]
  refine wp_mono (fun ok _ _ => ?_) (fun _ _ h => h.elim) (@preProcess_spec getNormalizedIdentifier units)
  cases ok
  case false => simp
  case true =>
    -- only the real run can throw, and only what `ProcessUnit` lets escape
    simp only [if_true, wp_bind, wp_sendSetProgress, wp_pure, wp_get, wp_logProcessingSummary,
      wp_logProcessingSummaryForApply, wp_throw]
    refine wp_mono (fun _ _ _ => trivial) (fun e _ ⟨he, hl⟩ => ?_)
      (processInternal_throws _ (processUnit_throws env) _)
    subst he
    exact ⟨rfl, by simpa using hl, by simp [extractUnitResultInformation]⟩

end ConfigurationSetApply
