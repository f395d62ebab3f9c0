-- SUMMARY: The phase scheduler: readiness, the first-ready loop of ProcessIntentInternal, the marking of what is left, and the three phases of ProcessInternal.
import ConfigurationSetApply.Model.ProcessUnit

/-!
# The phase scheduler

`ProcessInternal` runs the three intent phases in order over one candidate list, and
`ProcessIntentInternal` runs one phase: it repeatedly takes the first candidate that is
ready, runs the action on it and erases it, and when no candidate is ready it marks what
is left and decides whether the phase failed. Both are generic in the dependency check
and the action, which `PreProcess` and `Process` instantiate differently.

The `while (hasProcessed)` loop is `processReadyUnits`, recursive in a count of passes.
Every pass but the last erases one candidate, so a count equal to the number of
candidates lets the loop run to the pass that finds nothing ready, as the C++ loop does.
`processReadyUnitsWhile` is the loop without the count, by well-founded recursion on the
number of candidates; the two are the same program for every count at least that number
(`processReadyUnits_eq_while`).
-/

namespace ConfigurationSetApply

open WingetConfigError

/-- `HasIntentAndSatisfiedDependencies`: the unit has the phase's intent and every unit
    it depends on passes `checkDependencyFunction`. -/
def hasIntentAndSatisfiedDependencies (p : ConfigurationSetApplyProcessor) (unitInfo : UnitInfo)
    (intent : ConfigurationUnitIntent) (checkDependencyFunction : UnitInfo → Bool) : Bool :=
  unitInfo.unit.intent == intent &&
    unitInfo.dependencyIndices.all fun d => checkDependencyFunction (p.info d)

section Phase

variable (checkDependencyFunction : UnitInfo → Bool)
  (processUnitFunction : Nat → ProcessorM Bool) (intent : ConfigurationUnitIntent)

/-- The first candidate that is ready in `p`. -/
def firstReady (p : ConfigurationSetApplyProcessor) (unitsToProcess : List Nat) : Option Nat :=
  unitsToProcess.find? fun i =>
    hasIntentAndSatisfiedDependencies p (p.info i) intent checkDependencyFunction

/-- The `while (hasProcessed)` loop of `ProcessIntentInternal`, for at most `fuel`
    passes: the candidates left and whether an action returned `false`. -/
def processReadyUnits :
    Nat → List Nat → Bool → ProcessorM (List Nat × Bool)
  | 0, unitsToProcess, hasFailure => pure (unitsToProcess, hasFailure)
  | fuel + 1, unitsToProcess, hasFailure => do
    match firstReady checkDependencyFunction intent (← get) unitsToProcess with
    | none => pure (unitsToProcess, hasFailure)
    | some i =>
      let ok ← processUnitFunction i
      processReadyUnits fuel (unitsToProcess.erase i) (hasFailure || !ok)

/-- The `while (hasProcessed)` loop as the C++ writes it, with no count of passes: it ends
    at the first pass that finds no candidate ready, and every other pass erases the
    candidate it ran, which is what makes it terminate. -/
def processReadyUnitsWhile (unitsToProcess : List Nat) (hasFailure : Bool) :
    ProcessorM (List Nat × Bool) :=
  get >>= fun p =>
    match _hready : firstReady checkDependencyFunction intent p unitsToProcess with
    | none => pure (unitsToProcess, hasFailure)
    | some i => processUnitFunction i >>= fun ok =>
      processReadyUnitsWhile (unitsToProcess.erase i) (hasFailure || !ok)
termination_by unitsToProcess.length
decreasing_by
  have hi := List.mem_of_find?_eq_some _hready
  rw [List.length_erase_of_mem hi]
  have := List.length_pos_of_mem hi
  omega

/-- The two marking loops after the main loop of `ProcessIntentInternal`: every
    candidate whose intent `selects` gets `resultCode` with source `Precondition`, and a
    `Skipped` event if `sendProgress`; the result says whether any was marked. -/
def markRemaining (selects : ConfigurationUnitIntent → Bool) (resultCode : HResult)
    (sendProgress : Bool) : List Nat → ProcessorM Bool
  | [] => pure false
  | i :: rest => do
    if selects ((← get).info i).unit.intent then
      initializeResult i resultCode .precondition
      if sendProgress then ConfigurationSetApply.sendProgress .skipped i
      let _ ← markRemaining selects resultCode sendProgress rest
      pure true
    else markRemaining selects resultCode sendProgress rest

/-- `ProcessIntentInternal`: one phase over the candidate list, which it returns with
    the phase's outcome. -/
def processIntentInternal (unitsToProcess : List Nat) (errorForOtherIntents errorForFailures : HResult)
    (sendProgress : Bool) : ProcessorM (Bool × List Nat) := do
  let (unitsToProcess, hasFailure) ← processReadyUnits checkDependencyFunction
    processUnitFunction intent unitsToProcess.length unitsToProcess false
  let hasRemainingDependencies ←
    markRemaining (· == intent) dependencyUnsatisfied sendProgress unitsToProcess
  if hasFailure || hasRemainingDependencies then
    let _ ← markRemaining (· != intent) errorForOtherIntents sendProgress unitsToProcess
    if hasFailure then setResultCode errorForFailures
    else setResultCode dependencyUnsatisfied
    pure (false, unitsToProcess)
  else
    pure (true, unitsToProcess)

end Phase

/-- `ProcessInternal`: the Assert, Inform and Apply phases, in this order, over the list
    of all unit indices; it stops at the first phase that fails. -/
def processInternal (checkDependencyFunction : UnitInfo → Bool)
    (processUnitFunction : Nat → ProcessorM Bool) (sendProgress : Bool) : ProcessorM Bool := do
  let unitsToProcess := List.range (← get).size
  let (ok, unitsToProcess) ← processIntentInternal checkDependencyFunction processUnitFunction
    .assert unitsToProcess assertionFailed assertionFailed sendProgress
  if !ok then return false
  let (ok, unitsToProcess) ← processIntentInternal checkDependencyFunction processUnitFunction
    .inform unitsToProcess dependencyUnsatisfied dependencyUnsatisfied sendProgress
  if !ok then return false
  let (ok, _) ← processIntentInternal checkDependencyFunction processUnitFunction
    .apply unitsToProcess eFail setApplyFailed sendProgress
  return ok

end ConfigurationSetApply
