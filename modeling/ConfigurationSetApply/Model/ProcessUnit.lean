-- SUMMARY: ProcessUnit and the two dependency checks and per-unit actions the scheduler is instantiated with.
import ConfigurationSetApply.Model.Primitives

/-!
# Running one unit

`ProcessUnit` drives one unit through Test, Get or Test-then-Apply against its unit
processor, and `MarkPreprocessed` is the action of the dry run. The body of
`ProcessUnit` is split where the C++ has its scopes: `applyIntent` is the `switch`
inside the second `try`, `runUnitProcessor` is everything after the `InProgress`
event, and `withCompletedProgress` is the `wil::scope_exit` that sends `Completed` on
every way out.

The `switch` has a `default` branch for an intent outside the three; the type of
intents has no such value, so the branch has no counterpart here.
-/

namespace ConfigurationSetApply

open WingetConfigError

/-- `HasPreprocessed`: the dependency check of the dry run. -/
def hasPreprocessed (unitInfo : UnitInfo) : Bool := unitInfo.preProcessed

/-- `HasProcessedSuccessfully`: the dependency check of the real run. -/
def hasProcessedSuccessfully (unitInfo : UnitInfo) : Bool :=
  unitInfo.processed && succeeded unitInfo.resultInformation.resultCode

/-- `MarkPreprocessed`: the action of the dry run, which always succeeds. -/
def markPreprocessed (i : Nat) : ProcessorM Bool := do
  logEvent (.markPreprocessed i)
  modifyUnitInfo i fun u => { u with preProcessed := true }
  pure true

variable (env : Collaborators)

/-- The `switch (unitInfo.Unit.Intent())` of `ProcessUnit`: the calls for the unit's
    intent and how their answers become its result. -/
def applyIntent (i : Nat) : ProcessorM Bool := do
  match ((← get).info i).unit.intent with
  | .assert =>
    let settingsResult ← testSettings env i
    match settingsResult.testResult with
    | .positive => pure true
    | .negative => initializeResult i assertionFailed .precondition; pure false
    | .failed => adoptResult i settingsResult.resultInformation; pure false
    | .unknown => initializeResult i eUnexpected .internal; pure false
  | .inform =>
    let settingsResult ← getSettings env i
    if succeeded settingsResult.resultInformation.resultCode then pure true
    else adoptResult i settingsResult.resultInformation; pure false
  | .apply =>
    let testSettingsResult ← testSettings env i
    match testSettingsResult.testResult with
    | .positive =>
      modifyUnitInfo i fun u => { u with result.previouslyInDesiredState := true }
      pure true
    | .negative =>
      throwIfCancelled env
      let applySettingsResult ← applySettings env i
      if succeeded applySettingsResult.resultInformation.resultCode then
        modifyUnitInfo i fun u =>
          { u with result.rebootRequired := applySettingsResult.rebootRequired }
        pure true
      else adoptResult i applySettingsResult.resultInformation; pure false
    | .failed => adoptResult i testSettingsResult.resultInformation; pure false
    | .unknown => initializeResult i eUnexpected .internal; pure false

/-- `ProcessUnit` after the `InProgress` event: create the unit processor, poll, and
    run `applyIntent`, turning any exception of the collaborators into the unit's
    result. -/
def runUnitProcessor (i : Nat) : ProcessorM Bool := do
  let created ← tryCatch (do createUnitProcessor env i; pure true)
    fun e => do extractResult i e; pure false
  if !created then return false
  throwIfCancelled env
  tryCatch (applyIntent env i) fun e => do extractResult i e; pure false

/-- The `wil::scope_exit` of `ProcessUnit`: `Completed` is sent however `body` ends. -/
def withCompletedProgress (i : Nat) (body : ProcessorM Bool) : ProcessorM Bool := do
  let result ← tryCatch body fun e => do sendProgress .completed i; throw e
  sendProgress .completed i
  pure result

/-- Returns `result` from `ProcessUnit`, recording it in the log (ghost). -/
def returnResult (i : Nat) (result : Bool) : ProcessorM Bool := do
  logEvent (.processUnitResult i result (← get).unitInfo)
  pure result

/-- `ProcessUnit`: the action of the real run. -/
def processUnit (i : Nat) : ProcessorM Bool := do
  logEvent (.processUnit i (← get).unitInfo)
  throwIfCancelled env
  modifyUnitInfo i fun u => { u with processed := true }
  if !((← get).info i).unit.shouldApply then
    initializeResult i manuallySkipped .precondition
    sendProgress .skipped i
    returnResult i true
  else
    sendProgress .inProgress i
    let result ← withCompletedProgress i (runUnitProcessor env i)
    returnResult i result

end ConfigurationSetApply
