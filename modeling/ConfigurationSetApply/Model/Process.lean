-- SUMMARY: Process, the entry point: validation, the real run, the set-level events and the telemetry summary, with the processing summary per intent.
import ConfigurationSetApply.Model.PreProcess

/-!
# The entry point

`Process` validates the set, runs it if the validation passed, sends the set-level
`Completed` event and logs a processing summary. An exception that escapes (only a
cancellation can) is logged with a summary and rethrown.

`applySet` is what a caller sees: a processor constructed from the units, then
`Process` on it.
-/

namespace ConfigurationSetApply

/-- `GetProcessingSummaryFor`: how many units have `intent`, how many of them ran, and
    how many of those failed. -/
def getProcessingSummaryFor (p : ConfigurationSetApplyProcessor)
    (intent : ConfigurationUnitIntent) : ProcessingSummaryForIntent :=
  p.unitInfo.foldl
    (fun result u =>
      if u.unit.intent == intent then
        { result with
          count := result.count + 1
          run := if u.processed then result.run + 1 else result.run
          failed := if u.processed && !succeeded u.resultInformation.resultCode
            then result.failed + 1 else result.failed }
      else result)
    { intent, count := 0, run := 0, failed := 0 }

/-- `LogConfigProcessingSummary` as the `catch` calls it: the code of the caught exception
    and `GetProcessingSummaryFor` of the three intents over the unit table. -/
def logProcessingSummary (resultCode : HResult) : ProcessorM Unit := do
  let p ← get
  logEvent (.processingSummary resultCode (getProcessingSummaryFor p .assert)
    (getProcessingSummaryFor p .inform) (getProcessingSummaryFor p .apply))

/-- Modelled from the spec: on a normal return the code calls
    `LogConfigProcessingSummaryForApply(set, result)`, which is implemented outside this
    repository; the spec (4.8) describes it as a summary of all three intents with the set's
    `ResultCode`, the same record the `catch` logs. -/
def logProcessingSummaryForApply : ProcessorM Unit := do
  logProcessingSummary (← get).resultCode

variable (env : Collaborators) (getNormalizedIdentifier : String → String)

/-- `Process`. -/
def process : ProcessorM Unit :=
  tryCatch
    (do
      if ← preProcess getNormalizedIdentifier then
        sendSetProgress .inProgress
        let _ ← processInternal hasProcessedSuccessfully (processUnit env) true
      sendSetProgress .completed
      logProcessingSummaryForApply)
    fun e => do
      logProcessingSummary (extractUnitResultInformation e).resultCode
      throw e

/-- A processor constructed from `units`, then `Process` on it. -/
def applySet (units : List ConfigurationUnit) :
    EStateM.Result Exception ConfigurationSetApplyProcessor Unit :=
  process env getNormalizedIdentifier (ConfigurationSetApplyProcessor.create units)

end ConfigurationSetApply
