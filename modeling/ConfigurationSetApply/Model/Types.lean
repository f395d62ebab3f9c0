-- SUMMARY: The data the apply processor reads and writes: units, unit info records, result information, the event log and the processor state.
import Mathlib.Data.List.Basic

/-!
# Data model of the configuration set apply processor

The types of `ConfigurationSetApplyProcessor.cpp`, one Lean declaration per C++ type
or field that the processor reads or writes. WinRT objects that the processor shares by
reference (a unit's `ApplyConfigurationUnitResult` and its `ResultInformation`) are
fields of the one `UnitInfo` record that owns them; the unit table `m_unitInfo` is a
list, and a `UnitInfo&` is its index in that list.

Everything the processor does that a caller can observe goes into an append-only log
of `Event`s: progress sent to the caller, polls of the cancellation token, calls into
the set and unit processors. Three ghost entries, which no caller sees, mark where
`MarkPreprocessed` and `ProcessUnit` run; the last two carry the unit table as it
stood, so that a statement about "the state at the moment a unit is executed" can be
read off the log.
-/

namespace ConfigurationSetApply

-- ---------------------------------------------------------------------------
-- Enumerations
-- ---------------------------------------------------------------------------

/-- The phase in which a unit runs, `ConfigurationUnitIntent`. -/
inductive ConfigurationUnitIntent where
  | assert
  | inform
  | apply
  deriving DecidableEq, Repr, Inhabited

/-- The state of a unit result, `ConfigurationUnitState`, restricted to the values the
    processor reads or writes: `Unknown` is the state of a fresh result. -/
inductive ConfigurationUnitState where
  | unknown
  | inProgress
  | completed
  | skipped
  deriving DecidableEq, Repr, Inhabited

/-- The set-level state, `ConfigurationSetState`, restricted to the values `Process` sends. -/
inductive ConfigurationSetState where
  | inProgress
  | completed
  deriving DecidableEq, Repr

/-- Where a result comes from, `ConfigurationUnitResultSource`. A processor-supplied
    result may carry any of them; the apply processor itself writes `Internal`,
    `ConfigurationSet` and `Precondition`. -/
inductive ConfigurationUnitResultSource where
  | none
  | internal
  | configurationSet
  | unitProcessing
  | systemState
  | precondition
  deriving DecidableEq, Repr, Inhabited

/-- The verdict of `TestSettings`, `ConfigurationTestResult`. -/
inductive ConfigurationTestResult where
  | unknown
  | positive
  | negative
  | failed
  deriving DecidableEq, Repr

-- ---------------------------------------------------------------------------
-- Result codes
-- ---------------------------------------------------------------------------

/-- An `HRESULT`, read as the signed 32-bit value that `SUCCEEDED` and `FAILED` test. -/
abbrev HResult := Int

/-- The macro `SUCCEEDED(hr)`. -/
def succeeded (hr : HResult) : Bool := 0 ≤ hr

/-! ### Constants

The `HRESULT` constants of `AppInstallerErrors.h` and of the Windows SDK are not under
src/; they are written here with their published values. The processor relies only on
each being a failure code and on the `WINGET_CONFIG_ERROR_*` codes being pairwise
distinct. -/

/-- Modelled from the spec: the code `E_FAIL`. -/
def eFail : HResult := 0x80004005 - 0x100000000

/-- Modelled from the spec: the code `E_UNEXPECTED`. -/
def eUnexpected : HResult := 0x8000FFFF - 0x100000000

/-- Modelled from the spec: `HRESULT_FROM_WIN32(ERROR_CANCELLED)`, the code of the
    exception that `ThrowIfCancelled` throws. -/
def errorCancelled : HResult := 0x800704C7 - 0x100000000

namespace WingetConfigError

/-- Modelled from the spec: the code `WINGET_CONFIG_ERROR_SET_APPLY_FAILED`. -/
def setApplyFailed : HResult := 0x8A15C005 - 0x100000000
/-- Modelled from the spec: the code `WINGET_CONFIG_ERROR_DUPLICATE_IDENTIFIER`. -/
def duplicateIdentifier : HResult := 0x8A15C006 - 0x100000000
/-- Modelled from the spec: the code `WINGET_CONFIG_ERROR_MISSING_DEPENDENCY`. -/
def missingDependency : HResult := 0x8A15C007 - 0x100000000
/-- Modelled from the spec: the code `WINGET_CONFIG_ERROR_DEPENDENCY_UNSATISFIED`. -/
def dependencyUnsatisfied : HResult := 0x8A15C008 - 0x100000000
/-- Modelled from the spec: the code `WINGET_CONFIG_ERROR_ASSERTION_FAILED`. -/
def assertionFailed : HResult := 0x8A15C009 - 0x100000000
/-- Modelled from the spec: the code `WINGET_CONFIG_ERROR_MANUALLY_SKIPPED`. -/
def manuallySkipped : HResult := 0x8A15C00A - 0x100000000
/-- Modelled from the spec: the code `WINGET_CONFIG_ERROR_SET_DEPENDENCY_CYCLE`. -/
def setDependencyCycle : HResult := 0x8A15C00C - 0x100000000

end WingetConfigError

-- ---------------------------------------------------------------------------
-- Records
-- ---------------------------------------------------------------------------

/-- The outcome of a unit, `ConfigurationUnitResultInformation`: its code, its details
    and its source. A fresh record carries `S_OK`. -/
structure ConfigurationUnitResultInformation where
  resultCode : HResult := 0
  details : String := ""
  resultSource : ConfigurationUnitResultSource := .none
  deriving DecidableEq, Repr, Inhabited

/-- Modelled from the spec: `Initialize(resultCode, resultSource)`, whose body is not
    under src/, sets the code and the source and keeps the details. -/
def ConfigurationUnitResultInformation.initializeWith (info : ConfigurationUnitResultInformation)
    (resultCode : HResult) (resultSource : ConfigurationUnitResultSource) :
    ConfigurationUnitResultInformation :=
  { info with resultCode, resultSource }

@[simp] theorem ConfigurationUnitResultInformation.initializeWith_initializeWith
    (info : ConfigurationUnitResultInformation) (c : HResult) (s : ConfigurationUnitResultSource) :
    (info.initializeWith c s).initializeWith c s = info.initializeWith c s := rfl

/-- A configuration unit, through the four attributes the processor reads. -/
structure ConfigurationUnit where
  identifier : String
  intent : ConfigurationUnitIntent
  dependencies : List String
  shouldApply : Bool
  deriving DecidableEq, Repr, Inhabited

/-- The per-unit result `ApplyConfigurationUnitResult`, without its result
    information, which is the `ResultInformation` field of the owning `UnitInfo`. -/
structure ApplyConfigurationUnitResult where
  state : ConfigurationUnitState := .unknown
  previouslyInDesiredState : Bool := false
  rebootRequired : Bool := false
  deriving DecidableEq, Repr, Inhabited

/-- The processor's record of one unit, `ConfigurationSetApplyProcessor::UnitInfo`. -/
structure UnitInfo where
  unit : ConfigurationUnit
  result : ApplyConfigurationUnitResult := {}
  resultInformation : ConfigurationUnitResultInformation := {}
  dependencyIndices : List Nat := []
  preProcessed : Bool := false
  processed : Bool := false
  deriving DecidableEq, Repr, Inhabited

/-- The answer of `TestSettings`. -/
structure TestSettingsResult where
  testResult : ConfigurationTestResult
  resultInformation : ConfigurationUnitResultInformation
  deriving DecidableEq, Repr

/-- The answer of `GetSettings`, through its result information. -/
structure GetSettingsResult where
  resultInformation : ConfigurationUnitResultInformation
  deriving DecidableEq, Repr

/-- The answer of `ApplySettings`. -/
structure ApplySettingsResult where
  resultInformation : ConfigurationUnitResultInformation
  rebootRequired : Bool
  deriving DecidableEq, Repr

/-- The per-intent counts of `TelemetryTraceLogger::ProcessingSummaryForIntent`. -/
structure ProcessingSummaryForIntent where
  intent : ConfigurationUnitIntent
  count : Nat
  run : Nat
  failed : Nat
  deriving DecidableEq, Repr

/-- An exception the processor can see: the cancellation thrown by `ThrowIfCancelled`,
    or any other exception, given by the result information it is classified as. -/
inductive Exception where
  | cancelled
  | error (info : ConfigurationUnitResultInformation)
  deriving DecidableEq, Repr

/-- Modelled from the spec: `ExtractUnitResultInformation`, which is not under src/,
    classifies an exception as a result information; a cancellation keeps its code. -/
def extractUnitResultInformation : Exception → ConfigurationUnitResultInformation
  | .cancelled => { resultCode := errorCancelled, resultSource := .internal }
  | .error info => info

end ConfigurationSetApply
