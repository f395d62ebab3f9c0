-- SUMMARY: The small member functions of the processor (progress, result writes, cancellation polls, collaborator calls) and their weakest-precondition rules.
import ConfigurationSetApply.Model.Wp

/-!
# Primitive operations

The member functions every larger one is built from: sending progress, writing a
unit's result information, polling the cancellation token, and calling a
collaborator. Each comes with a `wp` rule that says in one line what it does to the
state, so that the proofs about `ProcessUnit` and the scheduler never unfold them.
-/

namespace ConfigurationSetApply

open WingetConfigError

/-- Appends `e` to the log. -/
def logEvent (e : Event) : ProcessorM Unit := modify (·.emit e)

/-- `SendProgress(ConfigurationSetState)`. -/
def sendSetProgress (state : ConfigurationSetState) : ProcessorM Unit :=
  logEvent (.setProgress state)

/-- `SendProgress(ConfigurationUnitState, unitInfo)`: stores the state in the unit's
    result, then sends the event; whatever the sink throws is logged and swallowed. -/
def sendProgress (state : ConfigurationUnitState) (i : Nat) : ProcessorM Unit :=
  modify (·.progress state i)

/-- `SendProgressIfNotComplete`: sends unless the unit's result is already
    `Completed`. -/
def sendProgressIfNotComplete (state : ConfigurationUnitState) (i : Nat) :
    ProcessorM Unit := do
  if ((← get).info i).result.state != .completed then sendProgress state i

/-- `unitInfo.ResultInformation->Initialize(resultCode, resultSource)`. -/
def initializeResult (i : Nat) (resultCode : HResult)
    (resultSource : ConfigurationUnitResultSource) : ProcessorM Unit :=
  modify (·.modifyUnit i fun u =>
    { u with resultInformation := u.resultInformation.initializeWith resultCode resultSource })

/-- `unitInfo.ResultInformation->Initialize(other)`: adopts `other` whole. -/
def adoptResult (i : Nat) (other : ConfigurationUnitResultInformation) : ProcessorM Unit :=
  modify (·.modifyUnit i fun u => { u with resultInformation := other })

/-- `ExtractUnitResultInformation(exception, unitInfo.ResultInformation)`. -/
def extractResult (i : Nat) (e : Exception) : ProcessorM Unit :=
  adoptResult i (extractUnitResultInformation e)

/-- `m_result->ResultCode(resultCode)`. -/
def setResultCode (resultCode : HResult) : ProcessorM Unit :=
  modify (·.withResultCode resultCode)

/-- Changes the unit at `i` by `f`; the writes to `Processed`, `PreProcessed`,
    `DependencyIndices` and the result flags. -/
def modifyUnitInfo (i : Nat) (f : UnitInfo → UnitInfo) : ProcessorM Unit :=
  modify (·.modifyUnit i f)

variable (env : Collaborators)

/-- `m_progress.ThrowIfCancelled()`: polls the token and throws if it is set. -/
def throwIfCancelled : ProcessorM Unit := do
  let cancelled := env.isCancelled (← get).log
  logEvent (.throwIfCancelled cancelled)
  if cancelled then throw .cancelled

/-- A call into a collaborator: logged, then answered from the log. -/
def callCollaborator {α : Type} (call : Event) (answer : List Event → Except Exception α) :
    ProcessorM α := do
  logEvent call
  match answer (← get).log with
  | .ok a => pure a
  | .error e => throw e

/-- `m_setProcessor.CreateUnitProcessor(unitInfo.Unit, {})`. -/
def createUnitProcessor (i : Nat) : ProcessorM Unit :=
  callCollaborator (.createUnitProcessor i) (env.createUnitProcessor i)

/-- `unitProcessor.TestSettings()`. -/
def testSettings (i : Nat) : ProcessorM TestSettingsResult :=
  callCollaborator (.testSettings i) (env.testSettings i)

/-- `unitProcessor.GetSettings()`. -/
def getSettings (i : Nat) : ProcessorM GetSettingsResult :=
  callCollaborator (.getSettings i) (env.getSettings i)

/-- `unitProcessor.ApplySettings()`. -/
def applySettings (i : Nat) : ProcessorM ApplySettingsResult :=
  callCollaborator (.applySettings i) (env.applySettings i)

/-! ## Laws -/

variable {α : Type} {Q : α → ConfigurationSetApplyProcessor → Prop}
  {Q' : Unit → ConfigurationSetApplyProcessor → Prop}
  {E : Exception → ConfigurationSetApplyProcessor → Prop}

@[simp] theorem wp_logEvent (e : Event) : wp (logEvent e) Q' E = fun p => Q' () (p.emit e) := rfl

@[simp] theorem wp_sendSetProgress (state : ConfigurationSetState) :
    wp (sendSetProgress state) Q' E = fun p => Q' () (p.emit (.setProgress state)) := rfl

@[simp] theorem wp_sendProgress (state : ConfigurationUnitState) (i : Nat) :
    wp (sendProgress state i) Q' E = fun p => Q' () (p.progress state i) := rfl

@[simp] theorem wp_sendProgressIfNotComplete (state : ConfigurationUnitState) (i : Nat) :
    wp (sendProgressIfNotComplete state i) Q' E = fun p =>
      Q' () (if (p.info i).result.state != .completed then p.progress state i else p) := by
  funext p
  by_cases h : (p.info i).result.state = .completed <;> simp [sendProgressIfNotComplete, h]

@[simp] theorem wp_initializeResult (i : Nat) (resultCode : HResult)
    (resultSource : ConfigurationUnitResultSource) :
    wp (initializeResult i resultCode resultSource) Q' E = fun p =>
      Q' () (p.modifyUnit i fun u =>
        { u with resultInformation := u.resultInformation.initializeWith resultCode resultSource }) :=
  rfl

@[simp] theorem wp_adoptResult (i : Nat) (other : ConfigurationUnitResultInformation) :
    wp (adoptResult i other) Q' E = fun p =>
      Q' () (p.modifyUnit i fun u => { u with resultInformation := other }) := rfl

@[simp] theorem wp_extractResult (i : Nat) (e : Exception) :
    wp (extractResult i e) Q' E = fun p =>
      Q' () (p.modifyUnit i fun u =>
        { u with resultInformation := extractUnitResultInformation e }) := rfl

@[simp] theorem wp_setResultCode (resultCode : HResult) :
    wp (setResultCode resultCode) Q' E = fun p => Q' () (p.withResultCode resultCode) := rfl

@[simp] theorem wp_modifyUnitInfo (i : Nat) (f : UnitInfo → UnitInfo) :
    wp (modifyUnitInfo i f) Q' E = fun p => Q' () (p.modifyUnit i f) := rfl

@[simp] theorem wp_throwIfCancelled :
    wp (throwIfCancelled env) Q' E = fun p =>
      if env.isCancelled p.log then E .cancelled (p.emit (.throwIfCancelled true))
      else Q' () (p.emit (.throwIfCancelled false)) := by
  funext p
  cases h : env.isCancelled p.log <;> simp [throwIfCancelled, h]

@[simp] theorem wp_callCollaborator (call : Event) (answer : List Event → Except Exception α) :
    wp (callCollaborator call answer) Q E = fun p =>
      match answer (p.log ++ [call]) with
      | .ok a => Q a (p.emit call)
      | .error e => E e (p.emit call) := by
  funext p
  simp only [callCollaborator, wp_bind, wp_logEvent, wp_get,
    ConfigurationSetApplyProcessor.emit_log]
  cases answer (p.log ++ [call]) <;> rfl

/-! ## Frames -/

variable {R : ConfigurationSetApplyProcessor → ConfigurationSetApplyProcessor → Prop}

/-- A poll moves the state along `R` when appending any poll does. -/
theorem keeps_throwIfCancelled (h : ∀ p b, R p (p.emit (.throwIfCancelled b))) :
    Keeps R (throwIfCancelled env) := fun p => by
  simp only [wp_throwIfCancelled]
  split <;> exact h p _

/-- A call moves the state along `R` when appending the call does, whatever it answers. -/
theorem keeps_callCollaborator {call : Event} {answer : List Event → Except Exception α}
    (h : ∀ p, R p (p.emit call)) : Keeps R (callCollaborator call answer) := fun p => by
  simp only [wp_callCollaborator]
  split <;> exact h p

end ConfigurationSetApply
