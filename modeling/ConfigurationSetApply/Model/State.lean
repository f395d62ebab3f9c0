-- SUMMARY: The event log, the processor state with its update operations, the external collaborators, and the processor monad.
import ConfigurationSetApply.Model.Types

/-!
# Processor state

The state of one `ConfigurationSetApplyProcessor` object while `Process` runs, the
collaborators it calls out to, and the monad its member functions live in.

The collaborators (`m_setProcessor`, the unit processors it creates, and the
cancellation token behind `m_progress`) are not code of this component. They are
modelled as functions of the log: whatever a collaborator answers may depend on
anything that happened before, which covers every behaviour a real collaborator can
have. The progress sink is not a collaborator here: `SendProgress` swallows whatever
the sink throws (`CATCH_LOG`), so what it does cannot change the run; a sent event is
an entry of the log.
-/

namespace ConfigurationSetApply

/-- An entry of the processor's log. -/
inductive Event where
  /-- `SendProgress(ConfigurationSetState)`. -/
  | setProgress (state : ConfigurationSetState)
  /-- `SendProgress(ConfigurationUnitState, unitInfo)` for the unit at `index`. -/
  | unitProgress (index : Nat) (state : ConfigurationUnitState)
  /-- A poll of the cancellation token, with what it observed. -/
  | throwIfCancelled (cancelled : Bool)
  /-- `CreateUnitProcessor` for the unit at `index`. -/
  | createUnitProcessor (index : Nat)
  /-- `TestSettings` on the unit processor of the unit at `index`. -/
  | testSettings (index : Nat)
  /-- `GetSettings` on the unit processor of the unit at `index`. -/
  | getSettings (index : Nat)
  /-- `ApplySettings` on the unit processor of the unit at `index`. -/
  | applySettings (index : Nat)
  /-- The processing summary `Process` logs to telemetry: the code it reports and the
      Assert, Inform and Apply counts. -/
  | processingSummary (resultCode : HResult) (assert inform apply : ProcessingSummaryForIntent)
  /-- Ghost: `MarkPreprocessed` ran on the unit at `index`. -/
  | markPreprocessed (index : Nat)
  /-- Ghost: `ProcessUnit` was entered for the unit at `index`; the table as it stood. -/
  | processUnit (index : Nat) (unitInfo : List UnitInfo)
  /-- Ghost: `ProcessUnit` returned `result` for the unit at `index`; the table then. -/
  | processUnitResult (index : Nat) (result : Bool) (unitInfo : List UnitInfo)
  deriving DecidableEq, Repr

/-- The fields of a `ConfigurationSetApplyProcessor` that its member functions use:
    `m_unitInfo`, `m_idToUnitInfoIndex`, the `ResultCode` of `m_result`, and the log. -/
structure ConfigurationSetApplyProcessor where
  unitInfo : List UnitInfo
  idToUnitInfoIndex : List (String × Nat) := []
  resultCode : HResult := 0
  log : List Event := []
  deriving Repr

/-- The collaborators, each answering from the log as it stands when it is called. -/
structure Collaborators where
  /-- What `ThrowIfCancelled` observes. -/
  isCancelled : List Event → Bool
  createUnitProcessor : Nat → List Event → Except Exception Unit
  testSettings : Nat → List Event → Except Exception TestSettingsResult
  getSettings : Nat → List Event → Except Exception GetSettingsResult
  applySettings : Nat → List Event → Except Exception ApplySettingsResult

/-- The cancellation token stays set once set: a poll that observed it observes it
    again after anything more has happened. -/
def Collaborators.CancellationSticky (env : Collaborators) : Prop :=
  ∀ l l', env.isCancelled l = true → env.isCancelled (l ++ l') = true

/-- The member functions of the processor: they read and write its state and may
    throw; a throw keeps the state reached so far. -/
abbrev ProcessorM := EStateM Exception ConfigurationSetApplyProcessor

/-- The unit at `j` of the input set; the default unit past its end. -/
def unitAt (units : List ConfigurationUnit) (j : Nat) : ConfigurationUnit := units.getD j default

namespace ConfigurationSetApplyProcessor

variable (p : ConfigurationSetApplyProcessor)

/-- The processor of a freshly constructed object: one `UnitInfo` per unit, in order. -/
def create (units : List ConfigurationUnit) : ConfigurationSetApplyProcessor :=
  { unitInfo := units.map fun unit => { unit } }

/-- The unit at `i`, read as `m_unitInfo[i]`. -/
def info (i : Nat) : UnitInfo := p.unitInfo.getD i default

/-- The log with `e` appended. -/
def emit (e : Event) : ConfigurationSetApplyProcessor := { p with log := p.log ++ [e] }

/-- The unit table with the unit at `i` changed by `f`. -/
def modifyUnit (i : Nat) (f : UnitInfo → UnitInfo) : ConfigurationSetApplyProcessor :=
  { p with unitInfo := p.unitInfo.modify f i }

/-- The state with the set's result code replaced, `m_result->ResultCode(resultCode)`. -/
def withResultCode (resultCode : HResult) : ConfigurationSetApplyProcessor := { p with resultCode }

/-- The state with `identifier` indexed to the unit at `i`,
    `m_idToUnitInfoIndex.emplace(identifier, i)`. -/
def addToIndex (identifier : String) (i : Nat) : ConfigurationSetApplyProcessor :=
  { p with idToUnitInfoIndex := (identifier, i) :: p.idToUnitInfoIndex }

/-- The number of units, `m_unitInfo.size()`. -/
def size : Nat := p.unitInfo.length

/-- The state after `SendProgress(state, unitInfo)` for the unit at `i`: the state is
    stored in the unit's result and the event is logged. -/
def progress (state : ConfigurationUnitState) (i : Nat) : ConfigurationSetApplyProcessor :=
  (p.modifyUnit i fun u => { u with result.state := state }).emit (.unitProgress i state)

@[simp] theorem unitInfo_getD (i : Nat) : p.unitInfo.getD i default = p.info i := rfl

/-- Past the end of the table a unit record is the default one. -/
theorem info_of_size_le {j : Nat} (h : p.size ≤ j) : p.info j = default := by
  simp only [info, List.getD_eq_getElem?_getD, List.getElem?_eq_none h, Option.getD_none]

@[simp] theorem create_info (units : List ConfigurationUnit) (j : Nat) :
    (create units).info j = { unit := unitAt units j } := by
  simp only [create, info, unitAt, List.getD_eq_getElem?_getD, List.getElem?_map]
  cases units[j]? <;> rfl

@[simp] theorem create_size (units : List ConfigurationUnit) : (create units).size = units.length := by
  simp [create, size]

@[simp] theorem create_log (units : List ConfigurationUnit) : (create units).log = [] := rfl
@[simp] theorem create_resultCode (units : List ConfigurationUnit) : (create units).resultCode = 0 :=
  rfl
@[simp] theorem create_idToUnitInfoIndex (units : List ConfigurationUnit) :
    (create units).idToUnitInfoIndex = [] := rfl

@[simp] theorem emit_unitInfo (e : Event) : (p.emit e).unitInfo = p.unitInfo := rfl
@[simp] theorem emit_log (e : Event) : (p.emit e).log = p.log ++ [e] := rfl
@[simp] theorem emit_resultCode (e : Event) : (p.emit e).resultCode = p.resultCode := rfl
@[simp] theorem emit_idToUnitInfoIndex (e : Event) :
    (p.emit e).idToUnitInfoIndex = p.idToUnitInfoIndex := rfl
@[simp] theorem emit_info (e : Event) (j : Nat) : (p.emit e).info j = p.info j := rfl
@[simp] theorem emit_size (e : Event) : (p.emit e).size = p.size := rfl

@[simp] theorem withResultCode_log (c : HResult) : (p.withResultCode c).log = p.log := rfl
@[simp] theorem withResultCode_resultCode (c : HResult) : (p.withResultCode c).resultCode = c := rfl
@[simp] theorem withResultCode_idToUnitInfoIndex (c : HResult) :
    (p.withResultCode c).idToUnitInfoIndex = p.idToUnitInfoIndex := rfl
@[simp] theorem withResultCode_info (c : HResult) (j : Nat) :
    (p.withResultCode c).info j = p.info j := rfl
@[simp] theorem withResultCode_size (c : HResult) : (p.withResultCode c).size = p.size := rfl

@[simp] theorem addToIndex_log (identifier : String) (i : Nat) :
    (p.addToIndex identifier i).log = p.log := rfl
@[simp] theorem addToIndex_resultCode (identifier : String) (i : Nat) :
    (p.addToIndex identifier i).resultCode = p.resultCode := rfl
@[simp] theorem addToIndex_idToUnitInfoIndex (identifier : String) (i : Nat) :
    (p.addToIndex identifier i).idToUnitInfoIndex = (identifier, i) :: p.idToUnitInfoIndex := rfl
@[simp] theorem addToIndex_info (identifier : String) (i j : Nat) :
    (p.addToIndex identifier i).info j = p.info j := rfl
@[simp] theorem addToIndex_size (identifier : String) (i : Nat) :
    (p.addToIndex identifier i).size = p.size := rfl

@[simp] theorem modifyUnit_log (i : Nat) (f : UnitInfo → UnitInfo) :
    (p.modifyUnit i f).log = p.log := rfl
@[simp] theorem modifyUnit_resultCode (i : Nat) (f : UnitInfo → UnitInfo) :
    (p.modifyUnit i f).resultCode = p.resultCode := rfl
@[simp] theorem modifyUnit_idToUnitInfoIndex (i : Nat) (f : UnitInfo → UnitInfo) :
    (p.modifyUnit i f).idToUnitInfoIndex = p.idToUnitInfoIndex := rfl
@[simp] theorem modifyUnit_size (i : Nat) (f : UnitInfo → UnitInfo) :
    (p.modifyUnit i f).size = p.size := by
  simp [modifyUnit, size]

theorem modifyUnit_info (i : Nat) (f : UnitInfo → UnitInfo) (j : Nat) :
    (p.modifyUnit i f).info j = if i = j ∧ j < p.size then f (p.info j) else p.info j := by
  simp only [modifyUnit, info, size, List.getD_eq_getElem?_getD, List.getElem?_modify]
  by_cases hj : j < p.unitInfo.length
  · simp [List.getElem?_eq_getElem hj, hj]
  · simp [List.getElem?_eq_none (Nat.le_of_not_lt hj), hj]

@[simp] theorem modifyUnit_info_self {i : Nat} (hi : i < p.size) (f : UnitInfo → UnitInfo) :
    (p.modifyUnit i f).info i = f (p.info i) := by
  simp [modifyUnit_info, hi]

@[simp] theorem modifyUnit_info_ne {i j : Nat} (h : i ≠ j) (f : UnitInfo → UnitInfo) :
    (p.modifyUnit i f).info j = p.info j := by
  simp [modifyUnit_info, h]

@[simp] theorem modifyUnit_info_unit {f : UnitInfo → UnitInfo} (hf : ∀ u, (f u).unit = u.unit)
    (i j : Nat) : ((p.modifyUnit i f).info j).unit = (p.info j).unit := by
  rw [modifyUnit_info]; split <;> simp [hf]

@[simp] theorem modifyUnit_info_result {f : UnitInfo → UnitInfo} (hf : ∀ u, (f u).result = u.result)
    (i j : Nat) : ((p.modifyUnit i f).info j).result = (p.info j).result := by
  rw [modifyUnit_info]; split <;> simp [hf]

@[simp] theorem modifyUnit_info_dependencyIndices {f : UnitInfo → UnitInfo}
    (hf : ∀ u, (f u).dependencyIndices = u.dependencyIndices) (i j : Nat) :
    ((p.modifyUnit i f).info j).dependencyIndices = (p.info j).dependencyIndices := by
  rw [modifyUnit_info]; split <;> simp [hf]

@[simp] theorem progress_log (state : ConfigurationUnitState) (i : Nat) :
    (p.progress state i).log = p.log ++ [.unitProgress i state] := rfl
@[simp] theorem progress_resultCode (state : ConfigurationUnitState) (i : Nat) :
    (p.progress state i).resultCode = p.resultCode := rfl
@[simp] theorem progress_idToUnitInfoIndex (state : ConfigurationUnitState) (i : Nat) :
    (p.progress state i).idToUnitInfoIndex = p.idToUnitInfoIndex := rfl
@[simp] theorem progress_size (state : ConfigurationUnitState) (i : Nat) :
    (p.progress state i).size = p.size := by
  simp [progress]

@[simp] theorem progress_info_self {i : Nat} (hi : i < p.size) (state : ConfigurationUnitState) :
    (p.progress state i).info i = { p.info i with result.state := state } := by
  simp [progress, hi]

@[simp] theorem progress_info_ne {i j : Nat} (h : i ≠ j) (state : ConfigurationUnitState) :
    (p.progress state i).info j = p.info j := by
  simp [progress, h]

@[simp] theorem progress_info_resultInformation (state : ConfigurationUnitState) (i j : Nat) :
    ((p.progress state i).info j).resultInformation = (p.info j).resultInformation := by
  simp only [progress, emit_info, modifyUnit_info]; split <;> rfl

@[simp] theorem progress_info_unit (state : ConfigurationUnitState) (i j : Nat) :
    ((p.progress state i).info j).unit = (p.info j).unit := by
  simp [progress]

@[simp] theorem progress_info_dependencyIndices (state : ConfigurationUnitState) (i j : Nat) :
    ((p.progress state i).info j).dependencyIndices = (p.info j).dependencyIndices := by
  simp [progress]

end ConfigurationSetApplyProcessor

end ConfigurationSetApply
