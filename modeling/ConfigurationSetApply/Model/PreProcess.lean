-- SUMMARY: PreProcess: the identifier index with duplicate detection, dependency resolution, and the dry run that detects cycles.
import ConfigurationSetApply.Model.Scheduler

/-!
# Validation before the run

`PreProcess` validates the set in three stages and stops at the first that fails:
every non-empty identifier goes into the index (`AddUnitToMap`), duplicates marking
both units; every non-empty dependency string is resolved to an index, the first
unresolvable one marking its unit; and the scheduler runs once with the dependency
check `HasPreprocessed` and the action `MarkPreprocessed`, without progress, to find
units that can never become ready.

`GetNormalizedIdentifier` is `FoldCase(NormalizedString(identifier))`, whose two
functions live outside src/; it is a parameter of everything here.
-/

namespace ConfigurationSetApply

open WingetConfigError

variable (getNormalizedIdentifier : String → String)

/-- `AddUnitToMap`: indexes the unit at `i` under its normalized identifier; on a
    collision marks both units as duplicates and returns `false`. -/
def addUnitToMap (i : Nat) : ProcessorM Bool := do
  let p ← get
  let originalIdentifier := (p.info i).unit.identifier
  if originalIdentifier.isEmpty then return true
  let identifier := getNormalizedIdentifier originalIdentifier
  match p.idToUnitInfoIndex.lookup identifier with
  | some j =>
    initializeResult j duplicateIdentifier .configurationSet
    sendProgressIfNotComplete .completed j
    initializeResult i duplicateIdentifier .configurationSet
    sendProgress .completed i
    pure false
  | none =>
    modify (·.addToIndex identifier i)
    pure true

/-- The first loop of `PreProcess`: `AddUnitToMap` on each unit in order; `false` if
    any of them failed. -/
def addUnitsToMap : List Nat → ProcessorM Bool
  | [] => pure true
  | i :: rest => do
    let added ← addUnitToMap getNormalizedIdentifier i
    let result ← addUnitsToMap rest
    pure (added && result)

/-- The loop over the dependencies of the unit at `i`: skips empty strings, appends the
    index of each one found, and stops at the first that names no unit, marking the
    unit as missing a dependency. -/
def resolveDependencies (i : Nat) : List String → ProcessorM Bool
  | [] => pure true
  | dependencyHstring :: rest => do
    if dependencyHstring.isEmpty then resolveDependencies i rest
    else
      let dependency := getNormalizedIdentifier dependencyHstring
      match (← get).idToUnitInfoIndex.lookup dependency with
      | none =>
        initializeResult i missingDependency .configurationSet
        modifyUnitInfo i fun u => { u with resultInformation.details := dependencyHstring }
        sendProgress .completed i
        pure false
      | some j =>
        modifyUnitInfo i fun u => { u with dependencyIndices := u.dependencyIndices ++ [j] }
        resolveDependencies i rest

/-- The second loop of `PreProcess`: the dependencies of each unit in order; `false`
    if any unit has one that names no unit. -/
def resolveAllDependencies : List Nat → ProcessorM Bool
  | [] => pure true
  | i :: rest => do
    let resolved ← resolveDependencies getNormalizedIdentifier i ((← get).info i).unit.dependencies
    let result ← resolveAllDependencies rest
    pure (resolved && result)

/-- `PreProcess`. The call of `ProcessInternal` for the dry run passes no progress
    argument; its value `false` is the default of that parameter in the class's header,
    which is not among the sources, and is the value the specification gives the dry run
    ("with progress suppressed", section 4.4). -/
def preProcess : ProcessorM Bool := do
  let units := List.range (← get).size
  if !(← addUnitsToMap getNormalizedIdentifier units) then
    setResultCode duplicateIdentifier
    return false
  if !(← resolveAllDependencies getNormalizedIdentifier units) then
    setResultCode missingDependency
    return false
  if !(← processInternal hasPreprocessed markPreprocessed false) then
    setResultCode setDependencyCycle
    return false
  return true

end ConfigurationSetApply
