-- SUMMARY: GetNormalizedIdentifier matters only through which of the set's identifiers and dependency strings it identifies: two normalizations that identify the same pairs give the same run, up to the index.
import ConfigurationSetApply.Laws.Simulation
import ConfigurationSetApply.Properties.Order

/-!
# What the normalization decides

`PreProcess` compares identifiers only after `GetNormalizedIdentifier`, and only through
the index `m_idToUnitInfoIndex`: `AddUnitToMap` looks the normalized identifier up and
adds it, and the dependency loop looks each normalized dependency up. A run observes
nothing of the normalized strings but which of them are equal. So two normalizations
that identify the same pairs among the set's identifiers and dependency strings give the
same run: the same calls and events, the same unit table and set code, and the same
exception if one escapes (`applySet_normalizationAgnostic`). The two runs differ only in
the strings stored in the index, which nothing after the first two stages of
`PreProcess` reads (`Laws/Simulation`).

Along the first two stages the runs are related by `Corresponds`: the states differ only
in the index, and the two indices answer alike for every string of the set, each looked
up under its own normalization.
-/

namespace ConfigurationSetApply

open ConfigurationSetApplyProcessor

/-- The identifiers and dependency strings of the set. -/
def names (units : List ConfigurationUnit) : List String :=
  units.flatMap fun u => u.identifier :: u.dependencies

section Names

variable {units : List ConfigurationUnit} {j : Nat}

theorem unitAt_mem (hj : j < units.length) : unitAt units j ∈ units := by
  simp only [unitAt, List.getD_eq_getElem?_getD, List.getElem?_eq_getElem hj, Option.getD_some,
    List.getElem_mem]

theorem unitAt_of_length_le (hj : units.length ≤ j) : unitAt units j = default := by
  simp only [unitAt, List.getD_eq_getElem?_getD, List.getElem?_eq_none hj, Option.getD_none]

theorem identifier_mem_names (h : (unitAt units j).identifier.isEmpty = false) :
    (unitAt units j).identifier ∈ names units := by
  by_cases hj : j < units.length
  · exact List.mem_flatMap.2 ⟨_, unitAt_mem hj, List.mem_cons_self _ _⟩
  · rw [unitAt_of_length_le (Nat.le_of_not_lt hj)] at h
    cases h

theorem dependency_mem_names {d : String} (h : d ∈ (unitAt units j).dependencies) :
    d ∈ names units := by
  by_cases hj : j < units.length
  · exact List.mem_flatMap.2 ⟨_, unitAt_mem hj, List.mem_cons_of_mem _ h⟩
  · rw [unitAt_of_length_le (Nat.le_of_not_lt hj)] at h
    cases h

end Names

variable (normalize₁ normalize₂ : String → String) (units : List ConfigurationUnit)

/-- The two runs' states: the same but for the index; the two indices answer alike for
    every string of the set, each looked up under its own normalization; and the table
    holds the set's units. -/
structure Corresponds (p₁ p₂ : ConfigurationSetApplyProcessor) : Prop where
  same : SameButIndex p₁ p₂
  lookup : ∀ a ∈ names units,
    p₁.idToUnitInfoIndex.lookup (normalize₁ a) = p₂.idToUnitInfoIndex.lookup (normalize₂ a)
  units : ∀ j, (p₁.info j).unit = unitAt units j

namespace Corresponds

variable {normalize₁ normalize₂ units} {p₁ p₂ : ConfigurationSetApplyProcessor}

theorem create : Corresponds normalize₁ normalize₂ units (create units) (create units) :=
  ⟨rfl, fun _ _ => rfl, by simp⟩

variable (h : Corresponds normalize₁ normalize₂ units p₁ p₂)
include h

theorem modifyUnit {i : Nat} {f : UnitInfo → UnitInfo} (hf : ∀ u, (f u).unit = u.unit) :
    Corresponds normalize₁ normalize₂ units (p₁.modifyUnit i f) (p₂.modifyUnit i f) :=
  ⟨h.same.map (·.modifyUnit i f) fun _ => rfl, h.lookup, fun j => (p₁.modifyUnit_info_unit hf i j).trans (h.units j)⟩

theorem progress (state : ConfigurationUnitState) (i : Nat) :
    Corresponds normalize₁ normalize₂ units (p₁.progress state i) (p₂.progress state i) :=
  ⟨h.same.map (·.progress state i) fun _ => rfl, h.lookup, fun j => (p₁.progress_info_unit state i j).trans (h.units j)⟩

/-- Indexing one string of the set under each normalization keeps the indices answering
    alike, as long as the two normalizations identify the same pairs. -/
theorem addToIndex
    (hsame : ∀ a ∈ names units, ∀ b ∈ names units,
      normalize₁ a = normalize₁ b ↔ normalize₂ a = normalize₂ b)
    {a : String} (ha : a ∈ names units) (i : Nat) :
    Corresponds normalize₁ normalize₂ units
      (p₁.addToIndex (normalize₁ a) i) (p₂.addToIndex (normalize₂ a) i) := by
  refine ⟨h.same.map (·.addToIndex _ i) fun _ => rfl, fun b hb => ?_, h.units⟩
  simp only [addToIndex_idToUnitInfoIndex, List.lookup_cons]
  by_cases h₁ : normalize₁ b = normalize₁ a
  · simp [h₁, (hsame b hb a ha).1 h₁]
  · simp only [beq_false_of_ne h₁, beq_false_of_ne (mt (hsame b hb a ha).2 h₁), h.lookup b hb]

end Corresponds

-- ---------------------------------------------------------------------------
-- The first two stages of PreProcess, side by side
-- ---------------------------------------------------------------------------

section Stages

variable {normalize₁ normalize₂ units}

theorem sim_sendProgressIfNotComplete (state : ConfigurationUnitState) (i : Nat) :
    Sim (Corresponds normalize₁ normalize₂ units) (Corresponds normalize₁ normalize₂ units)
      (sendProgressIfNotComplete state i) (sendProgressIfNotComplete state i) :=
  Sim.get fun p₁ p₂ h => by
    rw [← h.same.info i]
    split
    · exact Sim.modify fun _ _ h => h.progress _ _
    · exact Sim.pure (fun _ _ => id) _

theorem sim_resolveDependencies (i : Nat) :
    ∀ ds, (∀ d ∈ ds, d ∈ names units) →
      Sim (Corresponds normalize₁ normalize₂ units) (Corresponds normalize₁ normalize₂ units)
        (resolveDependencies normalize₁ i ds) (resolveDependencies normalize₂ i ds)
  | [], _ => Sim.pure (fun _ _ => id) _
  | d :: rest, hds => by
    have ih := sim_resolveDependencies i rest fun d' hd' => hds d' (List.mem_cons_of_mem _ hd')
    rw [resolveDependencies, resolveDependencies]
    split
    · exact ih
    · refine Sim.get fun p₁ p₂ h => ?_
      rw [h.lookup d (hds d (List.mem_cons_self _ _))]
      cases List.lookup (normalize₂ d) p₂.idToUnitInfoIndex <;> dsimp only
      all_goals repeat' first
        | with_reducible refine Sim.bind ?_ (fun _ => ?_) fun _ _ => id
        | with_reducible exact Sim.pure (fun _ _ => id) _
        | exact ih
        | exact Sim.modify fun _ _ h => h.modifyUnit (by intro; rfl)
        | exact Sim.modify fun _ _ h => h.progress _ _

theorem sim_resolveAllDependencies :
    ∀ cs, Sim (Corresponds normalize₁ normalize₂ units) (Corresponds normalize₁ normalize₂ units)
      (resolveAllDependencies normalize₁ cs) (resolveAllDependencies normalize₂ cs)
  | [] => Sim.pure (fun _ _ => id) _
  | i :: rest => Sim.get fun p₁ p₂ h => by
    rw [← h.same.info i, h.units i]
    exact Sim.bind (sim_resolveDependencies i _ fun _ => dependency_mem_names)
      (fun _ => Sim.bind (sim_resolveAllDependencies rest) (fun _ => Sim.pure (fun _ _ => id) _)
        fun _ _ => id) fun _ _ => id

variable (hsame : ∀ a ∈ names units, ∀ b ∈ names units,
    normalize₁ a = normalize₁ b ↔ normalize₂ a = normalize₂ b)
include hsame

theorem sim_addUnitToMap (i : Nat) :
    Sim (Corresponds normalize₁ normalize₂ units) (Corresponds normalize₁ normalize₂ units)
      (addUnitToMap normalize₁ i) (addUnitToMap normalize₂ i) := by
  unfold addUnitToMap
  refine Sim.get fun p₁ p₂ h => ?_
  dsimp only
  rw [← h.same.info i, h.units i]
  split
  · exact Sim.pure (fun _ _ => id) _
  · rename_i hne
    have hmem := identifier_mem_names (by simpa using hne)
    rw [h.lookup _ hmem]
    cases List.lookup (normalize₂ (unitAt units i).identifier) p₂.idToUnitInfoIndex <;> dsimp only
    all_goals repeat' first
      | with_reducible refine Sim.bind ?_ (fun _ => ?_) fun _ _ => id
      | with_reducible exact Sim.pure (fun _ _ => id) _
      | exact sim_sendProgressIfNotComplete _ _
      | exact Sim.modify fun _ _ h => h.addToIndex hsame hmem i
      | exact Sim.modify fun _ _ h => h.modifyUnit (by intro; rfl)
      | exact Sim.modify fun _ _ h => h.progress _ _

theorem sim_addUnitsToMap :
    ∀ cs, Sim (Corresponds normalize₁ normalize₂ units) (Corresponds normalize₁ normalize₂ units)
      (addUnitsToMap normalize₁ cs) (addUnitsToMap normalize₂ cs)
  | [] => Sim.pure (fun _ _ => id) _
  | i :: rest => Sim.bind (sim_addUnitToMap hsame i)
      (fun _ => Sim.bind (sim_addUnitsToMap rest) (fun _ => Sim.pure (fun _ _ => id) _)
        fun _ _ => id) fun _ _ => id

/-- The two `PreProcess` runs end alike, in states that differ only in the index. -/
theorem sim_preProcess :
    Sim (Corresponds normalize₁ normalize₂ units) SameButIndex
      (preProcess normalize₁) (preProcess normalize₂) := by
  unfold preProcess
  refine Sim.get fun p₁ p₂ h => ?_
  dsimp only
  rw [← h.same.size]
  refine Sim.bind (sim_addUnitsToMap hsame _) (fun _ => ?_) fun _ _ h => h.same
  split
  · exact Sim.mono (fun _ _ h => h.same) (fun _ _ => id)
      ((ignoresIndex_setResultCode _).bind fun _ => IgnoresIndex.pure _)
  · refine Sim.bind (Sim.pure (fun _ _ => id) _) (fun _ => ?_) fun _ _ h => h.same
    refine Sim.bind (sim_resolveAllDependencies _) (fun _ => ?_) fun _ _ h => h.same
    refine Sim.mono (fun _ _ h => h.same) (fun _ _ => id) (?_ : IgnoresIndex _)
    repeat' first
      | with_reducible refine IgnoresIndex.bind ?_ fun _ => ?_
      | split
      | with_reducible exact IgnoresIndex.pure _
      | exact ignoresIndex_setResultCode _
      | exact ignoresIndex_processInternal ignoresIndex_markPreprocessed _

/-- The two `Process` runs end alike, in states that differ only in the index. -/
theorem sim_process (env : Collaborators) :
    Sim (Corresponds normalize₁ normalize₂ units) SameButIndex
      (process env normalize₁) (process env normalize₂) := by
  unfold process logProcessingSummaryForApply logProcessingSummary
  refine Sim.tryCatch (Sim.bind (sim_preProcess hsame) (fun _ => (?_ : IgnoresIndex _))
    fun _ _ => id) fun _ => (?_ : IgnoresIndex _)
  all_goals repeat' first
    | with_reducible refine IgnoresIndex.get (fun _ => by with_unfolding_all rfl) fun _ => ?_
    | with_reducible refine IgnoresIndex.bind ?_ fun _ => ?_
    | split
    | with_reducible exact IgnoresIndex.pure _
    | with_reducible exact IgnoresIndex.throw _
    | exact ignoresIndex_logEvent _
    | exact ignoresIndex_processInternal (ignoresIndex_processUnit env) _

end Stages

/-- `Process` depends on `GetNormalizedIdentifier` only through which of the set's
    identifiers and dependency strings it identifies: under two normalizations that
    identify the same pairs, the runs both return or both throw the same exception, and
    end with the same unit table, set code and log, events and calls included. -/
theorem applySet_normalizationAgnostic (env : Collaborators)
    (hsame : ∀ a ∈ names units, ∀ b ∈ names units,
      normalize₁ a = normalize₁ b ↔ normalize₂ a = normalize₂ b) :
    ResultRel SameButIndex (applySet env normalize₁ units) (applySet env normalize₂ units) :=
  sim_process hsame env _ _ Corresponds.create

/-- A normalization that appends a mark to every string stores other strings in the index
    than the identity does, and runs the set `firstDependsOnLast` as the identity does. -/
theorem applySet_normalizationAgnostic_appendMark :
    (∀ a ∈ names firstDependsOnLast, ∀ b ∈ names firstDependsOnLast,
      id a = id b ↔ a ++ "!" = b ++ "!") ∧
    ResultRel SameButIndex (applySet succeedingEnv id firstDependsOnLast)
      (applySet succeedingEnv (fun s => s ++ "!") firstDependsOnLast) :=
  ⟨by simp [names, firstDependsOnLast],
    applySet_normalizationAgnostic id (fun s => s ++ "!") firstDependsOnLast
      succeedingEnv (by simp [names, firstDependsOnLast])⟩

end ConfigurationSetApply
