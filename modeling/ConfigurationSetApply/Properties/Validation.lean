-- SUMMARY: What the first two stages of PreProcess leave: the duplicate identifiers flagged with one Completed each, and every dependency resolved to the unit it names or flagged as missing.
import ConfigurationSetApply.Laws.PreProcess

/-!
# The identifier and dependency passes of `PreProcess`

The identifier pass flags a unit exactly when another unit of the set has its non-empty
identifier after normalization (`CollidesWithin`), whatever the normalization: the first
unit of a group is flagged when the second arrives, and `SendProgressIfNotComplete` keeps
it to one `Completed` however many arrive after. `PreProcess` stops right after the pass,
with `DUPLICATE_IDENTIFIER`, exactly when the set has such a pair.

On a set without such a pair the dependency pass resolves each non-empty dependency string
to the one unit whose non-empty identifier normalizes as it does, skipping empty strings,
and flags a unit at its first string that names no unit (`ResolvedUnit`). The index holds
only non-empty identifiers, so a string never resolves to a unit without identifier.
-/

namespace ConfigurationSetApply

open WingetConfigError

variable (getNormalizedIdentifier : String → String) (units : List ConfigurationUnit)

/-! ## Duplicate identifiers -/

/-- For every set and every normalization, the identifier pass of `PreProcess` flags
    exactly the units whose non-empty identifier another unit shares after normalization,
    each with `DUPLICATE_IDENTIFIER` from the set and one `Completed`, and leaves every other
    unit without result and progress; `PreProcess` then stops with `DUPLICATE_IDENTIFIER`,
    changing nothing else, exactly when such a pair exists. -/
theorem preProcess_flagsDuplicates :
    ∃ ok p₁, addUnitsToMap getNormalizedIdentifier (List.range units.length)
        (ConfigurationSetApplyProcessor.create units) = .ok ok p₁ ∧
      (∀ j < units.length, (p₁.info j).resultInformation =
        if CollidesWithin getNormalizedIdentifier units units.length j then
          ({} : ConfigurationUnitResultInformation).initializeWith duplicateIdentifier .configurationSet
        else {}) ∧
      (∀ j < units.length, unitStates p₁.log j =
        if CollidesWithin getNormalizedIdentifier units units.length j then [.completed] else []) ∧
      (preProcess getNormalizedIdentifier (ConfigurationSetApplyProcessor.create units) =
          .ok false (p₁.withResultCode duplicateIdentifier) ↔
        HasDuplicate getNormalizedIdentifier units) := by
  obtain ⟨ok, p₁, hrun, ⟨-, hok⟩, hd⟩ := (wp_mono (fun _ _ h => h) (fun _ _ h => h.1)
    (wp_and addUnitsToMap_create addUnitsToMap_create_flags)).exists_ok
  refine ⟨ok, p₁, hrun, fun j _ => hd.flags j, fun j _ => hd.progress j, ⟨fun h => ?_, fun h => ?_⟩⟩
  · -- a set without duplicates goes on to the later stages, which set other codes
    by_contra hdup
    have hV := ((@preProcess_spec getNormalizedIdentifier units).of_ok h).1.failed rfl
    simp only [ConfigurationSetApplyProcessor.withResultCode_resultCode] at hV
    by_cases hmiss : HasMissing getNormalizedIdentifier units
    · exact absurd (hV.2.2.1 hdup hmiss) (by decide)
    · exact absurd (hV.2.2.2 hdup hmiss) (by decide)
  · -- the pass failed: the set's code is set and nothing else runs
    have hfalse : ok = false := by simpa [h] using hok
    have := wp_self (preProcess getNormalizedIdentifier) (ConfigurationSetApplyProcessor.create units)
    simpa [preProcess, wp_eq_of_ok hrun, hfalse] using this

/-! ## Dependencies -/

/-- For every set whose non-empty identifiers are distinct after normalization, the
    dependency pass of `PreProcess` leaves every unit resolved (`ResolvedUnit`: the units its
    non-empty dependency strings name, in order, or the first string that names none as a
    `MISSING_DEPENDENCY` with one `Completed`), every dependency index a unit of the set,
    and fails, stopping `PreProcess` with `MISSING_DEPENDENCY` and changing nothing else,
    exactly when some unit has a non-empty dependency string that names no unit. -/
theorem preProcess_resolvesDependencies (hdup : ¬HasDuplicate getNormalizedIdentifier units) :
    ∃ p₁ ok p₂, addUnitsToMap getNormalizedIdentifier (List.range units.length)
        (ConfigurationSetApplyProcessor.create units) = .ok true p₁ ∧
      resolveAllDependencies getNormalizedIdentifier (List.range units.length) p₁ = .ok ok p₂ ∧
      (∀ i < units.length, ResolvedUnit getNormalizedIdentifier units i p₂) ∧
      (∀ i, ∀ j ∈ (p₂.info i).dependencyIndices, j < units.length) ∧
      (preProcess getNormalizedIdentifier (ConfigurationSetApplyProcessor.create units) =
          .ok false (p₂.withResultCode missingDependency) ↔
        HasMissing getNormalizedIdentifier units) := by
  obtain ⟨ok₁, p₁, hrun₁, h₁, hok₁⟩ := addUnitsToMap_create.exists_ok
  obtain rfl : ok₁ = true := hok₁.2 hdup
  have hw := (h₁.resolveInv hdup).resolveAllDependencies (Nat.zero_add units.length)
  rw [← List.range_eq_range'] at hw
  obtain ⟨ok₂, p₂, hrun₂, h₂, hok₂⟩ := hw.exists_ok
  refine ⟨p₁, ok₂, p₂, hrun₁, hrun₂, h₂.resolved, h₂.bounded, ⟨fun h => ?_, fun h => ?_⟩⟩
  · -- a set without missing dependencies goes on to the dry run, which sets another code
    by_contra hmiss
    have hV := ((@preProcess_spec getNormalizedIdentifier units).of_ok h).1.failed rfl
    simp only [ConfigurationSetApplyProcessor.withResultCode_resultCode] at hV
    exact absurd (hV.2.2.2 hdup hmiss) (by decide)
  · -- the pass failed: the set's code is set and nothing else runs
    have hfalse : ok₂ = false := by
      obtain ⟨i, hi, hm⟩ := hasMissing_iff.1 h
      exact Bool.eq_false_iff.2 fun ht => hok₂.1 ht i (Nat.zero_le _) hi hm
    have := wp_self (preProcess getNormalizedIdentifier) (ConfigurationSetApplyProcessor.create units)
    simpa [preProcess, wp_eq_of_ok hrun₁, wp_eq_of_ok hrun₂, hfalse] using this

/-- An Apply unit and one that depends on it, on an empty string and on a string that names
    no unit. -/
def missingAfterResolved : List ConfigurationUnit :=
  [⟨"a", .apply, [], true⟩, ⟨"b", .apply, ["a", "", "c"], true⟩]

theorem preProcess_resolvesDependencies_missingAfterResolved :
    ¬HasDuplicate id missingAfterResolved ∧
      ∃ p₁ ok p₂, addUnitsToMap id (List.range missingAfterResolved.length)
          (ConfigurationSetApplyProcessor.create missingAfterResolved) = .ok true p₁ ∧
        resolveAllDependencies id (List.range missingAfterResolved.length) p₁ = .ok ok p₂ ∧
        (∀ i < missingAfterResolved.length, ResolvedUnit id missingAfterResolved i p₂) ∧
        (∀ i, ∀ j ∈ (p₂.info i).dependencyIndices, j < missingAfterResolved.length) ∧
        (preProcess id (ConfigurationSetApplyProcessor.create missingAfterResolved) =
            .ok false (p₂.withResultCode missingDependency) ↔
          HasMissing id missingAfterResolved) :=
  ⟨by decide, preProcess_resolvesDependencies id missingAfterResolved (by decide)⟩

end ConfigurationSetApply
