-- SUMMARY: Laws of the scheduler: what the first-ready choice picks, the loop rule for processReadyUnits, the marking loops as a state function, and the unfolding of ProcessIntentInternal and ProcessInternal.
import ConfigurationSetApply.Laws.ProcessUnit

/-!
# Laws of the scheduler

The loop of `ProcessIntentInternal` is proved correct once, by a loop rule: an invariant
of the candidate list, the failure flag and the state that every action on the chosen
candidate preserves holds when the loop ends, and then no candidate is ready. Every
property of a phase, of the dry run or of the real run, instantiates this rule.

The marking loops run no collaborator and cannot throw; `wp_markRemaining` gives their
outcome as a function of the state, `ConfigurationSetApplyProcessor.markAll`, with one
lemma for each thing that function changes.
-/

namespace ConfigurationSetApply

open WingetConfigError

section FirstReady

variable {check : UnitInfo → Bool} {intent : ConfigurationUnitIntent}
  {p : ConfigurationSetApplyProcessor} {cs : List Nat} {i : Nat}

theorem firstReady_mem (h : firstReady check intent p cs = some i) : i ∈ cs :=
  List.mem_of_find?_eq_some h

theorem firstReady_ready (h : firstReady check intent p cs = some i) :
    hasIntentAndSatisfiedDependencies p (p.info i) intent check = true := by
  have := List.find?_some h
  simpa using this

theorem firstReady_eq_none :
    firstReady check intent p cs = none ↔
      ∀ j ∈ cs, hasIntentAndSatisfiedDependencies p (p.info j) intent check = false := by
  simp [firstReady, List.find?_eq_none]

theorem hasIntentAndSatisfiedDependencies_eq_true {u : UnitInfo} :
    hasIntentAndSatisfiedDependencies p u intent check = true ↔
      u.unit.intent = intent ∧ ∀ d ∈ u.dependencyIndices, check (p.info d) = true := by
  simp [hasIntentAndSatisfiedDependencies]

/-- Over candidates in increasing order, the first ready candidate is the smallest. -/
theorem firstReady_le (h : firstReady check intent p cs = some i) (hsorted : cs.Pairwise (· < ·))
    {x : Nat} (hx : x ∈ cs) (hready : hasIntentAndSatisfiedDependencies p (p.info x) intent check) :
    i ≤ x := by
  obtain ⟨-, as, bs, rfl, has⟩ := List.find?_eq_some.1 h
  rcases List.mem_append.1 hx with hxa | hxb
  · exact absurd hready (by simpa using has x hxa)
  · rcases List.mem_cons.1 hxb with rfl | hxb
    · exact le_rfl
    · exact le_of_lt ((List.pairwise_cons.1 (List.pairwise_append.1 hsorted).2.1).1 x hxb)

end FirstReady

section Loop

variable (check : UnitInfo → Bool) (action : Nat → ProcessorM Bool)
  (intent : ConfigurationUnitIntent)

/-- The loop rule: an invariant that each action on the first ready candidate keeps,
    with the candidate erased and the failure flag updated, holds when the loop ends;
    a loop given as many passes as there are candidates ends with none ready. -/
theorem processReadyUnits_rule (Inv : List Nat → Bool → ConfigurationSetApplyProcessor → Prop)
    {Exc : Exception → ConfigurationSetApplyProcessor → Prop}
    (step : ∀ cs hf p i, Inv cs hf p → firstReady check intent p cs = some i →
      wp (action i) (fun ok p' => Inv (cs.erase i) (hf || !ok) p') Exc p) :
    ∀ fuel cs hf p, Inv cs hf p →
      wp (processReadyUnits check action intent fuel cs hf)
        (fun r p' => Inv r.1 r.2 p' ∧ (cs.length ≤ fuel → firstReady check intent p' r.1 = none))
        Exc p := by
  intro fuel
  induction fuel with
  | zero =>
    intro cs hf p h
    refine ⟨h, fun hlen => ?_⟩
    simp [List.eq_nil_of_length_eq_zero (Nat.le_zero.mp hlen), firstReady]
  | succ fuel ih =>
    intro cs hf p h
    simp only [processReadyUnits, wp_bind, wp_get]
    split
    next hnone => exact ⟨h, fun _ => hnone⟩
    next i hi =>
      rw [wp_bind]
      refine wp_mono (fun ok p' h' => ?_) (fun _ _ h => h) (step cs hf p i h hi)
      refine wp_mono (fun r p'' ⟨hinv, hready⟩ => ⟨hinv, fun hlen => hready ?_⟩)
        (fun _ _ h => h) (ih _ _ p' h')
      rw [List.length_erase_of_mem (firstReady_mem hi)]
      omega

/-- The lockstep rule: two instances of the loop, started on the same candidates from
    states related by `Rel`, where related states have the same first ready candidate and
    the two actions on it return the same flag and keep the states related, end with the
    same candidates and flag in related states. Neither may throw. -/
theorem processReadyUnits_lockstep (check' : UnitInfo → Bool) (action' : Nat → ProcessorM Bool)
    (Rel : List Nat → ConfigurationSetApplyProcessor → ConfigurationSetApplyProcessor → Prop)
    (ready : ∀ cs p q, Rel cs p q → firstReady check intent p cs = firstReady check' intent q cs)
    (step : ∀ cs p q i, Rel cs p q → firstReady check intent p cs = some i →
      wp (action i)
        (fun ok p' => wp (action' i) (fun ok' q' => ok = ok' ∧ Rel (cs.erase i) p' q')
          (fun _ _ => False) q)
        (fun _ _ => False) p) :
    ∀ fuel cs hf p q, Rel cs p q →
      wp (processReadyUnits check action intent fuel cs hf)
        (fun r p' => wp (processReadyUnits check' action' intent fuel cs hf)
          (fun r' q' => r = r' ∧ Rel r.1 p' q') (fun _ _ => False) q)
        (fun _ _ => False) p := by
  intro fuel
  induction fuel with
  | zero => exact fun cs hf p q h => ⟨rfl, h⟩
  | succ fuel ih =>
    intro cs hf p q h
    simp only [processReadyUnits, wp_bind, wp_get, ← ready cs p q h]
    split
    next => exact ⟨rfl, h⟩
    next i hi =>
      simp only [wp_bind]
      refine wp_mono (fun ok p' h' => ?_) (fun _ _ h => h) (step cs p q i h hi)
      obtain ⟨ok', q', hrun, rfl, hrel⟩ := h'.exists_ok
      simp only [wp_eq_of_ok hrun]
      exact ih _ _ p' q' hrel

/-- The count of passes never cuts the loop short: with at least as many passes as
    candidates, for every dependency check and every action, whatever it does to the state
    and whatever it returns or throws, `processReadyUnits` is the unbounded
    `while (hasProcessed)` loop. The number of candidates is the measure both recursions
    decrease. -/
theorem processReadyUnits_eq_while :
    ∀ fuel cs hasFailure, cs.length ≤ fuel →
      processReadyUnits check action intent fuel cs hasFailure =
        processReadyUnitsWhile check action intent cs hasFailure := by
  intro fuel
  induction fuel with
  | zero =>
    intro cs hasFailure hlen
    rw [List.eq_nil_of_length_eq_zero (Nat.le_zero.1 hlen), processReadyUnitsWhile]
    rfl
  | succ fuel ih =>
    intro cs hasFailure hlen
    rw [processReadyUnits, processReadyUnitsWhile]
    refine congrArg (get >>= ·) (funext fun p => ?_)
    split <;> split
    · rfl
    · simp_all
    · simp_all
    · -- both loops run the action on the same candidate, then go on with one fewer
      rename_i i hi i' hi'
      obtain rfl : i = i' := Option.some.inj (hi.symm.trans hi')
      refine congrArg (action i >>= ·) (funext fun ok => ih _ _ ?_)
      rw [List.length_erase_of_mem (firstReady_mem hi)]
      omega

theorem processReadyUnits_eq_while_dryRun :
    [0, 1].length ≤ 2 ∧
      processReadyUnits hasPreprocessed markPreprocessed .assert 2 [0, 1] false =
        processReadyUnitsWhile hasPreprocessed markPreprocessed .assert [0, 1] false :=
  ⟨by decide, processReadyUnits_eq_while hasPreprocessed markPreprocessed .assert 2 [0, 1] false
    (by decide)⟩

end Loop

/-! ## The marking loops -/

namespace ConfigurationSetApplyProcessor

/-- The state after the marking loop over `cs`: each candidate whose intent `selects`
    gets `resultCode` with source `Precondition`, and a `Skipped` event if
    `sendProgress`. -/
def markAll (p : ConfigurationSetApplyProcessor) (selects : ConfigurationUnitIntent → Bool)
    (resultCode : HResult) (sendProgress : Bool) : List Nat → ConfigurationSetApplyProcessor
  | [] => p
  | i :: rest =>
    let marked := p.modifyUnit i fun u =>
      { u with resultInformation := u.resultInformation.initializeWith resultCode .precondition }
    let p' := if selects (p.info i).unit.intent then
      (if sendProgress then marked.progress .skipped i else marked) else p
    p'.markAll selects resultCode sendProgress rest

variable (p : ConfigurationSetApplyProcessor) (selects : ConfigurationUnitIntent → Bool)
  (resultCode : HResult) (sendProgress : Bool)

@[simp] theorem markAll_size (cs : List Nat) :
    (p.markAll selects resultCode sendProgress cs).size = p.size := by
  induction cs generalizing p with
  | nil => rfl
  | cons i rest ih => simp only [markAll, ih]; split_ifs <;> simp

@[simp] theorem markAll_resultCode (cs : List Nat) :
    (p.markAll selects resultCode sendProgress cs).resultCode = p.resultCode := by
  induction cs generalizing p with
  | nil => rfl
  | cons i rest ih => simp only [markAll, ih]; split_ifs <;> simp

@[simp] theorem markAll_idToUnitInfoIndex (cs : List Nat) :
    (p.markAll selects resultCode sendProgress cs).idToUnitInfoIndex = p.idToUnitInfoIndex := by
  induction cs generalizing p with
  | nil => rfl
  | cons i rest ih => simp only [markAll, ih]; split_ifs <;> simp

theorem markAll_log (cs : List Nat) :
    (p.markAll selects resultCode sendProgress cs).log = p.log ++
      if sendProgress then
        (cs.filter fun i => selects (p.info i).unit.intent).map (.unitProgress · .skipped)
      else [] := by
  induction cs generalizing p with
  | nil => simp [markAll]
  | cons i rest ih =>
    simp only [markAll, ih]
    by_cases hs : selects (p.info i).unit.intent <;> cases sendProgress <;> simp [hs]

/-- A unit the marking selects gets the code (and the `Skipped` state if progress is
    sent); every other unit is unchanged. -/
theorem markAll_info (cs : List Nat) (j : Nat) :
    (p.markAll selects resultCode sendProgress cs).info j =
      if j ∈ cs ∧ selects (p.info j).unit.intent ∧ j < p.size then
        { p.info j with
          resultInformation := (p.info j).resultInformation.initializeWith resultCode .precondition
          result.state := if sendProgress then .skipped else (p.info j).result.state }
      else p.info j := by
  induction cs generalizing p with
  | nil => simp [markAll]
  | cons i rest ih =>
    simp only [markAll, ih]
    rcases eq_or_ne i j with rfl | hij
    · by_cases hs : selects (p.info i).unit.intent <;> cases sendProgress <;>
        by_cases hi : i < p.size <;> simp [hs, hi, progress, modifyUnit_info]
    · by_cases hs : selects (p.info i).unit.intent <;> cases sendProgress <;>
        simp [hs, hij, hij.symm, progress, modifyUnit_info]

@[simp] theorem markAll_info_unit (cs : List Nat) (j : Nat) :
    ((p.markAll selects resultCode sendProgress cs).info j).unit = (p.info j).unit := by
  rw [markAll_info]; split <;> rfl

@[simp] theorem markAll_info_processed (cs : List Nat) (j : Nat) :
    ((p.markAll selects resultCode sendProgress cs).info j).processed = (p.info j).processed := by
  rw [markAll_info]; split <;> rfl

@[simp] theorem markAll_info_dependencyIndices (cs : List Nat) (j : Nat) :
    ((p.markAll selects resultCode sendProgress cs).info j).dependencyIndices =
      (p.info j).dependencyIndices := by
  rw [markAll_info]; split <;> rfl

theorem markAll_of_forall_not_selects {cs : List Nat}
    (h : ∀ j ∈ cs, selects (p.info j).unit.intent = false) :
    p.markAll selects resultCode sendProgress cs = p := by
  induction cs with
  | nil => rfl
  | cons i rest ih =>
    simp only [List.mem_cons, forall_eq_or_imp] at h
    simp only [markAll, h.1]
    exact ih h.2

/-- The two markings of a failed phase mark every candidate: those of the phase's intent
    with `DEPENDENCY_UNSATISFIED`, the others with `errorForOtherIntents`. -/
theorem markAll_markAll_info (intent : ConfigurationUnitIntent) (errorForOtherIntents : HResult)
    (cs : List Nat) (j : Nat) :
    ((p.markAll (· == intent) dependencyUnsatisfied sendProgress cs).markAll (· != intent)
      errorForOtherIntents sendProgress cs).info j =
      if j ∈ cs ∧ j < p.size then
        { p.info j with
          resultInformation := (p.info j).resultInformation.initializeWith
            (if (p.info j).unit.intent = intent then dependencyUnsatisfied else errorForOtherIntents)
            .precondition
          result.state := if sendProgress then .skipped else (p.info j).result.state }
      else p.info j := by
  rw [markAll_info, markAll_info]
  by_cases hc : j ∈ cs <;> by_cases hs : j < p.size <;>
    by_cases hI : (p.info j).unit.intent = intent <;> simp [hc, hs, hI]

/-- The progress the two markings of a failed phase send: one `Skipped` for each
    candidate, if progress is sent. -/
theorem markAll_markAll_unitStates {cs : List Nat} (hnd : cs.Nodup)
    (intent : ConfigurationUnitIntent) (errorForOtherIntents : HResult) (j : Nat) :
    unitStates ((p.markAll (· == intent) dependencyUnsatisfied sendProgress cs).markAll (· != intent)
      errorForOtherIntents sendProgress cs).log j =
      unitStates p.log j ++ if j ∈ cs ∧ sendProgress = true then [.skipped] else [] := by
  rw [markAll_log, markAll_log]
  cases sendProgress
  · simp
  · by_cases hI : (p.info j).unit.intent = intent <;>
      simp [unitStates_map_unitProgress hnd, hI]

end ConfigurationSetApplyProcessor

theorem wp_markRemaining (selects : ConfigurationUnitIntent → Bool) (resultCode : HResult)
    (sendProgress : Bool) (cs : List Nat) {Q : Bool → ConfigurationSetApplyProcessor → Prop}
    {E : Exception → ConfigurationSetApplyProcessor → Prop} (p : ConfigurationSetApplyProcessor) :
    wp (markRemaining selects resultCode sendProgress cs) Q E p =
      Q (cs.any fun i => selects (p.info i).unit.intent)
        (p.markAll selects resultCode sendProgress cs) := by
  induction cs generalizing p Q with
  | nil => rfl
  | cons i rest ih =>
    by_cases hs : selects (p.info i).unit.intent <;> cases sendProgress <;>
      simp [markRemaining, ConfigurationSetApplyProcessor.markAll, hs, ih]

section Phase

variable (check : UnitInfo → Bool) (action : Nat → ProcessorM Bool)
  {Q : Bool × List Nat → ConfigurationSetApplyProcessor → Prop}
  {E : Exception → ConfigurationSetApplyProcessor → Prop} (p : ConfigurationSetApplyProcessor)

/-- `ProcessIntentInternal` is its loop followed by the two markings: the phase fails
    if an action failed or a candidate of its intent is left, and then the other
    candidates are marked and the set's code is set. -/
theorem wp_processIntentInternal (intent : ConfigurationUnitIntent) (cs : List Nat)
    (errorForOtherIntents errorForFailures : HResult) (sendProgress : Bool) :
    wp (processIntentInternal check action intent cs errorForOtherIntents errorForFailures
      sendProgress) Q E p =
    wp (processReadyUnits check action intent cs.length cs false)
      (fun r p₁ =>
        let remaining := r.1.any fun i => (p₁.info i).unit.intent == intent
        let p₂ := p₁.markAll (· == intent) dependencyUnsatisfied sendProgress r.1
        if r.2 || remaining then
          Q (false, r.1) ((p₂.markAll (· != intent) errorForOtherIntents sendProgress r.1).withResultCode
            (if r.2 then errorForFailures else dependencyUnsatisfied))
        else Q (true, r.1) p₂)
      E p := by
  simp only [processIntentInternal, wp_bind, wp_markRemaining]
  congr
  funext r p₁
  by_cases hf : r.2 <;> by_cases hr : (r.1.any fun i => (p₁.info i).unit.intent == intent) <;>
    simp [hf, hr, wp_markRemaining]

/-- `ProcessInternal` runs the three phases in order and stops at the first that
    fails. -/
theorem wp_processInternal (sendProgress : Bool) {Q : Bool → ConfigurationSetApplyProcessor → Prop} :
    wp (processInternal check action sendProgress) Q E p =
      wp (processIntentInternal check action .assert (List.range p.size) assertionFailed
          assertionFailed sendProgress)
        (fun r₁ p₁ => if r₁.1 then
          wp (processIntentInternal check action .inform r₁.2 dependencyUnsatisfied
              dependencyUnsatisfied sendProgress)
            (fun r₂ p₂ => if r₂.1 then
              wp (processIntentInternal check action .apply r₂.2 eFail setApplyFailed
                sendProgress) (fun r₃ => Q r₃.1) E p₂
            else Q false p₂) E p₁
        else Q false p₁) E p := by
  simp only [processInternal, wp_bind, wp_get]
  congr
  funext r₁ p₁
  rcases r₁ with ⟨_ | _, cs₁⟩
  · rfl
  · simp only [Bool.not_true, Bool.false_eq_true, if_false, if_true, wp_bind, wp_pure]
    refine congrArg (fun Q' => wp _ Q' E p₁) (funext fun r₂ => funext fun p₂ => ?_)
    rcases r₂ with ⟨_ | _, cs₂⟩
    · rfl
    · simp [wp_bind]

variable {check action} in
/-- A phase lets escape only what its action lets escape: the markings cannot throw. -/
theorem processIntentInternal_throws (h : ∀ i p, wp (action i) (fun _ _ => True) E p)
    (intent : ConfigurationUnitIntent) (cs : List Nat) (errorForOtherIntents errorForFailures : HResult)
    (sendProgress : Bool) :
    wp (processIntentInternal check action intent cs errorForOtherIntents errorForFailures
      sendProgress) (fun _ _ => True) E p := by
  rw [wp_processIntentInternal]
  refine wp_mono (fun _ _ _ => ?_) (fun _ _ h => h) (processReadyUnits_rule check action intent
    (fun _ _ _ => True) (fun _ _ p i _ _ => h i p) _ cs false p trivial)
  dsimp only
  split <;> trivial

variable {check action} in
/-- `ProcessInternal` lets escape only what its action lets escape. -/
theorem processInternal_throws (h : ∀ i p, wp (action i) (fun _ _ => True) E p)
    (sendProgress : Bool) :
    wp (processInternal check action sendProgress) (fun _ _ => True) E p := by
  rw [wp_processInternal]
  refine wp_mono (fun _ _ _ => ?_) (fun _ _ h => h) (processIntentInternal_throws _ h ..)
  split
  · refine wp_mono (fun _ _ _ => ?_) (fun _ _ h => h) (processIntentInternal_throws _ h ..)
    split
    · exact processIntentInternal_throws _ h ..
    · trivial
  · trivial

end Phase

/-! ## Frames of the scheduler -/

section Keeps

variable {R : ConfigurationSetApplyProcessor → ConfigurationSetApplyProcessor → Prop} [IsPreorder _ R]
  {check : UnitInfo → Bool} {action : Nat → ProcessorM Bool} (hact : ∀ i, Keeps R (action i))
  (hmark : ∀ selects c sendProgress cs, succeeded c = false → Keeps R (markRemaining selects c sendProgress cs))
  (hset : ∀ c, Keeps R (setResultCode c))
include hact

/-- The loop keeps what its action keeps: it only reads the state otherwise. -/
theorem keeps_processReadyUnits (intent : ConfigurationUnitIntent) :
    ∀ fuel cs hasFailure, Keeps R (processReadyUnits check action intent fuel cs hasFailure)
  | 0, _, _ => Keeps.pure _
  | fuel + 1, _, _ => Keeps.get.bind fun _ => by
    split
    · exact Keeps.pure _
    · exact (hact _).bind fun _ => keeps_processReadyUnits intent fuel _ _

include hmark hset

/-- A phase keeps what its action, the markings with a failure code and the write of the
    set's code keep. -/
theorem keeps_processIntentInternal (intent : ConfigurationUnitIntent) (cs : List Nat)
    {errorForOtherIntents : HResult} (he : succeeded errorForOtherIntents = false)
    (errorForFailures : HResult) (sendProgress : Bool) :
    Keeps R (processIntentInternal check action intent cs errorForOtherIntents errorForFailures
      sendProgress) := by
  unfold processIntentInternal
  repeat' first
    | with_reducible refine Keeps.bind ?_ fun _ => ?_
    | split
    | with_reducible exact Keeps.pure _
    | with_reducible exact keeps_processReadyUnits hact _ _ _ _
    | with_reducible exact hmark _ _ _ _ (by decide)
    | with_reducible exact hmark _ _ _ _ he
    | with_reducible exact hset _

/-- `ProcessInternal` keeps what its action, the markings with a failure code and the write
    of the set's code keep. -/
theorem keeps_processInternal (sendProgress : Bool) :
    Keeps R (processInternal check action sendProgress) := by
  unfold processInternal
  repeat' first
    | with_reducible refine Keeps.bind ?_ fun _ => ?_
    | split
    | with_reducible exact Keeps.pure _
    | with_reducible exact Keeps.get
    | with_reducible exact keeps_processIntentInternal hact hmark hset _ _ (by decide) _ _

end Keeps

end ConfigurationSetApply
