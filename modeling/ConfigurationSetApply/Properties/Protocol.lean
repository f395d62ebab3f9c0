-- SUMMARY: The protocol with the collaborators: where each call on the unit processors may stand and that it stands inside its unit's progress, that every unit's result state is the last progress sent for it, which set-level events are sent and where, and that validation neither calls out nor polls, kept from every state and along every run of Process.
import ConfigurationSetApply.Laws.Frames

/-!
# The protocol with the collaborators

`ProcessUnit` talks to the set processor, and to the unit processor it creates, in a fixed
order. `CreateUnitProcessor` comes once the unit is entered, found not cancelled and sent
`InProgress`, and only for a unit to apply. `TestSettings` (an Assert or Apply unit) or
`GetSettings` (an Inform unit) comes only after a creation that succeeded and a poll that
found the token clear. `ApplySettings` comes only for an Apply unit whose `TestSettings`
answered `Negative`, after one more clear poll. `CallInOrder` says this of one call, given
the log before it; the unit's intent and `ShouldApply` are read from the table its
`ProcessUnit` entry records, as the code reads them.

The protocol is kept along `Appends CallInOrder`: every entry but a call keeps it,
`ProcessUnit` keeps it from every state (`processUnit_keepsCalls`), and so every run of
`Process` ends with a log that follows the protocol (`process_callsInOrder`), whatever the
collaborators answer or throw. Each call also stands inside its unit's progress: the last
progress state sent for the unit is `InProgress` (`process_calledInProgress`); with the
progress sequences a unit can get, no call comes after the unit's `Completed` or for a
skipped unit.

`SendProgress` stores the state in the unit's result before it sends it, and nothing else
writes that state, so the result object and the progress stream agree: every unit's
`State` is the last progress state sent for it (`process_statesMirrorProgress`). With the
progress sequences a unit can get, no unit is left `InProgress`, even when an exception
escapes, and a processed unit ends `Completed` or `Skipped` (`process_noUnitLeftInProgress`).

`Process` sends the set-level `InProgress` right after a validation that passed and
`Completed` right before the summary, and no other set-level event (`process_setProgress`).
Validation itself returns on every set, and talks to no collaborator: it logs only the
`Completed` of the units it flags and the dry run's marks (`preProcess_quiet`).
-/

namespace ConfigurationSetApply

variable (env : Collaborators)

/-- The entries `ProcessUnit` logs for the unit at `j`, entered with the table `t`, before
    its first call: the entry, the poll that found the token clear, and `InProgress`. -/
def unitStarted (j : Nat) (t : List UnitInfo) : List Event :=
  [.processUnit j t, .throwIfCancelled false, .unitProgress j .inProgress]

/-- `pre` ends with a `CreateUnitProcessor` for the unit at `j`, entered with the table `t`,
    that succeeded, and then a poll that found the token clear. -/
def CreatedIn (j : Nat) (t : List UnitInfo) (pre : List Event) : Prop :=
  ∃ A, pre = A ++ unitStarted j t ++ [.createUnitProcessor j, .throwIfCancelled false] ∧
    env.createUnitProcessor j (A ++ unitStarted j t ++ [.createUnitProcessor j]) = .ok ()

/-- Where a call on the processors of a unit may stand, given the log `pre` before it.
    Every other entry may stand anywhere. -/
def CallInOrder (pre : List Event) : Event → Prop
  | .createUnitProcessor j => ∃ A t, pre = A ++ unitStarted j t ∧
      (t.getD j default).unit.shouldApply = true
  | .testSettings j => ∃ t, CreatedIn env j t pre ∧ (t.getD j default).unit.intent ≠ .inform
  | .getSettings j => ∃ t, CreatedIn env j t pre ∧ (t.getD j default).unit.intent = .inform
  | .applySettings j => ∃ B t r, pre = B ++ [.testSettings j, .throwIfCancelled false] ∧
      CreatedIn env j t B ∧ env.testSettings j (B ++ [.testSettings j]) = .ok r ∧
      r.testResult = .negative ∧ (t.getD j default).unit.intent = .apply
  | _ => True

variable {env}

theorem callInOrder_of_isCall_false {pre : List Event} {e : Event} (h : e.isCall = false) :
    CallInOrder env pre e := by
  cases e <;> trivial

/-- An entry that is not a call, anywhere. -/
theorem Appends.emit_noCall {p p₁ : ConfigurationSetApplyProcessor} {e : Event}
    (h : Appends (CallInOrder env) p p₁) (he : e.isCall = false) :
    Appends (CallInOrder env) p (p₁.emit e) :=
  h.emit (callInOrder_of_isCall_false he)

-- ---------------------------------------------------------------------------
-- ProcessUnit
-- ---------------------------------------------------------------------------

variable {i : Nat} {p : ConfigurationSetApplyProcessor} {t : List UnitInfo}

/-- The `switch` of `ProcessUnit`, entered right after a creation that succeeded and a
    clear poll: the first call is the one for the unit's intent, and `ApplySettings`
    follows a `Negative` test and a clear poll. -/
theorem applyIntent_keepsCalls (hc : CreatedIn env i t p.log)
    (hI : (p.info i).unit.intent = (t.getD i default).unit.intent) :
    wp (applyIntent env i) (fun _ => Appends (CallInOrder env) p)
      (fun _ => Appends (CallInOrder env) p) p := by
  -- a branch that writes the unit's result keeps what its calls kept
  have write : ∀ {p₁} (f : UnitInfo → UnitInfo), Appends (CallInOrder env) p p₁ →
      Appends (CallInOrder env) p (p₁.modifyUnit i f) := fun _ h => h.modifyUnit i _
  unfold applyIntent
  simp only [wp_bind, wp_get]
  cases hIt : (p.info i).unit.intent
  case assert =>
    have h₁ := (refl_of (Appends (CallInOrder env)) p).emit (e := .testSettings i)
      ⟨t, hc, by rw [← hI, hIt]; decide⟩
    simp only [testSettings, wp_bind, wp_callCollaborator]
    split
    next r _ =>
      cases r.testResult <;> simp only [wp_pure, wp_bind, wp_initializeResult, wp_adoptResult]
      case positive => exact h₁
      all_goals exact write _ h₁
    next => exact h₁
  case inform =>
    have h₁ := (refl_of (Appends (CallInOrder env)) p).emit (e := .getSettings i)
      ⟨t, hc, by rw [← hI, hIt]⟩
    simp only [getSettings, wp_bind, wp_callCollaborator]
    split
    next r _ =>
      simp only [wp_ite, wp_pure, wp_bind, wp_adoptResult]
      split
      · exact h₁
      · exact write _ h₁
    next => exact h₁
  case apply =>
    have h₁ := (refl_of (Appends (CallInOrder env)) p).emit (e := .testSettings i)
      ⟨t, hc, by rw [← hI, hIt]; decide⟩
    simp only [testSettings, wp_bind, wp_callCollaborator]
    split
    next r hr =>
      cases htr : r.testResult <;> simp only [wp_pure, wp_bind, wp_modifyUnitInfo,
        wp_initializeResult, wp_adoptResult]
      case negative =>
        -- the poll before the apply, then the apply after the negative test
        simp only [wp_throwIfCancelled, applySettings, wp_bind, wp_callCollaborator]
        split
        next => exact h₁.emit_noCall rfl
        next =>
          have h₂ := (h₁.emit_noCall (e := .throwIfCancelled false) rfl).emit
            (e := .applySettings i) ⟨p.log, t, r, by simp, hc, hr, htr, by rw [← hI, hIt]⟩
          split
          next =>
            simp only [wp_ite, wp_pure, wp_bind, wp_modifyUnitInfo, wp_adoptResult]
            split <;> exact write _ h₂
          next => exact h₂
      all_goals exact write _ h₁
    next => exact h₁

/-- `ProcessUnit` after the unit's `InProgress`: the creation stands right after the
    entered unit's first entries, and the `switch` right after the creation succeeded. -/
theorem runUnitProcessor_keepsCalls (hs : ∃ A, p.log = A ++ unitStarted i t)
    (hsa : (t.getD i default).unit.shouldApply = true)
    (hI : (p.info i).unit.intent = (t.getD i default).unit.intent) :
    wp (runUnitProcessor env i) (fun _ => Appends (CallInOrder env) p)
      (fun _ => Appends (CallInOrder env) p) p := by
  obtain ⟨A, hA⟩ := hs
  have h₁ := (refl_of (Appends (CallInOrder env)) p).emit (e := .createUnitProcessor i)
    ⟨A, t, hA, hsa⟩
  unfold runUnitProcessor createUnitProcessor
  simp only [wp_bind, wp_tryCatch, wp_callCollaborator]
  split
  next hok =>
    simp only [wp_pure, Bool.not_true, Bool.false_eq_true, ↓reduceIte, wp_bind,
      wp_throwIfCancelled, wp_tryCatch, wp_extractResult]
    split
    next => exact h₁.emit_noCall rfl
    next =>
      have h₂ := h₁.emit_noCall (e := .throwIfCancelled false) rfl
      refine wp_mono (fun _ _ h => trans_of _ h₂ h)
        (fun _ _ h => (trans_of _ h₂ h).modifyUnit i _)
        (applyIntent_keepsCalls (t := t) ⟨A, by simp [hA], by rwa [← hA]⟩ (by simpa using hI))
  next => exact h₁.modifyUnit i _

variable (env) in
/-- `ProcessUnit` keeps the protocol from every state, on every way out. -/
theorem processUnit_keepsCalls (i : Nat) :
    Keeps (Appends (CallInOrder env)) (processUnit env i) := fun p => by
  simp only [processUnit, withCompletedProgress, returnResult, wp_bind, wp_get, wp_logEvent,
    wp_throwIfCancelled, wp_modifyUnitInfo]
  have h₀ := (refl_of (Appends (CallInOrder env)) p).emit_noCall (e := .processUnit i p.unitInfo) rfl
  have hP : ∀ pre state j, CallInOrder env pre (.unitProgress j state) := fun _ _ _ => trivial
  split
  · exact h₀.emit_noCall rfl
  · have h₁ := (h₀.emit_noCall (e := .throwIfCancelled false) rfl).modifyUnit i
      fun u => { u with processed := true }
    split
    · -- manually skipped: no call
      simp only [wp_initializeResult, wp_sendProgress, wp_bind, wp_get, wp_logEvent, wp_pure]
      exact ((h₁.modifyUnit i _).progress hP .skipped i).emit_noCall rfl
    · -- the run, between the unit's InProgress and Completed
      rename_i hsa
      simp only [Bool.not_eq_true', Bool.not_eq_false] at hsa
      simp only [wp_sendProgress, wp_tryCatch, wp_bind, wp_throw, wp_get, wp_logEvent, wp_pure]
      have h₂ := h₁.progress hP .inProgress i
      refine wp_mono (fun _ _ h => ((trans_of _ h₂ h).progress hP .completed i).emit_noCall rfl)
        (fun _ _ h => (trans_of _ h₂ h).progress hP .completed i)
        (runUnitProcessor_keepsCalls (t := p.unitInfo) ⟨p.log, by simp [unitStarted]⟩
          (by simpa [-List.getD_eq_getElem?_getD] using hsa)
          (by simp [-List.getD_eq_getElem?_getD]))

-- ---------------------------------------------------------------------------
-- Process
-- ---------------------------------------------------------------------------

variable (env) (getNormalizedIdentifier : String → String) (units : List ConfigurationUnit)

/-- For every set, every normalization and every behaviour of the collaborators (what they
    answer, what they throw, when the token is set), every call `Process` makes on the
    processors of a unit stands where `ProcessUnit` puts it: `CreateUnitProcessor` right
    after the unit's entry, a clear poll and its `InProgress`, for a unit to apply;
    `TestSettings` (Assert or Apply unit) or `GetSettings` (Inform unit) right after a
    `CreateUnitProcessor` for it that succeeded and a clear poll; `ApplySettings` only for an
    Apply unit, right after a `TestSettings` for it that answered `Negative` and a clear
    poll. This holds on a normal return and when an exception escapes. -/
theorem process_callsInOrder :
    wp (process env getNormalizedIdentifier) (fun _ p => EveryEntry (CallInOrder env) p.log)
      (fun _ p => EveryEntry (CallInOrder env) p.log)
      (ConfigurationSetApplyProcessor.create units) :=
  wp_mono (fun _ _ h => h.everyEntry everyEntry_nil) (fun _ _ h => h.everyEntry everyEntry_nil)
    (keeps_process (R := Appends (CallInOrder env)) (fun _ _ _ _ => .of_log_eq rfl)
      (fun _ _ _ => Appends.rfl.progress (fun _ _ _ => trivial) _ _) getNormalizedIdentifier
      (fun _ _ _ => .of_log_eq rfl) (fun _ _ => .of_log_eq rfl)
      (fun _ _ => Appends.rfl.emit_noCall rfl) env (processUnit_keepsCalls env)
      (fun _ _ => Appends.rfl.emit_noCall rfl) (fun _ _ _ _ _ => Appends.rfl.emit_noCall rfl) _)

-- ---------------------------------------------------------------------------
-- Calls inside the unit's progress
-- ---------------------------------------------------------------------------

/-- A call on the processors of the unit at `j` comes while the last progress state sent
    for `j` is `InProgress`. Every other entry may stand anywhere. -/
def CalledInProgress (pre : List Event) : Event → Prop
  | .createUnitProcessor j | .testSettings j | .getSettings j | .applySettings j =>
    (unitStates pre j).getLast? = some .inProgress
  | _ => True

/-- A unit run from a state whose last progress state for the unit is `InProgress` makes its
    calls inside that progress: it sends no progress itself. -/
theorem Appends.calledInProgress_of_runFrame {p p' : ConfigurationSetApplyProcessor}
    (hs : (unitStates p.log i).getLast? = some .inProgress) (h : RunFrame i p p') :
    Appends CalledInProgress p p' := by
  obtain ⟨-, -, -, -, -, L, hL, ht⟩ := h
  refine ⟨L, hL, fun A e B hAB => ?_⟩
  have hA : unitStates A i = [] :=
    unitStates_of_isTrafficOf fun x hx => ht x (hAB ▸ List.mem_append_left _ hx)
  have he := ht e (by simp [hAB])
  cases e <;> simp only [Event.isTrafficOf, beq_iff_eq] at he
  all_goals first
    | trivial
    | subst he; simp only [CalledInProgress, unitStates_append, hA, List.append_nil, hs]

/-- `ProcessUnit` makes its calls between the unit's `InProgress` and its `Completed`, from
    every state, on every way out. -/
theorem processUnit_calledInProgress (i : Nat) :
    Keeps (Appends CalledInProgress) (processUnit env i) := fun p => by
  simp only [processUnit, withCompletedProgress, returnResult, wp_bind, wp_get, wp_logEvent,
    wp_throwIfCancelled, wp_modifyUnitInfo]
  have hP : ∀ pre state j, CalledInProgress pre (.unitProgress j state) := fun _ _ _ => trivial
  have h₀ := (refl_of (Appends CalledInProgress) p).emit (e := .processUnit i p.unitInfo) trivial
  split
  · exact h₀.emit trivial
  · have h₁ := (h₀.emit (e := .throwIfCancelled false) trivial).modifyUnit i
      fun u => { u with processed := true }
    split
    · -- manually skipped: no call
      simp only [wp_initializeResult, wp_sendProgress, wp_bind, wp_get, wp_logEvent, wp_pure]
      exact ((h₁.modifyUnit i _).progress hP .skipped i).emit trivial
    · -- the run, right after the unit's InProgress
      simp only [wp_sendProgress, wp_tryCatch, wp_bind, wp_throw, wp_get, wp_logEvent, wp_pure]
      have h₂ := h₁.progress hP .inProgress i
      have run := fun p₃ (h : RunFrame i _ p₃) =>
        trans_of _ h₂ (Appends.calledInProgress_of_runFrame (by simp) h)
      exact wp_mono (fun _ p₃ h => ((run p₃ h).progress hP .completed i).emit trivial)
        (fun _ p₃ h => (run p₃ h).progress hP .completed i) (runUnitProcessor_keeps env i _)

/-- For every set, every normalization and every behaviour of the collaborators, on a normal
    return of `Process` and when an exception escapes, every call on the processors of a unit
    was made while the last progress state sent for that unit was `InProgress`: no call comes
    before an `InProgress` of the unit, nor while its last state is `Completed` or `Skipped`. -/
theorem process_calledInProgress :
    wp (process env getNormalizedIdentifier) (fun _ p => EveryEntry CalledInProgress p.log)
      (fun _ p => EveryEntry CalledInProgress p.log) (ConfigurationSetApplyProcessor.create units) :=
  wp_mono (fun _ _ h => h.everyEntry everyEntry_nil) (fun _ _ h => h.everyEntry everyEntry_nil)
    (keeps_process (R := Appends CalledInProgress) (fun _ _ _ _ => .of_log_eq rfl)
      (fun _ _ _ => Appends.rfl.progress (fun _ _ _ => trivial) _ _) getNormalizedIdentifier
      (fun _ _ _ => .of_log_eq rfl) (fun _ _ => .of_log_eq rfl) (fun _ _ => Appends.rfl.emit trivial)
      env (processUnit_calledInProgress env) (fun _ _ => Appends.rfl.emit trivial)
      (fun _ _ _ _ _ => Appends.rfl.emit trivial) _)

-- ---------------------------------------------------------------------------
-- Unit states and the progress sent
-- ---------------------------------------------------------------------------

/-- The last progress state sent for the unit at `j`, `Unknown` before any. -/
def lastState (log : List Event) (j : Nat) : ConfigurationUnitState :=
  (unitStates log j).getLast?.getD .unknown

theorem lastState_append_of_nil {log L : List Event} {j : Nat} (h : unitStates L j = []) :
    lastState (log ++ L) j = lastState log j := by
  simp only [lastState, unitStates_append, h, List.append_nil]

theorem lastState_unitProgress (log : List Event) (i j : Nat) (state : ConfigurationUnitState) :
    lastState (log ++ [.unitProgress i state]) j = if i = j then state else lastState log j := by
  by_cases h : i = j <;> simp [lastState, h]

/-- Every unit in the table has, as its result's `State`, the last progress state sent for
    it: the results the caller reads agree with the progress it was sent. -/
def StatesMirrored (p : ConfigurationSetApplyProcessor) : Prop :=
  ∀ j < p.size, (p.info j).result.state = lastState p.log j

namespace StatesMirrored

variable {p p' : ConfigurationSetApplyProcessor}

theorem create (units : List ConfigurationUnit) :
    StatesMirrored (ConfigurationSetApplyProcessor.create units) :=
  fun _ _ => by simp [lastState]

theorem emit {e : Event} (h : StatesMirrored p) (he : ∀ j, e.unitState? j = none) :
    StatesMirrored (p.emit e) := fun j hj => by
  rw [ConfigurationSetApplyProcessor.emit_log, lastState_append_of_nil (by rw [unitStates_cons, he j]; rfl)]
  exact h j hj

theorem modifyUnit {i : Nat} {f : UnitInfo → UnitInfo} (h : StatesMirrored p)
    (hf : ∀ u, (f u).result.state = u.result.state) : StatesMirrored (p.modifyUnit i f) :=
  fun j hj => by
  rw [ConfigurationSetApplyProcessor.modifyUnit_size] at hj
  rw [ConfigurationSetApplyProcessor.modifyUnit_info, ConfigurationSetApplyProcessor.modifyUnit_log,
    ← h j hj]
  split <;> simp only [hf]

theorem progress (h : StatesMirrored p) (state : ConfigurationUnitState) (i : Nat) :
    StatesMirrored (p.progress state i) := fun j hj => by
  rw [ConfigurationSetApplyProcessor.progress_size] at hj
  rw [ConfigurationSetApplyProcessor.progress_log, lastState_unitProgress]
  by_cases hij : i = j
  · subst hij; simp [hj]
  · simp only [p.progress_info_ne hij, hij, ↓reduceIte, h j hj]

/-- A unit run sends no progress and leaves every `State` alone. -/
theorem runFrame {i : Nat} (h : StatesMirrored p) (hR : RunFrame i p p') : StatesMirrored p' := by
  obtain ⟨hs, ho, ⟨-, -, -, -, hst⟩, -, -, L, hL, ht⟩ := hR
  intro j hj
  rw [hL, lastState_append_of_nil (unitStates_of_isTrafficOf ht), ← h j (hs ▸ hj)]
  by_cases hij : i = j
  · subst hij; exact hst
  · rw [ho j hij]

end StatesMirrored

/-- `ProcessUnit` keeps every `State` mirrored, from every state, on every way out: it
    writes the unit's `State` only by sending progress. -/
theorem processUnit_keepsStatesMirrored (i : Nat) :
    Keeps (Preserves StatesMirrored) (processUnit env i) := fun p => wp_imp fun M => by
  simp only [processUnit, withCompletedProgress, returnResult, wp_bind, wp_get, wp_logEvent,
    wp_throwIfCancelled, wp_modifyUnitInfo]
  have M₀ := M.emit (e := .processUnit i p.unitInfo) fun _ => by rfl
  split
  · exact M₀.emit fun _ => by rfl
  · have M₁ := (M₀.emit (e := .throwIfCancelled false) fun _ => by rfl).modifyUnit (i := i)
      (f := fun u => { u with processed := true }) fun _ => by rfl
    split
    · -- manually skipped: `Skipped`
      simp only [wp_initializeResult, wp_sendProgress, wp_bind, wp_get, wp_logEvent, wp_pure]
      exact ((M₁.modifyUnit fun _ => by rfl).progress _ _).emit fun _ => by rfl
    · -- the run, between `InProgress` and `Completed`
      simp only [wp_sendProgress, wp_tryCatch, wp_bind, wp_throw, wp_get, wp_logEvent, wp_pure]
      exact wp_mono (fun _ _ hR => (((M₁.progress _ _).runFrame hR).progress _ _).emit fun _ => by rfl)
        (fun _ _ hR => ((M₁.progress _ _).runFrame hR).progress _ _)
        (runUnitProcessor_keeps env i _)

/-- `Process` keeps every `State` mirrored, from every state, on every way out. -/
theorem keeps_statesMirrored_process :
    Keeps (Preserves StatesMirrored) (process env getNormalizedIdentifier) :=
  keeps_process (R := Preserves StatesMirrored)
    (fun _ _ _ hf M => M.modifyUnit fun u => congrArg _ (hf u).2)
    (fun _ _ _ M => M.progress _ _) getNormalizedIdentifier (fun _ _ _ M => M)
    (fun _ _ M => M) (fun _ _ M => M.emit fun _ => rfl) env (processUnit_keepsStatesMirrored env)
    (fun _ _ M => M.emit fun _ => rfl) (fun _ _ _ _ _ M => M.emit fun _ => rfl)

/-- Every run of `Process` on a constructed processor ends with every `State` mirrored and
    the table of the set's size. -/
theorem process_statesMirrored_size :
    wp (process env getNormalizedIdentifier) (fun _ p => StatesMirrored p ∧ p.size = units.length)
      (fun _ p => StatesMirrored p ∧ p.size = units.length)
      (ConfigurationSetApplyProcessor.create units) :=
  wp_mono (fun _ _ ⟨M, hs, _⟩ => ⟨M, by simpa using hs⟩) (fun _ _ ⟨M, hs, _⟩ => ⟨M, by simpa using hs⟩)
    (wp_and ((keeps_statesMirrored_process env getNormalizedIdentifier).invariant (.create units))
      (keeps_sameUnits_process env getNormalizedIdentifier _))

/-- For every set, every normalization and every behaviour of the collaborators, on a normal
    return of `Process` and when an exception escapes, the result `State` of every unit of
    the set is the last unit-level progress state sent for it, and `Unknown` if none was
    sent: the result object the caller reads never disagrees with the progress it was sent. -/
theorem process_statesMirrorProgress :
    wp (process env getNormalizedIdentifier)
      (fun _ p => ∀ j < units.length, (p.info j).result.state = lastState p.log j)
      (fun _ p => ∀ j < units.length, (p.info j).result.state = lastState p.log j)
      (ConfigurationSetApplyProcessor.create units) :=
  wp_mono (fun _ _ ⟨M, hs⟩ j hj => M j (hs ▸ hj)) (fun _ _ ⟨M, hs⟩ j hj => M j (hs ▸ hj))
    (process_statesMirrored_size env getNormalizedIdentifier units)

/-- The last state of a progress sequence a unit can get is never `InProgress`. -/
theorem lastState_ne_inProgress {log : List Event} {j : Nat}
    (h : AllowedProgress (unitStates log j)) : lastState log j ≠ .inProgress := by
  rcases h with h | h | h | h <;> simp [lastState, h]

/-- The last state of a processed unit's progress is `Completed` or `Skipped`. -/
theorem lastState_of_processedProgress {log : List Event} {j : Nat}
    (h : ProcessedProgress (unitStates log j)) :
    lastState log j = .completed ∨ lastState log j = .skipped := by
  rcases h with h | h <;> simp [lastState, h]

/-- For every set, every normalization and every behaviour of the collaborators, on a normal
    return of `Process` and also when an exception escapes it, no unit of the set is left with
    the result `State` `InProgress`, and every unit that `ProcessUnit` marked processed ends
    `Completed` or `Skipped`: the scope exit of `ProcessUnit` sends `Completed` on every way
    out of a unit's run. -/
theorem process_noUnitLeftInProgress :
    wp (process env getNormalizedIdentifier)
      (fun _ p => ∀ j < units.length, (p.info j).result.state ≠ .inProgress ∧
        ((p.info j).processed = true →
          (p.info j).result.state = .completed ∨ (p.info j).result.state = .skipped))
      (fun _ p => ∀ j < units.length, (p.info j).result.state ≠ .inProgress ∧
        ((p.info j).processed = true →
          (p.info j).result.state = .completed ∨ (p.info j).result.state = .skipped))
      (ConfigurationSetApplyProcessor.create units) := by
  refine wp_mono (fun _ _ ⟨⟨M, hs⟩, L⟩ j hj => ?_) (fun _ _ ⟨⟨M, hs⟩, L⟩ j hj => ?_)
    (wp_and (process_statesMirrored_size env getNormalizedIdentifier units)
      (process_logInv env getNormalizedIdentifier units))
  all_goals
    rw [M j (hs ▸ hj)]
    exact ⟨lastState_ne_inProgress (L.progress j hj).1,
      fun hp => lastState_of_processedProgress ((L.progress j hj).2 hp)⟩

-- ---------------------------------------------------------------------------
-- Set-level events and validation
-- ---------------------------------------------------------------------------

/-- The state a set-level event sends. -/
@[simp] def Event.setState? : Event → Option ConfigurationSetState
  | .setProgress state => some state
  | _ => none

/-- The set-level states sent, in order. -/
def setStates (log : List Event) : List ConfigurationSetState := log.filterMap Event.setState?

theorem setStates_eq_nil {L : List Event} (h : ∀ e ∈ L, e.setState? = none) : setStates L = [] :=
  List.filterMap_eq_nil_iff.2 h

variable {getNormalizedIdentifier}

/-- Validation sends no set-level event. -/
theorem keeps_noSetEvent_preProcess :
    Keeps (Appends fun _ e => e.setState? = none) (preProcess getNormalizedIdentifier) :=
  keeps_preProcess (R := Appends fun _ e => e.setState? = none) (fun _ _ _ _ => .of_log_eq rfl)
    (fun _ _ _ => Appends.rfl.progress (by intros; rfl) _ _) _ (fun _ _ _ => .of_log_eq rfl)
    (fun _ _ => .of_log_eq rfl) (fun _ _ => Appends.rfl.emit rfl)

/-- The real run sends no set-level event: `ProcessUnit` and the phases send unit events only. -/
theorem keeps_noSetEvent_realRun :
    Keeps (Appends fun _ e => e.setState? = none)
      (processInternal hasProcessedSuccessfully (processUnit env) true) :=
  keeps_realRun (R := Appends fun _ e => e.setState? = none) (fun _ _ _ _ => .of_log_eq rfl)
    (fun _ _ _ => Appends.rfl.progress (by intros; rfl) _ _) (fun _ _ => .of_log_eq rfl) env
    (Appends.processUnit (fun _ e he => by cases e <;> first | rfl | cases he) env)

variable (getNormalizedIdentifier) in
/-- For every set, every normalization and every behaviour of the collaborators, `Process`
    sends exactly the set-level events its code has, at their places. On a normal return the
    log is what validation logged, then, if validation passed, the set's `InProgress` and the
    real run, and last the set's `Completed` and the summary; on an exception (possible only
    after validation passed) it is what validation logged, `InProgress`, the real run and the
    summary. Neither validation nor the real run sends a set-level event. -/
theorem process_setProgress :
    wp (process env getNormalizedIdentifier)
      (fun _ p => ∃ p₀ B c a b d, setStates p₀.log = [] ∧ setStates B = [] ∧
        (preProcess getNormalizedIdentifier (ConfigurationSetApplyProcessor.create units) = .ok false p₀ ∧
            p.log = p₀.log ++ [.setProgress .completed, .processingSummary c a b d] ∨
          preProcess getNormalizedIdentifier (ConfigurationSetApplyProcessor.create units) = .ok true p₀ ∧
            p.log = p₀.log ++ .setProgress .inProgress :: B ++
              [.setProgress .completed, .processingSummary c a b d]))
      (fun _ p => ∃ p₀ B c a b d, setStates p₀.log = [] ∧ setStates B = [] ∧
        preProcess getNormalizedIdentifier (ConfigurationSetApplyProcessor.create units) = .ok true p₀ ∧
        p.log = p₀.log ++ .setProgress .inProgress :: B ++ [.processingSummary c a b d])
      (ConfigurationSetApplyProcessor.create units) := by
  simp only [process, wp_tryCatch, wp_bind]
  refine wp_mono (fun ok p₁ ⟨⟨_, hN⟩, hval⟩ => ?_) (fun _ _ h => h.1.1.elim)
    (wp_and (wp_and preProcess_spec (keeps_noSetEvent_preProcess _)) (wp_self _ _))
  obtain ⟨L₁, hL₁, hN₁⟩ := hN.exists_forall
  rw [ConfigurationSetApplyProcessor.create_log, List.nil_append] at hL₁
  have h₁ : setStates p₁.log = [] := hL₁ ▸ setStates_eq_nil hN₁
  cases ok
  case false =>
    simp only [Bool.false_eq_true, if_false, wp_bind, wp_pure, wp_sendSetProgress, wp_get,
      wp_logProcessingSummary, wp_logProcessingSummaryForApply]
    exact ⟨p₁, [], _, _, _, _, h₁, rfl, .inl ⟨hval, List.append_assoc _ _ _⟩⟩
  case true =>
    -- the real run, between the set's InProgress and its Completed
    simp only [if_true, wp_bind, wp_sendSetProgress, wp_pure, wp_get, wp_logProcessingSummary,
      wp_logProcessingSummaryForApply, wp_throw]
    refine wp_mono (fun _ p₃ h => ?_) (fun _ p₃ h => ?_) (keeps_noSetEvent_realRun env _)
    all_goals
      obtain ⟨L, hL, hN⟩ := h.exists_forall
      have hlog : ∀ tail, p₃.log ++ tail = p₁.log ++ .setProgress .inProgress :: L ++ tail := by
        simp [hL]
    · exact ⟨p₁, L, _, _, _, _, h₁, setStates_eq_nil hN,
        .inr ⟨hval, (List.append_assoc _ _ _).trans (hlog [_, _])⟩⟩
    · exact ⟨p₁, L, _, _, _, _, h₁, setStates_eq_nil hN, hval, hlog [_]⟩

/-- Validation logs no quiet entry but the dry run's marks. -/
theorem keeps_marksOnly_preProcess :
    Keeps (Appends fun _ e => e.isQuiet → ∃ j, e = .markPreprocessed j)
      (preProcess getNormalizedIdentifier) :=
  keeps_preProcess (R := Appends fun _ e => e.isQuiet → ∃ j, e = .markPreprocessed j)
    (fun _ _ _ _ => .of_log_eq rfl)
    (fun _ _ _ => Appends.rfl.progress (by intro _ _ _ h; cases h) _ _) _
    (fun _ _ _ => .of_log_eq rfl) (fun _ _ => .of_log_eq rfl)
    (fun _ _ => Appends.rfl.emit fun _ => ⟨_, rfl⟩)

variable (getNormalizedIdentifier) in
/-- For every set and every normalization, validation returns (it throws nothing), and it
    talks to no collaborator: the only entries it logs are the dry run's marks and, when it
    rejects the set, the `Completed` of the units it flags. It makes no call on a processor,
    polls no cancellation, sends no set-level event and logs no summary. -/
theorem preProcess_quiet :
    ∃ ok p₀,
      preProcess getNormalizedIdentifier (ConfigurationSetApplyProcessor.create units) = .ok ok p₀ ∧
      ∀ e ∈ p₀.log,
        (ok = false ∧ ∃ j, e = .unitProgress j .completed) ∨ ∃ j, e = .markPreprocessed j := by
  obtain ⟨ok, p₀, hrun, V, -⟩ := (@preProcess_spec getNormalizedIdentifier units).exists_ok
  obtain ⟨L, hL, hmarks⟩ := ((keeps_marksOnly_preProcess _).of_ok hrun).exists_forall
  rw [ConfigurationSetApplyProcessor.create_log, List.nil_append] at hL
  refine ⟨ok, p₀, hrun, fun e he => ?_⟩
  rcases V.log e he with ⟨j, rfl⟩ | ⟨hq, -⟩
  · cases ok
    · exact .inl ⟨rfl, j, rfl⟩
    · -- a set that passed logs quiet entries only
      cases (V.passed rfl).2.2.2.1 _ he
  · exact .inr (hmarks e (hL ▸ he) hq)

end ConfigurationSetApply
