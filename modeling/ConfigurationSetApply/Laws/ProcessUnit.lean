-- SUMMARY: What ProcessUnit does: the frame of a unit run, the guard and honesty of polls and calls, and the unfolding of ProcessUnit into its four ways out.
import ConfigurationSetApply.Trace.Log

/-!
# Laws of `ProcessUnit`

`runUnitProcessor` touches one unit: it may change the result information and the two
result flags of the unit at `i`, and it appends only polls and calls on that unit's
processors (`RunFrame`). It keeps every call behind a poll that found the token clear
and records each poll honestly (`RunPost`), and when it returns `true` the unit's result
information is as it found it.

`wp_processUnit` unfolds `ProcessUnit` into its four ways out: cancelled at the first
poll, manually skipped, and the run returning or throwing. Every later proof about
`ProcessUnit` starts from it and uses `runUnitProcessor_spec` for the run.
-/

namespace ConfigurationSetApply

open WingetConfigError

/-- The fields of a unit record that running the unit leaves alone. -/
def UnitInfo.RunFrame (u' u : UnitInfo) : Prop :=
  u'.unit = u.unit ∧ u'.dependencyIndices = u.dependencyIndices ∧
    u'.preProcessed = u.preProcessed ∧ u'.processed = u.processed ∧
    u'.result.state = u.result.state

/-- From `p` to `p'` only the result information and result flags of the unit at `i`
    changed, and the log grew by polls and calls on that unit. -/
def RunFrame (i : Nat) (p p' : ConfigurationSetApplyProcessor) : Prop :=
  p'.size = p.size ∧ (∀ j, i ≠ j → p'.info j = p.info j) ∧ (p'.info i).RunFrame (p.info i) ∧
    p'.resultCode = p.resultCode ∧ p'.idToUnitInfoIndex = p.idToUnitInfoIndex ∧
    ∃ L, p'.log = p.log ++ L ∧ ∀ e ∈ L, e.isTrafficOf i

theorem RunFrame.trans {i : Nat} {p₁ p₂ p₃ : ConfigurationSetApplyProcessor}
    (h₁ : RunFrame i p₁ p₂) (h₂ : RunFrame i p₂ p₃) : RunFrame i p₁ p₃ := by
  obtain ⟨s₁, o₁, ⟨u₁, d₁, pp₁, pr₁, st₁⟩, r₁, m₁, L₁, hL₁, t₁⟩ := h₁
  obtain ⟨s₂, o₂, ⟨u₂, d₂, pp₂, pr₂, st₂⟩, r₂, m₂, L₂, hL₂, t₂⟩ := h₂
  refine ⟨s₂.trans s₁, fun j hj => (o₂ j hj).trans (o₁ j hj), ⟨u₂.trans u₁, d₂.trans d₁,
    pp₂.trans pp₁, pr₂.trans pr₁, st₂.trans st₁⟩, r₂.trans r₁, m₂.trans m₁,
    L₁ ++ L₂, by rw [hL₂, hL₁, List.append_assoc], ?_⟩
  simp only [List.mem_append]
  rintro e (he | he)
  · exact t₁ e he
  · exact t₂ e he

theorem RunFrame.modifyUnit {i : Nat} {p p' : ConfigurationSetApplyProcessor}
    {f : UnitInfo → UnitInfo} (h : RunFrame i p p') (hf : ∀ u, (f u).RunFrame u) :
    RunFrame i p (p'.modifyUnit i f) := by
  obtain ⟨hs, ho, ⟨hu, hd, hpp, hpr, hst⟩, hr, hm, hl⟩ := h
  refine ⟨by simpa using hs, fun j hj => by simpa [hj] using ho j hj, ?_, hr, hm, hl⟩
  rw [ConfigurationSetApplyProcessor.modifyUnit_info]
  split
  · obtain ⟨a, b, c, d, e⟩ := hf (p'.info i)
    exact ⟨a.trans hu, b.trans hd, c.trans hpp, d.trans hpr, e.trans hst⟩
  · exact ⟨hu, hd, hpp, hpr, hst⟩

theorem RunFrame.refl {i : Nat} {p : ConfigurationSetApplyProcessor} : RunFrame i p p :=
  ⟨rfl, fun _ _ => rfl, ⟨rfl, rfl, rfl, rfl, rfl⟩, rfl, rfl, [], by simp, by simp⟩

/-- A poll or a call on the unit's processors keeps the frame. -/
theorem RunFrame.emit {i : Nat} {p p' : ConfigurationSetApplyProcessor} {e : Event}
    (h : RunFrame i p p') (he : e.isTrafficOf i) : RunFrame i p (p'.emit e) :=
  h.trans ⟨rfl, fun _ _ => rfl, ⟨rfl, rfl, rfl, rfl, rfl⟩, rfl, rfl, [e], rfl, by simpa⟩

instance (i : Nat) : IsPreorder _ (RunFrame i) where
  refl _ := .refl
  trans _ _ _ := RunFrame.trans

variable (env : Collaborators)

/-- What a run of the unit at `i` from `p` to `p'` keeps: its frame, the guard of every
    call and the honesty of every poll. -/
def RunPost (i : Nat) (p p' : ConfigurationSetApplyProcessor) : Prop :=
  RunFrame i p p' ∧ CallsGuarded p'.log ∧ PollsHonest env p'.log

variable {env} {i : Nat} {p p₁ p₂ : ConfigurationSetApplyProcessor}

namespace RunPost

/-- A run that has done nothing yet. -/
theorem start (hguard : CallsGuarded p.log) (hhonest : PollsHonest env p.log) :
    RunPost env i p p :=
  ⟨.refl, hguard, hhonest⟩

theorem trans (h₁ : RunPost env i p p₁) (h₂ : RunPost env i p₁ p₂) : RunPost env i p p₂ :=
  ⟨h₁.1.trans h₂.1, h₂.2⟩

/-- A poll or a call on the unit's processors keeps the run's post, a call behind a clear
    poll and a poll that observes the token as it stands. -/
theorem emit {e : Event} (h : RunPost env i p p₁) (he : e.isTrafficOf i)
    (hguard : e.isCall → lastPoll p₁.log = some false)
    (hhonest : ∀ b, e = .throwIfCancelled b → b = env.isCancelled p₁.log) :
    RunPost env i p (p₁.emit e) := by
  refine ⟨h.1.emit he, ?_, ?_⟩
  · rw [CallsGuarded, ConfigurationSetApplyProcessor.emit_log, everyEntry_append_singleton]
    exact ⟨h.2.1, hguard⟩
  · rw [PollsHonest, ConfigurationSetApplyProcessor.emit_log, everyEntry_append_singleton]
    exact ⟨h.2.2, hhonest⟩

/-- A call on the unit's processors right after a clear poll. -/
theorem call {e : Event} (h : RunPost env i p p₁) (hlast : lastPoll p₁.log = some false)
    (he : e.isTrafficOf i) (hcall : e.isCall) : RunPost env i p (p₁.emit e) :=
  h.emit he (fun _ => hlast) fun b hb => by simp [hb] at hcall

/-- A poll of the token, observing it as it stands. -/
theorem poll {b : Bool} (h : RunPost env i p p₁) (hb : env.isCancelled p₁.log = b) :
    RunPost env i p (p₁.emit (.throwIfCancelled b)) :=
  h.emit rfl (by simp) fun _ h => by cases h; exact hb.symm

/-- Writing the unit's result keeps the run's post. -/
theorem modifyUnit {f : UnitInfo → UnitInfo} (h : RunPost env i p p₁)
    (hf : ∀ u, (f u).RunFrame u) : RunPost env i p (p₁.modifyUnit i f) :=
  ⟨h.1.modifyUnit hf, h.2⟩

end RunPost

variable (env)

theorem applyIntent_spec (hi : i < p.size) (hguard : CallsGuarded p.log)
    (hlast : lastPoll p.log = some false) (hhonest : PollsHonest env p.log) :
    wp (applyIntent env i)
      (fun b p' => RunPost env i p p' ∧
        (b = true → (p'.info i).resultInformation = (p.info i).resultInformation))
      (fun _ p' => RunPost env i p p') p := by
  -- each intent starts with one call, right after the clear poll
  have call := fun (e : Event) => (RunPost.start (i := i) hguard hhonest).call (e := e) hlast
  -- a branch that writes the unit's result returns false
  have write : ∀ {p₁} (f : UnitInfo → UnitInfo), (∀ u, (f u).RunFrame u) → RunPost env i p p₁ →
      RunPost env i p (p₁.modifyUnit i f) ∧
        (false = true → ((p₁.modifyUnit i f).info i).resultInformation = (p.info i).resultInformation) :=
    fun _ hf h => ⟨h.modifyUnit hf, nofun⟩
  unfold applyIntent
  simp only [wp_bind, wp_get]
  cases hI : (p.info i).unit.intent
  case assert =>
    have h₁ := call (.testSettings i) (by simp) rfl
    simp only [testSettings, wp_bind, wp_callCollaborator]
    split
    next r _ =>
      cases hr : r.testResult <;> simp only [hr, wp_pure, wp_bind, wp_initializeResult, wp_adoptResult]
      case positive => exact ⟨h₁, fun _ => rfl⟩
      all_goals exact write _ (fun _ => ⟨rfl, rfl, rfl, rfl, rfl⟩) h₁
    next => exact h₁
  case inform =>
    have h₁ := call (.getSettings i) (by simp) rfl
    simp only [getSettings, wp_bind, wp_callCollaborator]
    split
    next r _ =>
      simp only [wp_ite, wp_pure, wp_bind, wp_adoptResult]
      split
      · exact ⟨h₁, fun _ => rfl⟩
      · exact write _ (fun _ => ⟨rfl, rfl, rfl, rfl, rfl⟩) h₁
    next => exact h₁
  case apply =>
    have h₁ := call (.testSettings i) (by simp) rfl
    simp only [testSettings, wp_bind, wp_callCollaborator]
    split
    next r _ =>
      cases hr : r.testResult <;> simp only [hr, wp_pure, wp_bind, wp_modifyUnitInfo,
        wp_initializeResult, wp_adoptResult]
      case positive =>
        exact ⟨h₁.modifyUnit fun _ => ⟨rfl, rfl, rfl, rfl, rfl⟩, fun _ => by simp [hi]⟩
      case negative =>
        -- the poll before the apply, then the apply
        simp only [wp_throwIfCancelled, applySettings, wp_bind, wp_callCollaborator]
        split
        next hc => exact h₁.poll hc
        next hc =>
          have h₂ := (h₁.poll (Bool.eq_false_iff.2 hc)).call (e := .applySettings i) (by simp)
            (by simp) rfl
          split
          next a _ =>
            simp only [wp_ite, wp_pure, wp_bind, wp_modifyUnitInfo, wp_adoptResult]
            split
            · exact ⟨h₂.modifyUnit fun _ => ⟨rfl, rfl, rfl, rfl, rfl⟩, fun _ => by simp [hi]⟩
            · exact write _ (fun _ => ⟨rfl, rfl, rfl, rfl, rfl⟩) h₂
          next => exact h₂
      all_goals exact write _ (fun _ => ⟨rfl, rfl, rfl, rfl, rfl⟩) h₁
    next => exact h₁

theorem runUnitProcessor_spec (hi : i < p.size) (hguard : CallsGuarded p.log)
    (hlast : lastPoll p.log = some false) (hhonest : PollsHonest env p.log) :
    wp (runUnitProcessor env i)
      (fun b p' => RunPost env i p p' ∧
        (b = true → (p'.info i).resultInformation = (p.info i).resultInformation))
      (fun _ p' => RunPost env i p p') p := by
  have h₁ := (RunPost.start (i := i) hguard hhonest).call (e := .createUnitProcessor i) hlast
    (by simp) rfl
  unfold runUnitProcessor createUnitProcessor
  simp only [wp_bind, wp_tryCatch, wp_callCollaborator]
  split
  · simp only [wp_pure, Bool.not_true, Bool.false_eq_true, ↓reduceIte, wp_bind,
      wp_throwIfCancelled, wp_tryCatch, wp_extractResult]
    split
    next hc => exact h₁.poll hc
    next hc =>
      -- `applyIntent` from the clear poll; what it throws becomes the unit's result
      have h₂ := h₁.poll (Bool.eq_false_iff.2 hc)
      refine wp_mono (fun _ _ ⟨h, hb⟩ => ⟨h₂.trans h, hb⟩)
        (fun _ _ h => ⟨(h₂.trans h).modifyUnit fun _ => ⟨rfl, rfl, rfl, rfl, rfl⟩, nofun⟩)
        (applyIntent_spec env (by simpa using hi) h₂.2.1 (by simp) h₂.2.2)
  · simp only [wp_bind, wp_extractResult, wp_pure, Bool.not_false, ↓reduceIte]
    exact ⟨h₁.modifyUnit fun _ => ⟨rfl, rfl, rfl, rfl, rfl⟩, nofun⟩

/-! ## Frames from any state -/

/-- `applyIntent` keeps the frame of its unit from every state: it is made of calls on the
    unit's processors, a poll, and writes of the unit's result. -/
theorem applyIntent_keeps (i : Nat) : Keeps (RunFrame i) (applyIntent env i) := by
  unfold applyIntent
  repeat' first
    | with_reducible refine Keeps.bind ?_ fun _ => ?_
    | split
    | with_reducible exact Keeps.pure _
    | with_reducible exact Keeps.get
    | exact Keeps.modify fun _ => RunFrame.refl.modifyUnit fun _ => ⟨rfl, rfl, rfl, rfl, rfl⟩
    | exact keeps_throwIfCancelled env fun _ _ => RunFrame.refl.emit rfl
    | exact keeps_callCollaborator fun _ => RunFrame.refl.emit (by simp)

theorem runUnitProcessor_keeps (i : Nat) : Keeps (RunFrame i) (runUnitProcessor env i) := by
  unfold runUnitProcessor
  repeat' first
    | with_reducible refine Keeps.bind ?_ fun _ => ?_
    | with_reducible refine Keeps.tryCatch ?_ fun _ => ?_
    | split
    | with_reducible exact Keeps.pure _
    | exact applyIntent_keeps env i
    | exact Keeps.modify fun _ => RunFrame.refl.modifyUnit fun _ => ⟨rfl, rfl, rfl, rfl, rfl⟩
    | exact keeps_throwIfCancelled env fun _ _ => RunFrame.refl.emit rfl
    | exact keeps_callCollaborator fun _ => RunFrame.refl.emit (by simp)

/-- From `p` to `p'` only the record of the unit at `i` changed, and it is still a record
    of the same unit. -/
def OnlyUnit (i : Nat) (p p' : ConfigurationSetApplyProcessor) : Prop :=
  p'.size = p.size ∧ (∀ j, i ≠ j → p'.info j = p.info j) ∧ (p'.info i).unit = (p.info i).unit

instance (i : Nat) : IsPreorder _ (OnlyUnit i) where
  refl _ := ⟨rfl, fun _ _ => rfl, rfl⟩
  trans _ _ _ h₁ h₂ :=
    ⟨h₂.1.trans h₁.1, fun j hj => (h₂.2.1 j hj).trans (h₁.2.1 j hj), h₂.2.2.trans h₁.2.2⟩

/-- The table of `p'` holds the units of `p`: as many records, each of the same unit. -/
def SameUnits (p p' : ConfigurationSetApplyProcessor) : Prop :=
  p'.size = p.size ∧ ∀ j, (p'.info j).unit = (p.info j).unit

instance : IsPreorder _ SameUnits where
  refl _ := ⟨rfl, fun _ => rfl⟩
  trans _ _ _ h₁ h₂ := ⟨h₂.1.trans h₁.1, fun j => (h₂.2 j).trans (h₁.2 j)⟩

theorem RunFrame.onlyUnit (h : RunFrame i p p₁) : OnlyUnit i p p₁ := ⟨h.1, h.2.1, h.2.2.1.1⟩

theorem OnlyUnit.sameUnits (h : OnlyUnit i p p₁) : SameUnits p p₁ := by
  refine ⟨h.1, fun j => ?_⟩
  by_cases hij : i = j
  · exact hij ▸ h.2.2
  · rw [h.2.1 j hij]

theorem OnlyUnit.modifyUnit {f : UnitInfo → UnitInfo} (hf : ∀ u, (f u).unit = u.unit) :
    OnlyUnit i p (p.modifyUnit i f) :=
  ⟨by simp, fun j hj => by simp [hj], by simp [hf]⟩

theorem OnlyUnit.progress (state : ConfigurationUnitState) : OnlyUnit i p (p.progress state i) :=
  ⟨by simp, fun j hj => by simp [hj], by simp⟩

theorem OnlyUnit.emit (e : Event) : OnlyUnit i p (p.emit e) := ⟨rfl, fun _ _ => rfl, rfl⟩

/-- `ProcessUnit` changes only the record of its unit, from every state, on every way out. -/
theorem processUnit_keeps (i : Nat) : Keeps (OnlyUnit i) (processUnit env i) := by
  unfold processUnit withCompletedProgress returnResult
  repeat' first
    | with_reducible refine Keeps.bind ?_ fun _ => ?_
    | with_reducible refine Keeps.tryCatch ?_ fun _ => ?_
    | split
    | with_reducible exact Keeps.pure _
    | with_reducible exact Keeps.throw _
    | with_reducible exact Keeps.get
    | exact (runUnitProcessor_keeps env i).mono fun _ _ => RunFrame.onlyUnit
    | exact Keeps.modify fun _ => .emit _
    | exact Keeps.modify fun _ => .progress _
    | exact Keeps.modify fun _ => .modifyUnit fun _ => rfl
    | exact keeps_throwIfCancelled env fun _ _ => .emit _

/-- `MarkPreprocessed` changes only the record of its unit. -/
theorem markPreprocessed_keeps (i : Nat) : Keeps (OnlyUnit i) (markPreprocessed i) :=
  (Keeps.modify fun _ => .emit _).bind fun _ =>
    (Keeps.modify fun _ => .modifyUnit fun _ => rfl).bind fun _ => Keeps.pure _

/-- The state after `ProcessUnit` returns `result` for the unit at `i` from `p`: the
    ghost entry with the table as it stands. -/
def ConfigurationSetApplyProcessor.returnFrom (p : ConfigurationSetApplyProcessor) (i : Nat)
    (result : Bool) : ConfigurationSetApplyProcessor :=
  p.emit (.processUnitResult i result p.unitInfo)

namespace ConfigurationSetApplyProcessor

variable (p : ConfigurationSetApplyProcessor) (i : Nat) (result : Bool)

@[simp] theorem returnFrom_info (j : Nat) : (p.returnFrom i result).info j = p.info j := rfl
@[simp] theorem returnFrom_size : (p.returnFrom i result).size = p.size := rfl
@[simp] theorem returnFrom_resultCode : (p.returnFrom i result).resultCode = p.resultCode := rfl
@[simp] theorem returnFrom_unitInfo : (p.returnFrom i result).unitInfo = p.unitInfo := rfl
@[simp] theorem returnFrom_log :
    (p.returnFrom i result).log = p.log ++ [.processUnitResult i result p.unitInfo] := rfl

end ConfigurationSetApplyProcessor

/-- `ProcessUnit` ends in one of four ways: cancelled at its first poll, manually
    skipped, or after running the unit, normally or by an exception. -/
theorem wp_processUnit {Q : Bool → ConfigurationSetApplyProcessor → Prop}
    {E : Exception → ConfigurationSetApplyProcessor → Prop} (hi : i < p.size) :
    wp (processUnit env i) Q E p =
      let p₀ := p.emit (.processUnit i p.unitInfo)
      if env.isCancelled p₀.log then E .cancelled (p₀.emit (.throwIfCancelled true))
      else
        let p₁ := (p₀.emit (.throwIfCancelled false)).modifyUnit i
          fun u => { u with processed := true }
        if (p.info i).unit.shouldApply then
          wp (runUnitProcessor env i)
            (fun b p₃ => Q b ((p₃.progress .completed i).returnFrom i b))
            (fun e p₃ => E e (p₃.progress .completed i)) (p₁.progress .inProgress i)
        else
          let skip := fun u : UnitInfo =>
            { u with resultInformation := u.resultInformation.initializeWith manuallySkipped .precondition }
          Q true (((p₁.modifyUnit i skip).progress .skipped i).returnFrom i true) := by
  simp only [processUnit, withCompletedProgress, returnResult, wp_bind, wp_get, wp_logEvent,
    wp_throwIfCancelled, wp_modifyUnitInfo]
  split
  · rfl
  · cases h : (p.info i).unit.shouldApply <;>
      simp [hi, h, ConfigurationSetApplyProcessor.returnFrom]

/-! ## What escapes `ProcessUnit` -/

/-- The exception a member function may let escape: the cancellation, with the poll that
    observed the token set still the last poll of the log. -/
def Cancelled (e : Exception) (p : ConfigurationSetApplyProcessor) : Prop :=
  e = .cancelled ∧ lastPoll p.log = some true

/-- Every exception of a collaborator becomes the unit's result; only the cancellation of
    the poll before `applyIntent` escapes. -/
theorem runUnitProcessor_throws (i : Nat) (p : ConfigurationSetApplyProcessor) :
    wp (runUnitProcessor env i) (fun _ _ => True) Cancelled p := by
  unfold runUnitProcessor createUnitProcessor
  simp only [wp_bind, wp_tryCatch, wp_callCollaborator]
  split
  · simp only [wp_pure, Bool.not_true, Bool.false_eq_true, ↓reduceIte, wp_bind,
      wp_throwIfCancelled, wp_tryCatch, wp_extractResult]
    split
    · exact ⟨rfl, by simp⟩
    · exact wp_mono (fun _ _ _ => trivial) (fun _ _ _ => trivial) (wp_self _ _)
  · simp

/-- Only a cancellation escapes `ProcessUnit`, observed by its last poll: the progress
    the scope exit sends on the way out is no poll. -/
theorem processUnit_throws (i : Nat) (p : ConfigurationSetApplyProcessor) :
    wp (processUnit env i) (fun _ _ => True) Cancelled p := by
  simp only [processUnit, withCompletedProgress, returnResult, wp_bind, wp_get, wp_logEvent,
    wp_throwIfCancelled, wp_modifyUnitInfo]
  split
  · exact ⟨rfl, by simp⟩
  · split
    · simp
    · simp only [wp_sendProgress, wp_tryCatch, wp_bind, wp_throw]
      exact wp_mono (fun _ _ _ => by simp) (fun _ _ h => ⟨h.1, by simpa using h.2⟩)
        (runUnitProcessor_throws env i _)

/-! ## The outcome of `ProcessUnit` -/

/-- An entry a run of the unit at `i` appends after its first poll: a poll, a call on
    that unit's processors, or progress for that unit. -/
@[simp] def Event.isRunOf (i : Nat) : Event → Bool
  | .unitProgress j _ => j == i
  | e => e.isTrafficOf i

/-- An entry of a unit run is no entry or return of `ProcessUnit`, and no progress for
    another unit. -/
theorem Event.isRunOf_views {i : Nat} {e : Event} (h : e.isRunOf i) :
    e.executed? = none ∧ e.returned? = none ∧ ∀ j, i ≠ j → e.unitState? j = none := by
  cases e <;> simp_all

theorem Event.isRunOf_of_isTrafficOf {i : Nat} {e : Event} (h : e.isTrafficOf i) :
    e.isRunOf i := by
  cases e <;> simp_all

section RunEntries

variable {i : Nat} {L : List Event} (h : ∀ e ∈ L, e.isRunOf i)
include h

theorem executions_of_isRunOf : executions L = [] :=
  List.filterMap_eq_nil_iff.2 fun _ he => (Event.isRunOf_views (h _ he)).1

theorem returns_of_isRunOf : returns L = [] :=
  List.filterMap_eq_nil_iff.2 fun _ he => (Event.isRunOf_views (h _ he)).2.1

theorem unitStates_of_isRunOf {j : Nat} (hij : i ≠ j) : unitStates L j = [] :=
  List.filterMap_eq_nil_iff.2 fun _ he => (Event.isRunOf_views (h _ he)).2.2 j hij

end RunEntries

theorem unitStates_of_isTrafficOf {i j : Nat} {L : List Event} (h : ∀ e ∈ L, e.isTrafficOf i) :
    unitStates L j = [] :=
  List.filterMap_eq_nil_iff.2 fun e he => by have := h e he; cases e <;> simp at this ⊢

/-- `ProcessUnit` on the unit at `i` returned `result`, from `p` to `p'`: the unit is
    processed and in a terminal state, no other unit changed, and the log grew by the
    entry, the run and the return. -/
structure UnitReturned (i : Nat) (p p' : ConfigurationSetApplyProcessor) (result : Bool) :
    Prop where
  size : p'.size = p.size
  resultCode : p'.resultCode = p.resultCode
  info_ne : ∀ j, i ≠ j → p'.info j = p.info j
  unit : (p'.info i).unit = (p.info i).unit
  dependencyIndices : (p'.info i).dependencyIndices = (p.info i).dependencyIndices
  processed : (p'.info i).processed = true
  state : (p'.info i).result.state =
    if (p.info i).unit.shouldApply then .completed else .skipped
  skip : (p.info i).unit.shouldApply = false → result = true ∧
    (p'.info i).resultInformation =
      (p.info i).resultInformation.initializeWith manuallySkipped .precondition
  kept : (p.info i).unit.shouldApply = true → result = true →
    (p'.info i).resultInformation = (p.info i).resultInformation
  log : ∃ L, (∀ e ∈ L, e.isRunOf i) ∧
    unitStates L i = (if (p.info i).unit.shouldApply then [.inProgress, .completed] else [.skipped]) ∧
    p'.log = p.log ++ .processUnit i p.unitInfo :: L ++ [.processUnitResult i result p'.unitInfo]
  guarded : CallsGuarded p'.log
  honest : PollsHonest env p'.log

/-- `ProcessUnit` on the unit at `i` threw, from `p` to `p'`: no other unit changed, and
    either the unit is as it was and got no progress (the first poll threw), or it is
    processed and got `InProgress` and `Completed`. -/
structure UnitThrew (i : Nat) (p p' : ConfigurationSetApplyProcessor) : Prop where
  size : p'.size = p.size
  info_ne : ∀ j, i ≠ j → p'.info j = p.info j
  log : ∃ L, (∀ e ∈ L, e.isRunOf i) ∧ p'.log = p.log ++ .processUnit i p.unitInfo :: L ∧
    (p'.info i = p.info i ∧ unitStates L i = [] ∨
      (p'.info i).processed = true ∧ unitStates L i = [.inProgress, .completed])
  guarded : CallsGuarded p'.log
  honest : PollsHonest env p'.log

theorem processUnit_outcome (hi : i < p.size) (hguard : CallsGuarded p.log)
    (hhonest : PollsHonest env p.log) :
    wp (processUnit env i) (fun result p' => UnitReturned env i p p' result)
      (fun _ p' => UnitThrew env i p p') p := by
  rw [wp_processUnit env hi]
  dsimp only
  split
  case isTrue hc =>
    -- cancelled at the first poll
    refine ⟨rfl, fun _ _ => rfl, ⟨[.throwIfCancelled true], by simp, by simp, .inl ⟨rfl, rfl⟩⟩,
      ?_, ?_⟩
    · simpa [callsGuarded_append] using hguard
    · simpa [pollsHonest_append, hhonest] using hc
  case isFalse hc =>
    simp only [ConfigurationSetApplyProcessor.emit_log, Bool.not_eq_true] at hc
    split
    case isTrue hs =>
      -- the unit runs, between its InProgress and its Completed
      refine wp_mono ?_ ?_ (runUnitProcessor_spec env (p := _) (by simpa using hi)
        (by simpa [callsGuarded_append] using hguard) (by simp)
        (by simpa [pollsHonest_append, hhonest] using hc))
      · rintro b p₃ ⟨⟨⟨hsz, ho, ⟨hu, hd, -, hpr, -⟩, hr, -, L, hL, ht⟩, hg, hh⟩, hb⟩
        simp only [ConfigurationSetApplyProcessor.progress_info_unit,
          ConfigurationSetApplyProcessor.modifyUnit_info_unit] at hu
        constructor
        case log =>
          refine ⟨[.throwIfCancelled false, .unitProgress i .inProgress] ++ L ++
            [.unitProgress i .completed], ?_, ?_, ?_⟩
          · exact List.forall_mem_append.2 ⟨List.forall_mem_append.2
              ⟨by simp, fun e he => Event.isRunOf_of_isTrafficOf (ht e he)⟩, by simp⟩
          · simp [hs, unitStates_of_isTrafficOf ht]
          · simp [hL]
        all_goals simp +contextual [hi, hs, hsz, ho, hu, hd, hpr, hr, hb,
          callsGuarded_append_of_forall, pollsHonest_append_of_forall, hg, hh,
          ConfigurationSetApplyProcessor.modifyUnit_info]
      · rintro e p₃ ⟨⟨hsz, ho, ⟨-, -, -, hpr, -⟩, -, -, L, hL, ht⟩, hg, hh⟩
        constructor
        case log =>
          refine ⟨[.throwIfCancelled false, .unitProgress i .inProgress] ++ L ++
            [.unitProgress i .completed], ?_, by simp [hL], .inr ⟨?_, ?_⟩⟩
          · exact List.forall_mem_append.2 ⟨List.forall_mem_append.2
              ⟨by simp, fun e he => Event.isRunOf_of_isTrafficOf (ht e he)⟩, by simp⟩
          · simp [hpr, hsz, hi]
          · simp [unitStates_of_isTrafficOf ht]
        all_goals simp +contextual [hsz, ho, callsGuarded_append_of_forall,
          pollsHonest_append_of_forall, hg, hh]
    case isFalse hs =>
      -- manually skipped
      constructor
      case log => exact ⟨[.throwIfCancelled false, .unitProgress i .skipped], by simp, by simp [hs],
        by simp⟩
      all_goals simp +contextual [hi, hs, hc, ConfigurationSetApplyProcessor.modifyUnit_info,
        callsGuarded_append_of_forall, pollsHonest_append, hguard, hhonest]

/-! ### What the log of a unit run shows -/

section Views

variable {env : Collaborators} {i : Nat} {p p' : ConfigurationSetApplyProcessor}

/-- A property of each entry with the log before it, trivial on all but `ProcessUnit`
    entries, holds after a unit run iff it held before and holds of the new entry. -/
theorem everyEntry_unitRun {P : List Event → Event → Prop}
    (hP : ∀ pre e, e.executed? = none → P pre e) {L L' : List Event}
    (hL : ∀ e ∈ L, e.isRunOf i) (hL' : ∀ e ∈ L', e.executed? = none) :
    EveryEntry P (p.log ++ .processUnit i p.unitInfo :: L ++ L') ↔
      EveryEntry P p.log ∧ P p.log (.processUnit i p.unitInfo) := by
  have hnone : ∀ e ∈ L ++ L', e.executed? = none := by
    simp only [List.mem_append]
    rintro e (he | he)
    · exact (Event.isRunOf_views (hL e he)).1
    · exact hL' e he
  rw [List.append_assoc, List.cons_append, everyEntry_append, everyEntry_cons, List.append_nil]
  exact ⟨fun h => ⟨h.1, h.2.1⟩, fun h => ⟨h.1, h.2, EveryEntry.of_forall fun e he _ =>
    hP _ e (hnone e he)⟩⟩

namespace UnitReturned

variable {result : Bool} (h : UnitReturned env i p p' result)
include h

theorem executions_eq : executions p'.log = executions p.log ++ [i] := by
  obtain ⟨L, hL, -, heq⟩ := h.log
  simp [heq, executions_of_isRunOf hL]

theorem returns_eq : returns p'.log = returns p.log ++ [(i, result)] := by
  obtain ⟨L, hL, -, heq⟩ := h.log
  simp [heq, returns_of_isRunOf hL]

theorem log_prefix : p.log <+: p'.log := by
  obtain ⟨L, -, -, heq⟩ := h.log
  rw [heq, List.append_assoc]
  exact List.prefix_append _ _

theorem unitStates_ne {j : Nat} (hij : i ≠ j) : unitStates p'.log j = unitStates p.log j := by
  obtain ⟨L, hL, -, heq⟩ := h.log
  simp [heq, unitStates_of_isRunOf hL hij]

theorem unitStates_self : unitStates p'.log i = unitStates p.log i ++
    if (p.info i).unit.shouldApply then [.inProgress, .completed] else [.skipped] := by
  obtain ⟨L, -, hs, heq⟩ := h.log
  simp [heq, hs]

theorem everyEntry_iff {P : List Event → Event → Prop}
    (hP : ∀ pre e, e.executed? = none → P pre e) :
    EveryEntry P p'.log ↔ EveryEntry P p.log ∧ P p.log (.processUnit i p.unitInfo) := by
  obtain ⟨L, hL, -, heq⟩ := h.log
  rw [heq]
  exact everyEntry_unitRun hP hL (by simp)

/-- The return entries after the run are those before it and the run's own. -/
theorem mem_log_returned {j : Nat} {b : Bool} {table : List UnitInfo}
    (hm : .processUnitResult j b table ∈ p'.log) :
    .processUnitResult j b table ∈ p.log ∨ (j = i ∧ b = result ∧ table = p'.unitInfo) := by
  obtain ⟨L, hL, -, heq⟩ := h.log
  rw [heq] at hm
  simp only [List.append_assoc, List.cons_append, List.mem_append, List.mem_cons,
    List.mem_singleton, Event.processUnitResult.injEq, reduceCtorEq, false_or, List.not_mem_nil,
    or_false] at hm
  rcases hm with hm | hm | hm
  · exact .inl hm
  · simpa using hL _ hm
  · exact .inr hm

end UnitReturned

namespace UnitThrew

variable (h : UnitThrew env i p p')
include h

theorem executions_eq : executions p'.log = executions p.log ++ [i] := by
  obtain ⟨L, hL, heq, -⟩ := h.log
  simp [heq, executions_of_isRunOf hL]

theorem returns_eq : returns p'.log = returns p.log := by
  obtain ⟨L, hL, heq, -⟩ := h.log
  simp [heq, returns_of_isRunOf hL]

theorem unitStates_ne {j : Nat} (hij : i ≠ j) : unitStates p'.log j = unitStates p.log j := by
  obtain ⟨L, hL, heq, -⟩ := h.log
  simp [heq, unitStates_of_isRunOf hL hij]

theorem everyEntry_iff {P : List Event → Event → Prop}
    (hP : ∀ pre e, e.executed? = none → P pre e) :
    EveryEntry P p'.log ↔ EveryEntry P p.log ∧ P p.log (.processUnit i p.unitInfo) := by
  obtain ⟨L, hL, heq, -⟩ := h.log
  rw [heq, ← List.append_nil (_ :: L), ← List.append_assoc]
  exact everyEntry_unitRun hP hL (by simp)

end UnitThrew

end Views

end ConfigurationSetApply
