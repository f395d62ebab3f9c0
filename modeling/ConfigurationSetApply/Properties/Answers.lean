-- SUMMARY: What a unit's result rests on: PreviouslyInDesiredState and RebootRequired are set only on the answers that justify them, a ProcessUnit that returns true rests on a positive answer and one that returns false on an exception or a refusing answer that gave its result information, and a set whose code succeeds rests on the answers of all its units.
import ConfigurationSetApply.Laws.Frames

/-!
# What the results rest on

A unit's result carries what its processors answered. `PreviouslyInDesiredState` is set
only for an Apply unit whose `TestSettings` answered `Positive`, and `RebootRequired` only
for an Apply unit whose `ApplySettings` succeeded and asked for a reboot. `ProcessUnit`
returns `true` only for a unit it skips or one whose calls answered what its intent needs:
a `Positive` test for an Assert unit, a `GetSettings` that succeeded for an Inform unit,
and for an Apply unit a `Positive` test or an `ApplySettings` that succeeded.

An answer is read off the log: `Answered call answer P log` holds when `log` holds the
call and the collaborator, asked with the log as it stood then, answered something that
`P` holds of. `applyIntent_explained` says once what the `switch` of `ProcessUnit` does with
the answers. `Justified` collects the three facts for every unit; `ProcessUnit` keeps it
from every state (`processUnit_keepsJustified`), and the frames of `Laws.Frames` carry it
over the rest of `Process`.

A `false` is explained the same way (`process_failuresExplained`): `CreateUnitProcessor`
threw, an exception escaped the `switch` (`Threw`, `ThrownBy`), or an answer refused the
unit (`Refused`), and the result information the unit returned with is what
`ExtractUnitResultInformation` made of the exception or what the answer gave.
-/

namespace ConfigurationSetApply

open WingetConfigError

variable (env : Collaborators)

-- ---------------------------------------------------------------------------
-- Answers in the log
-- ---------------------------------------------------------------------------

/-- `log` holds the call `call`, which the collaborator, asked with the log up to and with
    the call, answered with some `r` such that `P r`. -/
def Answered {α : Type} (call : Event) (answer : List Event → Except Exception α) (P : α → Prop)
    (log : List Event) : Prop :=
  ∃ B r, B ++ [call] <+: log ∧ answer (B ++ [call]) = .ok r ∧ P r

/-- `TestSettings` on the unit at `j` answered `Positive`. -/
def TestedPositive (j : Nat) : List Event → Prop :=
  Answered (.testSettings j) (env.testSettings j) (·.testResult = .positive)

/-- `GetSettings` on the unit at `j` answered with a code that succeeds. -/
def GotSettings (j : Nat) : List Event → Prop :=
  Answered (.getSettings j) (env.getSettings j) (succeeded ·.resultInformation.resultCode)

/-- `ApplySettings` on the unit at `j` answered with a code that succeeds and with
    `rebootRequired`. -/
def AppliedWith (j : Nat) (rebootRequired : Bool) : List Event → Prop :=
  Answered (.applySettings j) (env.applySettings j)
    (fun r => succeeded r.resultInformation.resultCode ∧ r.rebootRequired = rebootRequired)

/-- The answers on which `ProcessUnit` returns `true` for a unit of `intent` at `j`. -/
def IntentAnswered (j : Nat) (log : List Event) : ConfigurationUnitIntent → Prop
  | .assert => TestedPositive env j log
  | .inform => GotSettings env j log
  | .apply => TestedPositive env j log ∨ ∃ rebootRequired, AppliedWith env j rebootRequired log

variable {env}

section Answered

variable {α : Type} {call : Event} {answer : List Event → Except Exception α} {P : α → Prop}
  {log log' : List Event}

theorem Answered.mono (h : Answered call answer P log) (hl : log <+: log') :
    Answered call answer P log' :=
  let ⟨B, r, hB, hr, hP⟩ := h
  ⟨B, r, hB.trans hl, hr, hP⟩

/-- The call just made, with its answer. -/
theorem Answered.last {r : α} (hr : answer (log ++ [call]) = .ok r) (hP : P r) :
    Answered call answer P (log ++ [call]) :=
  ⟨log, r, List.prefix_refl _, hr, hP⟩

end Answered

theorem IntentAnswered.mono {j : Nat} {log log' : List Event} {intent : ConfigurationUnitIntent}
    (h : IntentAnswered env j log intent) (hl : log <+: log') : IntentAnswered env j log' intent := by
  cases intent
  case assert => exact Answered.mono h hl
  case inform => exact Answered.mono h hl
  case apply => exact h.imp (Answered.mono · hl) fun ⟨b, h⟩ => ⟨b, h.mono hl⟩

-- ---------------------------------------------------------------------------
-- Exceptions and refusals in the log
-- ---------------------------------------------------------------------------

/-- `log` holds the call `call`, which the collaborator, asked with the log up to and with
    the call, answered by throwing some `e` such that `P e`. -/
def Threw {α : Type} (call : Event) (answer : List Event → Except Exception α)
    (P : Exception → Prop) (log : List Event) : Prop :=
  ∃ B e, B ++ [call] <+: log ∧ answer (B ++ [call]) = .error e ∧ P e

variable (env) in
/-- The exception `e` escaped the `switch` for a unit of `intent` at `j`: one of its calls
    threw it, or, for an Apply unit, the poll before `ApplySettings` observed the token set. -/
def ThrownBy (j : Nat) (log : List Event) (e : Exception) : ConfigurationUnitIntent → Prop
  | .assert => Threw (.testSettings j) (env.testSettings j) (· = e) log
  | .inform => Threw (.getSettings j) (env.getSettings j) (· = e) log
  | .apply => Threw (.testSettings j) (env.testSettings j) (· = e) log ∨
      (e = .cancelled ∧ ∃ B, B ++ [.throwIfCancelled true] <+: log) ∨
      Threw (.applySettings j) (env.applySettings j) (· = e) log

variable (env) in
/-- `TestSettings` on the unit at `j` answered `Failed` with `info`, or a result that is none
    of `Positive`, `Negative` and `Failed` and `info` is `E_UNEXPECTED` from `Internal`. -/
def TestRefused (j : Nat) (log : List Event) (info : ConfigurationUnitResultInformation) : Prop :=
  Answered (.testSettings j) (env.testSettings j)
      (fun r => r.testResult = .failed ∧ info = r.resultInformation) log ∨
    Answered (.testSettings j) (env.testSettings j) (·.testResult = .unknown) log ∧
      info.resultCode = eUnexpected ∧ info.resultSource = .internal

variable (env) in
/-- The answers on which the `switch` refuses a unit of `intent` at `j`, leaving `info`. -/
def Refused (j : Nat) (log : List Event) (info : ConfigurationUnitResultInformation) :
    ConfigurationUnitIntent → Prop
  | .assert =>
    Answered (.testSettings j) (env.testSettings j) (·.testResult = .negative) log ∧
        info.resultCode = assertionFailed ∧ info.resultSource = .precondition ∨
      TestRefused env j log info
  | .inform => Answered (.getSettings j) (env.getSettings j)
      (fun r => succeeded r.resultInformation.resultCode = false ∧ info = r.resultInformation) log
  | .apply => TestRefused env j log info ∨ Answered (.applySettings j) (env.applySettings j)
      (fun r => succeeded r.resultInformation.resultCode = false ∧ info = r.resultInformation) log

variable (env) in
/-- What explains a `false` return of `ProcessUnit` for a unit of `intent` at `j` that left
    `info`: `CreateUnitProcessor` threw, or an exception escaped the `switch`, with `info`
    what `ExtractUnitResultInformation` makes of the exception; or the `switch` refused. -/
def FailureExplained (j : Nat) (log : List Event) (info : ConfigurationUnitResultInformation)
    (intent : ConfigurationUnitIntent) : Prop :=
  Threw (.createUnitProcessor j) (env.createUnitProcessor j)
      (fun e => info = extractUnitResultInformation e) log ∨
    (∃ e, ThrownBy env j log e intent ∧ info = extractUnitResultInformation e) ∨
    Refused env j log info intent

section Mono

variable {α : Type} {call : Event} {answer : List Event → Except Exception α}
  {Q : Exception → Prop} {j : Nat} {log log' : List Event} {info : ConfigurationUnitResultInformation}
  {intent : ConfigurationUnitIntent} {e : Exception}

theorem Threw.mono (h : Threw call answer Q log) (hl : log <+: log') : Threw call answer Q log' :=
  let ⟨B, e, hB, he, hQ⟩ := h
  ⟨B, e, hB.trans hl, he, hQ⟩

/-- The call just made, with what it threw. -/
theorem Threw.last (he : answer (log ++ [call]) = .error e) (hQ : Q e) :
    Threw call answer Q (log ++ [call]) :=
  ⟨log, e, List.prefix_refl _, he, hQ⟩

theorem TestRefused.mono (h : TestRefused env j log info) (hl : log <+: log') :
    TestRefused env j log' info :=
  h.imp (Answered.mono · hl) (And.imp_left (Answered.mono · hl))

theorem ThrownBy.mono (h : ThrownBy env j log e intent) (hl : log <+: log') :
    ThrownBy env j log' e intent := by
  cases intent
  case assert => exact Threw.mono h hl
  case inform => exact Threw.mono h hl
  case apply =>
    exact h.imp (Threw.mono · hl) (Or.imp (And.imp_right fun ⟨B, hB⟩ => ⟨B, hB.trans hl⟩)
      (Threw.mono · hl))

theorem Refused.mono (h : Refused env j log info intent) (hl : log <+: log') :
    Refused env j log' info intent := by
  cases intent
  case assert => exact h.imp (And.imp_left (Answered.mono · hl)) (TestRefused.mono · hl)
  case inform => exact Answered.mono h hl
  case apply => exact h.imp (TestRefused.mono · hl) (Answered.mono · hl)

theorem FailureExplained.mono (h : FailureExplained env j log info intent) (hl : log <+: log') :
    FailureExplained env j log' info intent :=
  h.imp (Threw.mono · hl) (Or.imp (fun ⟨e, he, hi⟩ => ⟨e, he.mono hl, hi⟩) (Refused.mono · hl))

end Mono

-- ---------------------------------------------------------------------------
-- The switch of ProcessUnit
-- ---------------------------------------------------------------------------

variable {i : Nat} {p p₁ p₂ p' : ConfigurationSetApplyProcessor}

variable (env) in
/-- From `p` to `p'`, a flag of the unit at `i` that is set in `p'` was set in `p` or, for
    an Apply unit, rests on the answer that sets it. -/
def FlagsStep (i : Nat) (p p' : ConfigurationSetApplyProcessor) : Prop :=
  ((p'.info i).result.previouslyInDesiredState = true →
      (p.info i).result.previouslyInDesiredState = true ∨
        (p.info i).unit.intent = .apply ∧ TestedPositive env i p'.log) ∧
  ((p'.info i).result.rebootRequired = true →
      (p.info i).result.rebootRequired = true ∨
        (p.info i).unit.intent = .apply ∧ AppliedWith env i true p'.log)

namespace FlagsStep

theorem of_result_eq (h : (p'.info i).result = (p.info i).result) : FlagsStep env i p p' :=
  ⟨fun h' => .inl (h ▸ h'), fun h' => .inl (h ▸ h')⟩

/-- A step followed by one that grows the log and keeps the result. -/
theorem after (h : FlagsStep env i p p₁) (hr : (p'.info i).result = (p₁.info i).result)
    (hl : p₁.log <+: p'.log) : FlagsStep env i p p' := by
  rw [FlagsStep, hr]
  exact ⟨fun h' => (h.1 h').imp_right (And.imp_right (Answered.mono · hl)),
    fun h' => (h.2 h').imp_right (And.imp_right (Answered.mono · hl))⟩

end FlagsStep

variable (env) in
/-- The `switch` of `ProcessUnit` on a unit in the table, from every state: a flag it sets
    rests on the answer that sets it; it returns `true` only on the answers its unit's intent
    needs and `false` only on the answers that refuse the unit, with the record the refusal
    writes; and an exception escapes it only from one of its calls or from the poll before
    `ApplySettings`. -/
theorem applyIntent_explained (hi : i < p.size) :
    wp (applyIntent env i)
      (fun b p' => FlagsStep env i p p' ∧
        (b = true → IntentAnswered env i p'.log (p.info i).unit.intent) ∧
        (b = false → Refused env i p'.log (p'.info i).resultInformation (p.info i).unit.intent))
      (fun e p' => FlagsStep env i p p' ∧ ThrownBy env i p'.log e (p.info i).unit.intent) p := by
  -- a branch that writes the unit's result information keeps both flags
  have write : ∀ (p₁ : ConfigurationSetApplyProcessor) (f : UnitInfo → UnitInfo),
      (∀ u, (f u).result = u.result) → (p₁.info i).result = (p.info i).result →
      FlagsStep env i p (p₁.modifyUnit i f) :=
    fun p₁ _ hf h => .of_result_eq ((p₁.modifyUnit_info_result hf _ _).trans h)
  -- the record a refusal writes, at the unit's own index
  have written : ∀ (q : ConfigurationSetApplyProcessor) (f : UnitInfo → UnitInfo),
      q.size = p.size → (q.modifyUnit i f).info i = f (q.info i) :=
    fun q _ hq => q.modifyUnit_info_self (hq ▸ hi) _
  unfold applyIntent
  simp only [wp_bind, wp_get]
  cases hIt : (p.info i).unit.intent
  case assert =>
    simp only [testSettings, wp_bind, wp_callCollaborator]
    split
    next r hr =>
      cases htr : r.testResult <;> simp only [wp_pure, wp_bind, wp_initializeResult, wp_adoptResult]
      case positive => exact ⟨.of_result_eq rfl, fun _ => Answered.last hr htr, nofun⟩
      case negative =>
        refine ⟨write _ _ (by intro; rfl) (by rfl), nofun, fun _ => .inl ⟨Answered.last hr htr, ?_⟩⟩
        rw [written _ _ (by rfl)]
        exact ⟨rfl, rfl⟩
      case failed =>
        exact ⟨write _ _ (by intro; rfl) (by rfl), nofun,
          fun _ => .inr (.inl (Answered.last hr ⟨htr, by rw [written _ _ (by rfl)]⟩))⟩
      case unknown =>
        refine ⟨write _ _ (by intro; rfl) (by rfl), nofun,
          fun _ => .inr (.inr ⟨Answered.last hr htr, ?_⟩)⟩
        rw [written _ _ (by rfl)]
        exact ⟨rfl, rfl⟩
    next e he => exact ⟨.of_result_eq rfl, Threw.last he rfl⟩
  case inform =>
    simp only [getSettings, wp_bind, wp_callCollaborator]
    split
    next r hr =>
      simp only [wp_ite, wp_pure, wp_bind, wp_adoptResult]
      split
      next hs => exact ⟨.of_result_eq rfl, fun _ => Answered.last hr hs, nofun⟩
      next hs =>
        exact ⟨write _ _ (by intro; rfl) (by rfl), nofun,
          fun _ => Answered.last hr ⟨by simpa using hs, by rw [written _ _ (by rfl)]⟩⟩
    next e he => exact ⟨.of_result_eq rfl, Threw.last he rfl⟩
  case apply =>
    simp only [testSettings, wp_bind, wp_callCollaborator]
    split
    next r hr =>
      cases htr : r.testResult <;> simp only [wp_pure, wp_bind, wp_modifyUnitInfo,
        wp_initializeResult, wp_adoptResult]
      case positive =>
        -- `PreviouslyInDesiredState` on the positive test just answered
        have hT : TestedPositive env i (p.log ++ [.testSettings i]) := Answered.last hr htr
        refine ⟨⟨fun _ => .inr ⟨hIt, hT⟩, fun h => .inl ?_⟩, fun _ => .inl hT, nofun⟩
        rw [ConfigurationSetApplyProcessor.modifyUnit_info] at h
        split at h <;> exact h
      case negative =>
        simp only [wp_throwIfCancelled, applySettings, wp_bind, wp_callCollaborator]
        split
        next => exact ⟨.of_result_eq rfl, .inr (.inl ⟨rfl, _, List.prefix_refl _⟩)⟩
        next =>
          split
          next a ha =>
            simp only [wp_ite, wp_pure, wp_bind, wp_modifyUnitInfo, wp_adoptResult]
            split
            next hs =>
              -- `RebootRequired` from the apply just answered
              refine ⟨⟨fun h => .inl ?_, fun h => ?_⟩,
                fun _ => .inr ⟨_, Answered.last ha ⟨hs, rfl⟩⟩, nofun⟩
              all_goals rw [ConfigurationSetApplyProcessor.modifyUnit_info] at h; split at h
              · exact h
              · exact h
              · exact .inr ⟨hIt, Answered.last ha ⟨hs, h⟩⟩
              · exact .inl h
            next hs =>
              exact ⟨write _ _ (by intro; rfl) (by rfl), nofun,
                fun _ => .inr (Answered.last ha ⟨by simpa using hs, by rw [written _ _ (by rfl)]⟩)⟩
          next e he => exact ⟨.of_result_eq rfl, .inr (.inr (Threw.last he rfl))⟩
      case failed =>
        exact ⟨write _ _ (by intro; rfl) (by rfl), nofun,
          fun _ => .inl (.inl (Answered.last hr ⟨htr, by rw [written _ _ (by rfl)]⟩))⟩
      case unknown =>
        refine ⟨write _ _ (by intro; rfl) (by rfl), nofun,
          fun _ => .inl (.inr ⟨Answered.last hr htr, ?_⟩)⟩
        rw [written _ _ (by rfl)]
        exact ⟨rfl, rfl⟩
    next e he => exact ⟨.of_result_eq rfl, .inl (Threw.last he rfl)⟩

variable (env) in
/-- `ProcessUnit` after the unit's `InProgress`, on a unit in the table, from every state:
    what the `switch` does, behind a creation and a poll that write no flag; an exception of
    the `switch` is turned into the unit's result information, and a creation that throws
    into a `false` with the record it leaves. -/
theorem runUnitProcessor_explained (hi : i < p.size) :
    wp (runUnitProcessor env i)
      (fun b p' => FlagsStep env i p p' ∧
        (b = true → IntentAnswered env i p'.log (p.info i).unit.intent) ∧
        (b = false →
          FailureExplained env i p'.log (p'.info i).resultInformation (p.info i).unit.intent))
      (fun _ p' => FlagsStep env i p p') p := by
  have extract : ∀ {p₁ : ConfigurationSetApplyProcessor} (e : Exception), FlagsStep env i p p₁ →
      FlagsStep env i p
        (p₁.modifyUnit i fun u => { u with resultInformation := extractUnitResultInformation e }) :=
    fun {p₁} _ h => h.after (p₁.modifyUnit_info_result (by intro; rfl) _ _) (List.prefix_refl _)
  unfold runUnitProcessor createUnitProcessor
  simp only [wp_bind, wp_tryCatch, wp_callCollaborator]
  split
  next =>
    simp only [wp_pure, Bool.not_true, Bool.false_eq_true, ↓reduceIte, wp_bind,
      wp_throwIfCancelled, wp_tryCatch, wp_extractResult]
    split
    next => exact .of_result_eq rfl
    next =>
      -- the switch runs on the state after the creation and the poll, with the same unit
      refine wp_mono (fun _ _ ⟨⟨hF, ht, hf⟩, _⟩ => ⟨hF, ht, fun hb => .inr (.inr (hf hb))⟩)
        (fun e p₂ ⟨⟨hF, hT⟩, hR⟩ => ⟨extract e hF, nofun, fun _ => .inr (.inl ⟨e, hT, ?_⟩)⟩)
        (wp_and (applyIntent_explained env (p := (p.emit _).emit _) hi) (applyIntent_keeps env i _))
      rw [p₂.modifyUnit_info_self (hR.1 ▸ hi)]
  next e he =>
    refine ⟨extract e (.of_result_eq rfl), nofun, fun _ => .inl (Threw.last he ?_)⟩
    rw [(p.emit _).modifyUnit_info_self hi]

/-- A unit that is to be applied is in the table: the default unit is not. -/
theorem lt_size_of_shouldApply (h : (p.info i).unit.shouldApply = true) : i < p.size :=
  Nat.lt_of_not_le fun hle => by simp [p.info_of_size_le hle] at h

-- ---------------------------------------------------------------------------
-- Every unit's flags and returns
-- ---------------------------------------------------------------------------

variable (env) in
/-- The flags of every unit, and every `true` that `ProcessUnit` returned, rest on the
    processors' answers in the log. -/
structure Justified (p : ConfigurationSetApplyProcessor) : Prop where
  previouslyInDesiredState : ∀ j, (p.info j).result.previouslyInDesiredState = true →
    (p.info j).unit.intent = .apply ∧ TestedPositive env j p.log
  rebootRequired : ∀ j, (p.info j).result.rebootRequired = true →
    (p.info j).unit.intent = .apply ∧ AppliedWith env j true p.log
  returned : ∀ j, (j, true) ∈ returns p.log →
    (p.info j).unit.shouldApply = false ∨ IntentAnswered env j p.log (p.info j).unit.intent

namespace Justified

/-- Nothing has run on a constructed processor. -/
theorem create (units : List ConfigurationUnit) :
    Justified env (ConfigurationSetApplyProcessor.create units) where
  previouslyInDesiredState _ h := by simp at h
  rebootRequired _ h := by simp at h
  returned _ h := by simp at h

/-- A step that appends no return and changes no unit and no flag. -/
theorem of_frame (J : Justified env p) (hl : p.log <+: p'.log)
    (hret : returns p'.log = returns p.log) (hu : ∀ j, (p'.info j).unit = (p.info j).unit)
    (hf : ∀ j, (p'.info j).result.previouslyInDesiredState = (p.info j).result.previouslyInDesiredState ∧
      (p'.info j).result.rebootRequired = (p.info j).result.rebootRequired) :
    Justified env p' where
  previouslyInDesiredState j h := by
    rw [hu]; exact (J.previouslyInDesiredState j ((hf j).1 ▸ h)).imp_right (Answered.mono · hl)
  rebootRequired j h := by
    rw [hu]; exact (J.rebootRequired j ((hf j).2 ▸ h)).imp_right (Answered.mono · hl)
  returned j h := by
    rw [hu]; exact (J.returned j (hret ▸ h)).imp_right (IntentAnswered.mono · hl)

theorem emit (J : Justified env p) {e : Event} (he : e.returned? = none) :
    Justified env (p.emit e) :=
  J.of_frame (List.prefix_append _ _)
    (by simp only [ConfigurationSetApplyProcessor.emit_log, returns_append, returns_cons, he,
      returns_nil, Option.toList_none, List.append_nil]) (fun _ => rfl) fun _ => ⟨rfl, rfl⟩

theorem modifyUnit (J : Justified env p) {f : UnitInfo → UnitInfo}
    (hf : ∀ u, (f u).unit = u.unit ∧ (f u).result = u.result) : Justified env (p.modifyUnit i f) :=
  J.of_frame (List.prefix_refl _) rfl
    (fun _ => p.modifyUnit_info_unit (fun u => (hf u).1) _ _)
    fun _ => by rw [p.modifyUnit_info_result fun u => (hf u).2]; exact ⟨rfl, rfl⟩

theorem progress (J : Justified env p) (state : ConfigurationUnitState) (i : Nat) :
    Justified env (p.progress state i) :=
  J.of_frame (List.prefix_append _ _) (by simp) (fun _ => by simp) fun j => by
    simp only [ConfigurationSetApplyProcessor.progress, ConfigurationSetApplyProcessor.emit_info,
      ConfigurationSetApplyProcessor.modifyUnit_info]
    split <;> exact ⟨rfl, rfl⟩

/-- A run of the unit at `i`: the other units and the unit's record are kept, the log
    grows by polls and calls, and the flags step as the answers allow. -/
theorem run (J : Justified env p) (hR : RunFrame i p p') (hF : FlagsStep env i p p') :
    Justified env p' := by
  obtain ⟨-, ho, ⟨hu, -⟩, -, -, L, hL, ht⟩ := hR
  have hl : p.log <+: p'.log := hL ▸ List.prefix_append _ _
  have hunit : ∀ j, (p'.info j).unit = (p.info j).unit := fun j => by
    by_cases hij : i = j
    · exact hij ▸ hu
    · rw [ho j hij]
  refine ⟨fun j h => ?_, fun j h => ?_, fun j h => ?_⟩
  · by_cases hij : i = j
    · subst hij
      rcases hF.1 h with h | ⟨hI, hT⟩
      · exact hu ▸ (J.previouslyInDesiredState i h).imp_right (Answered.mono · hl)
      · exact ⟨hu ▸ hI, hT⟩
    · rw [ho j hij] at h ⊢
      exact (J.previouslyInDesiredState j h).imp_right (Answered.mono · hl)
  · by_cases hij : i = j
    · subst hij
      rcases hF.2 h with h | ⟨hI, hT⟩
      · exact hu ▸ (J.rebootRequired i h).imp_right (Answered.mono · hl)
      · exact ⟨hu ▸ hI, hT⟩
    · rw [ho j hij] at h ⊢
      exact (J.rebootRequired j h).imp_right (Answered.mono · hl)
  · rw [hL, returns_append, returns_of_isRunOf fun e he => Event.isRunOf_of_isTrafficOf (ht e he),
      List.append_nil] at h
    rw [hunit]
    exact (J.returned j h).imp_right (IntentAnswered.mono · hl)

/-- The return of `ProcessUnit` for the unit at `i`, with what a `true` rests on. -/
theorem returnResult (J : Justified env p) {b : Bool}
    (hb : b = true → (p.info i).unit.shouldApply = false ∨
      IntentAnswered env i p.log (p.info i).unit.intent) :
    Justified env (p.emit (.processUnitResult i b p.unitInfo)) := by
  have hl : p.log <+: (p.emit (.processUnitResult i b p.unitInfo)).log := List.prefix_append _ _
  refine ⟨fun j h => (J.previouslyInDesiredState j h).imp_right (Answered.mono · hl),
    fun j h => (J.rebootRequired j h).imp_right (Answered.mono · hl), fun j h => ?_⟩
  simp only [ConfigurationSetApplyProcessor.emit_log, returns_append, returns_cons, returns_nil,
    Event.returned?, Option.toList_some, List.append_nil, List.mem_append, List.mem_singleton,
    Prod.mk.injEq] at h
  rcases h with h | ⟨rfl, rfl⟩
  · exact (J.returned j h).imp_right (IntentAnswered.mono · hl)
  · exact (hb rfl).imp_right (IntentAnswered.mono · hl)

end Justified

variable (env) in
/-- `ProcessUnit` keeps `Justified` from every state, on every way out: a skipped unit
    returns `true` with `ShouldApply` unset, and a run returns `true` only on the answers
    its intent needs. -/
theorem processUnit_keepsJustified (i : Nat) : Keeps (Preserves (Justified env)) (processUnit env i) :=
  fun p => wp_imp fun J => by
  simp only [processUnit, withCompletedProgress, returnResult, wp_bind, wp_get, wp_logEvent,
    wp_throwIfCancelled, wp_modifyUnitInfo]
  have J₀ := (J.emit (e := .processUnit i p.unitInfo) rfl)
  split
  · exact J₀.emit rfl
  · have J₁ := (J₀.emit (e := .throwIfCancelled false) rfl).modifyUnit (i := i)
      (f := fun u => { u with processed := true }) fun _ => ⟨rfl, rfl⟩
    split
    · -- manually skipped: `true`, with `ShouldApply` unset
      rename_i hsa
      simp only [wp_initializeResult, wp_sendProgress, wp_bind, wp_get, wp_logEvent, wp_pure]
      refine ((J₁.modifyUnit (by intro; exact ⟨rfl, rfl⟩)).progress _ _).returnResult fun _ => .inl ?_
      simpa using hsa
    · -- the run, between the unit's InProgress and its Completed
      rename_i hsa
      simp only [wp_sendProgress, wp_tryCatch, wp_bind, wp_throw, wp_get, wp_logEvent, wp_pure]
      refine wp_mono (fun b p₃ ⟨hR, hF, hb, _⟩ => ?_)
        (fun _ p₃ ⟨hR, hF⟩ => ((J₁.progress _ _).run hR hF).progress _ _)
        (wp_and (runUnitProcessor_keeps env i _) (runUnitProcessor_explained env ?hi))
      case hi => exact lt_size_of_shouldApply (by simpa using hsa)
      refine (((J₁.progress _ _).run hR hF).progress _ _).returnResult fun h => .inr ?_
      have hu := hR.2.2.1.1
      simp only [ConfigurationSetApplyProcessor.progress_info_unit, hu] at hb ⊢
      exact (hb h).mono (List.prefix_append _ _)

-- ---------------------------------------------------------------------------
-- Every false and what it rests on
-- ---------------------------------------------------------------------------

variable (env) in
/-- A `false` that `ProcessUnit` returned is explained in the log before it, with the record
    and the intent of the unit in the table it returned with. -/
def ReturnExplained (pre : List Event) : Event → Prop
  | .processUnitResult j b t => b = false →
    FailureExplained env j pre (t.getD j default).resultInformation (t.getD j default).unit.intent
  | _ => True

variable (env) in
/-- `ProcessUnit` explains every `false` it returns, from every state: only the run of a
    unit to be applied returns one, and the run's refusal or exception is in the log. -/
theorem processUnit_returnExplained (i : Nat) :
    Keeps (Appends (ReturnExplained env)) (processUnit env i) := fun p => by
  simp only [processUnit, withCompletedProgress, returnResult, wp_bind, wp_get, wp_logEvent,
    wp_throwIfCancelled, wp_modifyUnitInfo]
  have hP : ∀ pre state j, ReturnExplained env pre (.unitProgress j state) := fun _ _ _ => trivial
  have h₀ := (refl_of (Appends (ReturnExplained env)) p).emit (e := .processUnit i p.unitInfo) trivial
  split
  · exact h₀.emit trivial
  · have h₁ := (h₀.emit (e := .throwIfCancelled false) trivial).modifyUnit i
      fun u => { u with processed := true }
    split
    · -- manually skipped: `true`
      simp only [wp_initializeResult, wp_sendProgress, wp_bind, wp_get, wp_logEvent, wp_pure]
      exact ((h₁.modifyUnit i _).progress hP .skipped i).emit nofun
    · -- the run: a `false` rests on the record it left
      rename_i hsa
      simp only [wp_sendProgress, wp_tryCatch, wp_bind, wp_throw, wp_get, wp_logEvent, wp_pure]
      have run := fun p₃ (h : RunFrame i _ p₃) => trans_of _ (h₁.progress hP .inProgress i)
        (Appends.of_runFrame (fun _ e _ => by cases e <;> trivial) h)
      refine wp_mono (fun _ p₃ ⟨hR, _, _, hb⟩ => ((run p₃ hR).progress hP .completed i).emit fun hf => ?_)
        (fun _ p₃ ⟨hR, _⟩ => (run p₃ hR).progress hP .completed i)
        (wp_and (runUnitProcessor_keeps env i _) (runUnitProcessor_explained env ?hi))
      case hi => exact lt_size_of_shouldApply (by simpa using hsa)
      simp only [ConfigurationSetApplyProcessor.unitInfo_getD,
        ConfigurationSetApplyProcessor.progress_info_resultInformation,
        ConfigurationSetApplyProcessor.progress_info_unit, hR.2.2.1.1] at hb ⊢
      exact (hb hf).mono (List.prefix_append _ _)

-- ---------------------------------------------------------------------------
-- Process
-- ---------------------------------------------------------------------------

variable (env) (getNormalizedIdentifier : String → String) (units : List ConfigurationUnit)

/-- Every run of `Process` on a constructed processor keeps `Justified`. -/
theorem process_justified :
    wp (process env getNormalizedIdentifier) (fun _ => Justified env) (fun _ => Justified env)
      (ConfigurationSetApplyProcessor.create units) :=
  (keeps_process (R := Preserves (Justified env)) (fun _ _ _ hf J => J.modifyUnit hf)
    (fun _ _ _ J => J.progress _ _) getNormalizedIdentifier
    (fun _ _ _ J => J.of_frame (List.prefix_refl _) rfl (fun _ => rfl) fun _ => ⟨rfl, rfl⟩)
    (fun _ _ J => J.of_frame (List.prefix_refl _) rfl (fun _ => rfl) fun _ => ⟨rfl, rfl⟩)
    (fun _ _ J => J.emit rfl) env (processUnit_keepsJustified env)
    (fun _ _ J => J.emit rfl) (fun _ _ _ _ _ J => J.emit rfl)).invariant (.create units)

/-- For every set, every normalization and every behaviour of the collaborators, on a normal
    return of `Process` and when an exception escapes: a unit whose result has
    `PreviouslyInDesiredState` is an Apply unit whose `TestSettings` answered `Positive`, and
    a unit whose result has `RebootRequired` is an Apply unit whose `ApplySettings` answered
    with a code that succeeds and asked for a reboot. -/
theorem process_flagsJustified :
    wp (process env getNormalizedIdentifier)
      (fun _ p => ∀ j,
        ((p.info j).result.previouslyInDesiredState = true →
          (unitAt units j).intent = .apply ∧ TestedPositive env j p.log) ∧
        ((p.info j).result.rebootRequired = true →
          (unitAt units j).intent = .apply ∧ AppliedWith env j true p.log))
      (fun _ p => ∀ j,
        ((p.info j).result.previouslyInDesiredState = true →
          (unitAt units j).intent = .apply ∧ TestedPositive env j p.log) ∧
        ((p.info j).result.rebootRequired = true →
          (unitAt units j).intent = .apply ∧ AppliedWith env j true p.log))
      (ConfigurationSetApplyProcessor.create units) := by
  refine wp_mono (fun _ _ ⟨J, hu⟩ j => ?_) (fun _ _ ⟨J, hu⟩ j => ?_)
    (wp_and (process_justified env getNormalizedIdentifier units)
      (process_keepsUnits env getNormalizedIdentifier units))
  all_goals
    rw [← hu j]
    exact ⟨J.previouslyInDesiredState j, J.rebootRequired j⟩

/-- For every set, every normalization and every behaviour of the collaborators, on a normal
    return of `Process` and when an exception escapes, every `ProcessUnit` that returned
    `true` did so for a unit with `ShouldApply` unset, or on the answers its intent needs: a
    `Positive` test for an Assert unit, a `GetSettings` whose code succeeds for an Inform unit,
    and for an Apply unit a `Positive` test or an `ApplySettings` whose code succeeds. -/
theorem process_returnsJustified :
    wp (process env getNormalizedIdentifier)
      (fun _ p => ∀ j, (j, true) ∈ returns p.log →
        (unitAt units j).shouldApply = false ∨ IntentAnswered env j p.log (unitAt units j).intent)
      (fun _ p => ∀ j, (j, true) ∈ returns p.log →
        (unitAt units j).shouldApply = false ∨ IntentAnswered env j p.log (unitAt units j).intent)
      (ConfigurationSetApplyProcessor.create units) :=
  wp_mono (fun _ _ ⟨J, hu⟩ j => hu j ▸ J.returned j) (fun _ _ ⟨J, hu⟩ j => hu j ▸ J.returned j)
    (wp_and (process_justified env getNormalizedIdentifier units)
      (process_keepsUnits env getNormalizedIdentifier units))

variable {env getNormalizedIdentifier units} in
/-- A normal return whose set's code succeeds is one whose three phases succeeded: a
    rejection and a failed phase leave a failure code. -/
theorem runSucceeded_of_succeeded {p : ConfigurationSetApplyProcessor}
    (h : Processed env getNormalizedIdentifier units p) (hs : succeeded p.resultCode = true) :
    RunSucceeded env units p := by
  cases h with
  | rejected _ _ V =>
    obtain ⟨-, hdup, hmiss, hcyc⟩ := V.failed rfl
    by_cases hd : HasDuplicate getNormalizedIdentifier units
    · rw [hdup hd] at hs; cases hs
    by_cases hm : HasMissing getNormalizedIdentifier units
    · rw [hmiss hd hm] at hs; cases hs
    · rw [hcyc hd hm] at hs; cases hs
  | succeeded _ _ R => exact R
  | failed intent _ _ R =>
    by_cases hf : PhaseHasFailure units p.log intent
    · rw [R.resultCode_of_phaseHasFailure hf] at hs; cases intent <;> cases hs
    · rw [R.resultCode_of_not_phaseHasFailure hf] at hs; cases hs

/-- For every set, every normalization and every behaviour of the collaborators, when
    `Process` returns normally with a set's code that succeeds, every unit of the set has
    `ShouldApply` unset or got the answers its intent needs from its processors: a
    `Positive` test for an Assert unit, a `GetSettings` whose code succeeds for an Inform
    unit, and for an Apply unit a `Positive` test or an `ApplySettings` whose code succeeds. -/
theorem process_successJustified :
    wp (process env getNormalizedIdentifier)
      (fun _ p => succeeded p.resultCode = true → ∀ j < units.length,
        (unitAt units j).shouldApply = false ∨ IntentAnswered env j p.log (unitAt units j).intent)
      (fun _ _ => True) (ConfigurationSetApplyProcessor.create units) := by
  refine wp_mono (fun _ p ⟨h, J⟩ hs j hj => ?_) (fun _ _ _ => trivial)
    (wp_and process_spec (process_justified env getNormalizedIdentifier units))
  have R := runSucceeded_of_succeeded h hs
  -- the unit ran, and its run returned, with no `false`
  obtain ⟨⟨j', b⟩, hmem, rfl⟩ :=
    List.mem_map.1 (R.returned ▸ R.executed j hj : j ∈ (returns p.log).map Prod.fst)
  cases b
  · exact absurd hmem (R.noFailure _)
  · exact R.unit _ ▸ J.returned _ hmem

/-- For every set, every normalization and every behaviour of the collaborators, on a normal
    return of `Process` and when an exception escapes, every `false` that `ProcessUnit`
    returned is explained in the log before it: `CreateUnitProcessor` threw, an exception
    escaped a call on the unit's processor or the poll before `ApplySettings`, or an answer
    refused the unit; and the unit's result information it returned with is what
    `ExtractUnitResultInformation` makes of that exception, or what the answer gave. -/
theorem process_failuresExplained :
    wp (process env getNormalizedIdentifier) (fun _ p => EveryEntry (ReturnExplained env) p.log)
      (fun _ p => EveryEntry (ReturnExplained env) p.log)
      (ConfigurationSetApplyProcessor.create units) :=
  wp_mono (fun _ _ h => h.everyEntry everyEntry_nil) (fun _ _ h => h.everyEntry everyEntry_nil)
    (keeps_process (R := Appends (ReturnExplained env)) (fun _ _ _ _ => .of_log_eq rfl)
      (fun _ _ _ => Appends.rfl.progress (fun _ _ _ => trivial) _ _) getNormalizedIdentifier
      (fun _ _ _ => .of_log_eq rfl) (fun _ _ => .of_log_eq rfl) (fun _ _ => Appends.rfl.emit trivial)
      env (processUnit_returnExplained env) (fun _ _ => Appends.rfl.emit trivial)
      (fun _ _ _ _ _ => Appends.rfl.emit trivial) _)

end ConfigurationSetApply
