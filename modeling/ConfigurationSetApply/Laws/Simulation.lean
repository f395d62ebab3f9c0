-- SUMMARY: Two runs side by side: one relational rule per monadic construct, and the proof that the dry run, ProcessUnit and the real run neither read the identifier index nor let anything depend on it.
import ConfigurationSetApply.Model.Process

/-!
# Two runs side by side

`Sim R R' m₁ m₂` says that `m₁` and `m₂`, started in states related by `R`, end alike:
both return the same value or both throw the same exception, in states related by `R'`.
The rules follow the do-notation construct by construct, as the `wp` rules do for one
run, so that a simulation of two member functions is proved without unfolding their
callees.

The identifier index `m_idToUnitInfoIndex` is read by the first two stages of
`PreProcess` only. `IgnoresIndex m` says that `m` runs alike from states that differ only
in the index, and leaves them so. Every member function after those stages does:
`MarkPreprocessed` and the dry run, `ProcessUnit` and the real run, and the set's events
and summary. Each state read among them passes `IgnoresIndex.get`, whose side condition
`k p.forgetIndex = k p` holds by `rfl`: what the code does with the state it reads does
not depend on the index.
-/

namespace ConfigurationSetApply

variable {ε σ α β : Type}

-- ---------------------------------------------------------------------------
-- Relational rules
-- ---------------------------------------------------------------------------

/-- Two results alike up to `R`: the same value or the same exception, in states related
    by `R`. -/
inductive ResultRel (R : σ → σ → Prop) : EStateM.Result ε σ α → EStateM.Result ε σ α → Prop
  | ok {a : α} {s₁ s₂ : σ} : R s₁ s₂ → ResultRel R (.ok a s₁) (.ok a s₂)
  | error {e : ε} {s₁ s₂ : σ} : R s₁ s₂ → ResultRel R (.error e s₁) (.error e s₂)

/-- From states related by `R`, `m₁` and `m₂` end alike up to `R'`. -/
def Sim (R R' : σ → σ → Prop) (m₁ m₂ : EStateM ε σ α) : Prop :=
  ∀ s₁ s₂, R s₁ s₂ → ResultRel R' (m₁ s₁) (m₂ s₂)

theorem ResultRel.mono {R R' : σ → σ → Prop} (h : ∀ s₁ s₂, R s₁ s₂ → R' s₁ s₂)
    {r₁ r₂ : EStateM.Result ε σ α} : ResultRel R r₁ r₂ → ResultRel R' r₁ r₂
  | .ok hs => .ok (h _ _ hs)
  | .error hs => .error (h _ _ hs)

namespace Sim

variable {R R' R'' : σ → σ → Prop} {x₁ x₂ : EStateM ε σ α}

theorem mono {R₀ R₁ : σ → σ → Prop} (hR : ∀ s₁ s₂, R₀ s₁ s₂ → R s₁ s₂)
    (hR' : ∀ s₁ s₂, R' s₁ s₂ → R₁ s₁ s₂) (h : Sim R R' x₁ x₂) : Sim R₀ R₁ x₁ x₂ :=
  fun s₁ s₂ hs => (h s₁ s₂ (hR _ _ hs)).mono hR'

theorem pure (h : ∀ s₁ s₂, R s₁ s₂ → R' s₁ s₂) (a : α) :
    Sim R R' (Pure.pure a : EStateM ε σ α) (Pure.pure a) :=
  fun _ _ hs => .ok (h _ _ hs)

theorem throw (h : ∀ s₁ s₂, R s₁ s₂ → R' s₁ s₂) (e : ε) :
    Sim R R' (MonadExcept.throw e : EStateM ε σ α) (MonadExcept.throw e) :=
  fun _ _ hs => .error (h _ _ hs)

theorem get {k₁ k₂ : σ → EStateM ε σ α} (h : ∀ s₁ s₂, R s₁ s₂ → Sim R R' (k₁ s₁) (k₂ s₂)) :
    Sim R R' (MonadState.get >>= k₁) (MonadState.get >>= k₂) :=
  fun s₁ s₂ hs => h s₁ s₂ hs s₁ s₂ hs

theorem modify {f₁ f₂ : σ → σ} (h : ∀ s₁ s₂, R s₁ s₂ → R' (f₁ s₁) (f₂ s₂)) :
    Sim R R' (modify f₁ : EStateM ε σ PUnit) (modify f₂) :=
  fun s₁ s₂ hs => .ok (h s₁ s₂ hs)

/-- Sequencing: the second programs start where the first ended alike; an exception of
    the first ends the two runs in states related by `R'`, which must relate by `R''`. -/
theorem bind {f₁ f₂ : α → EStateM ε σ β} (hx : Sim R R' x₁ x₂)
    (hf : ∀ a, Sim R' R'' (f₁ a) (f₂ a)) (hE : ∀ s₁ s₂, R' s₁ s₂ → R'' s₁ s₂) :
    Sim R R'' (x₁ >>= f₁) (x₂ >>= f₂) := fun s₁ s₂ hs => by
  show ResultRel R'' (EStateM.bind x₁ f₁ s₁) (EStateM.bind x₂ f₂ s₂)
  unfold EStateM.bind
  have h := hx s₁ s₂ hs
  generalize x₁ s₁ = r₁, x₂ s₂ = r₂ at h ⊢
  cases h with
  | ok h => exact hf _ _ _ h
  | error h => exact .error (hE _ _ h)

theorem tryCatch {h₁ h₂ : ε → EStateM ε σ α} (hx : Sim R R' x₁ x₂)
    (hh : ∀ e, Sim R' R' (h₁ e) (h₂ e)) :
    Sim R R' (MonadExcept.tryCatch x₁ h₁) (MonadExcept.tryCatch x₂ h₂) := fun s₁ s₂ hs => by
  show ResultRel R' (EStateM.tryCatch x₁ h₁ s₁) (EStateM.tryCatch x₂ h₂ s₂)
  unfold EStateM.tryCatch
  have h := hx s₁ s₂ hs
  generalize x₁ s₁ = r₁, x₂ s₂ = r₂ at h ⊢
  cases h with
  | ok h => exact .ok h
  | error h => exact hh _ _ _ h

end Sim

-- ---------------------------------------------------------------------------
-- States that differ only in the index
-- ---------------------------------------------------------------------------

/-- The state with the identifier index emptied. -/
def ConfigurationSetApplyProcessor.forgetIndex (p : ConfigurationSetApplyProcessor) :
    ConfigurationSetApplyProcessor :=
  { p with idToUnitInfoIndex := [] }

/-- Two states that differ at most in the identifier index. -/
def SameButIndex (p₁ p₂ : ConfigurationSetApplyProcessor) : Prop :=
  p₁.forgetIndex = p₂.forgetIndex

theorem sameButIndex_iff {p₁ p₂ : ConfigurationSetApplyProcessor} :
    SameButIndex p₁ p₂ ↔
      p₁.unitInfo = p₂.unitInfo ∧ p₁.resultCode = p₂.resultCode ∧ p₁.log = p₂.log := by
  cases p₁
  cases p₂
  simp [SameButIndex, ConfigurationSetApplyProcessor.forgetIndex]

/-- A change of state that does not read the index keeps two states the same but for it. -/
theorem SameButIndex.map (f : ConfigurationSetApplyProcessor → ConfigurationSetApplyProcessor)
    (hf : ∀ p, (f p.forgetIndex).forgetIndex = (f p).forgetIndex) {p₁ p₂ : ConfigurationSetApplyProcessor}
    (h : SameButIndex p₁ p₂) : SameButIndex (f p₁) (f p₂) := by
  unfold SameButIndex at *
  rw [← hf p₁, ← hf p₂, h]

theorem SameButIndex.info {p₁ p₂ : ConfigurationSetApplyProcessor} (h : SameButIndex p₁ p₂)
    (j : Nat) : p₁.info j = p₂.info j := by
  simp only [ConfigurationSetApplyProcessor.info, (sameButIndex_iff.1 h).1]

theorem SameButIndex.size {p₁ p₂ : ConfigurationSetApplyProcessor} (h : SameButIndex p₁ p₂) :
    p₁.size = p₂.size :=
  congrArg List.length (sameButIndex_iff.1 h).1

/-- `m` runs alike from states that differ only in the identifier index, and leaves them
    differing only there. -/
def IgnoresIndex (m : ProcessorM α) : Prop := Sim SameButIndex SameButIndex m m

namespace IgnoresIndex

variable {x : ProcessorM α}

theorem pure (a : α) : IgnoresIndex (Pure.pure a : ProcessorM α) := Sim.pure (fun _ _ => id) a

theorem throw (e : Exception) : IgnoresIndex (MonadExcept.throw e : ProcessorM α) :=
  Sim.throw (fun _ _ => id) e

theorem bind {f : α → ProcessorM β} (hx : IgnoresIndex x) (hf : ∀ a, IgnoresIndex (f a)) :
    IgnoresIndex (x >>= f) :=
  Sim.bind hx hf fun _ _ => id

theorem tryCatch {h : Exception → ProcessorM α} (hx : IgnoresIndex x)
    (hh : ∀ e, IgnoresIndex (h e)) : IgnoresIndex (MonadExcept.tryCatch x h) :=
  Sim.tryCatch hx hh

/-- A state read whose continuation does not depend on the index. -/
theorem get {k : ConfigurationSetApplyProcessor → ProcessorM α}
    (hk : ∀ p, k p.forgetIndex = k p) (h : ∀ p, IgnoresIndex (k p)) :
    IgnoresIndex (MonadState.get >>= k) :=
  Sim.get fun p₁ p₂ hp => by
    have e : k p₁ = k p₂ := by rw [← hk p₁, ← hk p₂, hp]
    rw [e]
    exact h p₂

/-- A write that does not read the index. -/
theorem modify {f : ConfigurationSetApplyProcessor → ConfigurationSetApplyProcessor}
    (hf : ∀ p, (f p.forgetIndex).forgetIndex = (f p).forgetIndex) :
    IgnoresIndex (modify f) :=
  Sim.modify fun _ _ => SameButIndex.map f hf

end IgnoresIndex

-- ---------------------------------------------------------------------------
-- The member functions that ignore the index
-- ---------------------------------------------------------------------------

theorem ignoresIndex_logEvent (e : Event) : IgnoresIndex (logEvent e) :=
  IgnoresIndex.modify fun _ => rfl

theorem ignoresIndex_modifyUnitInfo (i : Nat) (f : UnitInfo → UnitInfo) :
    IgnoresIndex (modifyUnitInfo i f) :=
  IgnoresIndex.modify fun _ => rfl

theorem ignoresIndex_setResultCode (c : HResult) : IgnoresIndex (setResultCode c) :=
  IgnoresIndex.modify fun _ => rfl

variable (env : Collaborators)

theorem ignoresIndex_throwIfCancelled : IgnoresIndex (throwIfCancelled env) :=
  IgnoresIndex.get (fun _ => rfl) fun _ => (ignoresIndex_logEvent _).bind fun _ => by
    split
    · exact IgnoresIndex.throw _
    · exact IgnoresIndex.pure _

theorem ignoresIndex_callCollaborator {α : Type} (call : Event)
    (answer : List Event → Except Exception α) : IgnoresIndex (callCollaborator call answer) :=
  (ignoresIndex_logEvent _).bind fun _ => IgnoresIndex.get (fun _ => rfl) fun _ => by
    split
    · exact IgnoresIndex.pure _
    · exact IgnoresIndex.throw _

theorem ignoresIndex_applyIntent (i : Nat) : IgnoresIndex (applyIntent env i) := by
  unfold applyIntent
  repeat' first
    | with_reducible refine IgnoresIndex.get (fun _ => by with_unfolding_all rfl) fun _ => ?_
    | with_reducible refine IgnoresIndex.bind ?_ fun _ => ?_
    | split
    | with_reducible exact IgnoresIndex.pure _
    | exact IgnoresIndex.modify (by intro; rfl)
    | exact ignoresIndex_throwIfCancelled env
    | exact ignoresIndex_callCollaborator _ _

theorem ignoresIndex_runUnitProcessor (i : Nat) : IgnoresIndex (runUnitProcessor env i) := by
  unfold runUnitProcessor
  repeat' first
    | with_reducible refine IgnoresIndex.bind ?_ fun _ => ?_
    | with_reducible refine IgnoresIndex.tryCatch ?_ fun _ => ?_
    | split
    | with_reducible exact IgnoresIndex.pure _
    | exact ignoresIndex_applyIntent env i
    | exact IgnoresIndex.modify (by intro; rfl)
    | exact ignoresIndex_throwIfCancelled env
    | exact ignoresIndex_callCollaborator _ _

theorem ignoresIndex_processUnit (i : Nat) : IgnoresIndex (processUnit env i) := by
  unfold processUnit withCompletedProgress returnResult
  repeat' first
    | with_reducible refine IgnoresIndex.get (fun _ => by with_unfolding_all rfl) fun _ => ?_
    | with_reducible refine IgnoresIndex.bind ?_ fun _ => ?_
    | with_reducible refine IgnoresIndex.tryCatch ?_ fun _ => ?_
    | split
    | with_reducible exact IgnoresIndex.pure _
    | with_reducible exact IgnoresIndex.throw _
    | exact ignoresIndex_runUnitProcessor env i
    | exact IgnoresIndex.modify (by intro; rfl)
    | exact ignoresIndex_throwIfCancelled env

theorem ignoresIndex_markPreprocessed (i : Nat) : IgnoresIndex (markPreprocessed i) :=
  (ignoresIndex_logEvent _).bind fun _ =>
    (ignoresIndex_modifyUnitInfo _ _).bind fun _ => IgnoresIndex.pure _

theorem ignoresIndex_markRemaining (selects : ConfigurationUnitIntent → Bool) (c : HResult)
    (sendProgress : Bool) : ∀ cs, IgnoresIndex (markRemaining selects c sendProgress cs)
  | [] => IgnoresIndex.pure _
  | _ :: rest => IgnoresIndex.get (fun _ => rfl) fun _ => by
    dsimp only
    repeat' first
      | with_reducible refine IgnoresIndex.bind ?_ fun _ => ?_
      | split
      | with_reducible exact IgnoresIndex.pure _
      | exact ignoresIndex_markRemaining selects c sendProgress rest
      | exact IgnoresIndex.modify (by intro; rfl)

section Phase

variable {check : UnitInfo → Bool} {action : Nat → ProcessorM Bool}
  (hact : ∀ i, IgnoresIndex (action i))
include hact

theorem ignoresIndex_processReadyUnits (intent : ConfigurationUnitIntent) :
    ∀ fuel cs hasFailure, IgnoresIndex (processReadyUnits check action intent fuel cs hasFailure)
  | 0, _, _ => IgnoresIndex.pure _
  | fuel + 1, _, _ => IgnoresIndex.get (fun _ => rfl) fun _ => by
    split
    · exact IgnoresIndex.pure _
    · exact (hact _).bind fun _ => ignoresIndex_processReadyUnits intent fuel _ _

theorem ignoresIndex_processIntentInternal (intent : ConfigurationUnitIntent) (cs : List Nat)
    (errorForOtherIntents errorForFailures : HResult) (sendProgress : Bool) :
    IgnoresIndex (processIntentInternal check action intent cs errorForOtherIntents
      errorForFailures sendProgress) := by
  unfold processIntentInternal
  repeat' first
    | with_reducible refine IgnoresIndex.bind ?_ fun _ => ?_
    | split
    | with_reducible exact IgnoresIndex.pure _
    | exact ignoresIndex_processReadyUnits hact _ _ _ _
    | exact ignoresIndex_markRemaining _ _ _ _
    | exact ignoresIndex_setResultCode _

theorem ignoresIndex_processInternal (sendProgress : Bool) :
    IgnoresIndex (processInternal check action sendProgress) := by
  unfold processInternal
  repeat' first
    | with_reducible refine IgnoresIndex.get (fun _ => by with_unfolding_all rfl) fun _ => ?_
    | with_reducible refine IgnoresIndex.bind ?_ fun _ => ?_
    | split
    | with_reducible exact IgnoresIndex.pure _
    | exact ignoresIndex_processIntentInternal hact _ _ _ _ _

end Phase

end ConfigurationSetApply
