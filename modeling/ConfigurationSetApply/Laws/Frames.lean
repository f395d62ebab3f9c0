-- SUMMARY: Frames of whole runs: a preorder that the writes of PreProcess keep is kept by PreProcess and by the marking loops, and with ProcessUnit by Process; and the preorder "every entry appended satisfies P".
import ConfigurationSetApply.Laws.Process

/-!
# Frames of whole runs

Many properties of a run say that the state moves only along a preorder `R`. Such a
property follows from what `R` allows of each write. `PreProcess` and the marking loops
are made of writes to the table, progress, the index, the set's code and the dry run's
marks, so a preorder that allows these is kept by them from every state
(`keeps_preProcess`, `keeps_markRemaining`). `Process` keeps it as soon as `ProcessUnit`
does and the set's events and the summary are allowed too (`keeps_process`).

`Appends P p p'` is the preorder in which properties of each entry of the log are stated:
the entries appended from `p` to `p'` satisfy `P`, each judged with the whole log before
it. A log that satisfied `P` entry by entry still does after such a step
(`Appends.everyEntry`).
-/

namespace ConfigurationSetApply

variable {R : ConfigurationSetApplyProcessor → ConfigurationSetApplyProcessor → Prop}

-- ---------------------------------------------------------------------------
-- Writes of the table and progress
-- ---------------------------------------------------------------------------

section Writes

variable (hmod : ∀ p i f, (∀ u, (f u).unit = u.unit ∧ (f u).result = u.result) → R p (p.modifyUnit i f))
  (hprog : ∀ p state i, R p (p.progress state i))

include hmod in
theorem keeps_initializeResult {i : Nat} {c : HResult} {resultSource : ConfigurationUnitResultSource} :
    Keeps R (initializeResult i c resultSource) :=
  Keeps.modify fun p => hmod p _ _ (by intro; exact ⟨rfl, rfl⟩)

include hmod in
theorem keeps_modifyUnitInfo {i : Nat} {f : UnitInfo → UnitInfo}
    (hf : ∀ u, (f u).unit = u.unit ∧ (f u).result = u.result) : Keeps R (modifyUnitInfo i f) :=
  Keeps.modify fun p => hmod p _ _ hf

include hprog in
theorem keeps_sendProgress {state : ConfigurationUnitState} {i : Nat} :
    Keeps R (sendProgress state i) :=
  Keeps.modify fun p => hprog p _ _

variable [IsPreorder _ R]
include hmod hprog

/-- The marking loops write results and progress only. -/
theorem keeps_markRemaining (selects : ConfigurationUnitIntent → Bool) (c : HResult)
    (sendProgress : Bool) (cs : List Nat) : Keeps R (markRemaining selects c sendProgress cs) := by
  intro p
  rw [wp_markRemaining]
  induction cs generalizing p with
  | nil => exact refl_of R p
  | cons i rest ih =>
    refine trans_of R ?_ (ih _)
    split
    · split
      · exact trans_of R (hmod p _ _ (by intro; exact ⟨rfl, rfl⟩)) (hprog _ _ _)
      · exact hmod p _ _ (by intro; exact ⟨rfl, rfl⟩)
    · exact refl_of R p

variable (getNormalizedIdentifier : String → String)
  (hidx : ∀ p key i, R p (p.addToIndex key i)) (hcode : ∀ p c, R p (p.withResultCode c))
  (hmark : ∀ p i, R p (p.emit (.markPreprocessed i)))

include hidx in
theorem keeps_addUnitsToMap : ∀ cs, Keeps R (addUnitsToMap getNormalizedIdentifier cs)
  | [] => Keeps.pure _
  | i :: rest => by
    refine Keeps.bind ?_ fun _ => (keeps_addUnitsToMap rest).bind fun _ => Keeps.pure _
    unfold addUnitToMap sendProgressIfNotComplete
    dsimp only
    repeat' first
      | with_reducible refine Keeps.bind ?_ fun _ => ?_
      | split
      | with_reducible exact Keeps.pure _
      | with_reducible exact Keeps.get
      | with_reducible exact keeps_initializeResult hmod
      | with_reducible exact keeps_sendProgress hprog
      | exact Keeps.modify fun p => hidx p _ _

theorem keeps_resolveDependencies (i : Nat) :
    ∀ ds, Keeps R (resolveDependencies getNormalizedIdentifier i ds)
  | [] => Keeps.pure _
  | d :: rest => by
    rw [resolveDependencies]
    repeat' first
      | with_reducible refine Keeps.bind ?_ fun _ => ?_
      | split
      | with_reducible exact Keeps.pure _
      | with_reducible exact Keeps.get
      | exact keeps_resolveDependencies i rest
      | with_reducible exact keeps_initializeResult hmod
      | with_reducible exact keeps_sendProgress hprog
      | with_reducible exact keeps_modifyUnitInfo hmod (by intro; exact ⟨rfl, rfl⟩)

theorem keeps_resolveAllDependencies : ∀ cs, Keeps R (resolveAllDependencies getNormalizedIdentifier cs)
  | [] => Keeps.pure _
  | i :: rest => Keeps.get.bind fun _ => (keeps_resolveDependencies hmod hprog _ i _).bind fun _ =>
      (keeps_resolveAllDependencies rest).bind fun _ => Keeps.pure _

include hidx hcode hmark in
/-- `PreProcess` writes the table, progress, the index, the set's code and the dry run's
    marks only. -/
theorem keeps_preProcess : Keeps R (preProcess getNormalizedIdentifier) := by
  have hdry : Keeps R (processInternal hasPreprocessed markPreprocessed false) :=
    keeps_processInternal
      (fun _ => (Keeps.modify fun p => hmark p _).bind fun _ =>
        (keeps_modifyUnitInfo hmod (by intro; exact ⟨rfl, rfl⟩)).bind fun _ => Keeps.pure _)
      (fun _ _ _ _ _ => keeps_markRemaining hmod hprog _ _ _ _)
      (fun _ => Keeps.modify fun p => hcode p _) _
  unfold preProcess
  repeat' first
    | with_reducible refine Keeps.bind ?_ fun _ => ?_
    | split
    | with_reducible exact Keeps.pure _
    | with_reducible exact Keeps.get
    | with_reducible exact keeps_addUnitsToMap hmod hprog _ hidx _
    | with_reducible exact keeps_resolveAllDependencies hmod hprog _ _
    | exact hdry
    | exact Keeps.modify fun p => hcode p _

include hcode in
/-- The real run keeps what `ProcessUnit`, the markings and the write of the set's code
    keep. -/
theorem keeps_realRun (env : Collaborators) (hunit : ∀ i, Keeps R (processUnit env i)) :
    Keeps R (processInternal hasProcessedSuccessfully (processUnit env) true) :=
  keeps_processInternal hunit (fun _ _ _ _ _ => keeps_markRemaining hmod hprog _ _ _ _)
    (fun _ => Keeps.modify fun p => hcode p _) _

include hidx hcode hmark in
/-- `Process` keeps what `ProcessUnit`, the writes of `PreProcess`, the set's events and the
    summary keep. -/
theorem keeps_process (env : Collaborators) (hunit : ∀ i, Keeps R (processUnit env i))
    (hset : ∀ p state, R p (p.emit (.setProgress state)))
    (hsum : ∀ p c a b d, R p (p.emit (.processingSummary c a b d))) :
    Keeps R (process env getNormalizedIdentifier) := by
  have hrun := keeps_realRun hmod hprog hcode env hunit
  unfold process logProcessingSummaryForApply logProcessingSummary
  repeat' first
    | with_reducible refine Keeps.tryCatch ?_ fun _ => ?_
    | with_reducible refine Keeps.bind ?_ fun _ => ?_
    | split
    | with_reducible exact Keeps.pure _
    | with_reducible exact Keeps.throw _
    | with_reducible exact Keeps.get
    | with_reducible exact keeps_preProcess hmod hprog _ hidx hcode hmark
    | exact hrun
    | exact Keeps.modify fun p => hset p _
    | exact Keeps.modify fun p => hsum p _ _ _ _

end Writes

section SameUnits

variable (env : Collaborators) (getNormalizedIdentifier : String → String)

/-- No step of `Process` changes the size of the table or a unit, from every state. -/
theorem keeps_sameUnits_process : Keeps SameUnits (process env getNormalizedIdentifier) :=
  keeps_process (R := SameUnits)
    (fun p _ _ hf => ⟨by simp, fun _ => p.modifyUnit_info_unit (fun u => (hf u).1) _ _⟩)
    (fun _ _ _ => ⟨by simp, by simp⟩) getNormalizedIdentifier (fun _ _ _ => ⟨rfl, fun _ => rfl⟩)
    (fun _ _ => ⟨rfl, fun _ => rfl⟩) (fun _ _ => ⟨rfl, fun _ => rfl⟩) env
    (fun i => (processUnit_keeps env i).mono fun _ _ h => h.sameUnits)
    (fun _ _ => ⟨rfl, fun _ => rfl⟩) (fun _ _ _ _ _ => ⟨rfl, fun _ => rfl⟩)

/-- No step of `Process` changes a unit: every unit is the one the set was constructed with. -/
theorem process_keepsUnits (units : List ConfigurationUnit) :
    wp (process env getNormalizedIdentifier) (fun _ p => ∀ j, (p.info j).unit = unitAt units j)
      (fun _ p => ∀ j, (p.info j).unit = unitAt units j) (ConfigurationSetApplyProcessor.create units) :=
  wp_mono (fun _ _ h j => (h.2 j).trans (by simp)) (fun _ _ h j => (h.2 j).trans (by simp))
    (keeps_sameUnits_process env getNormalizedIdentifier _)

end SameUnits

-- ---------------------------------------------------------------------------
-- Entries appended
-- ---------------------------------------------------------------------------

/-- The entries appended from `p` to `p'` satisfy `P`, each with the whole log before it. -/
def Appends (P : List Event → Event → Prop) (p p' : ConfigurationSetApplyProcessor) : Prop :=
  ∃ L, p'.log = p.log ++ L ∧ EveryEntry (fun pre e => P (p.log ++ pre) e) L

namespace Appends

variable {P : List Event → Event → Prop}

instance : IsPreorder _ (Appends P) where
  refl _ := ⟨[], by simp, everyEntry_nil⟩
  trans _ _ _ := fun ⟨L₁, h₁, e₁⟩ ⟨L₂, h₂, e₂⟩ =>
    ⟨L₁ ++ L₂, by rw [h₂, h₁, List.append_assoc],
      everyEntry_append.2 ⟨e₁, by simpa only [h₁, List.append_assoc] using e₂⟩⟩

variable {p p₁ p' : ConfigurationSetApplyProcessor}

protected theorem rfl : Appends P p p := refl_of (Appends P) p

/-- An entry that `P` allows after the log as it stands. -/
theorem emit {e : Event} (h : Appends P p p₁) (he : P p₁.log e) : Appends P p (p₁.emit e) := by
  obtain ⟨L, hL, hE⟩ := h
  exact ⟨L ++ [e], by simp [hL], everyEntry_append_singleton.2 ⟨hE, hL ▸ he⟩⟩

/-- Entries that `P` allows after any log. -/
theorem of_append {L : List Event} (hL : p'.log = p.log ++ L) (h : ∀ e ∈ L, ∀ pre, P pre e) :
    Appends P p p' :=
  ⟨L, hL, EveryEntry.of_forall fun e he _ => h e he _⟩

theorem of_log_eq (hlog : p'.log = p.log) : Appends P p p' :=
  of_append (L := []) (by simp [hlog]) (by simp)

theorem modifyUnit (h : Appends P p p₁) (j : Nat) (f : UnitInfo → UnitInfo) :
    Appends P p (p₁.modifyUnit j f) :=
  trans_of _ h (of_log_eq rfl)

theorem progress (h : Appends P p p₁) (hP : ∀ pre state j, P pre (.unitProgress j state))
    (state : ConfigurationUnitState) (j : Nat) : Appends P p (p₁.progress state j) :=
  (h.modifyUnit j _).emit (hP _ _ _)

/-- A log that satisfies `P` entry by entry still does after the entries appended. -/
theorem everyEntry (h : Appends P p p') (hp : EveryEntry P p.log) : EveryEntry P p'.log := by
  obtain ⟨L, hL, hE⟩ := h
  rw [hL]
  exact everyEntry_append.2 ⟨hp, hE⟩

/-- Entries judged without the log before them: each one appended satisfies `Q`. -/
theorem exists_forall {Q : Event → Prop} (h : Appends (fun _ e => Q e) p p') :
    ∃ L, p'.log = p.log ++ L ∧ ∀ e ∈ L, Q e := by
  obtain ⟨L, hL, hE⟩ := h
  refine ⟨L, hL, fun e he => ?_⟩
  obtain ⟨s, t, rfl⟩ := List.append_of_mem he
  exact hE s e t rfl

/-- What a unit run appends: polls and calls on the unit's processors. -/
theorem of_runFrame {i : Nat} (hP : ∀ pre e, e.isTrafficOf i → P pre e) (h : RunFrame i p p') :
    Appends P p p' := by
  obtain ⟨-, -, -, -, -, L, hL, ht⟩ := h
  exact of_append hL fun e he _ => hP _ e (ht e he)

/-- Writes to the table append nothing. -/
theorem keeps_modifyUnitInfo {i : Nat} {f : UnitInfo → UnitInfo} :
    Keeps (Appends P) (modifyUnitInfo i f) :=
  Keeps.modify fun _ => of_log_eq rfl

theorem keeps_initializeResult {i : Nat} {c : HResult} {resultSource : ConfigurationUnitResultSource} :
    Keeps (Appends P) (initializeResult i c resultSource) :=
  Keeps.modify fun _ => of_log_eq rfl

variable (hP : ∀ pre e, e.isQuiet = false → P pre e)
include hP

theorem keeps_runUnitProcessor (env : Collaborators) (i : Nat) :
    Keeps (Appends P) (runUnitProcessor env i) :=
  (runUnitProcessor_keeps env i).mono fun _ _ =>
    of_runFrame fun _ e he => hP _ e (by cases e <;> first | rfl | cases he)

/-- `ProcessUnit` appends no set-level event, summary or dry-run mark, so it keeps every
    property of entries that holds of all other entries, from every state. -/
theorem processUnit (env : Collaborators) (i : Nat) : Keeps (Appends P) (processUnit env i) := by
  have hprog : ∀ p state j, Appends P p (p.progress state j) := fun p _ _ =>
    (refl_of (Appends P) p).progress (fun _ _ _ => hP _ _ rfl) _ _
  unfold ConfigurationSetApply.processUnit withCompletedProgress returnResult
  repeat' first
    | with_reducible refine Keeps.bind ?_ fun _ => ?_
    | with_reducible refine Keeps.tryCatch ?_ fun _ => ?_
    | split
    | with_reducible exact Keeps.pure _
    | with_reducible exact Keeps.throw _
    | with_reducible exact Keeps.get
    | with_reducible exact keeps_runUnitProcessor hP env i
    | with_reducible exact keeps_sendProgress hprog
    | with_reducible exact keeps_modifyUnitInfo
    | with_reducible exact keeps_initializeResult
    | exact keeps_throwIfCancelled env fun p _ => (refl_of (Appends P) p).emit (hP _ _ rfl)
    | exact Keeps.modify fun p => (refl_of (Appends P) p).emit (hP _ _ (by rfl))

end Appends

end ConfigurationSetApply
