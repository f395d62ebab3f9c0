-- SUMMARY: Over the real run no unit's dependency indices change, and the table each ProcessUnit entry records carries the indices validation resolved.
import ConfigurationSetApply.Laws.Process

/-!
# Dependency indices over the real run

Validation resolves each unit's dependency strings into `DependencyIndices`, and nothing
after it writes them: the real run writes results, flags and progress only.
`DependenciesKept p p'` says so of two states, for the table and for the tables that the
`ProcessUnit` entries logged since `p` record. It is a preorder kept by every primitive
the real run uses, so by `ProcessUnit` (`processUnit_keepsDependencies`) and by
`ProcessInternal`, and `Process` ends with it from the table validation accepted
(`process_keepsDependencies`).
-/

namespace ConfigurationSetApply

/-- From `p` to `p'` no unit's dependency indices changed, and every `ProcessUnit` entry
    logged since `p` records a table with the indices of `p`. -/
def DependenciesKept (p p' : ConfigurationSetApplyProcessor) : Prop :=
  (∀ j, (p'.info j).dependencyIndices = (p.info j).dependencyIndices) ∧
    ∃ L, p'.log = p.log ++ L ∧ ∀ i t, .processUnit i t ∈ L →
      ∀ j, (t.getD j default).dependencyIndices = (p.info j).dependencyIndices

instance : IsPreorder _ DependenciesKept where
  refl _ := ⟨fun _ => rfl, [], by simp, by simp⟩
  trans _ _ _ := fun ⟨d₁, L₁, hL₁, t₁⟩ ⟨d₂, L₂, hL₂, t₂⟩ =>
    ⟨fun j => (d₂ j).trans (d₁ j), L₁ ++ L₂, by rw [hL₂, hL₁, List.append_assoc], fun i t ht j =>
      (List.mem_append.1 ht).elim (fun ht => t₁ i t ht j) fun ht => (t₂ i t ht j).trans (d₁ j)⟩

namespace DependenciesKept

variable {p p' : ConfigurationSetApplyProcessor} {i : Nat}

/-- A write to the table that keeps every unit's indices and logs nothing. -/
theorem of_log_eq (hd : ∀ j, (p'.info j).dependencyIndices = (p.info j).dependencyIndices)
    (hlog : p'.log = p.log) : DependenciesKept p p' :=
  ⟨hd, [], by simp [hlog], by simp⟩

/-- Appending an entry that is not a `ProcessUnit` entry. -/
theorem emit {e : Event} (he : e.executed? = none) : DependenciesKept p (p.emit e) :=
  ⟨fun _ => rfl, [e], rfl, fun _ _ ht => by cases List.mem_singleton.1 ht; cases he⟩

/-- The `ProcessUnit` entry records the table as it stands. -/
theorem emit_processUnit : DependenciesKept p (p.emit (.processUnit i p.unitInfo)) :=
  ⟨fun _ => rfl, [_], rfl, fun _ _ ht _ => by cases List.mem_singleton.1 ht; rfl⟩

theorem modifyUnit {f : UnitInfo → UnitInfo}
    (hf : ∀ u, (f u).dependencyIndices = u.dependencyIndices) : DependenciesKept p (p.modifyUnit i f) :=
  of_log_eq (fun _ => by simp [hf]) rfl

theorem progress {state : ConfigurationUnitState} : DependenciesKept p (p.progress state i) :=
  ⟨fun _ => by simp, [_], rfl, fun _ _ ht => by simp at ht⟩

theorem withResultCode {c : HResult} : DependenciesKept p (p.withResultCode c) :=
  of_log_eq (fun _ => rfl) rfl

theorem markAll {selects : ConfigurationUnitIntent → Bool} {c : HResult} {sendProgress : Bool}
    {cs : List Nat} : DependenciesKept p (p.markAll selects c sendProgress cs) :=
  ⟨fun _ => by simp, _, ConfigurationSetApplyProcessor.markAll_log .., fun _ _ ht => by
    split at ht <;> simp at ht⟩

/-- What `runUnitProcessor` does keeps the indices: it logs polls and calls only. -/
theorem of_runFrame (h : RunFrame i p p') : DependenciesKept p p' := by
  obtain ⟨-, hne, ⟨-, hd, -⟩, -, -, L, hL, ht⟩ := h
  refine ⟨fun j => ?_, L, hL, fun _ _ hm => absurd (ht _ hm) (by simp)⟩
  rcases eq_or_ne i j with rfl | hij
  · exact hd
  · rw [hne j hij]

end DependenciesKept

variable (env : Collaborators) (getNormalizedIdentifier : String → String)
  (units : List ConfigurationUnit)

section Primitives

variable {i : Nat}

theorem keepsDependencies_logReturn {result : Bool} {table : List UnitInfo} :
    Keeps DependenciesKept (logEvent (.processUnitResult i result table)) :=
  Keeps.modify fun _ => .emit rfl

theorem keepsDependencies_sendProgress {state : ConfigurationUnitState} :
    Keeps DependenciesKept (sendProgress state i) :=
  Keeps.modify fun _ => .progress

theorem keepsDependencies_modifyUnitInfo {f : UnitInfo → UnitInfo}
    (hf : ∀ u, (f u).dependencyIndices = u.dependencyIndices) :
    Keeps DependenciesKept (modifyUnitInfo i f) :=
  Keeps.modify fun _ => .modifyUnit hf

theorem keepsDependencies_initializeResult {c : HResult} {resultSource : ConfigurationUnitResultSource} :
    Keeps DependenciesKept (initializeResult i c resultSource) :=
  Keeps.modify fun _ => .modifyUnit fun _ => rfl

theorem keepsDependencies_throwIfCancelled (env : Collaborators) :
    Keeps DependenciesKept (throwIfCancelled env) :=
  keeps_throwIfCancelled env fun _ _ => .emit rfl

end Primitives

/-- Logging the `ProcessUnit` entry with the table as it stands, then going on with `k`:
    the one step of `ProcessUnit` that a frame of any state cannot take alone. -/
theorem keepsDependencies_logProcessUnit {α : Type} {k : ProcessorM α}
    (hk : Keeps DependenciesKept k) (i : Nat) :
    Keeps DependenciesKept (get >>= fun p => logEvent (.processUnit i p.unitInfo) >>= fun _ => k) :=
  fun p => by
    simp only [wp_bind, wp_get, wp_logEvent]
    exact wp_mono (fun _ _ => trans_of _ .emit_processUnit) (fun _ _ => trans_of _ .emit_processUnit)
      (hk _)

/-- `ProcessUnit` keeps every unit's indices, and its entry records them, from every
    state, on every way out. -/
theorem processUnit_keepsDependencies (i : Nat) : Keeps DependenciesKept (processUnit env i) := by
  unfold processUnit withCompletedProgress returnResult
  refine keepsDependencies_logProcessUnit ?_ i
  repeat' first
    | with_reducible refine Keeps.bind ?_ fun _ => ?_
    | with_reducible refine Keeps.tryCatch ?_ fun _ => ?_
    | split
    | with_reducible exact Keeps.pure _
    | with_reducible exact Keeps.throw _
    | with_reducible exact Keeps.get
    | with_reducible exact (runUnitProcessor_keeps env i).mono fun _ _ => DependenciesKept.of_runFrame
    | with_reducible exact keepsDependencies_logReturn
    | with_reducible exact keepsDependencies_sendProgress
    | with_reducible exact keepsDependencies_modifyUnitInfo fun _ => rfl
    | with_reducible exact keepsDependencies_initializeResult
    | with_reducible exact keepsDependencies_throwIfCancelled env

theorem markRemaining_keepsDependencies (selects : ConfigurationUnitIntent → Bool) (c : HResult)
    (sendProgress : Bool) (cs : List Nat) :
    Keeps DependenciesKept (markRemaining selects c sendProgress cs) := fun p => by
  rw [wp_markRemaining]
  exact .markAll

/-- `Process`, started on a set that validation accepted with the table `p₀`, ends,
    normally or not, with the indices of `p₀` in its table and in the table of every
    `ProcessUnit` entry. -/
theorem process_keepsDependencies {p₀ : ConfigurationSetApplyProcessor}
    (hp₀ : preProcess getNormalizedIdentifier (ConfigurationSetApplyProcessor.create units) = .ok true p₀) :
    wp (process env getNormalizedIdentifier) (fun _ => DependenciesKept p₀)
      (fun _ => DependenciesKept p₀) (ConfigurationSetApplyProcessor.create units) := by
  have hrun : Keeps DependenciesKept (processInternal hasProcessedSuccessfully (processUnit env) true) :=
    keeps_processInternal (processUnit_keepsDependencies env)
      (fun selects c sendProgress cs _ => markRemaining_keepsDependencies selects c sendProgress cs)
      (fun _ => Keeps.modify fun _ => .withResultCode) _
  unfold process logProcessingSummaryForApply logProcessingSummary
  rw [wp_tryCatch, wp_bind, wp_eq_of_ok hp₀]
  refine wp_mono (fun _ _ h => h) (fun e p h => wp_mono (fun _ _ => trans_of _ h)
    (fun _ _ => trans_of _ h) ((?_ : Keeps DependenciesKept _) p)) ((?_ : Keeps DependenciesKept _) p₀)
  all_goals
    repeat' first
      | with_reducible refine Keeps.bind ?_ fun _ => ?_
      | split
      | with_reducible exact Keeps.pure _
      | with_reducible exact Keeps.throw _
      | with_reducible exact Keeps.get
      | exact hrun
      | exact Keeps.modify fun _ => .emit rfl

end ConfigurationSetApply
