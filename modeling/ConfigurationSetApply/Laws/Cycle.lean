-- SUMMARY: The dependency graph of a unit table and what the dry run decides about it: from a table with no unit marked, the dry run fails exactly when the graph has a cycle or some unit depends on a unit of a later phase.
import Mathlib.Data.Fintype.Card
import Mathlib.Logic.Relation
import ConfigurationSetApply.Laws.PreProcess

/-!
# What the dry run decides about the dependency graph

The dependency graph of a table has an edge from each unit to each unit in its
`DependencyIndices`. The dry run marks a unit only when all its dependencies are
marked, and only in the phase of the unit's intent. So it can never mark a unit on a
cycle, nor a unit that depends on a unit of a later phase (or on an index that names
no unit); and a phase whose candidates of its intent are all stuck has either such a
dependency or, following stuck dependencies inside the phase, a cycle.

`DryInv` is what the dry run keeps while it marks: the candidates are exactly the units
not marked yet, marked units have their dependencies marked, and no unit on a cycle is
marked. `PhaseBound` adds that only units of the phases run so far are marked. The
theorem `DryInv.processInternal` is the characterization: from a table with no unit
marked, the dry run fails exactly when the graph `HasDependencyCycle` or
`HasLaterDependency`.
-/

namespace ConfigurationSetApply

open Relation

/-- The unit at `j` depends on the unit at `d` in the table `p`: an edge of the
    dependency graph. -/
def DependsOn (p : ConfigurationSetApplyProcessor) (j d : Nat) : Prop :=
  j < p.size ∧ d ∈ (p.info j).dependencyIndices

/-- The dependency graph of the table has a cycle; a unit that depends on itself is
    one. -/
def HasDependencyCycle (p : ConfigurationSetApplyProcessor) : Prop :=
  ∃ j, TransGen (DependsOn p) j j

/-- Some unit depends on a unit that the dry run cannot mark before it: a unit of a
    later phase, or an index that names no unit. -/
def HasLaterDependency (p : ConfigurationSetApplyProcessor) : Prop :=
  ∃ j d, DependsOn p j d ∧
    (p.size ≤ d ∨ (p.info j).unit.intent.phase < (p.info d).unit.intent.phase)

/-- A unit on a cycle depends on a unit on the cycle. -/
theorem exists_dependsOn_onCycle {p : ConfigurationSetApplyProcessor} {j : Nat}
    (h : TransGen (DependsOn p) j j) : ∃ k, DependsOn p j k ∧ TransGen (DependsOn p) k k := by
  obtain ⟨k, hjk, hkj⟩ := TransGen.head'_iff.1 h
  exact ⟨k, hjk, TransGen.tail' hkj hjk⟩

/-- In a finite nonempty set where every node has an edge to a node of the set, the
    edges close a cycle: otherwise reachability would be well-founded on the set, and
    a node no node of the set reaches has an edge into the set. -/
theorem exists_cycle_of_closed {R : Nat → Nat → Prop} (S : Finset Nat) (hne : S.Nonempty)
    (h : ∀ j ∈ S, ∃ d ∈ S, R j d) : ∃ j, TransGen R j j := by
  by_contra hno
  let r : S → S → Prop := fun a b => TransGen R b a
  have : IsTrans S r := ⟨fun _ _ _ hab hbc => hbc.trans hab⟩
  have : IsIrrefl S r := ⟨fun a ha => hno ⟨a, ha⟩⟩
  obtain ⟨m, -, hm⟩ := (Finite.wellFounded_of_trans_of_irrefl r).has_min Set.univ
    ⟨⟨_, hne.choose_spec⟩, trivial⟩
  obtain ⟨d, hd, hR⟩ := h m m.2
  exact hm ⟨d, hd⟩ trivial (.single hR)

variable {p₀ p : ConfigurationSetApplyProcessor}

/-- The dry run changes neither the size nor the dependencies, so neither the graph. -/
theorem DryFrame.dependsOn_eq (h : DryFrame p₀ p) : DependsOn p = DependsOn p₀ := by
  funext j d
  simp only [DependsOn, h.size, h.dependencyIndices]

/-- The table the dry run leaves has a cycle exactly when the table it started from
    has. -/
theorem DryFrame.hasDependencyCycle_iff (h : DryFrame p₀ p) :
    HasDependencyCycle p ↔ HasDependencyCycle p₀ := by
  rw [HasDependencyCycle, HasDependencyCycle, h.dependsOn_eq]

/-- The table the dry run leaves has a later dependency exactly when the table it
    started from has. -/
theorem DryFrame.hasLaterDependency_iff (h : DryFrame p₀ p) :
    HasLaterDependency p ↔ HasLaterDependency p₀ := by
  simp only [HasLaterDependency, h.dependsOn_eq, h.size, h.unit]

-- ---------------------------------------------------------------------------
-- The invariant of the dry run
-- ---------------------------------------------------------------------------

/-- The mark of the unit at `j`, after the marks of `pre`, in the dry run over the table
    `p₀`: the unit was not marked before, its dependencies were, so were no units of a
    later phase, and it is no larger than any unit of its intent not marked whose
    dependencies were. -/
def MarkedCorrectly (p₀ : ConfigurationSetApplyProcessor) (pre : List Event) : Event → Prop
  | .markPreprocessed j =>
    j ∉ preprocessings pre ∧ (∀ d ∈ (p₀.info j).dependencyIndices, d ∈ preprocessings pre) ∧
    (∀ y ∈ preprocessings pre, (p₀.info y).unit.intent.phase ≤ (p₀.info j).unit.intent.phase) ∧
    ∀ x < p₀.size, (p₀.info x).unit.intent = (p₀.info j).unit.intent → x ∉ preprocessings pre →
      (∀ d ∈ (p₀.info x).dependencyIndices, d ∈ preprocessings pre) → j ≤ x
  | _ => True

/-- A unit is marked once. -/
theorem nodup_of_markedCorrectly {L : List Event} (h : EveryEntry (MarkedCorrectly p₀) L) :
    (preprocessings L).Nodup := by
  induction L using List.reverseRecOn with
  | nil => simp
  | append_singleton L e ih =>
    rw [everyEntry_append_singleton] at h
    have := ih h.1
    cases e <;> simp_all [MarkedCorrectly, List.nodup_append]

/-- The dry run from `p₀` at `p` with the candidates `cs`: it kept everything but the
    marks; the candidates are distinct units of the table in increasing order, none marked,
    and every other unit is marked; a marked unit has its dependencies marked; no unit on a
    cycle is marked; and the units marked are those of the marks logged since `p₀`, each
    logged as `MarkedCorrectly`. -/
structure DryInv (p₀ : ConfigurationSetApplyProcessor) (cs : List Nat)
    (p : ConfigurationSetApplyProcessor) : Prop where
  kept : DryKept p₀ p
  lt : ∀ j ∈ cs, j < p₀.size
  nodup : cs.Nodup
  fresh : ∀ j ∈ cs, (p.info j).preProcessed = false
  covered : ∀ j < p₀.size, j ∈ cs ∨ (p.info j).preProcessed = true
  closed : ∀ j, (p.info j).preProcessed = true →
    ∀ d ∈ (p₀.info j).dependencyIndices, (p.info d).preProcessed = true
  offCycle : ∀ j, TransGen (DependsOn p₀) j j → (p.info j).preProcessed = false
  sorted : cs.Pairwise (· < ·)
  marks : ∃ L, p.log = p₀.log ++ L ∧ (∀ j, (p.info j).preProcessed = true ↔ j ∈ preprocessings L) ∧
    EveryEntry (MarkedCorrectly p₀) L

/-- Only units of the phases up to `intent`'s are marked. -/
def PhaseBound (p₀ : ConfigurationSetApplyProcessor) (intent : ConfigurationUnitIntent)
    (p : ConfigurationSetApplyProcessor) : Prop :=
  ∀ j, (p.info j).preProcessed = true → (p₀.info j).unit.intent.phase ≤ intent.phase

/-- A table with no unit marked starts the dry run, every unit a candidate. -/
theorem DryInv.start (h : ∀ j, (p₀.info j).preProcessed = false) :
    DryInv p₀ (List.range p₀.size) p₀ where
  kept := DryKept.refl p₀
  lt _ hj := List.mem_range.1 hj
  nodup := List.nodup_range _
  fresh j _ := h j
  covered _ hj := .inl (List.mem_range.2 hj)
  closed j hj := absurd hj (by simp [h j])
  offCycle j _ := h j
  sorted := List.pairwise_lt_range _
  marks := ⟨[], by simp, fun j => by simp [h j], everyEntry_nil⟩

theorem PhaseBound.start (h : ∀ j, (p₀.info j).preProcessed = false)
    (intent : ConfigurationUnitIntent) : PhaseBound p₀ intent p₀ :=
  fun j hj => absurd hj (by simp [h j])

theorem PhaseBound.mono {intent intent' : ConfigurationUnitIntent} (h : PhaseBound p₀ intent p)
    (hle : intent.phase ≤ intent'.phase) : PhaseBound p₀ intent' p :=
  fun j hj => (h j hj).trans hle

section MarkReady

variable {cs : List Nat} {intent : ConfigurationUnitIntent} {i : Nat}
  (h : DryInv p₀ cs p) (hi : firstReady hasPreprocessed intent p cs = some i)
include h hi

/-- The unit the dry run marks is a candidate of the phase's intent whose dependencies
    are marked. -/
theorem DryInv.ready :
    (p₀.info i).unit.intent = intent ∧
      ∀ d ∈ (p₀.info i).dependencyIndices, (p.info d).preProcessed = true := by
  obtain ⟨hI, hd⟩ := hasIntentAndSatisfiedDependencies_eq_true.1 (firstReady_ready hi)
  exact ⟨h.kept.unit i ▸ hI, fun d hd' => hd d (h.kept.dependencyIndices i ▸ hd')⟩

/-- A pass marks the first ready candidate, which is not on a cycle: its dependency on
    the cycle is not marked yet; and it is the smallest ready candidate, in a phase no
    earlier than any unit marked before. -/
theorem DryInv.markReady (hP : PhaseBound p₀ intent p) :
    DryInv p₀ (cs.erase i)
      ((p.emit (.markPreprocessed i)).modifyUnit i fun u => { u with preProcessed := true }) := by
  have his : i < p.size := h.kept.size ▸ h.lt i (firstReady_mem hi)
  have hdeps := (h.ready hi).2
  have hoff : ¬TransGen (DependsOn p₀) i i := fun hc => by
    obtain ⟨k, ⟨-, hk⟩, hkc⟩ := exists_dependsOn_onCycle hc
    exact absurd (hdeps k hk) (by simp [h.offCycle k hkc])
  -- marking only adds the unit at `i`
  have hmono : ∀ k, (p.info k).preProcessed = true →
      (((p.emit (.markPreprocessed i)).modifyUnit i
        fun u => { u with preProcessed := true }).info k).preProcessed = true :=
    fun k hk => by rcases eq_or_ne i k with rfl | hik <;> simp [his, hk, *]
  refine ⟨h.kept.markPreprocessed i, fun j hj => h.lt j (List.mem_of_mem_erase hj),
    h.nodup.erase i, fun j hj => ?_, fun j hj => ?_, fun j hj d hd => ?_, fun j hj => ?_,
    h.sorted.sublist (List.erase_sublist _ _), ?_⟩
  · have hji := (h.nodup.mem_erase_iff).1 hj
    simpa [Ne.symm hji.1] using h.fresh j hji.2
  · rcases eq_or_ne i j with rfl | hij
    · exact .inr (by simp [his])
    · simpa [hij, List.mem_erase_of_ne (Ne.symm hij)] using h.covered j hj
  · rcases eq_or_ne i j with rfl | hij
    · exact hmono d (hdeps d hd)
    · exact hmono d (h.closed j (by simpa [hij] using hj) d hd)
  · have hij : i ≠ j := by rintro rfl; exact hoff hj
    simpa [hij] using h.offCycle j hj
  · obtain ⟨L, hL, hm, hL'⟩ := h.marks
    have hfresh : i ∉ preprocessings L := fun hiL => by
      simpa [h.fresh i (firstReady_mem hi)] using (hm i).2 hiL
    have hphase : ∀ y ∈ preprocessings L,
        (p₀.info y).unit.intent.phase ≤ (p₀.info i).unit.intent.phase := fun y hy => by
      rw [(h.ready hi).1]; exact hP y ((hm y).2 hy)
    -- an unmarked unit of the phase whose dependencies are marked is a ready candidate
    have hsmall : ∀ x < p₀.size, (p₀.info x).unit.intent = (p₀.info i).unit.intent →
        x ∉ preprocessings L → (∀ d ∈ (p₀.info x).dependencyIndices, d ∈ preprocessings L) →
        i ≤ x := fun x hx hxI hxL hxd => by
      have hxc : x ∈ cs := (h.covered x hx).resolve_right fun hxm => hxL ((hm x).1 hxm)
      refine firstReady_le hi h.sorted hxc (hasIntentAndSatisfiedDependencies_eq_true.2
        ⟨by rw [h.kept.unit]; exact hxI.trans (h.ready hi).1, fun d hd => ?_⟩)
      exact (hm d).2 (hxd d (h.kept.dependencyIndices x ▸ hd))
    refine ⟨L ++ [.markPreprocessed i], by simp [hL], fun j => ?_, everyEntry_append_singleton.2
      ⟨hL', show MarkedCorrectly p₀ L (.markPreprocessed i) from
        ⟨hfresh, fun d hd => (hm d).1 (hdeps d hd), hphase, hsmall⟩⟩⟩
    rcases eq_or_ne i j with rfl | hij
    · simp [his]
    · simp [hij, Ne.symm hij, hm j]

/-- A pass marks a unit of the phase's intent. -/
theorem PhaseBound.markReady (hP : PhaseBound p₀ intent p) :
    PhaseBound p₀ intent
      ((p.emit (.markPreprocessed i)).modifyUnit i fun u => { u with preProcessed := true }) := by
  intro j hj
  rcases eq_or_ne i j with rfl | hij
  · exact (h.ready hi).1 ▸ le_rfl
  · exact hP j (by simpa [hij] using hj)

end MarkReady

/-- The loop of a dry phase keeps the invariants, only erases candidates, never fails,
    and ends with no candidate ready. -/
theorem DryInv.processReadyUnits {cs : List Nat} {intent : ConfigurationUnitIntent}
    (h : DryInv p₀ cs p) (hP : PhaseBound p₀ intent p) :
    wp (ConfigurationSetApply.processReadyUnits hasPreprocessed markPreprocessed intent cs.length cs false)
      (fun r p' => (DryInv p₀ r.1 p' ∧ PhaseBound p₀ intent p' ∧ r.2 = false ∧ r.1 ⊆ cs) ∧
        firstReady hasPreprocessed intent p' r.1 = none)
      (fun _ _ => False) p :=
  wp_mono (fun _ _ h => ⟨h.1, h.2 le_rfl⟩) (fun _ _ h => h)
    (processReadyUnits_rule _ _ intent
      (fun cs' hf p => DryInv p₀ cs' p ∧ PhaseBound p₀ intent p ∧ hf = false ∧ cs' ⊆ cs)
      (fun _ _ _ _ ⟨h, hP, hf, hcs⟩ hi => by
        simp only [markPreprocessed, wp_bind, wp_logEvent, wp_modifyUnitInfo, wp_pure]
        exact ⟨h.markReady hi hP, hP.markReady h hi, by simp [hf],
          fun _ hx => hcs (List.mem_of_mem_erase hx)⟩)
      cs.length cs false p ⟨h, hP, rfl, List.Subset.refl _⟩)

/-- A phase whose candidates of its intent are all stuck, started after the earlier
    phases passed, shows a cycle or a later dependency: a stuck candidate has a
    dependency that is not marked, which is either of a later phase, or past the table,
    or a stuck candidate of the same phase; and stuck candidates that only depend on
    stuck candidates close a cycle. -/
theorem DryInv.stalled {cs : List Nat} {intent : ConfigurationUnitIntent} (h : DryInv p₀ cs p)
    (hlow : ∀ j ∈ cs, intent.phase ≤ (p₀.info j).unit.intent.phase)
    (hnone : firstReady hasPreprocessed intent p cs = none)
    (hrem : ∃ j ∈ cs, (p₀.info j).unit.intent = intent) :
    HasDependencyCycle p₀ ∨ HasLaterDependency p₀ := by
  refine or_iff_not_imp_right.2 fun hlat => ?_
  let S := (cs.filter fun j => (p₀.info j).unit.intent = intent).toFinset
  refine exists_cycle_of_closed S ?_ fun j hj => ?_
  · obtain ⟨j, hj, hI⟩ := hrem
    exact ⟨j, by simp [S, hj, hI]⟩
  simp only [S, List.mem_toFinset, List.mem_filter, decide_eq_true_eq] at hj
  obtain ⟨hjc, hI⟩ := hj
  -- the candidate is not ready, so one of its dependencies is not marked
  obtain ⟨d, hd, hdm⟩ : ∃ d ∈ (p₀.info j).dependencyIndices, (p.info d).preProcessed = false := by
    by_contra hall
    push_neg at hall
    have : hasIntentAndSatisfiedDependencies p (p.info j) intent hasPreprocessed = true :=
      hasIntentAndSatisfiedDependencies_eq_true.2 ⟨(congrArg (·.intent) (h.kept.unit j)).trans hI,
        fun d hd => by simpa [hasPreprocessed] using hall d (h.kept.dependencyIndices j ▸ hd)⟩
    rw [firstReady_eq_none.1 hnone j hjc] at this
    cases this
  have hjd : DependsOn p₀ j d := ⟨h.lt j hjc, hd⟩
  have hdn : d < p₀.size := not_le.1 fun hle => hlat ⟨j, d, hjd, .inl hle⟩
  -- not of a later phase, not marked, so a candidate, so of the same phase
  have hdc : d ∈ cs := (h.covered d hdn).resolve_right (by simp [hdm])
  have hph : (p₀.info d).unit.intent = intent := ConfigurationUnitIntent.phase_inj
    (le_antisymm (not_lt.1 fun hlt => hlat ⟨j, d, hjd, .inr (hI ▸ hlt)⟩) (hlow d hdc))
  exact ⟨d, by simp [S, hdc, hph], hjd⟩

/-- At the end of a passed phase no unit of its intent depends on a later unit: the unit
    is marked, so its dependency is, and only units up to the phase are marked. -/
theorem DryInv.no_laterDependency {cs : List Nat} {intent : ConfigurationUnitIntent}
    (h : DryInv p₀ cs p) (hP : PhaseBound p₀ intent p)
    (hdone : ∀ j ∈ cs, (p₀.info j).unit.intent ≠ intent) {j d : Nat}
    (hI : (p₀.info j).unit.intent = intent) (hjd : DependsOn p₀ j d)
    (hlater : p₀.size ≤ d ∨ (p₀.info j).unit.intent.phase < (p₀.info d).unit.intent.phase) :
    False := by
  have hjm : (p.info j).preProcessed = true :=
    (h.covered j hjd.1).resolve_left fun hc => hdone j hc hI
  have hdm := h.closed j hjm d hjd.2
  rcases hlater with hle | hlt
  · rw [ConfigurationSetApplyProcessor.info_of_size_le p (h.kept.size ▸ hle)] at hdm
    cases hdm
  · exact absurd (hP d hdm) (not_le.2 (hI ▸ hlt))

/-- A dry phase that passes keeps the invariants and leaves no candidate of its intent;
    one that fails, started after the earlier phases passed, shows a cycle or a later
    dependency. -/
theorem DryInv.processIntentInternal {cs : List Nat} {intent : ConfigurationUnitIntent}
    (h : DryInv p₀ cs p) (hP : PhaseBound p₀ intent p)
    (errorForOtherIntents errorForFailures : HResult) :
    wp (ConfigurationSetApply.processIntentInternal hasPreprocessed markPreprocessed intent cs
        errorForOtherIntents errorForFailures false)
      (fun r p' => (r.1 = true → DryInv p₀ r.2 p' ∧ PhaseBound p₀ intent p' ∧ r.2 ⊆ cs ∧
          ∀ j ∈ r.2, (p₀.info j).unit.intent ≠ intent) ∧
        (r.1 = false → (∀ j ∈ cs, intent.phase ≤ (p₀.info j).unit.intent.phase) →
          HasDependencyCycle p₀ ∨ HasLaterDependency p₀))
      (fun _ _ => False) p := by
  rw [wp_processIntentInternal]
  refine wp_mono (fun r p₁ ⟨⟨h₁, hP₁, hf, hcs⟩, hnone⟩ => ?_) (fun _ _ h => h)
    (h.processReadyUnits hP)
  simp only [hf, Bool.false_or]
  split
  case isTrue hrem =>
    -- a candidate of the phase's intent is left: the phase stalled
    refine ⟨nofun, fun _ hlow => h₁.stalled (fun j hj => hlow j (hcs hj)) hnone ?_⟩
    obtain ⟨j, hj, hI⟩ := List.any_eq_true.1 hrem
    exact ⟨j, hj, (congrArg (·.intent) (h₁.kept.unit j)).symm.trans (beq_iff_eq.1 hI)⟩
  case isFalse hrem =>
    simp only [Bool.not_eq_true, List.any_eq_false, beq_iff_eq] at hrem
    rw [ConfigurationSetApplyProcessor.markAll_of_forall_not_selects _ _ _ _ (by simpa using hrem)]
    exact ⟨fun _ => ⟨h₁, hP₁, hcs, fun j hj => by rw [← h₁.kept.unit]; exact hrem j hj⟩, nofun⟩

/-- The dry run from a table with no unit marked fails exactly when the dependency graph
    has a cycle or some unit depends on a unit of a later phase or on no unit; when it
    passes, it has marked every unit, with no candidate left. -/
theorem DryInv.run (h : ∀ j, (p₀.info j).preProcessed = false) :
    wp (ConfigurationSetApply.processInternal hasPreprocessed markPreprocessed false)
      (fun ok p' => (ok = false ↔ HasDependencyCycle p₀ ∨ HasLaterDependency p₀) ∧
        (ok = true → DryInv p₀ [] p'))
      (fun _ _ => False) p₀ := by
  rw [wp_processInternal]
  refine wp_mono (fun r₁ p₁ ⟨ok₁, fail₁⟩ => ?_) (fun _ _ h => h)
    ((DryInv.start h).processIntentInternal (PhaseBound.start h .assert) _ _)
  split
  case isFalse hr₁ =>
    exact ⟨iff_of_true rfl (fail₁ (by simpa using hr₁) fun _ _ => Nat.zero_le _), nofun⟩
  case isTrue hr₁ =>
    obtain ⟨c₁, b₁, -, n₁⟩ := ok₁ hr₁
    -- after the Assert phase every candidate is of a later phase
    have low₁ : ∀ j ∈ r₁.2, ConfigurationUnitIntent.inform.phase ≤ (p₀.info j).unit.intent.phase :=
      fun j hj => ConfigurationUnitIntent.inform_phase_le (n₁ j hj)
    refine wp_mono (fun r₂ p₂ ⟨ok₂, fail₂⟩ => ?_) (fun _ _ h => h)
      (c₁.processIntentInternal (b₁.mono (by decide)) _ _)
    split
    case isFalse hr₂ => exact ⟨iff_of_true rfl (fail₂ (by simpa using hr₂) low₁), nofun⟩
    case isTrue hr₂ =>
      obtain ⟨c₂, b₂, s₂, n₂⟩ := ok₂ hr₂
      have low₂ : ∀ j ∈ r₂.2, ConfigurationUnitIntent.apply.phase ≤ (p₀.info j).unit.intent.phase :=
        fun j hj => ConfigurationUnitIntent.apply_phase_le (n₁ j (s₂ hj)) (n₂ j hj)
      refine wp_mono (fun r₃ p₃ ⟨ok₃, fail₃⟩ => ?_) (fun _ _ h => h)
        (c₂.processIntentInternal (b₂.mono (by decide)) _ _)
      cases hr₃ : r₃.1
      case false => exact ⟨iff_of_true rfl (fail₃ hr₃ low₂), fun h => absurd h (by decide)⟩
      case true =>
        obtain ⟨c₃, b₃, s₃, n₃⟩ := ok₃ hr₃
        -- no candidate is left: it would be of none of the three intents
        have hnil : r₃.2 = [] := List.eq_nil_iff_forall_not_mem.2 fun j hc => by
          have h₁ := n₁ j (s₂ (s₃ hc))
          have h₂ := n₂ j (s₃ hc)
          have h₃ := n₃ j hc
          revert h₁ h₂ h₃
          cases (p₀.info j).unit.intent <;> decide
        refine ⟨iff_of_false (by decide) ?_, fun _ => hnil ▸ c₃⟩
        rintro (⟨j, hj⟩ | ⟨j, d, hjd, hlater⟩)
        · -- every unit is marked at the end, but no unit on a cycle is
          obtain ⟨k, ⟨hjs, -⟩, -⟩ := exists_dependsOn_onCycle hj
          have hm : (p₃.info j).preProcessed = true :=
            (c₃.covered j hjs).resolve_left fun hc => by simp [hnil] at hc
          simp [c₃.offCycle j hj] at hm
        · -- the phase of the unit passed, so its later dependency would be marked
          cases hI : (p₀.info j).unit.intent
          case assert => exact c₁.no_laterDependency b₁ n₁ hI hjd hlater
          case inform => exact c₂.no_laterDependency b₂ n₂ hI hjd hlater
          case apply => exact c₃.no_laterDependency b₃ n₃ hI hjd hlater

/-- The dry run from a table with no unit marked fails exactly when the dependency graph
    has a cycle or some unit depends on a unit of a later phase or on no unit. -/
theorem DryInv.processInternal (h : ∀ j, (p₀.info j).preProcessed = false) :
    wp (ConfigurationSetApply.processInternal hasPreprocessed markPreprocessed false)
      (fun ok _ => ok = false ↔ HasDependencyCycle p₀ ∨ HasLaterDependency p₀)
      (fun _ _ => False) p₀ :=
  wp_mono (fun _ _ h => h.1) (fun _ _ h => h) (DryInv.run h)

end ConfigurationSetApply
