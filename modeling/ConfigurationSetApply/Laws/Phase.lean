-- SUMMARY: A phase's loop as the sequence of its actions: each on the first ready candidate, which is erased, until no candidate is ready; the loop given as many passes as candidates is such a run.
import ConfigurationSetApply.Laws.Scheduler

/-!
# The actions of a phase

`PhaseRun` is the loop of `ProcessIntentInternal` read the way the spec describes it: scan
the candidates front to back; on the first ready one, remove it, run the action on it, and
scan again; stop when a scan finds no candidate ready. A run records each action as the
unit acted on, the state the unit was picked in and what the action returned.

`processReadyUnits_phaseRun` shows that the loop given as many passes as candidates is a
run, whenever no action throws. The lemmas after it read off any run what the spec says of
the loop: the actions are on distinct candidates, each ready when it was picked, at most
one per candidate; the candidates left are the others, in their order, and none of them
is ready; and the flag says whether an action returned `false`.
-/

namespace ConfigurationSetApply

variable (check : UnitInfo → Bool) (action : Nat → ProcessorM Bool)
  (intent : ConfigurationUnitIntent)

/-- A run of a phase's loop from the candidates `cs`, the failure flag `hf` and the state
    `p`: its actions, each as the unit acted on, the state it was picked in and what the
    action returned, and the candidates, flag and state it ends with. -/
inductive PhaseRun : List Nat → Bool → ConfigurationSetApplyProcessor →
    List (Nat × ConfigurationSetApplyProcessor × Bool) → List Nat → Bool →
    ConfigurationSetApplyProcessor → Prop
  /-- A scan finds no candidate ready, and the loop ends. -/
  | stop {cs hf p} : firstReady check intent p cs = none → PhaseRun cs hf p [] cs hf p
  /-- The first ready candidate is erased and acted on, and the loop goes on. -/
  | pick {cs hf p i ok p₁ acts cs' hf' p'} : firstReady check intent p cs = some i →
      action i p = .ok ok p₁ → PhaseRun (cs.erase i) (hf || !ok) p₁ acts cs' hf' p' →
      PhaseRun cs hf p ((i, p, ok) :: acts) cs' hf' p'

variable {check action intent}

/-- The loop given at least as many passes as candidates, when it returns, has made a run
    of the phase. -/
theorem processReadyUnits_phaseRun (fuel : Nat) :
    ∀ cs hf p, cs.length ≤ fuel →
      wp (processReadyUnits check action intent fuel cs hf)
        (fun r p' => ∃ acts, PhaseRun check action intent cs hf p acts r.1 r.2 p')
        (fun _ _ => True) p := by
  induction fuel with
  | zero =>
    intro cs hf p hlen
    exact ⟨[], .stop (by simp [List.eq_nil_of_length_eq_zero (Nat.le_zero.1 hlen), firstReady])⟩
  | succ fuel ih =>
    intro cs hf p hlen
    simp only [processReadyUnits, wp_bind, wp_get]
    split
    next hnone => exact ⟨[], .stop hnone⟩
    next i hi =>
      rw [wp_bind]
      cases hact : action i p with
      | ok ok p₁ =>
        rw [wp_eq_of_ok hact]
        have hlen' : (cs.erase i).length ≤ fuel := by
          rw [List.length_erase_of_mem (firstReady_mem hi)]
          omega
        exact wp_mono (fun r p' ⟨acts, hrun⟩ => ⟨_, .pick hi hact hrun⟩) (fun _ _ h => h)
          (ih _ _ p₁ hlen')
      | error e p₁ => simp only [wp, hact]

/-- The loop returns when no action throws. -/
theorem processReadyUnits_returns (h : ∀ i p, wp (action i) (fun _ _ => True) (fun _ _ => False) p)
    (fuel : Nat) (cs : List Nat) (hf : Bool) (p : ConfigurationSetApplyProcessor) :
    wp (processReadyUnits check action intent fuel cs hf) (fun _ _ => True) (fun _ _ => False) p :=
  wp_mono (fun _ _ _ => trivial) (fun _ _ h => h) (processReadyUnits_rule check action intent
    (fun _ _ _ => True) (fun _ _ p i _ _ => h i p) fuel cs hf p trivial)

namespace PhaseRun

variable {cs cs' : List Nat} {hf hf' : Bool} {p p' : ConfigurationSetApplyProcessor}
  {acts : List (Nat × ConfigurationSetApplyProcessor × Bool)}

/-- Each action is on a candidate that was ready when it was picked. -/
theorem mem_ready (h : PhaseRun check action intent cs hf p acts cs' hf' p') :
    ∀ x ∈ acts, x.1 ∈ cs ∧ hasIntentAndSatisfiedDependencies x.2.1 (x.2.1.info x.1) intent check := by
  induction h with
  | stop => simp
  | pick hi _ _ ih =>
    simp only [List.mem_cons, forall_eq_or_imp]
    exact ⟨⟨firstReady_mem hi, firstReady_ready hi⟩,
      fun x hx => ⟨List.mem_of_mem_erase (ih x hx).1, (ih x hx).2⟩⟩

/-- Every candidate is acted on or left: the actions and the candidates left together
    are as many as the candidates. -/
theorem length_add (h : PhaseRun check action intent cs hf p acts cs' hf' p') :
    acts.length + cs'.length = cs.length := by
  induction h with
  | stop => simp
  | pick hi _ _ ih =>
    rw [List.length_erase_of_mem (firstReady_mem hi)] at ih
    have := List.length_pos_of_mem (firstReady_mem hi)
    simp only [List.length_cons]
    omega

/-- The candidates left are among the candidates. -/
theorem mem_left (h : PhaseRun check action intent cs hf p acts cs' hf' p') :
    ∀ j ∈ cs', j ∈ cs := by
  induction h with
  | stop => exact fun _ hj => hj
  | pick _ _ _ ih => exact fun j hj => List.mem_of_mem_erase (ih j hj)

/-- When every action keeps the units of the table, so does the run, and each action
    picked its unit in a state with the units the run started from. -/
theorem sameUnits (hkeep : ∀ i, Keeps SameUnits (action i))
    (h : PhaseRun check action intent cs hf p acts cs' hf' p') :
    SameUnits p p' ∧ ∀ x ∈ acts, SameUnits p x.2.1 := by
  induction h with
  | stop => exact ⟨refl_of _ _, by simp⟩
  | pick _ hact _ ih =>
    have h₁ := (hkeep _ _).of_ok hact
    simp only [List.mem_cons, forall_eq_or_imp]
    exact ⟨trans_of _ h₁ ih.1, refl_of _ _, fun x hx => trans_of _ h₁ (ih.2 x hx)⟩

/-- The loop ends when a scan finds no candidate ready. -/
theorem stopped (h : PhaseRun check action intent cs hf p acts cs' hf' p') :
    firstReady check intent p' cs' = none := by
  induction h with
  | stop hnone => exact hnone
  | pick _ _ _ ih => exact ih

/-- The flag at the end says whether it was set or an action returned `false`. -/
theorem flag (h : PhaseRun check action intent cs hf p acts cs' hf' p') :
    hf' = (hf || acts.any fun x => !x.2.2) := by
  induction h with
  | stop => simp
  | pick _ _ _ ih => rw [ih]; simp [Bool.or_assoc]

/-- On distinct candidates, no unit is acted on twice, and the candidates left are the
    others, in their order. -/
theorem remaining (h : PhaseRun check action intent cs hf p acts cs' hf' p') (hnd : cs.Nodup) :
    (acts.map (·.1)).Nodup ∧ cs' = cs.filter (· ∉ acts.map (·.1)) := by
  induction h with
  | stop => simp
  | @pick cs _ _ i _ _ acts _ _ _ _ _ hrun ih =>
    obtain ⟨hnd', hrest⟩ := ih (hnd.erase i)
    have hi : i ∉ acts.map (·.1) := fun hm => by
      obtain ⟨x, hx, hxi⟩ := List.mem_map.1 hm
      exact (hnd.mem_erase_iff.1 (hrun.mem_ready x hx).1).1 hxi
    refine ⟨List.nodup_cons.2 ⟨hi, hnd'⟩, ?_⟩
    rw [hrest, hnd.erase_eq_filter, List.filter_filter]
    exact List.filter_congr fun a _ => by by_cases ha : a = i <;> simp [ha, Bool.and_comm, bne]

end PhaseRun

end ConfigurationSetApply
