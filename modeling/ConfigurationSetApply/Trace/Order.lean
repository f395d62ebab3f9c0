-- SUMMARY: Orders of units under a dependency relation: topological orders, the smallest-first order of a front-to-back scan, and why it is the lexicographically smallest one, phase by phase.
import ConfigurationSetApply.Trace.Run
import Mathlib.Data.List.Lex

/-!
# Execution orders

A run executes the units of a phase in some order. The spec's tie-breaking rule says
which: of the units whose dependencies have run, the one with the lowest input
position goes first. Read on the order itself this is `SmallestFirst`, and an order
that is topological (`TopologicalOrder`) and smallest-first is the lexicographically
smallest topological order (`TopologicalOrder.lexSmallest`): where another order first
differs, its unit was ready too, and the scan took a smaller one.

`PhasedSchedule` is what the two runs of the processor are shown to produce: one order of
all units, phase after phase, each unit after its dependencies and the smallest unit of
its intent that is ready. Its restriction to each intent is the lexicographically
smallest topological order of that intent's units (`PhasedSchedule.lexSmallest`).
-/

namespace ConfigurationSetApply

-- ---------------------------------------------------------------------------
-- Orders
-- ---------------------------------------------------------------------------

section Order

variable (dep : Nat → Nat → Prop) (S : List Nat)

/-- In `order`, every unit comes after each of its dependencies that is in `S`. -/
def AfterDependencies (order : List Nat) : Prop :=
  ∀ pre j post, order = pre ++ j :: post → ∀ d ∈ S, dep j d → d ∈ pre

/-- `order` lists the units of `S` once each, every unit after its dependencies in `S`. -/
def TopologicalOrder (order : List Nat) : Prop :=
  order.Perm S ∧ AfterDependencies dep S order

/-- In `order`, each unit is no larger than any later unit whose dependencies in `S` all
    come before it: the choice of a scan over the candidates in input order. -/
def SmallestFirst (order : List Nat) : Prop :=
  ∀ pre j post, order = pre ++ j :: post → ∀ x ∈ post, (∀ d ∈ S, dep x d → d ∈ pre) → j ≤ x

/-- `order` is the lexicographically smallest topological order of `S`. -/
def LexSmallest (order : List Nat) : Prop :=
  TopologicalOrder dep S order ∧
    ∀ order', TopologicalOrder dep S order' → order = order' ∨ List.Lex (· < ·) order order'

variable {dep S}

/-- The exchange step, after the units `done`: where the orders first differ, the unit of
    the other order is ready, so the smallest-first order takes one no larger. -/
theorem lex_of_smallestFirst (done : List Nat) {σ τ : List Nat} (hp : σ.Perm τ)
    (hτ : ∀ pre j post, τ = pre ++ j :: post → ∀ d ∈ S, dep j d → d ∈ done ++ pre)
    (hσ : ∀ pre j post, σ = pre ++ j :: post → ∀ x ∈ post,
      (∀ d ∈ S, dep x d → d ∈ done ++ pre) → j ≤ x) :
    σ = τ ∨ List.Lex (· < ·) σ τ := by
  induction σ generalizing done τ with
  | nil => exact .inl (List.nil_perm.1 hp).symm
  | cons j σ ih =>
    cases τ with
    | nil => exact absurd hp.length_eq (by simp)
    | cons k τ =>
      by_cases hjk : j = k
      · subst hjk
        have hrest := ih (done ++ [j]) hp.cons_inv
          (fun pre i post h => by simpa using hτ (j :: pre) i post (by rw [h]; rfl))
          (fun pre i post h x hx hr => hσ (j :: pre) i post (by rw [h]; rfl) x hx (by simpa using hr))
        rcases hrest with h | h
        · exact .inl (congrArg _ h)
        · exact .inr h.cons
      · -- the other order starts with a ready unit that the scan did not take first
        have hk : k ∈ σ := (List.mem_cons.1 (hp.symm.subset (List.mem_cons_self k τ))).resolve_left
          (Ne.symm hjk)
        exact .inr (.rel (lt_of_le_of_ne (hσ [] j σ rfl k hk (by simpa using hτ [] k τ rfl)) hjk))

/-- A topological order that is smallest-first is the lexicographically smallest one. -/
theorem TopologicalOrder.lexSmallest {σ : List Nat} (h : TopologicalOrder dep S σ)
    (hs : SmallestFirst dep S σ) : LexSmallest dep S σ :=
  ⟨h, fun _ hτ => lex_of_smallestFirst [] (h.1.trans hτ.1.symm) hτ.2 hs⟩

end Order

-- ---------------------------------------------------------------------------
-- Phased schedules
-- ---------------------------------------------------------------------------

section Phased

variable (n : Nat) (intentOf : Nat → ConfigurationUnitIntent) (dep : Nat → Nat → Prop)

/-- `order` lists the units `0, …, n - 1` once each, phase after phase; each unit comes
    after its dependencies and is no larger than any unit of its intent not listed yet
    whose dependencies are listed. -/
structure PhasedSchedule (order : List Nat) : Prop where
  perm : order.Perm (List.range n)
  after : ∀ pre j post, order = pre ++ j :: post → ∀ d, dep j d → d ∈ pre
  phase : ∀ pre j post, order = pre ++ j :: post → ∀ y ∈ pre, (intentOf y).phase ≤ (intentOf j).phase
  smallest : ∀ pre j post, order = pre ++ j :: post → ∀ x < n, intentOf x = intentOf j → x ∉ pre →
    (∀ d, dep x d → d ∈ pre) → j ≤ x

variable {n intentOf dep}

/-- A unit listed in the middle of a filtered list splits the list around it. -/
theorem exists_split_of_filter {p : Nat → Bool} {l pre post : List Nat} {j : Nat}
    (h : l.filter p = pre ++ j :: post) :
    ∃ A B, l = A ++ j :: B ∧ A.filter p = pre ∧ B.filter p = post ∧ p j := by
  obtain ⟨l₁, l₂, rfl, h₁, h₂⟩ := List.filter_eq_append_iff.1 h
  obtain ⟨m₁, m₂, rfl, hm₁, hj, hm₂⟩ := List.filter_eq_cons_iff.1 h₂
  refine ⟨l₁ ++ m₁, m₂, by simp, ?_, hm₂, hj⟩
  rw [List.filter_append, h₁, List.filter_eq_nil_iff.2 hm₁, List.append_nil]

namespace PhasedSchedule

variable {order : List Nat} (h : PhasedSchedule n intentOf dep order)
include h

/-- Every unit of an earlier phase is listed before a unit. -/
theorem earlier {pre post : List Nat} {j y : Nat} (hsplit : order = pre ++ j :: post) (hy : y < n)
    (hlt : (intentOf y).phase < (intentOf j).phase) : y ∈ pre := by
  have hmem : y ∈ pre ++ j :: post := hsplit ▸ h.perm.mem_iff.2 (List.mem_range.2 hy)
  rcases List.mem_append.1 hmem with hpre | hrest
  · exact hpre
  · rcases List.mem_cons.1 hrest with rfl | hpost
    · exact absurd hlt (lt_irrefl _)
    · obtain ⟨C, C', rfl⟩ := List.append_of_mem hpost
      have := h.phase (pre ++ j :: C) y C' (by simp [hsplit]) j (by simp)
      omega

/-- Restricted to the units of one intent, the schedule is the lexicographically smallest
    topological order of those units. -/
theorem lexSmallest (intent : ConfigurationUnitIntent) :
    LexSmallest dep ((List.range n).filter fun j => intentOf j == intent)
      (order.filter fun j => intentOf j == intent) := by
  have hnd : order.Nodup := h.perm.nodup_iff.2 (List.nodup_range n)
  have hlt : ∀ {y}, y ∈ order → y < n := fun hy => List.mem_range.1 (h.perm.subset hy)
  refine TopologicalOrder.lexSmallest ⟨h.perm.filter _, fun pre j post hσ d hd hjd => ?_⟩
    fun pre j post hσ x hx hr => ?_
  · obtain ⟨A, B, hsplit, rfl, -, -⟩ := exists_split_of_filter hσ
    exact List.mem_filter.2 ⟨h.after A j B hsplit d hjd, (List.mem_filter.1 hd).2⟩
  · obtain ⟨A, B, hsplit, rfl, rfl, hj⟩ := exists_split_of_filter hσ
    obtain ⟨hxB, hxp⟩ := List.mem_filter.1 hx
    have hxI : intentOf x = intentOf j := (beq_iff_eq.1 hxp).trans (beq_iff_eq.1 hj).symm
    have hxn : x < n := hlt (by simp [hsplit, hxB])
    have hxA : x ∉ A := fun hxA => List.disjoint_of_nodup_append (hsplit ▸ hnd) hxA
      (List.mem_cons_of_mem j hxB)
    -- a dependency of the later unit is listed before it, in a phase no later than its own
    obtain ⟨C, C', rfl⟩ := List.append_of_mem hxB
    have hsplit' : order = (A ++ j :: C) ++ x :: C' := by simp [hsplit]
    refine h.smallest A j _ hsplit x hxn hxI hxA fun d hxd => ?_
    have hd := h.after _ x C' hsplit' d hxd
    have hph := h.phase _ x C' hsplit' d hd
    have hdn : d < n := hlt (by rw [hsplit']; exact List.mem_append_left _ hd)
    rcases Nat.lt_or_eq_of_le hph with hph | hph
    · exact h.earlier hsplit hdn (hxI ▸ hph)
    · have hdI : intentOf d == intentOf x := beq_iff_eq.2 (ConfigurationUnitIntent.phase_inj hph)
      have := hr d (List.mem_filter.2 ⟨List.mem_range.2 hdn, by rw [beq_iff_eq.1 hdI]; exact hxp⟩) hxd
      exact (List.mem_filter.1 this).1

end PhasedSchedule

end Phased

end ConfigurationSetApply
