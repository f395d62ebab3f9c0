-- SUMMARY: Weakest preconditions of state-and-exception computations, with one rule per monadic construct.
import ConfigurationSetApply.Model.State

/-!
# Weakest preconditions

`wp m Q E s` holds when running `m` from `s` either returns a value and a state that
satisfy `Q`, or throws an exception and leaves a state that satisfies `E`. The rules
push `wp` through the do-notation of the member functions, branch by branch, so that a
proof about a member function becomes a proof about the states its paths end in.

Each member function is given one such rule, stated with its own postcondition
variables, and callers use the rule instead of unfolding the callee.
-/

namespace ConfigurationSetApply

variable {ε σ α β : Type} {Q : α → σ → Prop} {E : ε → σ → Prop} {s : σ}

/-- Weakest precondition of `m` for the normal postcondition `Q` and the exceptional
    postcondition `E`. -/
def wp (m : EStateM ε σ α) (Q : α → σ → Prop) (E : ε → σ → Prop) (s : σ) : Prop :=
  match m s with
  | .ok a s' => Q a s'
  | .error e s' => E e s'

/-! ## Core rules -/

@[simp] theorem wp_pure (a : α) : wp (pure a : EStateM ε σ α) Q E = Q a := rfl

@[simp] theorem wp_bind (x : EStateM ε σ α) (f : α → EStateM ε σ β) {Q : β → σ → Prop} :
    wp (x >>= f) Q E = wp x (fun a => wp (f a) Q E) E := by
  funext s
  simp only [wp, bind, EStateM.bind]
  cases x s <;> rfl

@[simp] theorem wp_map (f : α → β) (x : EStateM ε σ α) {Q : β → σ → Prop} :
    wp (f <$> x) Q E = wp x (fun a => Q (f a)) E := by
  funext s
  simp only [wp, Functor.map, EStateM.map]
  cases x s <;> rfl

@[simp] theorem wp_throw (e : ε) : wp (throw e : EStateM ε σ α) Q E = E e := rfl

@[simp] theorem wp_get {Q : σ → σ → Prop} : wp (get : EStateM ε σ σ) Q E = fun s => Q s s :=
  rfl

@[simp] theorem wp_modify (f : σ → σ) {Q : PUnit → σ → Prop} :
    wp (modify f : EStateM ε σ PUnit) Q E = fun s => Q () (f s) := rfl

@[simp] theorem wp_tryCatch (x : EStateM ε σ α) (h : ε → EStateM ε σ α) :
    wp (tryCatch x h) Q E = wp x Q (fun e => wp (h e) Q E) := by
  funext s
  simp only [wp, tryCatch, tryCatchThe, MonadExceptOf.tryCatch, EStateM.tryCatch]
  cases x s <;> rfl

@[simp] theorem wp_ite (c : Prop) [Decidable c] (x y : EStateM ε σ α) :
    wp (if c then x else y) Q E = if c then wp x Q E else wp y Q E := by
  split <;> rfl

theorem wp_mono {m : EStateM ε σ α} {Q' : α → σ → Prop} {E' : ε → σ → Prop}
    (hQ : ∀ a s', Q a s' → Q' a s') (hE : ∀ e s', E e s' → E' e s') :
    wp m Q E s → wp m Q' E' s := by
  unfold wp
  cases m s with
  | ok a s' => exact hQ a s'
  | error e s' => exact hE e s'

/-- Every run satisfies the postcondition that names its own result. -/
theorem wp_self (m : EStateM ε σ α) (s : σ) :
    wp m (fun a s' => m s = .ok a s') (fun e s' => m s = .error e s') s := by
  unfold wp
  cases m s <;> rfl

theorem wp_and {m : EStateM ε σ α} {Q' : α → σ → Prop} {E' : ε → σ → Prop}
    (h : wp m Q E s) (h' : wp m Q' E' s) :
    wp m (fun a s' => Q a s' ∧ Q' a s') (fun e s' => E e s' ∧ E' e s') s := by
  unfold wp at *
  revert h h'
  cases m s <;> exact And.intro

/-- A postcondition that can be decided can be decided of a run, by running it. -/
instance [∀ a s', Decidable (Q a s')] [∀ e s', Decidable (E e s')] {m : EStateM ε σ α} :
    Decidable (wp m Q E s) :=
  match h : m s with
  | .ok a s' => decidable_of_iff (Q a s') (by simp only [wp, h])
  | .error e s' => decidable_of_iff (E e s') (by simp only [wp, h])

/-- A run that ends normally satisfies the normal postcondition. -/
theorem wp.of_ok {m : EStateM ε σ α} {a : α} {s' : σ} (h : wp m Q E s) (hm : m s = .ok a s') :
    Q a s' := by
  unfold wp at h
  rw [hm] at h
  exact h

/-- A run whose result is known satisfies a postcondition exactly when that result
    does. -/
theorem wp_eq_of_ok {m : EStateM ε σ α} {a : α} {s' : σ} (hm : m s = .ok a s') :
    wp m Q E s = Q a s' := by
  unfold wp
  rw [hm]

/-- A run that cannot throw ends normally, in a state that satisfies the
    postcondition. -/
theorem wp.exists_ok {m : EStateM ε σ α} (h : wp m Q (fun _ _ => False) s) :
    ∃ a s', m s = .ok a s' ∧ Q a s' := by
  unfold wp at h
  revert h
  cases m s with
  | ok a s' => exact fun h => ⟨a, s', rfl, h⟩
  | error _ _ => exact False.elim

/-- A run under an assumption: the postconditions hold wherever the assumption does. -/
theorem wp_imp {P : Prop} (h : P → wp m Q E s) :
    wp m (fun a s' => P → Q a s') (fun e s' => P → E e s') s := by
  unfold wp at *
  revert h
  cases m s <;> exact fun h hP => h hP

/-- Two postconditions that agree on every normal outcome of `m` hold of it together. -/
theorem wp_congr {m : EStateM ε σ α} {Q' : α → σ → Prop}
    (h : wp m (fun a s' => Q a s' ↔ Q' a s') (fun _ _ => True) s) : wp m Q E s ↔ wp m Q' E s := by
  unfold wp at *
  revert h
  cases m s <;> simp

/-- Two programs that run the same from `s` satisfy the same postconditions from `s`. -/
theorem wp_eq_of_run_eq {m m' : EStateM ε σ α} (h : m s = m' s) : wp m Q E s = wp m' Q E s := by
  unfold wp
  rw [h]

/-- Two programs that satisfy the same postconditions from `s` run the same from `s`. -/
theorem run_eq_of_wp_iff {m m' : EStateM ε σ α} (h : ∀ Q E, wp m Q E s ↔ wp m' Q E s) :
    m s = m' s := by
  have := (h _ _).2 (wp_self m' s)
  unfold wp at this
  revert this
  cases m s <;> exact Eq.symm

/-! ## Programs that move the state along a preorder -/

/-- `m` moves the state only along `R`: from every state, on every way out. Frames are
    stated this way, so that they follow the do-notation of a member function construct by
    construct instead of unfolding it. -/
def Keeps (R : σ → σ → Prop) (m : EStateM ε σ α) : Prop :=
  ∀ s, wp m (fun _ => R s) (fun _ => R s) s

namespace Keeps

variable {R R' : σ → σ → Prop} {m x : EStateM ε σ α}

theorem mono (h : ∀ s s', R s s' → R' s s') (hm : Keeps R m) : Keeps R' m :=
  fun s => wp_mono (fun _ _ => h s _) (fun _ _ => h s _) (hm s)

theorem modify {f : σ → σ} (h : ∀ s, R s (f s)) : Keeps R (modify f : EStateM ε σ PUnit) := h

variable [IsPreorder σ R]

theorem pure (a : α) : Keeps R (Pure.pure a : EStateM ε σ α) := fun s => refl_of R s

theorem throw (e : ε) : Keeps R (MonadExcept.throw e : EStateM ε σ α) := fun s => refl_of R s

theorem get : Keeps R (MonadState.get : EStateM ε σ σ) := fun s => refl_of R s

theorem bind {f : α → EStateM ε σ β} (hx : Keeps R x) (hf : ∀ a, Keeps R (f a)) :
    Keeps R (x >>= f) := fun s => by
  rw [wp_bind]
  exact wp_mono (fun a s₁ h₁ => wp_mono (fun _ _ h => trans_of R h₁ h)
    (fun _ _ h => trans_of R h₁ h) (hf a s₁)) (fun _ _ h => h) (hx s)

theorem tryCatch {h : ε → EStateM ε σ α} (hx : Keeps R x) (hh : ∀ e, Keeps R (h e)) :
    Keeps R (MonadExcept.tryCatch x h) := fun s => by
  rw [wp_tryCatch]
  exact wp_mono (fun _ _ h => h) (fun e s₁ h₁ => wp_mono (fun _ _ h => trans_of R h₁ h)
    (fun _ _ h => trans_of R h₁ h) (hh e s₁)) (hx s)

end Keeps

/-- `I` at `s` gives `I` at `s'`: the preorder along which a state invariant is kept. -/
def Preserves (I : σ → Prop) (s s' : σ) : Prop := I s → I s'

instance {I : σ → Prop} : IsPreorder σ (Preserves I) where
  refl _ := id
  trans _ _ _ h₁ h₂ := h₂ ∘ h₁

/-- A program that keeps `I` from every state ends in a state with `I`, on every way out of
    one with `I`. -/
theorem Keeps.invariant {I : σ → Prop} {m : EStateM ε σ α} (h : Keeps (Preserves I) m)
    (hs : I s) : wp m (fun _ => I) (fun _ => I) s :=
  wp_mono (fun _ _ h' => h' hs) (fun _ _ h' => h' hs) (h s)

end ConfigurationSetApply
