-- SUMMARY: Views of the event log: per-unit progress, executions and their results, polls and collaborator calls, and properties of every entry with the log before it.
import ConfigurationSetApply.Model.Process

/-!
# Reading the log

The properties of a run are read off its log. Each view here picks one kind of entry
out of the log: the progress states sent for one unit, the units `ProcessUnit` ran
on, the units `MarkPreprocessed` ran on, the polls and the calls into collaborators.

`EveryEntry P log` says that each entry of `log` satisfies `P` together with the part
of the log before it. A property of this shape holds of a log built by appending
entries as soon as it holds of each entry when it is appended, which is how all
temporal properties of the processor are proved.
-/

namespace ConfigurationSetApply

namespace Event

/-- The state a progress event sends for the unit at `j`. -/
@[simp] def unitState? (j : Nat) : Event → Option ConfigurationUnitState
  | .unitProgress i state => if i = j then some state else none
  | _ => none

/-- The unit a `ProcessUnit` entry is for. -/
@[simp] def executed? : Event → Option Nat
  | .processUnit i _ => some i
  | _ => none

/-- The unit a `MarkPreprocessed` entry is for. -/
@[simp] def preprocessed? : Event → Option Nat
  | .markPreprocessed i => some i
  | _ => none

/-- The unit and the result of a `ProcessUnit` return entry. -/
@[simp] def returned? : Event → Option (Nat × Bool)
  | .processUnitResult i result _ => some (i, result)
  | _ => none

/-- What a poll of the cancellation token observed. -/
@[simp] def poll? : Event → Option Bool
  | .throwIfCancelled cancelled => some cancelled
  | _ => none

/-- A call into the set processor or a unit processor. -/
@[simp] def isCall : Event → Bool
  | .createUnitProcessor _ | .testSettings _ | .getSettings _ | .applySettings _ => true
  | _ => false

/-- An entry about no unit's run: the set's progress, the processing summary, or a mark of
    the dry run. -/
@[simp] def isQuiet : Event → Bool
  | .setProgress _ | .processingSummary .. | .markPreprocessed _ => true
  | _ => false

/-- An entry `runUnitProcessor` may append for the unit at `i`: a poll, or a call on
    the processors of that unit. -/
@[simp] def isTrafficOf (i : Nat) : Event → Bool
  | .throwIfCancelled _ => true
  | .createUnitProcessor j | .testSettings j | .getSettings j | .applySettings j => j == i
  | _ => false

theorem executed?_eq_some {e : Event} {j : Nat} :
    e.executed? = some j ↔ ∃ table, e = .processUnit j table := by
  cases e <;> simp [eq_comm]

theorem preprocessed?_eq_some {e : Event} {j : Nat} :
    e.preprocessed? = some j ↔ e = .markPreprocessed j := by
  cases e <;> simp [eq_comm]

end Event

/-- The progress states sent for the unit at `j`, in order. -/
def unitStates (log : List Event) (j : Nat) : List ConfigurationUnitState :=
  log.filterMap (Event.unitState? j)

/-- The units `ProcessUnit` was entered for, in order. -/
def executions (log : List Event) : List Nat := log.filterMap Event.executed?

/-- The units `MarkPreprocessed` ran on, in order. -/
def preprocessings (log : List Event) : List Nat := log.filterMap Event.preprocessed?

/-- What each `ProcessUnit` returned, in order. -/
def returns (log : List Event) : List (Nat × Bool) := log.filterMap Event.returned?

section Views

variable (log log' : List Event) (e : Event) (j : Nat)

@[simp] theorem unitStates_nil : unitStates [] j = [] := rfl
@[simp] theorem unitStates_append :
    unitStates (log ++ log') j = unitStates log j ++ unitStates log' j := List.filterMap_append _ _ _
@[simp] theorem unitStates_cons : unitStates (e :: log) j = (e.unitState? j).toList ++ unitStates log j := by
  rw [unitStates, unitStates, List.filterMap_cons]; cases e.unitState? j <;> rfl

@[simp] theorem executions_nil : executions [] = [] := rfl
@[simp] theorem executions_append :
    executions (log ++ log') = executions log ++ executions log' := List.filterMap_append _ _ _
@[simp] theorem executions_cons : executions (e :: log) = e.executed?.toList ++ executions log := by
  rw [executions, executions, List.filterMap_cons]; cases e.executed? <;> rfl

@[simp] theorem preprocessings_nil : preprocessings [] = [] := rfl
@[simp] theorem preprocessings_append :
    preprocessings (log ++ log') = preprocessings log ++ preprocessings log' := List.filterMap_append _ _ _
@[simp] theorem preprocessings_cons :
    preprocessings (e :: log) = e.preprocessed?.toList ++ preprocessings log := by
  rw [preprocessings, preprocessings, List.filterMap_cons]; cases e.preprocessed? <;> rfl

@[simp] theorem returns_nil : returns [] = [] := rfl
@[simp] theorem returns_append : returns (log ++ log') = returns log ++ returns log' :=
  List.filterMap_append _ _ _
@[simp] theorem returns_cons : returns (e :: log) = e.returned?.toList ++ returns log := by
  rw [returns, returns, List.filterMap_cons]; cases e.returned? <;> rfl

@[simp] theorem executions_map_unitProgress (cs : List Nat) (state : ConfigurationUnitState) :
    executions (cs.map (.unitProgress · state)) = [] :=
  List.filterMap_eq_nil_iff.2 (by simp)

@[simp] theorem returns_map_unitProgress (cs : List Nat) (state : ConfigurationUnitState) :
    returns (cs.map (.unitProgress · state)) = [] :=
  List.filterMap_eq_nil_iff.2 (by simp)

@[simp] theorem preprocessings_map_unitProgress (cs : List Nat) (state : ConfigurationUnitState) :
    preprocessings (cs.map (.unitProgress · state)) = [] :=
  List.filterMap_eq_nil_iff.2 (by simp)

/-- The progress a marking loop sends over distinct candidates: one event for each
    candidate it selects. -/
theorem unitStates_map_unitProgress {cs : List Nat} (hnd : cs.Nodup) (f : Nat → Bool)
    (state : ConfigurationUnitState) (j : Nat) :
    unitStates ((cs.filter f).map (.unitProgress · state)) j =
      if j ∈ cs ∧ f j = true then [state] else [] := by
  induction cs with
  | nil => simp
  | cons i rest ih =>
    rw [List.nodup_cons] at hnd
    rw [List.filter_cons]
    by_cases hij : i = j
    · subst hij
      cases hf : f i <;> simp [hf, ih hnd.2, hnd.1]
    · cases f i <;> simp [ih hnd.2, hij, Ne.symm hij]

/-- An entry about no unit's run is no progress, entry or return of `ProcessUnit`. -/
theorem Event.isQuiet_views {e : Event} (h : e.isQuiet) :
    (∀ j, e.unitState? j = none) ∧ e.executed? = none ∧ e.returned? = none := by
  cases e <;> simp_all

section Quiet

variable {L : List Event} (h : ∀ e ∈ L, e.isQuiet)
include h

theorem unitStates_of_quiet (j : Nat) : unitStates L j = [] :=
  List.filterMap_eq_nil_iff.2 fun _ he => (Event.isQuiet_views (h _ he)).1 j

theorem executions_of_quiet : executions L = [] :=
  List.filterMap_eq_nil_iff.2 fun _ he => (Event.isQuiet_views (h _ he)).2.1

theorem returns_of_quiet : returns L = [] :=
  List.filterMap_eq_nil_iff.2 fun _ he => (Event.isQuiet_views (h _ he)).2.2

end Quiet

theorem mem_returns_of_mem {log : List Event} {j : Nat} {result : Bool}
    {table : List UnitInfo} (h : .processUnitResult j result table ∈ log) :
    (j, result) ∈ returns log :=
  List.mem_filterMap.2 ⟨_, h, rfl⟩

/-- An entry in the middle of a view of the log splits the log around an entry. -/
theorem exists_split_of_filterMap {f : Event → Option Nat} {log : List Event}
    {pre post : List Nat} {j : Nat} (h : log.filterMap f = pre ++ j :: post) :
    ∃ L e M, log = L ++ e :: M ∧ f e = some j ∧ L.filterMap f = pre := by
  obtain ⟨l₁, l₂, rfl, h₁, h₂⟩ := List.filterMap_eq_append_iff.1 h
  obtain ⟨m₁, e, m₂, rfl, hm₁, he, -⟩ := List.filterMap_eq_cons_iff.1 h₂
  exact ⟨l₁ ++ m₁, e, m₂, by simp, he,
    by rw [List.filterMap_append, h₁, List.filterMap_eq_nil_iff.2 hm₁, List.append_nil]⟩

/-- A unit at a place of the order of executions has its `ProcessUnit` entry there, after
    the entries of the units before it. -/
theorem exists_entry_of_executions {log : List Event} {pre post : List Nat} {j : Nat}
    (h : executions log = pre ++ j :: post) :
    ∃ L table M, log = L ++ .processUnit j table :: M ∧ executions L = pre := by
  obtain ⟨L, e, M, rfl, he, hL⟩ := exists_split_of_filterMap h
  obtain ⟨table, rfl⟩ := Event.executed?_eq_some.1 he
  exact ⟨L, table, M, rfl, hL⟩

/-- A unit at a place of the order of marks has its mark there, after the marks of the
    units before it. -/
theorem exists_mark_of_preprocessings {log : List Event} {pre post : List Nat} {j : Nat}
    (h : preprocessings log = pre ++ j :: post) :
    ∃ L M, log = L ++ .markPreprocessed j :: M ∧ preprocessings L = pre := by
  obtain ⟨L, e, M, rfl, he, hL⟩ := exists_split_of_filterMap h
  rw [Event.preprocessed?_eq_some.1 he]
  exact ⟨L, M, rfl, hL⟩

theorem exists_of_mem_returns {log : List Event} {j : Nat} {result : Bool}
    (h : (j, result) ∈ returns log) : ∃ table, .processUnitResult j result table ∈ log := by
  obtain ⟨e, he, hed⟩ := List.mem_filterMap.1 h
  cases e <;> simp at hed
  obtain ⟨rfl, rfl⟩ := hed
  exact ⟨_, he⟩

end Views

/-- What the last poll of the log observed, if there was one. -/
def lastPoll (log : List Event) : Option Bool := (log.filterMap Event.poll?).getLast?

/-- Every entry `e` of `log`, with the part `pre` of the log before it, satisfies
    `P pre e`. -/
def EveryEntry (P : List Event → Event → Prop) (log : List Event) : Prop :=
  ∀ pre e post, log = pre ++ e :: post → P pre e

section EveryEntry

variable {P : List Event → Event → Prop}

@[simp] theorem everyEntry_nil : EveryEntry P [] := by
  intro pre e post h
  simp at h

@[simp] theorem everyEntry_cons {e : Event} {log : List Event} :
    EveryEntry P (e :: log) ↔ P [] e ∧ EveryEntry (fun pre x => P (e :: pre) x) log := by
  constructor
  · intro h
    exact ⟨h [] e log rfl, fun pre x post hlog => h (e :: pre) x post (by simp [hlog])⟩
  · rintro ⟨he, hlog⟩ pre x post hsplit
    cases pre with
    | nil => cases hsplit; exact he
    | cons y pre =>
      simp only [List.cons_append, List.cons.injEq] at hsplit
      obtain ⟨rfl, hsplit⟩ := hsplit
      exact hlog pre x post hsplit

theorem everyEntry_append {log log' : List Event} :
    EveryEntry P (log ++ log') ↔
      EveryEntry P log ∧ EveryEntry (fun pre e => P (log ++ pre) e) log' := by
  induction log generalizing P with
  | nil => simp
  | cons e log ih => simp [ih, and_assoc]

@[simp] theorem everyEntry_append_singleton {log : List Event} {e : Event} :
    EveryEntry P (log ++ [e]) ↔ EveryEntry P log ∧ P log e := by
  simp [everyEntry_append]

theorem EveryEntry.of_forall {log : List Event} (h : ∀ e ∈ log, ∀ pre, P pre e) :
    EveryEntry P log :=
  fun pre e post hlog => h e (by simp [hlog]) pre

/-- Appending entries on which `P` holds whatever comes before keeps `EveryEntry P`. -/
theorem everyEntry_append_of_forall {log L : List Event} (h : ∀ e ∈ L, ∀ pre, P pre e) :
    EveryEntry P (log ++ L) ↔ EveryEntry P log := by
  rw [everyEntry_append]
  exact ⟨And.left, fun h' => ⟨h', EveryEntry.of_forall fun e he _ => h e he _⟩⟩

/-- `EveryEntry` decided entry by entry, the predicate moving past each entry. -/
def decideEveryEntry : (log : List Event) → (P : List Event → Event → Prop) →
    [∀ pre e, Decidable (P pre e)] → Decidable (EveryEntry P log)
  | [], _, _ => isTrue everyEntry_nil
  | e :: log, P, _ =>
    have := decideEveryEntry log fun pre x => P (e :: pre) x
    decidable_of_iff _ everyEntry_cons.symm

instance [∀ pre e, Decidable (P pre e)] {log : List Event} : Decidable (EveryEntry P log) :=
  decideEveryEntry log P

theorem EveryEntry.mono {Q : List Event → Event → Prop} {log : List Event}
    (h : EveryEntry P log) (hPQ : ∀ pre e, P pre e → Q pre e) : EveryEntry Q log :=
  fun pre e post hlog => hPQ pre e (h pre e post hlog)

end EveryEntry

@[simp] theorem lastPoll_append (log log' : List Event) :
    lastPoll (log ++ log') = (lastPoll log').or (lastPoll log) := by
  simp only [lastPoll, List.filterMap_append, List.getLast?_append]

@[simp] theorem lastPoll_singleton (e : Event) : lastPoll [e] = e.poll? := by
  cases e <;> rfl

@[simp] theorem lastPoll_cons (e : Event) (log : List Event) :
    lastPoll (e :: log) = (lastPoll log).or e.poll? := by
  rw [← List.singleton_append, lastPoll_append, lastPoll_singleton]

@[simp] theorem lastPoll_nil : lastPoll [] = none := rfl

/-- Each poll in the log observed what the token answered for the log before it. -/
def PollsHonest (env : Collaborators) (log : List Event) : Prop :=
  EveryEntry (fun pre e => ∀ cancelled, e = .throwIfCancelled cancelled →
    cancelled = env.isCancelled pre) log

/-- Each call into a collaborator comes after a poll that found the token clear, with
    no poll in between. -/
def CallsGuarded (log : List Event) : Prop :=
  EveryEntry (fun pre e => e.isCall → lastPoll pre = some false) log

theorem pollsHonest_append {env : Collaborators} {log log' : List Event} :
    PollsHonest env (log ++ log') ↔ PollsHonest env log ∧
      EveryEntry (fun pre e => ∀ cancelled, e = .throwIfCancelled cancelled →
        cancelled = env.isCancelled (log ++ pre)) log' :=
  everyEntry_append

/-- Entries that are no poll keep the polls honest. -/
theorem pollsHonest_append_of_forall {env : Collaborators} {log L : List Event}
    (h : ∀ e ∈ L, e.poll? = none) : PollsHonest env (log ++ L) ↔ PollsHonest env log :=
  everyEntry_append_of_forall fun e he _ c hc => absurd (h e he) (by rw [hc]; simp)

/-- Entries that are no call keep the calls guarded. -/
theorem callsGuarded_append_of_forall {log L : List Event} (h : ∀ e ∈ L, e.isCall = false) :
    CallsGuarded (log ++ L) ↔ CallsGuarded log :=
  everyEntry_append_of_forall fun e he _ hc => absurd hc (by rw [h e he]; decide)

theorem callsGuarded_append {log log' : List Event} :
    CallsGuarded (log ++ log') ↔ CallsGuarded log ∧
      EveryEntry (fun pre e => e.isCall → lastPoll (log ++ pre) = some false) log' :=
  everyEntry_append

end ConfigurationSetApply
