-- SUMMARY: What PreProcess does: the index finds exactly the duplicate identifiers, resolution finds exactly the missing dependencies, and the dry run; each stage's effect on the table and the log.
import ConfigurationSetApply.Laws.RealRun

/-!
# Laws of `PreProcess`

The first two stages of `PreProcess` are loops over the units in order, and each is
proved by an invariant over the units done so far. The index stage keeps the index
equal to `firstIndexed`, the first unit done so far with a given normalized
identifier, so that a unit is flagged exactly when an earlier unit has its identifier;
the stage fails exactly when the set `HasDuplicate`. The resolution stage runs on a set
without duplicates, where a dependency string resolves exactly when some unit has that
identifier; it fails exactly when the set `HasMissing`.

All stages share `CheckFrame`: no unit is processed, and the log holds at most one
`Completed` event per unit, in step with the unit's state. When no stage flagged
anything, the table is as `create` built it, but for the index, the resolved
dependencies and the dry run's `PreProcessed` flags.
-/

namespace ConfigurationSetApply

open WingetConfigError

variable (getNormalizedIdentifier : String → String) (units : List ConfigurationUnit)

-- ---------------------------------------------------------------------------
-- The index
-- ---------------------------------------------------------------------------

/-- The unit at `j` goes into the index under `key`: its identifier is non-empty and
    normalizes to `key`. -/
def indexedUnder (key : String) (j : Nat) : Bool :=
  !(unitAt units j).identifier.isEmpty &&
    getNormalizedIdentifier (unitAt units j).identifier == key

/-- The first unit before `k` indexed under `key`: what the index holds for `key` once
    `AddUnitToMap` ran on the units before `k`. -/
def firstIndexed (key : String) (k : Nat) : Option Nat :=
  (List.range k).find? (indexedUnder getNormalizedIdentifier units key)

variable {getNormalizedIdentifier units}

theorem firstIndexed_succ (key : String) (k : Nat) :
    firstIndexed getNormalizedIdentifier units key (k + 1) =
      (firstIndexed getNormalizedIdentifier units key k).or
        (if indexedUnder getNormalizedIdentifier units key k then some k else none) := by
  simp only [firstIndexed, List.range_succ, List.find?_append, List.find?_singleton]

theorem firstIndexed_succ_of_not_indexed {key : String} {k : Nat}
    (h : indexedUnder getNormalizedIdentifier units key k = false) :
    firstIndexed getNormalizedIdentifier units key (k + 1) =
      firstIndexed getNormalizedIdentifier units key k := by
  simp [firstIndexed_succ, h]

theorem firstIndexed_succ_of_isSome {key : String} {k : Nat}
    (h : (firstIndexed getNormalizedIdentifier units key k).isSome) :
    firstIndexed getNormalizedIdentifier units key (k + 1) =
      firstIndexed getNormalizedIdentifier units key k := by
  obtain ⟨j, hj⟩ := Option.isSome_iff_exists.1 h
  simp [firstIndexed_succ, hj]

theorem firstIndexed_eq_none {key : String} {k : Nat} :
    firstIndexed getNormalizedIdentifier units key k = none ↔
      ∀ j < k, indexedUnder getNormalizedIdentifier units key j = false := by
  simp [firstIndexed, List.find?_eq_none]

theorem firstIndexed_eq_some {key : String} {k j : Nat}
    (h : firstIndexed getNormalizedIdentifier units key k = some j) :
    j < k ∧ indexedUnder getNormalizedIdentifier units key j = true :=
  ⟨List.mem_range.1 (List.mem_of_find?_eq_some h), List.find?_some h⟩

/-- The unit at `k` duplicates an earlier one iff its identifier is non-empty and already
    indexed. -/
theorem exists_duplicate_iff {k : Nat} :
    (∃ i, Duplicate getNormalizedIdentifier units i k) ↔
      (unitAt units k).identifier.isEmpty = false ∧
        (firstIndexed getNormalizedIdentifier units
          (getNormalizedIdentifier (unitAt units k).identifier) k).isSome := by
  rw [Option.isSome_iff_ne_none, Ne, firstIndexed_eq_none]
  simp only [Duplicate, indexedUnder, Bool.and_eq_false_imp, Bool.not_eq_true', Bool.not_eq_false,
    beq_iff_eq, not_forall, exists_prop]
  constructor
  · rintro ⟨i, hik, hi, hk, heq⟩
    exact ⟨hk, i, hik, hi, heq⟩
  · rintro ⟨hk, i, hik, hi, heq⟩
    exact ⟨i, hik, hi, hk, heq⟩

-- ---------------------------------------------------------------------------
-- The frame of the validation
-- ---------------------------------------------------------------------------

variable (units) in
/-- A state of the validation: the units of the set, each dependency index a unit of the
    set, none processed, and a log of `Completed` events, at most one per unit, in step
    with the units' states. -/
structure CheckFrame (p : ConfigurationSetApplyProcessor) : Prop where
  size : p.size = units.length
  unit : ∀ j, (p.info j).unit = unitAt units j
  bounded : ∀ j, ∀ d ∈ (p.info j).dependencyIndices, d < units.length
  processed : ∀ j, (p.info j).processed = false
  preProcessed : ∀ j, (p.info j).preProcessed = false
  log : ∀ e ∈ p.log, ∃ j, e = .unitProgress j .completed
  progress : ∀ j, unitStates p.log j = [] ∨ unitStates p.log j = [.completed]
  state : ∀ j, (p.info j).result.state = if unitStates p.log j = [] then .unknown else .completed
  code : ∀ j, (p.info j).resultInformation.resultCode ≠ assertionFailed

namespace CheckFrame

variable {p : ConfigurationSetApplyProcessor}

theorem create : CheckFrame units (ConfigurationSetApplyProcessor.create units) where
  size := by simp
  unit := by simp
  bounded := by simp
  processed := by simp
  preProcessed := by simp
  log := by simp
  progress := by simp
  state := by simp
  code := by simp [assertionFailed]

/-- Changing a unit's dependencies or result information keeps the frame, if the code
    does not become `ASSERTION_FAILED` and every dependency index stays a unit of the
    set. -/
theorem modifyUnit (h : CheckFrame units p) {f : UnitInfo → UnitInfo}
    (hf : ∀ u, (f u).unit = u.unit ∧ (f u).processed = u.processed ∧
      (f u).preProcessed = u.preProcessed ∧ (f u).result = u.result)
    (hcode : ∀ u, u.resultInformation.resultCode ≠ assertionFailed →
      (f u).resultInformation.resultCode ≠ assertionFailed)
    (hdeps : ∀ u, (∀ d ∈ u.dependencyIndices, d < units.length) →
      ∀ d ∈ (f u).dependencyIndices, d < units.length) (i : Nat) :
    CheckFrame units (p.modifyUnit i f) where
  size := by simp [h.size]
  unit := fun j => by rw [ConfigurationSetApplyProcessor.modifyUnit_info]; split <;> simp [hf, h.unit]
  bounded := fun j => by
    rw [ConfigurationSetApplyProcessor.modifyUnit_info]; split
    · exact hdeps _ (h.bounded j)
    · exact h.bounded j
  processed := fun j => by
    rw [ConfigurationSetApplyProcessor.modifyUnit_info]; split <;> simp [hf, h.processed]
  preProcessed := fun j => by
    rw [ConfigurationSetApplyProcessor.modifyUnit_info]; split <;> simp [hf, h.preProcessed]
  log := by simpa using h.log
  progress := by simpa using h.progress
  state := fun j => by
    rw [ConfigurationSetApplyProcessor.modifyUnit_info]; split <;> simp [hf, h.state]
  code := fun j => by
    rw [ConfigurationSetApplyProcessor.modifyUnit_info]; split
    · exact hcode _ (h.code j)
    · exact h.code j

/-- Sending `Completed` for a unit that got no progress yet keeps the frame. -/
theorem complete (h : CheckFrame units p) {i : Nat} (hs : i < p.size)
    (hi : unitStates p.log i = []) : CheckFrame units (p.progress .completed i) where
  size := by simp [h.size]
  unit := fun j => by simp [h.unit]
  bounded := fun j => by simpa using h.bounded j
  processed := fun j => by
    by_cases hij : i = j
    · subst hij; simp [hs, h.processed]
    · simp [hij, h.processed]
  preProcessed := fun j => by
    by_cases hij : i = j
    · subst hij; simp [hs, h.preProcessed]
    · simp [hij, h.preProcessed]
  log := fun e he => by
    simp only [ConfigurationSetApplyProcessor.progress_log, List.mem_append, List.mem_singleton] at he
    rcases he with he | rfl
    · exact h.log e he
    · exact ⟨i, rfl⟩
  progress := fun j => by
    by_cases hij : i = j
    · subst hij; simp [hi]
    · simpa [hij] using h.progress j
  state := fun j => by
    by_cases hij : i = j
    · subst hij; simp [hs, hi]
    · simpa [hij] using h.state j
  code := fun j => by
    by_cases hij : i = j
    · subst hij; simp [hs, h.code]
    · simpa [hij] using h.code j

/-- The frame depends on the table and the log only. -/
theorem of_eq (h : CheckFrame units p) {p' : ConfigurationSetApplyProcessor}
    (hs : p'.size = p.size) (hi : ∀ j, p'.info j = p.info j) (hl : p'.log = p.log) :
    CheckFrame units p' where
  size := hs.trans h.size
  unit := fun j => by rw [hi]; exact h.unit j
  bounded := fun j => by rw [hi]; exact h.bounded j
  processed := fun j => by rw [hi]; exact h.processed j
  preProcessed := fun j => by rw [hi]; exact h.preProcessed j
  log := by rw [hl]; exact h.log
  progress := by rw [hl]; exact h.progress
  state := fun j => by rw [hi, hl]; exact h.state j
  code := fun j => by rw [hi]; exact h.code j

end CheckFrame

-- ---------------------------------------------------------------------------
-- The index stage
-- ---------------------------------------------------------------------------

variable (getNormalizedIdentifier) in
/-- `AddUnitToMap` on the unit at `k`: a unit without identifier is passed over, a new
    identifier goes into the index, and a duplicate flags the incumbent (with `Completed`
    unless its state already is) and then the unit. -/
theorem wp_addUnitToMap (k : Nat) {Q : Bool → ConfigurationSetApplyProcessor → Prop}
    {E : Exception → ConfigurationSetApplyProcessor → Prop} (p : ConfigurationSetApplyProcessor) :
    wp (addUnitToMap getNormalizedIdentifier k) Q E p =
      let key := getNormalizedIdentifier (p.info k).unit.identifier
      let mark := fun (u : UnitInfo) => { u with
        resultInformation := u.resultInformation.initializeWith duplicateIdentifier .configurationSet }
      if (p.info k).unit.identifier.isEmpty then Q true p
      else match p.idToUnitInfoIndex.lookup key with
        | some j =>
          let p₁ := p.modifyUnit j mark
          let p₂ := if (p₁.info j).result.state != .completed then p₁.progress .completed j else p₁
          Q false ((p₂.modifyUnit k mark).progress .completed k)
        | none => Q true (p.addToIndex key k) := by
  simp only [addUnitToMap, wp_bind, wp_get]
  split
  · rfl
  · split
    next j hj => simp [hj]
    next hj => simp [hj]

variable (getNormalizedIdentifier units) in
/-- The index stage after `AddUnitToMap` ran on the units before `k`. -/
structure MapInv (k : Nat) (p : ConfigurationSetApplyProcessor) extends CheckFrame units p :
    Prop where
  resultCode : p.resultCode = 0
  lookup : ∀ key, p.idToUnitInfoIndex.lookup key =
    firstIndexed getNormalizedIdentifier units key k
  untouched : ∀ j, k ≤ j → p.info j = (ConfigurationSetApplyProcessor.create units).info j ∧
    unitStates p.log j = []
  clean : (∀ i j, j < k → ¬Duplicate getNormalizedIdentifier units i j) →
    p.info = (ConfigurationSetApplyProcessor.create units).info ∧ p.log = []

/-- `AddUnitToMap` on the unit at `k` moves the invariant to `k + 1`, and flags the unit
    exactly when it duplicates an earlier one. -/
theorem MapInv.addUnitToMap {k : Nat} {p : ConfigurationSetApplyProcessor}
    (h : MapInv getNormalizedIdentifier units k p) (hk : k < units.length) :
    wp (addUnitToMap getNormalizedIdentifier k)
      (fun added p' => MapInv getNormalizedIdentifier units (k + 1) p' ∧
        (added = true ↔ ∀ i, ¬Duplicate getNormalizedIdentifier units i k))
      (fun _ _ => False) p := by
  have hu : (p.info k).unit = unitAt units k := h.unit k
  have hdup : (∃ i, Duplicate getNormalizedIdentifier units i k) ↔ _ := exists_duplicate_iff
  have hcode : ∀ u : UnitInfo, u.resultInformation.resultCode ≠ assertionFailed →
      (u.resultInformation.initializeWith duplicateIdentifier
        ConfigurationUnitResultSource.configurationSet).resultCode ≠ assertionFailed := fun u _ => by
    simp [ConfigurationUnitResultInformation.initializeWith, duplicateIdentifier, assertionFailed]
  simp only [ConfigurationSetApply.addUnitToMap, wp_bind, wp_get, hu]
  split
  case isTrue he =>
    -- no identifier: nothing is indexed
    refine ⟨{ h with
      lookup := fun key => by
        rw [h.lookup, firstIndexed_succ_of_not_indexed
          (by simp only [indexedUnder, he, Bool.not_true, Bool.false_and])]
      untouched := fun j hj => h.untouched j (by omega)
      clean := fun hc => h.clean fun i j hj => hc i j (by omega) }, ?_⟩
    simp only [true_iff]
    rintro i ⟨-, -, hk', -⟩
    rw [hk'] at he
    cases he
  case isFalse he =>
    simp only [Bool.not_eq_true] at he
    simp only [wp_bind, wp_pure, h.lookup]
    cases hf : firstIndexed getNormalizedIdentifier units
      (getNormalizedIdentifier (unitAt units k).identifier) k
    case none =>
      -- a new identifier goes into the index
      have hk : ∀ i, ¬Duplicate getNormalizedIdentifier units i k := fun i hi => by
        have := (hdup.1 ⟨i, hi⟩).2
        rw [hf] at this
        cases this
      simp only [wp_bind, wp_modify, wp_pure]
      refine ⟨{ h.toCheckFrame.of_eq (by simp) (by simp) (by simp) with
        resultCode := by simp [h.resultCode]
        lookup := fun key => by
          by_cases hkey : getNormalizedIdentifier (unitAt units k).identifier = key
          · subst hkey; simp [firstIndexed_succ, hf, indexedUnder, he]
          · have hb : (key == getNormalizedIdentifier (unitAt units k).identifier) = false :=
              beq_eq_false_iff_ne.2 (Ne.symm hkey)
            simp [List.lookup_cons, hb, hkey, h.lookup, firstIndexed_succ, indexedUnder]
        untouched := fun j hj => by simpa using h.untouched j (by omega)
        clean := fun hc => by
          simpa using h.clean fun i j hj => hc i j (by omega) }, iff_of_true trivial hk⟩
    case some j =>
      -- a duplicate: both units are flagged
      obtain ⟨hjk, hind⟩ := firstIndexed_eq_some hf
      have hd : Duplicate getNormalizedIdentifier units j k := by
        simp only [indexedUnder, Bool.and_eq_true, Bool.not_eq_true', beq_iff_eq] at hind
        exact ⟨hjk, hind.1, he, hind.2⟩
      have hkn : k < p.size := h.size ▸ hk
      let mark : UnitInfo → UnitInfo := fun u =>
        { u with resultInformation := (u.resultInformation.initializeWith duplicateIdentifier
          ConfigurationUnitResultSource.configurationSet) }
      have hfi : ∀ key, firstIndexed getNormalizedIdentifier units key (k + 1) =
          firstIndexed getNormalizedIdentifier units key k := fun key => by
        by_cases hkey : getNormalizedIdentifier (unitAt units k).identifier = key
        · subst hkey; exact firstIndexed_succ_of_isSome (by simp [hf])
        · exact firstIndexed_succ_of_not_indexed (by simp [indexedUnder, hkey])
      -- whatever the incumbent got, flagging the unit at `k` completes the step
      have hstep : ∀ p₂ : ConfigurationSetApplyProcessor, CheckFrame units p₂ →
          p₂.size = p.size → p₂.resultCode = 0 → p₂.idToUnitInfoIndex = p.idToUnitInfoIndex →
          (∀ j', j' ≠ j → p₂.info j' = p.info j' ∧ unitStates p₂.log j' = unitStates p.log j') →
          MapInv getNormalizedIdentifier units (k + 1) ((p₂.modifyUnit k mark).progress .completed k) :=
        fun p₂ hF hs hr hm ho =>
          { (hF.modifyUnit (f := mark) (fun _ => ⟨rfl, rfl, rfl, rfl⟩) hcode (fun _ h => h) k).complete (by simp [hs, hkn])
              (by simpa [(ho k (by omega)).2] using (h.untouched k le_rfl).2) with
            resultCode := by simp [hr]
            lookup := fun key => by simp [hm, h.lookup, hfi]
            untouched := fun j' hj' => by
              have hkj : k ≠ j' := by omega
              simp [hkj, (ho j' (by omega)).1, (ho j' (by omega)).2, h.untouched j' (by omega)]
            clean := fun hc => absurd hd (hc j k (by omega)) }
      have hflag : (false = true ↔ ∀ i, ¬Duplicate getNormalizedIdentifier units i k) :=
        iff_of_false Bool.false_ne_true fun hn => hn j hd
      have hF₁ := h.toCheckFrame.modifyUnit (f := mark) (fun _ => ⟨rfl, rfl, rfl, rfl⟩) hcode (fun _ h => h) j
      simp only [wp_initializeResult, wp_sendProgressIfNotComplete, wp_sendProgress, wp_bind,
        wp_pure]
      split
      case isTrue hnc =>
        have hjn : j < p.size := by rw [h.size]; omega
        have hj0 : unitStates p.log j = [] := by
          have := h.state j
          split at this
          · assumption
          · simp [hjn, this] at hnc
        refine ⟨hstep _ (hF₁.complete (by simp [hjn]) (by simpa using hj0)) (by simp)
          (by simp [h.resultCode]) (by simp) fun j' hj' => ?_, hflag⟩
        simp [Ne.symm hj', hj']
      case isFalse =>
        exact ⟨hstep _ hF₁ (by simp) (by simp [h.resultCode]) (by simp)
          (fun j' hj' => by simp [Ne.symm hj']), hflag⟩

theorem MapInv.create :
    MapInv getNormalizedIdentifier units 0 (ConfigurationSetApplyProcessor.create units) where
  toCheckFrame := CheckFrame.create
  resultCode := rfl
  lookup := fun _ => rfl
  untouched := fun _ _ => ⟨rfl, rfl⟩
  clean := fun _ => ⟨rfl, rfl⟩

/-- The index stage over the units from `k` on reaches the invariant at the end of the
    set, and fails exactly when one of those units duplicates an earlier one. -/
theorem MapInv.addUnitsToMap {k m : Nat} (hkm : k + m = units.length)
    {p : ConfigurationSetApplyProcessor} (h : MapInv getNormalizedIdentifier units k p) :
    wp (ConfigurationSetApply.addUnitsToMap getNormalizedIdentifier (List.range' k m))
      (fun ok p' => MapInv getNormalizedIdentifier units units.length p' ∧
        (ok = true ↔ ∀ i j, k ≤ j → j < units.length →
          ¬Duplicate getNormalizedIdentifier units i j))
      (fun _ _ => False) p := by
  induction m generalizing k p with
  | zero =>
    simp only [Nat.add_zero] at hkm
    subst hkm
    exact ⟨h, iff_of_true rfl fun i j hj hj' => absurd hj' (by omega)⟩
  | succ m ih =>
    rw [List.range'_succ, ConfigurationSetApply.addUnitsToMap, wp_bind]
    refine wp_mono (fun added p₁ ⟨h₁, hadded⟩ => ?_) (fun _ _ h => h) (h.addUnitToMap (by omega))
    rw [wp_bind]
    refine wp_mono (fun rest p₂ ⟨h₂, hrest⟩ => ⟨h₂, ?_⟩) (fun _ _ h => h) (ih (by omega) h₁)
    rw [Bool.and_eq_true, hadded, hrest]
    constructor
    · rintro ⟨hk, hr⟩ i j hj hj'
      rcases Nat.lt_or_eq_of_le hj with hj | rfl
      · exact hr i j hj hj'
      · exact hk i
    · exact fun hn => ⟨fun i => hn i k le_rfl (by omega), fun i j hj => hn i j (by omega)⟩

/-- The index stage on a constructed processor fails exactly when the set has duplicate
    identifiers. -/
theorem addUnitsToMap_create :
    wp (ConfigurationSetApply.addUnitsToMap getNormalizedIdentifier (List.range units.length))
      (fun ok p' => MapInv getNormalizedIdentifier units units.length p' ∧
        (ok = true ↔ ¬HasDuplicate getNormalizedIdentifier units))
      (fun _ _ => False) (ConfigurationSetApplyProcessor.create units) := by
  rw [List.range_eq_range']
  refine wp_mono (fun ok p' ⟨h, hok⟩ => ⟨h, ?_⟩) (fun _ _ h => h)
    (MapInv.create.addUnitsToMap (Nat.zero_add _))
  rw [hok, HasDuplicate]
  exact ⟨fun hn ⟨i, j, hj, hd⟩ => hn i j (Nat.zero_le _) hj hd,
    fun hn i j _ hj hd => hn ⟨i, j, hj, hd⟩⟩

-- ---------------------------------------------------------------------------
-- The units the index stage flags
-- ---------------------------------------------------------------------------

theorem CollidesWithin.mono {k k' j : Nat} (hk : k ≤ k')
    (h : CollidesWithin getNormalizedIdentifier units k j) :
    CollidesWithin getNormalizedIdentifier units k' j := by
  obtain ⟨hj, i, hi, hrest⟩ := h
  exact ⟨by omega, i, by omega, hrest⟩

/-- A unit that duplicates no earlier one adds no collision. -/
theorem collidesWithin_succ_of_not_duplicate {k : Nat}
    (hk : ∀ i, ¬Duplicate getNormalizedIdentifier units i k) (j : Nat) :
    CollidesWithin getNormalizedIdentifier units (k + 1) j ↔
      CollidesWithin getNormalizedIdentifier units k j := by
  refine ⟨fun ⟨hj, i, hi, hij, hni, hnj, heq⟩ => ?_, CollidesWithin.mono (by omega)⟩
  rcases Nat.lt_succ_iff_lt_or_eq.1 hj with hj | rfl
  · rcases Nat.lt_succ_iff_lt_or_eq.1 hi with hi | rfl
    · exact ⟨hj, i, hi, hij, hni, hnj, heq⟩
    · exact absurd ⟨hj, hnj, hni, heq.symm⟩ (hk j)
  · exact absurd ⟨by omega, hni, hnj, heq⟩ (hk i)

/-- A unit whose identifier the index holds for the unit at `j₀` adds the collisions of
    both: the unit and the incumbent. -/
theorem collidesWithin_succ_of_firstIndexed {k j₀ : Nat}
    (hk : (unitAt units k).identifier.isEmpty = false)
    (hf : firstIndexed getNormalizedIdentifier units
      (getNormalizedIdentifier (unitAt units k).identifier) k = some j₀) (j : Nat) :
    CollidesWithin getNormalizedIdentifier units (k + 1) j ↔
      CollidesWithin getNormalizedIdentifier units k j ∨ j = k ∨ j = j₀ := by
  obtain ⟨hj₀, hind⟩ := firstIndexed_eq_some hf
  simp only [indexedUnder, Bool.and_eq_true, Bool.not_eq_true', beq_iff_eq] at hind
  constructor
  · rintro ⟨hj, i, hi, hij, hni, hnj, heq⟩
    rcases Nat.lt_succ_iff_lt_or_eq.1 hj with hj | rfl
    · rcases Nat.lt_succ_iff_lt_or_eq.1 hi with hi | rfl
      · exact .inl ⟨hj, i, hi, hij, hni, hnj, heq⟩
      -- the unit at `j` has the identifier of the unit at `k`, and so of the incumbent
      · by_cases hjj : j = j₀
        · exact .inr (.inr hjj)
        · exact .inl ⟨hj, j₀, hj₀, Ne.symm hjj, hind.1, hnj, hind.2.trans heq⟩
    · exact .inr (.inl rfl)
  · rintro (h | rfl | rfl)
    · exact h.mono (by omega)
    · exact ⟨by omega, j₀, by omega, by omega, hind.1, hk, hind.2⟩
    · exact ⟨by omega, k, by omega, by omega, hk, hind.1, hind.2.symm⟩

variable (getNormalizedIdentifier units) in
/-- The units the index stage flagged after the units before `k`: each that collides with
    another one among them carries `DUPLICATE_IDENTIFIER` from the set and got one
    `Completed`, every other unit neither. -/
structure DupInv (k : Nat) (p : ConfigurationSetApplyProcessor) : Prop where
  flags : ∀ j, (p.info j).resultInformation =
    if CollidesWithin getNormalizedIdentifier units k j then
      ({} : ConfigurationUnitResultInformation).initializeWith duplicateIdentifier .configurationSet
    else {}
  progress : ∀ j, unitStates p.log j =
    if CollidesWithin getNormalizedIdentifier units k j then [.completed] else []

theorem DupInv.create :
    DupInv getNormalizedIdentifier units 0 (ConfigurationSetApplyProcessor.create units) where
  flags j := by simp [CollidesWithin]
  progress j := by simp [CollidesWithin]

/-- A step that adds no collision and changes neither the results nor the log keeps the
    flags. -/
theorem DupInv.succ_of_not_duplicate {k : Nat} {p p' : ConfigurationSetApplyProcessor}
    (hd : DupInv getNormalizedIdentifier units k p) (hk : ∀ i, ¬Duplicate getNormalizedIdentifier units i k)
    (hi : ∀ j, (p'.info j).resultInformation = (p.info j).resultInformation) (hl : p'.log = p.log) :
    DupInv getNormalizedIdentifier units (k + 1) p' where
  flags j := by rw [hi, hd.flags]; simp only [collidesWithin_succ_of_not_duplicate hk]
  progress j := by rw [hl, hd.progress]; simp only [collidesWithin_succ_of_not_duplicate hk]

/-- `AddUnitToMap` on the unit at `k` moves the flags to `k + 1`. -/
theorem DupInv.addUnitToMap {k : Nat} {p : ConfigurationSetApplyProcessor}
    (h : MapInv getNormalizedIdentifier units k p) (hd : DupInv getNormalizedIdentifier units k p)
    (hk : k < units.length) :
    wp (ConfigurationSetApply.addUnitToMap getNormalizedIdentifier k)
      (fun _ p' => DupInv getNormalizedIdentifier units (k + 1) p') (fun _ _ => True) p := by
  have hdup : (∃ i, Duplicate getNormalizedIdentifier units i k) ↔ _ := exists_duplicate_iff
  rw [wp_addUnitToMap]
  simp only [h.unit k, h.lookup]
  split
  case isTrue he =>
    -- no identifier: nothing changes
    refine hd.succ_of_not_duplicate (fun i ⟨_, _, hk', _⟩ => ?_) (fun _ => rfl) rfl
    rw [hk'] at he
    cases he
  case isFalse he =>
    simp only [Bool.not_eq_true] at he
    split
    case h_2 hf =>
      -- a new identifier: nothing is flagged
      refine hd.succ_of_not_duplicate (fun i hi => ?_) (fun _ => rfl) rfl
      have := (hdup.1 ⟨i, hi⟩).2
      rw [hf] at this
      cases this
    case h_1 j₀ hf =>
      -- a duplicate: the unit and the incumbent are flagged
      have hc := collidesWithin_succ_of_firstIndexed he hf
      have hj₀ := (firstIndexed_eq_some hf).1
      have hks : k < p.size := h.size ▸ hk
      have hk0 := h.untouched k le_rfl
      have hs₀ : j₀ < p.size := by omega
      have hne : j₀ ≠ k := by omega
      -- the incumbent's state says whether it was flagged before
      have hstate : (p.info j₀).result.state =
          if CollidesWithin getNormalizedIdentifier units k j₀ then .completed else .unknown := by
        rw [h.state j₀, hd.progress j₀]
        split <;> simp
      rw [ConfigurationSetApplyProcessor.modifyUnit_info_self _ hs₀, hstate]
      have hsend : (ConfigurationUnitState.unknown != .completed) = true := rfl
      -- flagged before or not, the incumbent ends flagged with one `Completed`
      by_cases hcj : CollidesWithin getNormalizedIdentifier units k j₀ <;>
        simp only [hcj, if_true, if_false, bne_self_eq_false, Bool.false_eq_true, hsend]
      all_goals
        constructor
        · intro j
          simp only [hc, ConfigurationSetApplyProcessor.progress_info_resultInformation,
            ConfigurationSetApplyProcessor.modifyUnit_info, ConfigurationSetApplyProcessor.modifyUnit_size,
            ConfigurationSetApplyProcessor.progress_size]
          by_cases hjk : j = k
          · subst hjk; simp [hks, hne, hk0.1]
          by_cases hjj : j = j₀
          · subst hjj; simp [hs₀, hjk, hd.flags, hcj]
          · simp [hjk, hjj, Ne.symm hjk, Ne.symm hjj, hd.flags]
        · intro j
          simp only [hc, ConfigurationSetApplyProcessor.progress_log,
            ConfigurationSetApplyProcessor.modifyUnit_log, unitStates_append]
          by_cases hjk : j = k
          · subst hjk; simp [hk0.2, hne]
          by_cases hjj : j = j₀
          · subst hjj; simp [hd.progress, hcj, hne, Ne.symm hne]
          · simp [hd.progress, hjk, hjj, Ne.symm hjk, Ne.symm hjj]

/-- The index stage over the units from `k` on reaches the flags at the end of the set. -/
theorem DupInv.addUnitsToMap {k m : Nat} (hkm : k + m = units.length)
    {p : ConfigurationSetApplyProcessor} (h : MapInv getNormalizedIdentifier units k p)
    (hd : DupInv getNormalizedIdentifier units k p) :
    wp (ConfigurationSetApply.addUnitsToMap getNormalizedIdentifier (List.range' k m))
      (fun _ p' => DupInv getNormalizedIdentifier units units.length p') (fun _ _ => True) p := by
  induction m generalizing k p with
  | zero =>
    simp only [Nat.add_zero] at hkm
    subst hkm
    exact hd
  | succ m ih =>
    rw [List.range'_succ, ConfigurationSetApply.addUnitsToMap, wp_bind]
    refine wp_mono (fun _ p₁ ⟨⟨h₁, _⟩, hd₁⟩ => ?_) (fun _ _ _ => trivial)
      (wp_and (h.addUnitToMap (by omega)) (hd.addUnitToMap h (by omega)))
    rw [wp_bind]
    exact wp_mono (fun _ _ h => h) (fun _ _ _ => trivial) (ih (by omega) h₁ hd₁)

/-- The index stage on a constructed processor flags exactly the units that collide with
    another unit of the set. -/
theorem addUnitsToMap_create_flags :
    wp (ConfigurationSetApply.addUnitsToMap getNormalizedIdentifier (List.range units.length))
      (fun _ p' => DupInv getNormalizedIdentifier units units.length p') (fun _ _ => True)
      (ConfigurationSetApplyProcessor.create units) := by
  rw [List.range_eq_range']
  exact DupInv.create.addUnitsToMap (Nat.zero_add _) MapInv.create

-- ---------------------------------------------------------------------------
-- The resolution stage
-- ---------------------------------------------------------------------------

variable (getNormalizedIdentifier units) in
/-- The unit at `i` has a non-empty dependency string that no unit is indexed under. -/
def MissingAt (i : Nat) : Prop :=
  ∃ d ∈ (unitAt units i).dependencies, d.isEmpty = false ∧
    firstIndexed getNormalizedIdentifier units (getNormalizedIdentifier d) units.length = none

theorem hasMissing_iff :
    HasMissing getNormalizedIdentifier units ↔ ∃ i < units.length, MissingAt getNormalizedIdentifier units i := by
  simp only [HasMissing, MissingAt, firstIndexed_eq_none, indexedUnder, Bool.and_eq_false_imp,
    Bool.not_eq_true', beq_eq_false_iff_ne, ne_eq]

theorem namesUnit_iff {d : String} :
    NamesUnit getNormalizedIdentifier units d ↔
      (firstIndexed getNormalizedIdentifier units (getNormalizedIdentifier d) units.length).isSome := by
  simp [NamesUnit, firstIndexed, List.find?_isSome, indexedUnder]

variable (getNormalizedIdentifier units) in
/-- Resolving the dependency strings `ds` of the unit at `i` from `p` to `p'` returned
    `ok`: only that unit changed, `ok` says whether every string resolved, and if so the
    unit's result and the log are as they were and the index of the unit each non-empty
    string names was appended, in order; otherwise the unit carries the first string that
    names no unit, with one `Completed`. -/
structure Resolved (i : Nat) (ds : List String) (p p' : ConfigurationSetApplyProcessor) (ok : Bool) :
    Prop where
  frame : CheckFrame units p'
  resultCode : p'.resultCode = p.resultCode
  index : p'.idToUnitInfoIndex = p.idToUnitInfoIndex
  other : ∀ j, j ≠ i → p'.info j = p.info j ∧ unitStates p'.log j = unitStates p.log j
  ok_iff : ok = true ↔ ∀ d ∈ ds, d.isEmpty = false →
    (firstIndexed getNormalizedIdentifier units (getNormalizedIdentifier d) units.length).isSome
  clean : ok = true → p'.log = p.log ∧
    (p'.info i).resultInformation = (p.info i).resultInformation ∧ (p'.info i).result = (p.info i).result
  indices : ok = true → ∃ L, (p'.info i).dependencyIndices = (p.info i).dependencyIndices ++ L ∧
    List.Forall₂ (fun d j => firstIndexed getNormalizedIdentifier units (getNormalizedIdentifier d)
      units.length = some j) (ds.filter fun d => !d.isEmpty) L
  missing : ∀ d, ds.find? (fun d => !d.isEmpty && !decide (NamesUnit getNormalizedIdentifier units d)) =
      some d →
    (p'.info i).resultInformation =
      { (p.info i).resultInformation.initializeWith missingDependency .configurationSet with
        details := d } ∧
    unitStates p'.log i = unitStates p.log i ++ [.completed]

theorem resolveDependencies_spec {i : Nat} (ds : List String) {p : ConfigurationSetApplyProcessor}
    (hF : CheckFrame units p) (hi : i < units.length)
    (hlookup : ∀ key, p.idToUnitInfoIndex.lookup key =
      firstIndexed getNormalizedIdentifier units key units.length)
    (hi0 : unitStates p.log i = []) :
    wp (resolveDependencies getNormalizedIdentifier i ds)
      (fun ok p' => Resolved getNormalizedIdentifier units i ds p p' ok) (fun _ _ => False) p := by
  induction ds generalizing p with
  | nil => exact ⟨hF, rfl, rfl, fun _ _ => ⟨rfl, rfl⟩, by simp, fun _ => ⟨rfl, rfl, rfl⟩,
      fun _ => ⟨[], by simp, .nil⟩, fun _ h => by simp at h⟩
  | cons d rest ih =>
    rw [resolveDependencies]
    split
    case isTrue hd =>
      refine wp_mono (fun ok p' r => ?_) (fun _ _ h => h) (ih hF hlookup hi0)
      exact { r with
        ok_iff := by simp [r.ok_iff, hd]
        indices := by simpa [hd] using r.indices
        missing := by simpa [hd] using r.missing }
    case isFalse hd =>
      simp only [Bool.not_eq_true] at hd
      simp only [wp_bind, wp_get, hlookup]
      have hs : i < p.size := hF.size ▸ hi
      cases hf : firstIndexed getNormalizedIdentifier units (getNormalizedIdentifier d) units.length
      case none =>
        -- the first string that names no unit: the unit is flagged
        have hfirst : ∀ d', (d :: rest).find? (fun d => !d.isEmpty &&
            !decide (NamesUnit getNormalizedIdentifier units d)) = some d' → d' = d := fun d' h => by
          simpa [hd, namesUnit_iff, hf] using h.symm
        simp only [wp_initializeResult, wp_modifyUnitInfo, wp_sendProgress, wp_pure, wp_bind]
        refine ⟨((hF.modifyUnit (f := fun u => { u with resultInformation :=
            (u.resultInformation.initializeWith missingDependency .configurationSet) })
            (fun _ => ⟨rfl, rfl, rfl, rfl⟩) (fun _ _ => by
              simp [ConfigurationUnitResultInformation.initializeWith, missingDependency,
                assertionFailed]) (fun _ h => h) i).modifyUnit
            (f := fun u => { u with resultInformation.details := d })
            (fun _ => ⟨rfl, rfl, rfl, rfl⟩) (fun _ h => h) (fun _ h => h) i).complete (by simpa using hs)
            (by simpa using hi0), by simp, by simp, fun j hj => by simp [Ne.symm hj], ?_,
            by simp, nofun, fun d' h => by rw [hfirst d' h]; simp [hs]⟩
        simp only [Bool.false_eq_true, false_iff, not_forall]
        exact ⟨d, List.mem_cons_self _ _, hd, by simp [hf]⟩
      case some j =>
        -- a resolved string: its index is appended and the loop goes on
        simp only [wp_modifyUnitInfo]
        -- the index found is a unit of the set
        have hj : j < units.length := (firstIndexed_eq_some hf).1
        have hF₁ := hF.modifyUnit (f := fun u => { u with dependencyIndices := u.dependencyIndices ++ [j] })
          (fun _ => ⟨rfl, rfl, rfl, rfl⟩) (fun _ h => h)
          (fun _ h d hd => (List.mem_append.1 hd).elim (h d) fun hd => List.mem_singleton.1 hd ▸ hj) i
        refine wp_mono (fun ok p' r => ?_) (fun _ _ h => h)
          (ih hF₁ (by simpa using hlookup) (by simpa using hi0))
        have hclean : ok = true → p'.log = p.log ∧
            (p'.info i).resultInformation = (p.info i).resultInformation ∧
            (p'.info i).result = (p.info i).result := fun hok => by
          obtain ⟨hl, hri, hr⟩ := r.clean hok
          exact ⟨by simpa using hl, by simpa [hs] using hri, by simpa [hs] using hr⟩
        have hindices : ok = true → ∃ L, (p'.info i).dependencyIndices =
            (p.info i).dependencyIndices ++ L ∧ List.Forall₂ (fun d j => firstIndexed
              getNormalizedIdentifier units (getNormalizedIdentifier d) units.length = some j)
              ((d :: rest).filter fun d => !d.isEmpty) L := fun hok => by
          obtain ⟨L, hL, hfa⟩ := r.indices hok
          refine ⟨j :: L, by simp [hL, hs], ?_⟩
          rw [List.filter_cons_of_pos (by simpa using hd)]
          exact .cons hf hfa
        refine { r with
          resultCode := by simpa using r.resultCode
          index := by simpa using r.index
          other := fun j' hj' => by simpa [Ne.symm hj'] using r.other j' hj'
          ok_iff := by simp [r.ok_iff, hf]
          clean := hclean
          indices := hindices
          missing := fun d' h => by
            simpa [hs] using r.missing d' (by simpa [hd, namesUnit_iff, hf] using h) }

theorem missingAt_iff {i : Nat} :
    ¬MissingAt getNormalizedIdentifier units i ↔ ∀ d ∈ (unitAt units i).dependencies,
      d.isEmpty = false →
        (firstIndexed getNormalizedIdentifier units (getNormalizedIdentifier d) units.length).isSome := by
  simp [MissingAt, Option.isSome_iff_ne_none]

variable (getNormalizedIdentifier units) in
/-- What resolution left for the unit at `i`: when every non-empty dependency string names
    a unit, the index of that unit for each, in declaration order, and neither a result nor
    progress; otherwise the first string that names no unit as the details of
    `MISSING_DEPENDENCY` from the set, with one `Completed`. -/
def ResolvedUnit (i : Nat) (p : ConfigurationSetApplyProcessor) : Prop :=
  match firstMissing getNormalizedIdentifier units i with
  | none =>
    List.Forall₂ (fun d j => j < units.length ∧ (unitAt units j).identifier.isEmpty = false ∧
        getNormalizedIdentifier (unitAt units j).identifier = getNormalizedIdentifier d)
      ((unitAt units i).dependencies.filter fun d => !d.isEmpty) (p.info i).dependencyIndices ∧
    (p.info i).resultInformation = {} ∧ unitStates p.log i = []
  | some d =>
    (p.info i).resultInformation =
      { ({} : ConfigurationUnitResultInformation).initializeWith missingDependency .configurationSet with
        details := d } ∧
    unitStates p.log i = [.completed]

/-- What resolution left for a unit is read off its record and its progress. -/
theorem ResolvedUnit.congr {i : Nat} {p p' : ConfigurationSetApplyProcessor}
    (h : ResolvedUnit getNormalizedIdentifier units i p) (hi : p'.info i = p.info i)
    (hl : unitStates p'.log i = unitStates p.log i) : ResolvedUnit getNormalizedIdentifier units i p' := by
  unfold ResolvedUnit at h ⊢
  rwa [hi, hl]

/-- Resolving the dependencies of a unit as `create` built it leaves it resolved. -/
theorem Resolved.resolvedUnit {i : Nat} {p p' : ConfigurationSetApplyProcessor} {ok : Bool}
    (r : Resolved getNormalizedIdentifier units i (unitAt units i).dependencies p p' ok)
    (hfresh : p.info i = (ConfigurationSetApplyProcessor.create units).info i)
    (hi0 : unitStates p.log i = []) : ResolvedUnit getNormalizedIdentifier units i p' := by
  unfold ResolvedUnit firstMissing
  split
  next hm =>
    -- every non-empty string names a unit
    have hok : ok = true := r.ok_iff.2 fun d hd hne =>
      namesUnit_iff.1 (by simpa [hne] using List.find?_eq_none.1 hm d hd)
    obtain ⟨L, hL, hfa⟩ := r.indices hok
    obtain ⟨hl, hri, -⟩ := r.clean hok
    refine ⟨?_, by simp [hri, hfresh], by rw [hl, hi0]⟩
    simp only [hL, hfresh, ConfigurationSetApplyProcessor.create_info, List.nil_append]
    refine hfa.imp fun d j h => ?_
    obtain ⟨hj, hind⟩ := firstIndexed_eq_some h
    simp only [indexedUnder, Bool.and_eq_true, Bool.not_eq_true', beq_iff_eq] at hind
    exact ⟨hj, hind⟩
  next d hm =>
    -- the first string that names no unit
    obtain ⟨hri, hls⟩ := r.missing d hm
    exact ⟨by simp [hri, hfresh], by rw [hls, hi0]; rfl⟩

variable (getNormalizedIdentifier units) in
/-- The resolution stage after the units before `k`. -/
structure ResolveInv (k : Nat) (p : ConfigurationSetApplyProcessor) extends CheckFrame units p :
    Prop where
  resultCode : p.resultCode = 0
  lookup : ∀ key, p.idToUnitInfoIndex.lookup key =
    firstIndexed getNormalizedIdentifier units key units.length
  untouched : ∀ j, k ≤ j → unitStates p.log j = []
  clean : (∀ i < k, ¬MissingAt getNormalizedIdentifier units i) → p.log = [] ∧
    ∀ j, (p.info j).resultInformation = {} ∧ (p.info j).result = {}
  /-- The units from `k` on are as `create` built them, those before resolved. -/
  fresh : ∀ j, k ≤ j → p.info j = (ConfigurationSetApplyProcessor.create units).info j
  resolved : ∀ i < k, ResolvedUnit getNormalizedIdentifier units i p

/-- A set without duplicates enters the resolution stage with nothing flagged. -/
theorem MapInv.resolveInv {p : ConfigurationSetApplyProcessor}
    (h : MapInv getNormalizedIdentifier units units.length p)
    (hdup : ¬HasDuplicate getNormalizedIdentifier units) :
    ResolveInv getNormalizedIdentifier units 0 p :=
  have hc := h.clean fun i j hj hd => hdup ⟨i, j, hj, hd⟩
  { h.toCheckFrame with
    resultCode := h.resultCode
    lookup := h.lookup
    untouched := fun j _ => by simp [hc.2]
    clean := fun _ => ⟨hc.2, fun j => by simp [hc.1]⟩
    fresh := fun j _ => congrFun hc.1 j
    resolved := fun _ hi => absurd hi (Nat.not_lt_zero _) }

/-- The resolution stage over the units from `k` on reaches the invariant at the end of
    the set, and fails exactly when one of those units misses a dependency. -/
theorem ResolveInv.resolveAllDependencies {k m : Nat} (hkm : k + m = units.length)
    {p : ConfigurationSetApplyProcessor} (h : ResolveInv getNormalizedIdentifier units k p) :
    wp (ConfigurationSetApply.resolveAllDependencies getNormalizedIdentifier (List.range' k m))
      (fun ok p' => ResolveInv getNormalizedIdentifier units units.length p' ∧
        (ok = true ↔ ∀ i, k ≤ i → i < units.length → ¬MissingAt getNormalizedIdentifier units i))
      (fun _ _ => False) p := by
  induction m generalizing k p with
  | zero =>
    simp only [Nat.add_zero] at hkm
    subst hkm
    exact ⟨h, iff_of_true rfl fun i hi hi' => absurd hi' (by omega)⟩
  | succ m ih =>
    simp only [List.range'_succ, ConfigurationSetApply.resolveAllDependencies, wp_bind, wp_get,
      h.unit k]
    refine wp_mono (fun ok₁ p₁ r => ?_) (fun _ _ h => h)
      (resolveDependencies_spec _ h.toCheckFrame (by omega) h.lookup (h.untouched k le_rfl))
    have hok₁ : ok₁ = true ↔ ¬MissingAt getNormalizedIdentifier units k := by
      rw [r.ok_iff, missingAt_iff]
    have h₁ : ResolveInv getNormalizedIdentifier units (k + 1) p₁ :=
      { r.frame with
        resultCode := r.resultCode.trans h.resultCode
        lookup := fun key => by rw [r.index, h.lookup]
        untouched := fun j hj => by rw [(r.other j (by omega)).2, h.untouched j (by omega)]
        clean := fun hc => by
          obtain ⟨hl, hri, hr⟩ := r.clean (hok₁.2 (hc k (by omega)))
          obtain ⟨hl₀, hfresh⟩ := h.clean fun i hi => hc i (by omega)
          refine ⟨hl.trans hl₀, fun j => ?_⟩
          by_cases hj : j = k
          · subst hj; rw [hri, hr]; exact hfresh j
          · rw [(r.other j hj).1]; exact hfresh j
        fresh := fun j hj => by rw [(r.other j (by omega)).1, h.fresh j (by omega)]
        resolved := fun i hi => by
          rcases Nat.lt_succ_iff_lt_or_eq.1 hi with hi | rfl
          · exact (h.resolved i hi).congr (r.other i (by omega)).1 (r.other i (by omega)).2
          · exact r.resolvedUnit (h.fresh i le_rfl) (h.untouched i le_rfl) }
    refine wp_mono (fun rest p₂ ⟨h₂, hrest⟩ => ⟨h₂, ?_⟩) (fun _ _ h => h) (ih (by omega) h₁)
    rw [Bool.and_eq_true, hok₁, hrest]
    constructor
    · rintro ⟨hk, hr⟩ i hi hi'
      rcases Nat.lt_or_eq_of_le hi with hi | rfl
      · exact hr i hi hi'
      · exact hk
    · exact fun hn => ⟨hn k le_rfl (by omega), fun i hi => hn i (by omega)⟩

-- ---------------------------------------------------------------------------
-- The dry run
-- ---------------------------------------------------------------------------

/-- From `p₀` to `p` the dry run changed nothing but the `PreProcessed` flags, the
    result information and the set's code, and appended only `MarkPreprocessed`
    entries. -/
structure DryFrame (p₀ p : ConfigurationSetApplyProcessor) : Prop where
  size : p.size = p₀.size
  unit : ∀ j, (p.info j).unit = (p₀.info j).unit
  dependencyIndices : ∀ j, (p.info j).dependencyIndices = (p₀.info j).dependencyIndices
  processed : ∀ j, (p.info j).processed = (p₀.info j).processed
  result : ∀ j, (p.info j).result = (p₀.info j).result
  log : ∃ L, p.log = p₀.log ++ L ∧ ∀ e ∈ L, ∃ j, e = .markPreprocessed j

/-- The dry run while no phase has failed: it also kept every result and the set's
    code. -/
structure DryKept (p₀ p : ConfigurationSetApplyProcessor) extends DryFrame p₀ p : Prop where
  resultInformation : ∀ j, (p.info j).resultInformation = (p₀.info j).resultInformation
  resultCode : p.resultCode = p₀.resultCode

/-- No unit of intent Assert carries `ASSERTION_FAILED`. -/
def AssertsNotFailed (p : ConfigurationSetApplyProcessor) : Prop :=
  ∀ j, (p.info j).resultInformation.resultCode = assertionFailed → (p.info j).unit.intent ≠ .assert

variable {p₀ p : ConfigurationSetApplyProcessor}

theorem DryKept.refl (p : ConfigurationSetApplyProcessor) : DryKept p p :=
  ⟨⟨rfl, fun _ => rfl, fun _ => rfl, fun _ => rfl, fun _ => rfl, [], by simp, by simp⟩,
    fun _ => rfl, rfl⟩

/-- `MarkPreprocessed` sets the unit's flag and logs its mark, and nothing else. -/
theorem DryKept.markPreprocessed (h : DryKept p₀ p) (i : Nat) :
    DryKept p₀ ((p.emit (.markPreprocessed i)).modifyUnit i fun u => { u with preProcessed := true }) := by
  obtain ⟨⟨hs, hu, hd, hp, hr, L, hL, hm⟩, hri, hrc⟩ := h
  have hinfo : ∀ j, ∃ u, (((p.emit (.markPreprocessed i)).modifyUnit i
      fun u => { u with preProcessed := true }).info j) = { p.info j with preProcessed := u } :=
    fun j => by
      rw [ConfigurationSetApplyProcessor.modifyUnit_info]
      split
      · exact ⟨true, by simp⟩
      · exact ⟨(p.info j).preProcessed, by simp⟩
  refine ⟨⟨by simp [hs], fun j => ?_, fun j => ?_, fun j => ?_, fun j => ?_, L ++ [.markPreprocessed i],
    by simp [hL], ?log⟩, fun j => ?_, by simp [hrc]⟩
  case log =>
    simp only [List.mem_append, List.mem_singleton]
    rintro e (he | rfl)
    · exact hm e he
    · exact ⟨i, rfl⟩
  all_goals obtain ⟨u, hu'⟩ := hinfo ‹_›; simp [hu', hu, hd, hp, hr, hri]

/-- The loop of a dry phase marks units and changes nothing else; its flag stays clear,
    since `MarkPreprocessed` returns `true`. -/
theorem DryKept.processReadyUnits (h : DryKept p₀ p) (intent : ConfigurationUnitIntent)
    (fuel : Nat) (cs : List Nat) :
    wp (ConfigurationSetApply.processReadyUnits hasPreprocessed ConfigurationSetApply.markPreprocessed
        intent fuel cs false)
      (fun r p' => DryKept p₀ p' ∧ r.2 = false ∧ r.1 ⊆ cs) (fun _ _ => False) p :=
  wp_mono (fun _ _ h => h.1) (fun _ _ h => h)
    (processReadyUnits_rule _ _ intent (fun cs' hf p => DryKept p₀ p ∧ hf = false ∧ cs' ⊆ cs)
      (fun _ _ p i ⟨h, hf, hcs⟩ _ => by
        simp only [ConfigurationSetApply.markPreprocessed, wp_bind, wp_logEvent, wp_modifyUnitInfo,
          wp_pure]
        exact ⟨h.markPreprocessed i, by simp [hf], fun _ hx => hcs (List.mem_of_mem_erase hx)⟩)
      fuel cs false p ⟨h, rfl, List.Subset.refl _⟩)

/-- A failed phase's markings change results and the code, and send no progress in the
    dry run. -/
theorem DryFrame.markAll (h : DryFrame p₀ p) (selects : ConfigurationUnitIntent → Bool)
    (resultCode : HResult) (cs : List Nat) : DryFrame p₀ (p.markAll selects resultCode false cs) := by
  obtain ⟨hs, hu, hd, hp, hr, L, hL, hm⟩ := h
  refine ⟨by simp [hs], fun j => by simp [hu], fun j => by simp [hd], fun j => by simp [hp],
    fun j => ?_, L, by simp [ConfigurationSetApplyProcessor.markAll_log, hL], hm⟩
  rw [ConfigurationSetApplyProcessor.markAll_info]; split <;> simp [hr]

theorem DryFrame.withResultCode (h : DryFrame p₀ p) (c : HResult) : DryFrame p₀ (p.withResultCode c) :=
  ⟨by simp [h.size], by simpa using h.unit, by simpa using h.dependencyIndices,
    by simpa using h.processed, by simpa using h.result, by simpa using h.log⟩

theorem DryKept.assertsNotFailed (h : DryKept p₀ p) (hA : AssertsNotFailed p₀) : AssertsNotFailed p :=
  fun j hj => by rw [h.unit]; exact hA j (by rwa [← h.resultInformation])

/-- The markings of a failed phase give `ASSERTION_FAILED` only to units of another intent
    than the phase's, and only if that is the phase's `errorForOtherIntents`. -/
theorem AssertsNotFailed.markAll_markAll (h : AssertsNotFailed p) {intent : ConfigurationUnitIntent}
    {errorForOtherIntents : HResult} (hother : errorForOtherIntents = assertionFailed → intent = .assert)
    (sendProgress : Bool) (cs : List Nat) :
    AssertsNotFailed ((p.markAll (· == intent) dependencyUnsatisfied sendProgress cs).markAll
      (· != intent) errorForOtherIntents sendProgress cs) := by
  intro j hj
  simp only [ConfigurationSetApplyProcessor.markAll_info_unit]
  rw [ConfigurationSetApplyProcessor.markAll_markAll_info] at hj
  split at hj
  · simp only [ConfigurationUnitResultInformation.initializeWith] at hj
    split at hj
    · exact absurd hj (by decide)
    · rename_i hI
      rw [← hother hj]
      exact hI
  · exact h j hj

/-- A phase of the dry run never throws; if it passes it kept everything, and if it fails
    its markings keep Assert units clear of `ASSERTION_FAILED`. -/
theorem DryKept.processIntentInternal (h : DryKept p₀ p) (hA : AssertsNotFailed p₀)
    {intent : ConfigurationUnitIntent} {errorForOtherIntents : HResult}
    (hother : errorForOtherIntents = assertionFailed → intent = .assert) (cs : List Nat)
    (errorForFailures : HResult) :
    wp (ConfigurationSetApply.processIntentInternal hasPreprocessed ConfigurationSetApply.markPreprocessed
        intent cs errorForOtherIntents errorForFailures false)
      (fun r p' => DryFrame p₀ p' ∧ AssertsNotFailed p' ∧ (r.1 = true → DryKept p₀ p') ∧
        r.2 ⊆ cs ∧ (r.1 = false → cs ≠ []))
      (fun _ _ => False) p := by
  rw [wp_processIntentInternal]
  refine wp_mono (fun r p₁ ⟨h₁, hf, hcs⟩ => ?_) (fun _ _ h => h) (h.processReadyUnits intent cs.length cs)
  simp only [hf, Bool.false_or, if_false]
  split
  case isTrue hrem =>
    obtain ⟨j, hj, -⟩ := List.any_eq_true.1 hrem
    exact ⟨((h₁.toDryFrame.markAll _ _ _).markAll _ _ _).withResultCode _,
      fun j hj => (h₁.assertsNotFailed hA).markAll_markAll hother false r.1 j (by simpa using hj),
      fun h => absurd h Bool.false_ne_true, hcs, fun _ => List.ne_nil_of_mem (hcs hj)⟩
  case isFalse hrem =>
    rw [ConfigurationSetApplyProcessor.markAll_of_forall_not_selects]
    · exact ⟨h₁.toDryFrame, h₁.assertsNotFailed hA, fun _ => h₁, hcs, fun h => absurd h (by simp)⟩
    · simpa using hrem

/-- The dry run never throws; when it passes it kept everything but the `PreProcessed`
    flags, and when it fails the set has a unit and no unit of intent Assert carries
    `ASSERTION_FAILED`. -/
theorem DryKept.processInternal (hA : AssertsNotFailed p) :
    wp (ConfigurationSetApply.processInternal hasPreprocessed ConfigurationSetApply.markPreprocessed false)
      (fun ok p' => DryFrame p p' ∧ AssertsNotFailed p' ∧ (ok = true → DryKept p p') ∧
        (ok = false → 0 < p.size))
      (fun _ _ => False) p := by
  have hinform : dependencyUnsatisfied = assertionFailed → ConfigurationUnitIntent.inform = .assert := by
    decide
  have happly : eFail = assertionFailed → ConfigurationUnitIntent.apply = .assert := by decide
  -- a failed phase had a candidate, and every candidate is a unit of the set
  have hsize : ∀ {cs : List Nat}, cs ⊆ List.range p.size → cs ≠ [] → 0 < p.size := fun hcs hne => by
    obtain ⟨j, hj⟩ := List.exists_mem_of_ne_nil _ hne
    have := List.mem_range.1 (hcs hj)
    omega
  rw [wp_processInternal]
  refine wp_mono (fun r₁ p₁ ⟨h₁, hA₁, hk₁, hcs₁, hn₁⟩ => ?_) (fun _ _ h => h)
    ((DryKept.refl p).processIntentInternal hA (fun _ => rfl) _ _)
  split
  case isFalse hr₁ =>
    exact ⟨h₁, hA₁, fun h => absurd h (by simp),
      fun _ => hsize (List.Subset.refl _) (hn₁ (by simpa using hr₁))⟩
  case isTrue hr₁ =>
    refine wp_mono (fun r₂ p₂ ⟨h₂, hA₂, hk₂, hcs₂, hn₂⟩ => ?_) (fun _ _ h => h)
      ((hk₁ hr₁).processIntentInternal hA hinform _ _)
    split
    case isFalse hr₂ =>
      exact ⟨h₂, hA₂, fun h => absurd h (by simp), fun _ => hsize hcs₁ (hn₂ (by simpa using hr₂))⟩
    case isTrue hr₂ =>
      refine wp_mono (fun r₃ p₃ ⟨h₃, hA₃, hk₃, _, hn₃⟩ => ?_) (fun _ _ h => h)
        ((hk₂ hr₂).processIntentInternal hA happly _ _)
      exact ⟨h₃, hA₃, hk₃, fun h => hsize (fun _ hx => hcs₁ (hcs₂ hx)) (hn₃ h)⟩

-- ---------------------------------------------------------------------------
-- PreProcess
-- ---------------------------------------------------------------------------

variable (getNormalizedIdentifier units) in
/-- The state `PreProcess` leaves on a constructed processor when it returns `ok`. -/
structure Validated (ok : Bool) (p : ConfigurationSetApplyProcessor) : Prop where
  size : p.size = units.length
  unit : ∀ j, (p.info j).unit = unitAt units j
  processed : ∀ j, (p.info j).processed = false
  /-- The log holds the `Completed` events of flagged units and the dry run's marks. -/
  log : ∀ e ∈ p.log, (∃ j, e = .unitProgress j .completed) ∨
    (e.isQuiet ∧ e ≠ .setProgress .inProgress)
  progress : ∀ j, unitStates p.log j = [] ∨ unitStates p.log j = [.completed]
  /-- Only a failed dry run gives `ASSERTION_FAILED`, and never to an Assert unit. -/
  assertion : ∀ j, (p.info j).resultInformation.resultCode = assertionFailed →
    (p.info j).unit.intent ≠ .assert ∧ ok = false ∧ p.resultCode = setDependencyCycle
  /-- A set that passed has no duplicate and no missing dependency, and its units are as
      constructed. -/
  passed : ok = true → ¬HasDuplicate getNormalizedIdentifier units ∧
    ¬HasMissing getNormalizedIdentifier units ∧ p.resultCode = 0 ∧ (∀ e ∈ p.log, e.isQuiet) ∧
    ∀ j, (p.info j).resultInformation = {} ∧ (p.info j).result = {}
  /-- A set that failed has a unit, and the code of the first stage that failed. -/
  failed : ok = false → 0 < units.length ∧
    (HasDuplicate getNormalizedIdentifier units → p.resultCode = duplicateIdentifier) ∧
    (¬HasDuplicate getNormalizedIdentifier units → HasMissing getNormalizedIdentifier units →
      p.resultCode = missingDependency) ∧
    (¬HasDuplicate getNormalizedIdentifier units → ¬HasMissing getNormalizedIdentifier units →
      p.resultCode = setDependencyCycle)

theorem DryFrame.unitStates_eq (h : DryFrame p₀ p) (j : Nat) : unitStates p.log j = unitStates p₀.log j := by
  obtain ⟨L, hL, hm⟩ := h.log
  rw [hL, unitStates_append, unitStates_of_quiet (L := L) (fun e he => by obtain ⟨j, rfl⟩ := hm e he; rfl),
    List.append_nil]

/-- A stage that failed after the validation state `p₀`, with what the dry run did from
    `p₀` to `p` (nothing, for the first two stages), leaves a validated state once the set's
    code is set. -/
theorem CheckFrame.failed (h : CheckFrame units p₀) (hd : DryFrame p₀ p) {c : HResult}
    (hA : ∀ j, (p.info j).resultInformation.resultCode = assertionFailed →
      (p.info j).unit.intent ≠ .assert ∧ c = setDependencyCycle)
    (hc : (HasDuplicate getNormalizedIdentifier units → c = duplicateIdentifier) ∧
      (¬HasDuplicate getNormalizedIdentifier units → HasMissing getNormalizedIdentifier units →
        c = missingDependency) ∧
      (¬HasDuplicate getNormalizedIdentifier units → ¬HasMissing getNormalizedIdentifier units →
        c = setDependencyCycle)) (hn : 0 < units.length) :
    Validated getNormalizedIdentifier units false (p.withResultCode c) where
  size := by simp [hd.size, h.size]
  unit := fun j => by simp [hd.unit, h.unit]
  processed := fun j => by simp [hd.processed, h.processed]
  log := by
    obtain ⟨L, hL, hm⟩ := hd.log
    intro e he
    simp only [ConfigurationSetApplyProcessor.withResultCode_log, hL, List.mem_append] at he
    rcases he with he | he
    · exact .inl (h.log e he)
    · obtain ⟨j, rfl⟩ := hm e he
      exact .inr ⟨rfl, by simp⟩
  progress := fun j => by simpa [hd.unitStates_eq] using h.progress j
  assertion := fun j hj => ⟨(hA j hj).1, rfl, (hA j hj).2⟩
  passed := fun h => absurd h Bool.false_ne_true
  failed := fun _ => ⟨hn, by simpa using hc⟩

variable (units) in
/-- A table that passed the identifier and dependency checks: a frame of the validation
    with the set's code `S_OK`, nothing logged, and every unit's result as constructed.
    Its dependency indices are whatever resolution found. -/
structure Checked (p : ConfigurationSetApplyProcessor) extends CheckFrame units p : Prop where
  resultCode : p.resultCode = 0
  logEmpty : p.log = []
  fresh : ∀ j, (p.info j).resultInformation = {} ∧ (p.info j).result = {}

/-- A set that passed the first two stages and the dry run is validated. -/
theorem Checked.passed (h : Checked units p₀) (hk : DryKept p₀ p)
    (hnd : ¬HasDuplicate getNormalizedIdentifier units) (hnm : ¬HasMissing getNormalizedIdentifier units) :
    Validated getNormalizedIdentifier units true p := by
  obtain ⟨L, hL, hm⟩ := hk.log
  have hm' : ∀ e ∈ p.log, ∃ j, e = .markPreprocessed j := fun e he => by
    rw [hL, h.logEmpty, List.nil_append] at he
    exact hm e he
  have hq : ∀ e ∈ p.log, e.isQuiet := fun e he => by
    obtain ⟨j, rfl⟩ := hm' e he
    rfl
  have hri : ∀ j, (p.info j).resultInformation = {} := fun j =>
    (hk.resultInformation j).trans (h.fresh j).1
  exact {
    size := hk.size.trans h.size
    unit := fun j => (hk.unit j).trans (h.unit j)
    processed := fun j => (hk.processed j).trans (h.processed j)
    log := fun e he => .inr ⟨hq e he, by obtain ⟨j, rfl⟩ := hm' e he; simp⟩
    progress := fun j => .inl (unitStates_of_quiet hq j)
    assertion := fun j hj => absurd (by rw [← hj, hri j]) (by decide : (0 : HResult) ≠ assertionFailed)
    passed := fun _ => ⟨hnd, hnm, hk.resultCode.trans h.resultCode, hq,
      fun j => ⟨hri j, (hk.result j).trans (h.fresh j).2⟩⟩
    failed := fun h => absurd h (by decide) }

/-- `PreProcess` on a constructed processor never throws and leaves a validated state;
    for a set without duplicates or missing dependencies its outcome is the dry run's,
    started from a checked table, with the code of a cycle when the dry run fails. -/
theorem preProcess_spec :
    wp (preProcess getNormalizedIdentifier)
      (fun ok p => Validated getNormalizedIdentifier units ok p ∧
        (¬HasDuplicate getNormalizedIdentifier units → ¬HasMissing getNormalizedIdentifier units →
          ∃ p₂ p₃, Checked units p₂ ∧
            processInternal hasPreprocessed markPreprocessed false p₂ = .ok ok p₃ ∧
            p = if ok then p₃ else p₃.withResultCode setDependencyCycle))
      (fun _ _ => False) (ConfigurationSetApplyProcessor.create units) := by
  simp only [preProcess, wp_bind, wp_get, ConfigurationSetApplyProcessor.create_size]
  refine wp_mono (fun ok₁ p₁ ⟨h₁, hok₁⟩ => ?_) (fun _ _ h => h) addUnitsToMap_create
  by_cases hdup : HasDuplicate getNormalizedIdentifier units
  case pos =>
    -- the index stage failed
    rw [show ok₁ = false by simpa [hdup] using hok₁]
    simp only [Bool.not_false, if_true, wp_bind, wp_setResultCode, wp_pure]
    obtain ⟨-, j, hj, -⟩ := id hdup
    exact ⟨h₁.toCheckFrame.failed (DryKept.refl p₁).toDryFrame (fun j hj => absurd hj (h₁.code j))
      ⟨fun _ => rfl, fun h => absurd hdup h, fun h => absurd hdup h⟩ (by omega),
      fun h => absurd hdup h⟩
  case neg =>
    rw [show ok₁ = true from hok₁.2 hdup]
    simp only [Bool.not_true, Bool.false_eq_true, if_false, wp_bind, wp_pure]
    rw [List.range_eq_range']
    refine wp_mono (fun ok₂ p₂ ⟨h₂, hok₂⟩ => ?_) (fun _ _ h => h)
      ((h₁.resolveInv hdup).resolveAllDependencies (Nat.zero_add _))
    have hok₂' : ok₂ = true ↔ ¬HasMissing getNormalizedIdentifier units := by
      simp [hok₂, hasMissing_iff]
    by_cases hmiss : HasMissing getNormalizedIdentifier units
    case pos =>
      -- the resolution stage failed
      rw [show ok₂ = false by simpa [hmiss] using hok₂']
      simp only [Bool.not_false, if_true, wp_bind, wp_setResultCode, wp_pure]
      obtain ⟨i, hi, -⟩ := id hmiss
      exact ⟨h₂.toCheckFrame.failed (DryKept.refl p₂).toDryFrame (fun j hj => absurd hj (h₂.code j))
        ⟨fun h => absurd h hdup, fun _ _ => rfl, fun _ h => absurd hmiss h⟩ (by omega),
        fun _ h => absurd hmiss h⟩
    case neg =>
      rw [show ok₂ = true from hok₂'.2 hmiss]
      simp only [Bool.not_true, Bool.false_eq_true, if_false, wp_bind, wp_pure]
      obtain ⟨hlog, hfresh⟩ := h₂.clean fun i hi hm => hmiss ((hasMissing_iff).2 ⟨i, hi, hm⟩)
      have hC : Checked units p₂ := ⟨h₂.toCheckFrame, h₂.resultCode, hlog, hfresh⟩
      refine wp_mono (fun ok₃ p₃ ⟨⟨hF, hA, hk, hn⟩, hrun⟩ => ?_) (fun _ _ h => h.1)
        (wp_and (DryKept.processInternal (p := p₂) fun j hj => absurd hj (h₂.code j)) (wp_self _ _))
      cases ok₃
      case false =>
        -- the dry run stalled
        simp only [Bool.not_false, if_true, wp_bind, wp_setResultCode, wp_pure]
        exact ⟨h₂.toCheckFrame.failed hF (fun j hj => ⟨hA j hj, rfl⟩)
          ⟨fun h => absurd h hdup, fun _ h => absurd h hmiss, fun _ _ => rfl⟩
          (h₂.size ▸ hn rfl), fun _ _ => ⟨p₂, p₃, hC, hrun, rfl⟩⟩
      case true =>
        simp only [Bool.not_true, Bool.false_eq_true, if_false, wp_bind, wp_pure]
        exact ⟨hC.passed (hk rfl) hdup hmiss, fun _ _ => ⟨p₂, p₃, hC, hrun, rfl⟩⟩

/-- The table the dry run leaves from a checked table, with the code of a cycle if the
    dry run failed, is the checked table but for the marks, the results and the set's
    code. -/
theorem Checked.dryFrame {p₂ p₃ : ConfigurationSetApplyProcessor} {ok : Bool} (hC : Checked units p₂)
    (hrun : processInternal hasPreprocessed markPreprocessed false p₂ = .ok ok p₃) :
    DryFrame p₂ (if ok then p₃ else p₃.withResultCode setDependencyCycle) := by
  have h := ((DryKept.processInternal (p := p₂) fun j hj => absurd hj (hC.code j)).of_ok hrun).1
  cases ok
  · exact h.withResultCode _
  · exact h

end ConfigurationSetApply
