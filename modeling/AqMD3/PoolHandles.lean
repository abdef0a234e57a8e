import AqMD3.AcquisitionBufferPool

/-!
What the callers of `get_buffer` rely on, over every order of its statements with what
the holders of handles do: a buffer of their own, and a pool that stays inside its
maximum.
-/

namespace AqMD3.Acquisition

open SharedCounts Transitions

namespace AcquisitionBufferPool

def Returns (p : AcquisitionBufferPool) (given : Handle) : Prop :=
  p.getting ≠ .idle ∧ p.getStep.getting = .idle ∧
    p.getStep.samplesBufferPool.handles = p.samplesBufferPool.handles ++ [given]

/-- A handle returned is the only one to its buffer, the buffer starts over, and
handles of different calls are to different buffers. -/
structure Exclusively (p : AcquisitionBufferPool) : Prop where
  unheld : ∀ given, Returns p given → p.samplesBufferPool.Free given.object
  empty : ∀ given, Returns p given →
    ∃ buffer, p.getStep.samplesBufferPool.objects[given.object]?.map Object.value = some buffer ∧
      buffer.acquiredIndex = 0 ∧ buffer.processedIndex = 0 ∧ buffer.offset = 0
  apart : ∀ first ∈ p.samplesBufferPool.handles, ∀ second ∈ p.samplesBufferPool.handles,
    first.origin ≠ second.origin → first.object ≠ second.object

theorem returns_returning {p : AcquisitionBufferPool} {given : Handle} (returns : Returns p given) :
    ∃ index, p.getting = .returning index ∧ given = ⟨index, p.calls⟩ := by
  obtain ⟨started, ended, handles⟩ := returns
  unfold getStep at ended handles
  cases next : p.getting with
  | idle => exact absurd next started
  | returning index =>
      simp only [next] at handles
      have same := List.append_cancel_left handles
      exact ⟨index, rfl, (List.singleton_inj.mp same).symm⟩
  | resetting index =>
      simp only [next] at ended
      cases ended
  | pushing total =>
      simp only [next] at ended
      cases ended
  | probing i total =>
      simp only [next] at ended
      split at ended
      · split at ended <;> cases ended
      · cases ended

theorem exclusively {p : AcquisitionBufferPool} (exclusive : Exclusive p) : Exclusively p where
  unheld := by
    intro given returns
    obtain ⟨index, next, rfl⟩ := returns_returning returns
    have ready := exclusive.ready
    rw [next] at ready
    exact ready.1
  empty := by
    intro given returns
    obtain ⟨index, next, rfl⟩ := returns_returning returns
    have ready := exclusive.ready
    rw [next] at ready
    obtain ⟨_, buffer, found, acquired, processed, offset⟩ := ready
    refine ⟨buffer, ?_, acquired, processed, offset⟩
    rw [← found]
    simp only [getStep, next]
    exact Shared.give_value _ _ _ _
  apart := by
    intro first member second member' origins same
    exact origins (exclusive.disjoint first member second member' same)

/-- In every state of every run: whatever the holders of handles do between the
statements of `get_buffer`, each call returns a buffer of its own. -/
theorem buffers_exclusive (maxTriggersPerRead samplesPerTrigger initialCount maxCount : UInt64)
    (labels : List PoolLabel) (final : AcquisitionBufferPool)
    (ran : run step (create maxTriggersPerRead samplesPerTrigger initialCount maxCount) labels =
      some final) : Exclusively final :=
  exclusively (run_exclusive (create_exclusive _ _ _ _) ran)

/-- One buffer: its handle is copied, both copies are released, and the buffer is taken
again. -/
theorem buffers_exclusive_taken_again :
    ∃ final, run step (create 2 4 1 1) [.gets, .gets, .gets, .gets, .copies 0, .gets, .releases 1,
        .releases 0, .gets, .gets, .gets] = some final ∧ Exclusively final := by
  obtain ⟨final, ran⟩ := Option.isSome_iff_exists.mp
    (by decide +kernel : (run step (create 2 4 1 1) [.gets, .gets, .gets, .gets, .copies 0, .gets,
      .releases 1, .releases 0, .gets, .gets, .gets]).isSome = true)
  exact ⟨final, ran, buffers_exclusive 2 4 1 1 _ final ran⟩

def inUse (p : AcquisitionBufferPool) : Nat :=
  p.samplesBufferPool.objects.zipIdx.countP fun o =>
    p.samplesBufferPool.handles.any fun h => h.object = o.2

/-- `WARN_ON_BUFFER_COUNT`, as the acquisition loop compares with it. -/
def warns (p : AcquisitionBufferPool) : Bool := p.getAvailableBuffers ≤ 3

/-- The pool is inside its maximum, the count of available buffers is a true
difference, and the warning comes whenever it is at most three. -/
structure Bounded (p : AcquisitionBufferPool) : Prop where
  size : p.samplesBufferPool.objects.length ≤ p.bufferMaxCount.toNat
  available : (p.getAvailableBuffers.toNat : Int) = p.bufferMaxCount.toNat - p.inUse
  warned : (p.bufferMaxCount.toNat : Int) - p.inUse ≤ 3 → p.warns = true

/-- No buffer is added to a pool that has all the buffers it may have. -/
def addsBelowMaximum (p : AcquisitionBufferPool) (label : PoolLabel) : Bool :=
  match label, p.getting with
  | .gets, .pushing _ => p.samplesBufferPool.objects.length < p.bufferMaxCount.toNat
  | _, _ => true

theorem available_foldl (objects : List (Object AcquisitionBuffer)) (count : UInt64)
    (enough : objects.countP (fun o => 2 ≤ o.useCount) ≤ count.toNat) :
    (objects.foldl (fun count o => if 2 ≤ o.useCount then count - 1 else count) count).toNat =
      count.toNat - objects.countP fun o => 2 ≤ o.useCount := by
  induction objects generalizing count with
  | nil => simp
  | cons o rest ih =>
      rw [List.countP_cons] at enough ⊢
      by_cases used : 2 ≤ o.useCount
      · simp only [used, decide_true, ↓reduceIte, List.foldl_cons] at enough ⊢
        have one : (1 : UInt64).toNat = 1 := rfl
        have less : (count - 1).toNat = count.toNat - 1 :=
          FixedWidth.uint64_sub_exact count 1 (by omega)
        rw [ih (count - 1) (by omega), less]
        omega
      · simp only [used, decide_false, Bool.false_eq_true, ↓reduceIte, List.foldl_cons] at enough ⊢
        exact ih count (by omega)

theorem inUse_counts {p : AcquisitionBufferPool} (counted : p.samplesBufferPool.Counted) :
    p.samplesBufferPool.objects.countP (fun o => 2 ≤ o.useCount) = p.inUse := by
  have indexed : p.samplesBufferPool.objects.countP (fun o => 2 ≤ o.useCount) =
      p.samplesBufferPool.objects.zipIdx.countP fun o => 2 ≤ o.1.useCount := by
    nth_rewrite 1 [← List.zipIdx_map_fst 0 p.samplesBufferPool.objects]
    rw [List.countP_map]
    rfl
  rw [indexed]
  apply List.countP_congr
  rintro ⟨o, index⟩ member
  have found := List.mem_zipIdx_iff_getElem?.mp member
  have count := counted.counts index o found
  have free := Shared.counted_free counted found
  simp only [decide_eq_true_eq, List.any_eq_true]
  constructor
  · intro (held : 2 ≤ o.useCount)
    by_contra none
    have alone : o.useCount = 1 := free.mpr fun h handle same => none ⟨h, handle, same⟩
    rw [alone] at held
    exact absurd held (by decide)
  · rintro ⟨h, handle, same⟩
    by_contra few
    have alone : o.useCount = 1 := by
      have low : ¬ 2 ≤ o.useCount := few
      omega
    exact free.mp alone h handle same

theorem bounded_iff {p : AcquisitionBufferPool} (counted : p.samplesBufferPool.Counted) :
    Bounded p ↔ p.samplesBufferPool.objects.length ≤ p.bufferMaxCount.toNat := by
  constructor
  · exact Bounded.size
  · intro size
    have few : p.samplesBufferPool.objects.countP (fun o => 2 ≤ o.useCount) ≤
        p.samplesBufferPool.objects.length := List.countP_le_length
    have exact := available_foldl p.samplesBufferPool.objects p.bufferMaxCount
      (Nat.le_trans few size)
    rw [inUse_counts counted] at few exact
    change p.getAvailableBuffers.toNat = _ at exact
    refine ⟨size, by omega, fun low => ?_⟩
    have three : (3 : UInt64).toNat = 3 := rfl
    rw [warns, decide_eq_true_eq, UInt64.le_iff_toNat_le, three]
    omega

@[simp] theorem getStep_maxCount (p : AcquisitionBufferPool) :
    p.getStep.bufferMaxCount = p.bufferMaxCount := by
  unfold getStep
  cases p.getting with
  | probing i total =>
      simp only
      split
      · split <;> rfl
      · rfl
  | _ => rfl

theorem getStep_length (p : AcquisitionBufferPool) :
    p.getStep.samplesBufferPool.objects.length =
      p.samplesBufferPool.objects.length +
        match p.getting with
        | .pushing _ => 1
        | _ => 0 := by
  unfold getStep
  cases next : p.getting with
  | probing i total =>
      simp only
      split
      · split <;> rfl
      · rfl
  | resetting index => exact Shared.onValue_length _ _ _
  | pushing total => exact Shared.push_length _ _
  | returning index => exact Shared.give_length _ _ _
  | idle => rfl

theorem length_step {p next : AcquisitionBufferPool} {label : PoolLabel}
    (size : p.samplesBufferPool.objects.length ≤ p.bufferMaxCount.toNat)
    (allowed : addsBelowMaximum p label = true) (stepped : p.step label = some next) :
    next.samplesBufferPool.objects.length ≤ next.bufferMaxCount.toNat := by
  cases label with
  | gets =>
      cases stepped
      rw [getStep_length, getStep_maxCount]
      cases pushes : p.getting with
      | pushing total =>
          simp only [addsBelowMaximum, pushes, decide_eq_true_eq] at allowed
          exact allowed
      | _ => exact size
  | copies handle =>
      obtain ⟨s, copied, rfl⟩ := Option.map_eq_some_iff.mp stepped
      obtain ⟨h, _, rfl⟩ := Option.map_eq_some_iff.mp copied
      simpa using size
  | releases handle =>
      obtain ⟨s, released, rfl⟩ := Option.map_eq_some_iff.mp stepped
      obtain ⟨h, _, rfl⟩ := Option.map_eq_some_iff.mp released
      simpa [Shared.onCount] using size
  | uses handle change =>
      obtain ⟨s, used, rfl⟩ := Option.map_eq_some_iff.mp stepped
      obtain ⟨h, _, rfl⟩ := Option.map_eq_some_iff.mp used
      simpa using size

theorem bounded_step {p next : AcquisitionBufferPool} {label : PoolLabel}
    (exclusive : Exclusive p) (bounded : Bounded p) (allowed : addsBelowMaximum p label = true)
    (stepped : p.step label = some next) : Bounded next :=
  (bounded_iff (step_exclusive exclusive stepped).counted).mpr
    (length_step bounded.size allowed stepped)

theorem unbounded_step {p : AcquisitionBufferPool} {label : PoolLabel}
    (refused : ¬ addsBelowMaximum p label = true) :
    ∃ next, p.step label = some next ∧ ¬ Bounded next := by
  unfold addsBelowMaximum at refused
  split at refused
  · rename_i total pushes
    refine ⟨p.getStep, rfl, fun bounded => ?_⟩
    have size := bounded.size
    rw [getStep_length, getStep_maxCount, pushes] at size
    exact refused (decide_eq_true size)
  · exact absurd rfl refused

/-- The pool is bounded throughout exactly those runs that never add a buffer at the
maximum. -/
theorem pool_bounded_iff (maxTriggersPerRead samplesPerTrigger initialCount maxCount : UInt64)
    (fits : initialCount ≤ maxCount) (labels : List PoolLabel) :
    Throughout step Bounded (create maxTriggersPerRead samplesPerTrigger initialCount maxCount)
        labels ↔
      Meets step (fun p label => addsBelowMaximum p label = true)
        (create maxTriggersPerRead samplesPerTrigger initialCount maxCount) labels := by
  have exclusive := create_exclusive maxTriggersPerRead samplesPerTrigger initialCount maxCount
  apply throughout_iff_meets (fun _ _ _ => step_exclusive) (fun _ _ _ => bounded_step)
    (fun _ _ _ _ => unbounded_step) labels exclusive
  rw [bounded_iff exclusive.counted]
  simpa [create] using UInt64.le_iff_toNat_le.mp fits

theorem pool_bounded_taken_again :
    1 ≤ (1 : UInt64) ∧ Throughout step Bounded (create 2 4 1 1)
      [.gets, .gets, .gets, .gets, .releases 0, .gets, .gets, .gets, .gets] := by
  obtain ⟨final, ran⟩ := Option.isSome_iff_exists.mp
    (by decide +kernel : (runAllowed step addsBelowMaximum (create 2 4 1 1)
      [.gets, .gets, .gets, .gets, .releases 0, .gets, .gets, .gets, .gets]).isSome = true)
  exact ⟨by decide, (pool_bounded_iff 2 4 1 1 (by decide) _).mpr (runAllowed_meets ran).2⟩

theorem pool_unbounded :
    ¬ ∀ (maxTriggersPerRead samplesPerTrigger initialCount maxCount : UInt64),
      initialCount ≤ maxCount → ∀ labels : List PoolLabel,
        Throughout step Bounded
          (create maxTriggersPerRead samplesPerTrigger initialCount maxCount) labels := by
  intro bounded
  have all := bounded 2 4 1 1 (by decide)
    [.gets, .gets, .gets, .gets, .gets, .gets, .gets, .gets, .gets]
  have grown : (run step (create 2 4 1 1)
      [.gets, .gets, .gets, .gets, .gets, .gets, .gets, .gets, .gets]).map
        (fun p => (p.samplesBufferPool.objects.length, p.bufferMaxCount)) = some (2, 1) := by
    decide +kernel
  obtain ⟨final, ran, same⟩ := Option.map_eq_some_iff.mp grown
  have size := (throughout_final all ran).size
  rw [(Prod.mk.inj same).1, (Prod.mk.inj same).2] at size
  exact absurd size (by decide)

end AcquisitionBufferPool
end AqMD3.Acquisition
