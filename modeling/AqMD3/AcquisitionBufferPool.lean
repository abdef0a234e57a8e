import AqMD3.AcquisitionBuffer
import AqMD3.SharedCounts
import AqMD3.Transitions

/-!
libaqmd3's `AcquisitionBufferPool`. `get_buffer` is one thread's, a statement at a
time; between any two of them the handles given out are copied, released and used by
other threads. The pool keeps its reference to every buffer for good. The size of its
vector, which the source counts with an int, is a Nat.
-/

namespace AqMD3.Acquisition

open SharedCounts Transitions AcquisitionBuffer

/-- The statement of `get_buffer` that is next: a `use_count()` of the loop, `reset`,
`push_back` behind the loop, or the copy that is returned. -/
inductive Getting where
  | idle
  | probing (i total : Nat)
  | resetting (index : Nat)
  | pushing (total : Nat)
  | returning (index : Nat)
  deriving DecidableEq

/-- `calls` numbers the calls of `get_buffer`: it is the origin of the next handle. -/
structure AcquisitionBufferPool where
  samplesBufferPool : Shared AcquisitionBuffer
  bufferTakes : UInt64
  bufferMaxCount : UInt64
  maxTriggersPerRead : UInt64
  samplesPerTrigger : UInt64
  getting : Getting
  calls : Nat
  deriving DecidableEq

inductive PoolLabel where
  | gets
  | copies (handle : Nat)
  | releases (handle : Nat)
  | uses (handle : Nat) (change : AcquisitionBuffer → AcquisitionBuffer)

namespace AcquisitionBufferPool

def create (maxTriggersPerRead samplesPerTrigger bufferInitialCount bufferMaxCount : UInt64) :
    AcquisitionBufferPool :=
  { samplesBufferPool :=
      ⟨List.replicate bufferInitialCount.toNat ⟨.ofTriggers maxTriggersPerRead samplesPerTrigger, 1⟩,
        []⟩
    bufferTakes := 0
    bufferMaxCount := bufferMaxCount
    maxTriggersPerRead := maxTriggersPerRead
    samplesPerTrigger := samplesPerTrigger
    getting := .idle
    calls := 0 }

def getAvailableBuffers (p : AcquisitionBufferPool) : UInt64 :=
  p.samplesBufferPool.objects.foldl (fun count o => if 2 ≤ o.useCount then count - 1 else count)
    p.bufferMaxCount

/-- The buffer that turn `i` of the loop looks at. -/
def probed (p : AcquisitionBufferPool) (i total : Nat) : Nat :=
  (p.bufferTakes + UInt64.ofNat i).toNat % total

def onBuffers (p : AcquisitionBufferPool)
    (change : Shared AcquisitionBuffer → Shared AcquisitionBuffer) : AcquisitionBufferPool :=
  { p with samplesBufferPool := change p.samplesBufferPool }

def getStep (p : AcquisitionBufferPool) : AcquisitionBufferPool :=
  match p.getting with
  | .idle => { p with getting := .probing 0 p.samplesBufferPool.objects.length }
  | .probing i total =>
      if i < total then
        if (p.samplesBufferPool.objects[p.probed i total]?).map Object.useCount = some 1 then
          { p with bufferTakes := p.bufferTakes + 1, getting := .resetting (p.probed i total) }
        else { p with getting := .probing (i + 1) total }
      else { p with getting := .pushing total }
  | .resetting index => { p.onBuffers (·.onValue index reset) with getting := .returning index }
  | .pushing total =>
      { p.onBuffers (·.push (.ofTriggers p.maxTriggersPerRead p.samplesPerTrigger)) with
        bufferTakes := p.bufferTakes + 1
        getting := .returning total }
  | .returning index =>
      { p.onBuffers (·.give index p.calls) with getting := .idle, calls := p.calls + 1 }

def step (p : AcquisitionBufferPool) : PoolLabel → Option AcquisitionBufferPool
  | .gets => some p.getStep
  | .copies handle => (p.samplesBufferPool.copy handle).map fun s => { p with samplesBufferPool := s }
  | .releases handle =>
      (p.samplesBufferPool.release handle).map fun s => { p with samplesBufferPool := s }
  | .uses handle change =>
      (p.samplesBufferPool.use handle change).map fun s => { p with samplesBufferPool := s }

/-- A buffer of the pool that no handle refers to and that starts over. -/
def Fresh (s : Shared AcquisitionBuffer) (index : Nat) : Prop :=
  s.Free index ∧ ∃ buffer, s.objects[index]?.map Object.value = some buffer ∧ Empty buffer

/-- What the statement that is next may rely on. -/
def Ready (s : Shared AcquisitionBuffer) : Getting → Prop
  | .idle => True
  | .probing _ total => total = s.objects.length
  | .resetting index => s.Free index ∧ index < s.objects.length
  | .pushing total => total = s.objects.length
  | .returning index => Fresh s index

structure Exclusive (p : AcquisitionBufferPool) : Prop where
  counted : p.samplesBufferPool.Counted
  ready : Ready p.samplesBufferPool p.getting
  disjoint : p.samplesBufferPool.Disjoint

theorem create_exclusive (maxTriggersPerRead samplesPerTrigger initialCount maxCount : UInt64) :
    Exclusive (create maxTriggersPerRead samplesPerTrigger initialCount maxCount) where
  counted :=
    { counts := by
        intro index o found
        rw [(List.mem_replicate.mp (List.mem_of_getElem? found)).2]
        rfl
      inside := fun h member => by cases member }
  ready := trivial
  disjoint := fun h member => by cases member

theorem ofTriggers_empty (maxTriggersPerRead samplesPerTrigger : UInt64) :
    Empty (.ofTriggers maxTriggersPerRead samplesPerTrigger) := ⟨rfl, rfl, rfl⟩

theorem fresh_reset {s : Shared AcquisitionBuffer} {index : Nat} (free : s.Free index)
    (inside : index < s.objects.length) : Fresh (s.onValue index reset) index := by
  refine ⟨free, _, ?_, reset_empty s.objects[index].value⟩
  simp [Shared.onValue, inside]

theorem fresh_push {s : Shared AcquisitionBuffer} (counted : s.Counted) (buffer : AcquisitionBuffer)
    (empty : Empty buffer) : Fresh (s.push buffer) s.objects.length := by
  refine ⟨?_, buffer, ?_, empty⟩
  · intro h member same
    have inside := counted.inside h member
    omega
  · simp [Shared.push]

theorem fresh_inside {s : Shared AcquisitionBuffer} {index : Nat} (fresh : Fresh s index) :
    index < s.objects.length := by
  obtain ⟨_, buffer, found, _⟩ := fresh
  obtain ⟨o, present, _⟩ := Option.map_eq_some_iff.mp found
  exact (List.getElem?_eq_some_iff.mp present).1

/-- The thread in `get_buffer`: a count of 1 says that no handle is left. -/
theorem getStep_exclusive {p : AcquisitionBufferPool} (exclusive : Exclusive p) :
    Exclusive p.getStep := by
  obtain ⟨counted, ready, disjoint⟩ := exclusive
  unfold getStep
  cases next : p.getting with
  | idle => exact ⟨counted, rfl, disjoint⟩
  -- Nobody can take a new handle of a buffer without one, so the count stays 1.
  | probing i total =>
      rw [next] at ready
      simp only
      split
      · split
        · rename_i alone
          obtain ⟨o, found, count⟩ := Option.map_eq_some_iff.mp alone
          exact ⟨counted, ⟨(Shared.counted_free counted found).mp count,
            (List.getElem?_eq_some_iff.mp found).1⟩, disjoint⟩
        · exact ⟨counted, ready, disjoint⟩
      · exact ⟨counted, ready, disjoint⟩
  | resetting index =>
      rw [next] at ready
      exact ⟨Shared.counted_onValue counted index reset, fresh_reset ready.1 ready.2, disjoint⟩
  | pushing total =>
      rw [next] at ready
      refine ⟨Shared.counted_push counted _, ?_, disjoint⟩
      simp only [Ready, onBuffers]
      -- The pool has not grown since it was found full, so the new buffer has the last index.
      rw [show total = p.samplesBufferPool.objects.length from ready]
      exact fresh_push counted _ (ofTriggers_empty _ _)
  | returning index =>
      rw [next] at ready
      exact ⟨Shared.counted_give counted (fresh_inside ready) p.calls, trivial,
        Shared.disjoint_give disjoint ready.1 p.calls⟩

/-- Whoever holds a handle cannot reach the buffer that is about to be returned. -/
theorem ready_keeps {s next : Shared AcquisitionBuffer} {getting : Getting}
    (ready : Ready s getting) (length : next.objects.length = s.objects.length)
    (keeps : ∀ index, s.Free index → next.Free index ∧
      next.objects[index]?.map Object.value = s.objects[index]?.map Object.value) :
    Ready next getting := by
  cases getting with
  | idle => trivial
  | probing i total => exact ready.trans length.symm
  | pushing total => exact ready.trans length.symm
  | resetting index => exact ⟨(keeps index ready.1).1, length ▸ ready.2⟩
  | returning index =>
      obtain ⟨free, buffer, found, empty⟩ := ready
      obtain ⟨still, same⟩ := keeps index free
      exact ⟨still, buffer, same.trans found, empty⟩

theorem step_exclusive {p next : AcquisitionBufferPool} {label : PoolLabel}
    (exclusive : Exclusive p) (stepped : p.step label = some next) : Exclusive next := by
  cases label with
  | gets =>
      cases stepped
      exact getStep_exclusive exclusive
  | copies handle =>
      obtain ⟨s, copied, rfl⟩ := Option.map_eq_some_iff.mp stepped
      refine ⟨Shared.counted_copy exclusive.counted copied,
        ready_keeps exclusive.ready ?_ (fun _ => Shared.copy_keeps copied),
        Shared.disjoint_copy exclusive.disjoint copied⟩
      obtain ⟨h, _, rfl⟩ := Option.map_eq_some_iff.mp copied
      exact Shared.give_length _ _ _
  | releases handle =>
      obtain ⟨s, released, rfl⟩ := Option.map_eq_some_iff.mp stepped
      refine ⟨Shared.counted_release exclusive.counted released,
        ready_keeps exclusive.ready ?_ (fun _ => Shared.release_keeps released),
        Shared.disjoint_release exclusive.disjoint released⟩
      obtain ⟨h, _, rfl⟩ := Option.map_eq_some_iff.mp released
      exact List.length_modify ..
  | uses handle change =>
      obtain ⟨s, used, rfl⟩ := Option.map_eq_some_iff.mp stepped
      refine ⟨Shared.counted_use exclusive.counted used,
        ready_keeps exclusive.ready ?_ (fun _ => Shared.use_keeps used), ?_⟩
      · obtain ⟨h, _, rfl⟩ := Option.map_eq_some_iff.mp used
        exact List.length_modify ..
      · obtain ⟨h, _, rfl⟩ := Option.map_eq_some_iff.mp used
        exact exclusive.disjoint

theorem run_exclusive {p final : AcquisitionBufferPool} {labels : List PoolLabel}
    (exclusive : Exclusive p) (ran : run step p labels = some final) : Exclusive final :=
  run_invariant (fun _ _ _ kept stepped => step_exclusive kept stepped) exclusive ran

end AcquisitionBufferPool
end AqMD3.Acquisition
