import AqMD3.AcquireHandler
import AqMD3.CallSequence
import AqMD3.FetchBound

/-!
The buffers of the pool against the records of the acquisitions they serve. The pool is
made once, for the period the first `acquire` command measured; its buffers are large
enough for as long as no later command sets a record for which they are not.
-/

namespace AqMD3.Acquisition

open Transitions SharedCounts AcquisitionBuffer

theorem change_size (use : BufferUse) (b : AcquisitionBuffer) :
    (use.change b).getSize = b.getSize := by
  cases use with
  | stores index elements => exact Overwrite.overwrite_length b.data index.toNat elements
  | _ => rfl

namespace AcquisitionBufferPool

def elements (p : AcquisitionBufferPool) : Nat := (p.maxTriggersPerRead * p.samplesPerTrigger).toNat

/-- Every buffer has the size it was made with. -/
def Uniform (p : AcquisitionBufferPool) : Prop :=
  p.samplesBufferPool.Each fun b => b.getSize = p.elements

theorem ofTriggers_size (maxTriggersPerRead samplesPerTrigger : UInt64) :
    (ofTriggers maxTriggersPerRead samplesPerTrigger).getSize =
      (maxTriggersPerRead * samplesPerTrigger).toNat := List.length_replicate

theorem create_uniform (maxTriggersPerRead samplesPerTrigger initialCount maxCount : UInt64) :
    (create maxTriggersPerRead samplesPerTrigger initialCount maxCount).Uniform := by
  intro index o found
  rw [(List.mem_replicate.mp (List.mem_of_getElem? found)).2]
  exact ofTriggers_size _ _

theorem getStep_made (p : AcquisitionBufferPool) :
    p.getStep.maxTriggersPerRead = p.maxTriggersPerRead ∧
      p.getStep.samplesPerTrigger = p.samplesPerTrigger := by
  unfold getStep
  cases p.getting with
  | probing i total =>
      simp only
      split
      · split <;> exact ⟨rfl, rfl⟩
      · exact ⟨rfl, rfl⟩
  | _ => exact ⟨rfl, rfl⟩

theorem getStep_uniform {p : AcquisitionBufferPool} (uniform : p.Uniform) : p.getStep.Uniform := by
  have made := getStep_made p
  unfold Uniform elements
  rw [made.1, made.2]
  unfold getStep
  cases p.getting with
  | idle => exact uniform
  | probing i total =>
      simp only
      split
      · split <;> exact uniform
      · exact uniform
  | resetting index => exact Shared.each_onValue uniform index fun _ size => size
  | pushing total => exact Shared.each_push uniform (ofTriggers_size _ _)
  | returning index => exact Shared.each_give uniform index p.calls

theorem step_made {p next : AcquisitionBufferPool} {use : PoolUse}
    (stepped : p.step use.label = some next) :
    next.maxTriggersPerRead = p.maxTriggersPerRead ∧
      next.samplesPerTrigger = p.samplesPerTrigger := by
  cases use with
  | gets =>
      cases stepped
      exact getStep_made p
  | copies handle =>
      obtain ⟨s, _, rfl⟩ := Option.map_eq_some_iff.mp stepped
      exact ⟨rfl, rfl⟩
  | releases handle =>
      obtain ⟨s, _, rfl⟩ := Option.map_eq_some_iff.mp stepped
      exact ⟨rfl, rfl⟩
  | uses handle use =>
      obtain ⟨s, _, rfl⟩ := Option.map_eq_some_iff.mp stepped
      exact ⟨rfl, rfl⟩

theorem step_uniform {p next : AcquisitionBufferPool} {use : PoolUse} (uniform : p.Uniform)
    (stepped : p.step use.label = some next) : next.Uniform := by
  cases use with
  | gets =>
      cases stepped
      exact getStep_uniform uniform
  | copies handle =>
      obtain ⟨s, copied, rfl⟩ := Option.map_eq_some_iff.mp stepped
      exact Shared.each_copy uniform copied
  | releases handle =>
      obtain ⟨s, released, rfl⟩ := Option.map_eq_some_iff.mp stepped
      exact Shared.each_release uniform released
  | uses handle use =>
      obtain ⟨s, used, rfl⟩ := Option.map_eq_some_iff.mp stepped
      have keeps : ∀ b : AcquisitionBuffer, b.getSize = p.elements →
          (use.change b).getSize = p.elements := fun b size => (change_size use b).trans size
      exact Shared.each_use (s := p.samplesBufferPool) uniform keeps used

end AcquisitionBufferPool

def MarkersEnd.isLookAhead : MarkersEnd → Bool
  | .lookAhead _ _ => true
  | _ => false

theorem isLookAhead_caught {ending : MarkersEnd} (looked : ending.isLookAhead = true) :
    ∃ last rest, ending = .lookAhead last rest := by
  cases ending with
  | lookAhead last rest => exact ⟨last, rest, rfl⟩
  | threw thrown last rest => cases looked
  | waiting last => cases looked

namespace AcquireHandler

/-- Between two commands: the pool's buffers hold a whole record for each trigger of a call. -/
structure Provides (h : AcquireHandler) (pool : AcquisitionBufferPool) : Prop where
  triggers : pool.maxTriggersPerRead = h.notifyOnScansCount
  uniform : pool.Uniform
  whole : 32 ∣ h.recordSize.toNat
  room : h.notifyOnScansCount.toNat * h.recordSize.toNat ≤ pool.elements

def Provided (h : AcquireHandler) : Prop := ∀ pool ∈ h.bufferPool, h.Provides pool

/-- The record a command sets fits the buffers of the pool it finds, or makes. -/
def fitsPool (h : AcquireHandler) : AcquireLabel → Bool
  | .acquires measured =>
      match measured.createTimingInformation with
      | .error _ => true
      | .ok timing =>
          h.notifyOnScansCount.toNat * timing.recordSize.toNat ≤
            (h.notifyOnScansCount * (h.poolFor timing.samplesPerTrigger).samplesPerTrigger).toNat
  | .pools _ => true

theorem poolFor_made {h : AcquireHandler} (provided : h.Provided) (samplesPerTrigger : UInt64) :
    (h.poolFor samplesPerTrigger).maxTriggersPerRead = h.notifyOnScansCount ∧
      (h.poolFor samplesPerTrigger).Uniform := by
  unfold poolFor
  cases made : h.bufferPool with
  | none => exact ⟨rfl, AcquisitionBufferPool.create_uniform _ _ _ _⟩
  | some pool => exact ⟨(provided pool made).triggers, (provided pool made).uniform⟩

theorem provided_step {h next : AcquireHandler} {label : AcquireLabel} (provided : h.Provided)
    (fits : h.fitsPool label = true) (stepped : h.step label = some next) : next.Provided := by
  cases label with
  | acquires measured =>
      cases created : measured.createTimingInformation with
      | error thrown => simp [step, acquire, created] at stepped
      | ok timing =>
          simp only [step, acquire, created, Option.some.injEq] at stepped
          simp only [fitsPool, created, decide_eq_true_eq] at fits
          -- A pool that exists is kept, whatever record the new timing asks for.
          obtain ⟨triggers, uniform⟩ := poolFor_made provided timing.samplesPerTrigger
          subst stepped
          intro pool kept
          cases kept
          refine ⟨triggers, uniform, PusherMeasurement.recordSize_whole created, ?_⟩
          rw [AcquisitionBufferPool.elements, triggers]
          exact fits
  | pools use =>
      cases made : h.bufferPool with
      | none => simp [step, made] at stepped
      | some pool =>
          simp only [step, made, Option.map_eq_some_iff] at stepped
          obtain ⟨after, used, rfl⟩ := stepped
          have before := provided pool made
          obtain ⟨maxTriggers, samples⟩ := AcquisitionBufferPool.step_made used
          intro pool' kept
          cases kept
          refine ⟨maxTriggers.trans before.triggers,
            AcquisitionBufferPool.step_uniform before.uniform used, before.whole, ?_⟩
          rw [AcquisitionBufferPool.elements, maxTriggers, samples]
          exact before.room

/-- What a call asks of the samples stream fits the buffer it is given, whichever buffer of
the pool that is, wherever the markers stream stands and whatever the driver answers: the
gates of the hunks it walks need only lie in the current record. -/
def Capacious (h : AcquireHandler) : Prop :=
  ∀ pool ∈ h.bufferPool, ∀ (index : Nat) (o : Object AcquisitionBuffer),
    pool.samplesBufferPool.objects[index]? = some o →
      ∀ (c : CstZs1Context) (call : AcquireCall) (markers : List FetchReply),
        call.samplesBuffer = o.value → call.triggersToRead ≤ h.notifyOnScansCount →
          (c.walkMarkers call markers).isLookAhead = true →
            (∀ segment ∈ Hunk.segments (c.hunksPassed call markers),
              InRecord h.recordSize segment.2) →
              (c.acquire call markers).toAcquire.toNat ≤ call.samplesBuffer.getSize

theorem provided_capacious {h : AcquireHandler} (provided : h.Provided) : h.Capacious := by
  intro pool made index o found c call markers taken few looked inRecord
  have provides := provided pool made
  obtain ⟨last, rest, caught⟩ := isLookAhead_caught looked
  have records : call.triggersToRead.toNat * h.recordSize.toNat ≤
      h.notifyOnScansCount.toNat * h.recordSize.toNat :=
    Nat.mul_le_mul_right _ (UInt64.le_iff_toNat_le.mp few)
  rw [taken, provides.uniform index o found]
  calc (c.acquire call markers).toAcquire.toNat
      ≤ call.triggersToRead.toNat * h.recordSize.toNat :=
        acquire_fetches_le caught provides.whole inRecord
    _ ≤ h.notifyOnScansCount.toNat * h.recordSize.toNat := records
    _ ≤ pool.elements := provides.room

/-- In every run whose commands set no record that the pool's buffers are too small for. -/
theorem pool_capacious (notifyOnScansCount initialBufferCount maxBufferCount : UInt64)
    (labels : List AcquireLabel) (final : AcquireHandler)
    (fits : Meets step (fun h label => h.fitsPool label = true)
      (begin notifyOnScansCount initialBufferCount maxBufferCount) labels)
    (ran : run step (begin notifyOnScansCount initialBufferCount maxBufferCount) labels = some final) :
    final.Capacious := by
  apply provided_capacious
  apply run_keeps (fun _ _ _ provided allowed stepped => provided_step provided allowed stepped)
    ?_ fits ran
  intro pool made
  cases made

/-- A period measured at 2 GS/s, with the delay and the rearm time that are the defaults. -/
def measured (samples : UInt64) : PusherMeasurement := ⟨samples, none, samples, 4096, 20000⟩

/-- A buffer is taken from the pool and written, and the next command finds a shorter record. -/
def shorterAgain : List AcquireLabel :=
  [.acquires (measured 200000), .pools .gets, .pools .gets, .pools .gets, .pools .gets,
    .pools (.uses 0 (.advancesAcquired 16)), .acquires (measured 26000)]

theorem pool_capacious_shorter : ∃ final, run step (begin 1 1 1) shorterAgain = some final ∧
    final.Capacious := by
  obtain ⟨final, ran⟩ := Option.isSome_iff_exists.mp
    (by decide +kernel : (runAllowed step fitsPool (begin 1 1 1) shorterAgain).isSome = true)
  obtain ⟨reached, fits⟩ := runAllowed_meets ran
  exact ⟨final, reached, pool_capacious 1 1 1 shorterAgain final fits reached⟩

/-- A hunk with one gate, from block 1 to block 7001. -/
def longGate : Hunk :=
  (((Vector.replicate 16 (0 : Int32)).setIfInBounds 0 0x01000004).setIfInBounds 2
    0x59000000).setIfInBounds 3 27

def longGateFetch : List FetchReply :=
  [answered 48 0 [triggerHunk 5, longGate, triggerHunk 6]]

def longGateCall : AcquireCall := ⟨1, 0, 0, .ofTriggers 1 26000, []⟩

/-- The pool is made for a period of 13 us and the next command measures 100 us: one gate
over a third of the new record asks for more than a buffer of the pool has. -/
theorem pool_outgrown : ¬ ∀ (notifyOnScansCount initialBufferCount maxBufferCount : UInt64)
    (labels : List AcquireLabel) (final : AcquireHandler),
      run step (begin notifyOnScansCount initialBufferCount maxBufferCount) labels = some final →
        final.Capacious := by
  intro capacious
  have outgrown := capacious 1 1 1 [.acquires (measured 26000), .acquires (measured 200000)] _ rfl
  have asks : ((CstZs1Context.create "Channel1" 1).acquire longGateCall longGateFetch).toAcquire =
      28000 := by decide +kernel
  have inside : (Hunk.segments ((CstZs1Context.create "Channel1" 1).hunksPassed longGateCall
      longGateFetch)).all (fun segment => decide (InRecord 175904 segment.2)) = true := by
    decide +kernel
  have fits := outgrown _ rfl 0 ⟨.ofTriggers 1 26000, 1⟩ rfl (CstZs1Context.create "Channel1" 1)
    longGateCall longGateFetch rfl (by decide) (by decide +kernel) fun segment member =>
      of_decide_eq_true (List.all_eq_true.mp inside segment member)
  rw [asks, longGateCall, AcquisitionBufferPool.ofTriggers_size] at fits
  exact absurd fits (by decide)

end AcquireHandler

end AqMD3.Acquisition
