import AqMD3.AcquisitionBufferPool
import AqMD3.Digitizer

/-!
The `acquire` command: `TofTimingInformation` from a measured pusher period, the record
size it sets, and the pool, which the first of these commands makes for good. The band
check and the three products of `get_optimal_record_size` are computed in doubles; what
comes of them is given from outside, and the arithmetic in `uint64_t` is the source's.
-/

namespace AqMD3.Acquisition

structure PusherMeasurement where
  samplesPerTrigger : UInt64
  -- The text with which the band check refuses the period.
  refused : Option String
  actualTriggerWidthSamples : UInt64
  trigRearmSamples : UInt64
  delaySamples : UInt64
  deriving DecidableEq

structure TofTimingInformation where
  samplesPerTrigger : UInt64
  recordSize : UInt64
  postTriggerDelaySamples : UInt64
  triggerRearmSamples : UInt64
  deriving DecidableEq

namespace PusherMeasurement

def noRecord (m : PusherMeasurement) : String :=
  "a pusher period of " ++ toString m.actualTriggerWidthSamples ++
    " samples leaves no record: the post-trigger delay is " ++ toString m.delaySamples ++
    " samples and the trigger rearm time " ++ toString m.trigRearmSamples

-- The sum on the right wraps as the source's does.
def getOptimalRecordSize (m : PusherMeasurement) : Except Thrown (UInt64 × UInt64 × UInt64) :=
  if m.actualTriggerWidthSamples ≤ m.delaySamples + m.trigRearmSamples then
    .error (.exception m.noRecord)
  else
    let recordSizeSamples := m.actualTriggerWidthSamples - m.delaySamples - m.trigRearmSamples
    .ok (m.delaySamples,
      if recordSizeSamples % 32 ≠ 0 then recordSizeSamples / 32 * 32 else recordSizeSamples,
      m.trigRearmSamples)

def createTimingInformation (m : PusherMeasurement) : Except Thrown TofTimingInformation :=
  match m.refused with
  | some text => .error (.exception text)
  | none =>
      match m.getOptimalRecordSize with
      | .error thrown => .error thrown
      | .ok (delay, record, rearm) => .ok ⟨m.samplesPerTrigger, record, delay, rearm⟩

theorem record_rounded (samples : UInt64) :
    (if samples % 32 ≠ 0 then samples / 32 * 32 else samples).toNat = samples.toNat / 32 * 32 := by
  have narrow := samples.toNat_lt
  have thirtyTwo : (32 : UInt64).toNat = 32 := rfl
  by_cases odd : samples % 32 ≠ 0
  · rw [if_pos odd, UInt64.toNat_mul, UInt64.toNat_div, thirtyTwo]
    omega
  · rw [if_neg odd]
    rw [ne_eq, Classical.not_not] at odd
    have rest := congrArg UInt64.toNat odd
    rw [UInt64.toNat_mod, thirtyTwo, UInt64.toNat_zero] at rest
    omega

/-- The function returns where the period is above the sum as the source adds it, and the
samples left are rounded down to 32. -/
theorem optimalRecordSize_ok_iff {m : PusherMeasurement} {delay record rearm : UInt64} :
    m.getOptimalRecordSize = .ok (delay, record, rearm) ↔
      m.delaySamples + m.trigRearmSamples < m.actualTriggerWidthSamples ∧
        delay = m.delaySamples ∧ rearm = m.trigRearmSamples ∧
        record.toNat =
          (m.actualTriggerWidthSamples - m.delaySamples - m.trigRearmSamples).toNat / 32 * 32 := by
  by_cases short : m.actualTriggerWidthSamples ≤ m.delaySamples + m.trigRearmSamples
  · rw [getOptimalRecordSize, if_pos short]
    constructor
    · intro returned
      cases returned
    · rintro ⟨above, _⟩
      exact absurd short (UInt64.not_le.mpr above)
  · rw [getOptimalRecordSize, if_neg short]
    simp only [Except.ok.injEq, Prod.mk.injEq]
    rw [← record_rounded, UInt64.toNat_inj]
    constructor
    · rintro ⟨sameDelay, sameRecord, sameRearm⟩
      exact ⟨UInt64.not_le.mp short, sameDelay.symm, sameRearm.symm, sameRecord.symm⟩
    · rintro ⟨_, sameDelay, sameRearm, sameRecord⟩
      exact ⟨sameDelay.symm, sameRecord.symm, sameRearm.symm⟩

/-- A record is a whole number of 32 samples. -/
theorem recordSize_whole {m : PusherMeasurement} {timing : TofTimingInformation}
    (created : m.createTimingInformation = .ok timing) : 32 ∣ timing.recordSize.toNat := by
  cases refused : m.refused with
  | some text => simp [createTimingInformation, refused] at created
  | none =>
      cases sized : m.getOptimalRecordSize with
      | error thrown => simp [createTimingInformation, refused, sized] at created
      | ok sizes =>
          obtain ⟨delay, record, rearm⟩ := sizes
          simp only [createTimingInformation, refused, sized, Except.ok.injEq] at created
          have rounded := (optimalRecordSize_ok_iff.mp sized).2.2.2
          rw [← created]
          simp only
          omega

end PusherMeasurement

/-- What the command reads and sets. -/
structure AcquireHandler where
  notifyOnScansCount : UInt64
  acquisitionInitialBufferCount : UInt64
  acquisitionMaxBufferCount : UInt64
  recordSize : UInt64
  avgTofPeriodSamples : UInt64
  bufferPool : Option AcquisitionBufferPool
  deriving DecidableEq

/-- What the threads of an acquisition do to a buffer of the pool. -/
inductive BufferUse where
  | advancesOffset (num : Int32)
  | advancesProcessed (num : Int32)
  | advancesAcquired (num : Int32)
  | stores (index : Int) (elements : List Int32)
  | resets

def BufferUse.change : BufferUse → AcquisitionBuffer → AcquisitionBuffer
  | .advancesOffset num => (·.advanceOffset num)
  | .advancesProcessed num => (·.advanceProcessed num)
  | .advancesAcquired num => (·.advanceAcquired num)
  | .stores index elements => (·.store index elements)
  | .resets => (·.reset)

inductive PoolUse where
  | gets
  | copies (handle : Nat)
  | releases (handle : Nat)
  | uses (handle : Nat) (use : BufferUse)

def PoolUse.label : PoolUse → PoolLabel
  | .gets => .gets
  | .copies handle => .copies handle
  | .releases handle => .releases handle
  | .uses handle use => .uses handle use.change

inductive AcquireLabel where
  | acquires (measured : PusherMeasurement)
  | pools (use : PoolUse)

namespace AcquireHandler

/-- Before the first command. -/
def begin (notifyOnScansCount initialBufferCount maxBufferCount : UInt64) : AcquireHandler :=
  ⟨notifyOnScansCount, initialBufferCount, maxBufferCount, 0, 0, none⟩

/-- A pool that is there already is kept, whatever period it was made for. -/
def poolFor (h : AcquireHandler) (samplesPerTrigger : UInt64) : AcquisitionBufferPool :=
  match h.bufferPool with
  | some pool => pool
  | none =>
      .create h.notifyOnScansCount samplesPerTrigger h.acquisitionInitialBufferCount
        h.acquisitionMaxBufferCount

def acquire (h : AcquireHandler) (measured : PusherMeasurement) : Except Thrown AcquireHandler :=
  match measured.createTimingInformation with
  | .error thrown => .error thrown
  | .ok timing =>
      .ok { h with
        recordSize := timing.recordSize
        avgTofPeriodSamples := timing.samplesPerTrigger
        bufferPool := some (h.poolFor timing.samplesPerTrigger) }

/-- A refused measurement throws out of the command and is no step of the run. -/
def step (h : AcquireHandler) : AcquireLabel → Option AcquireHandler
  | .acquires measured =>
      match h.acquire measured with
      | .error _ => none
      | .ok next => some next
  | .pools use =>
      match h.bufferPool with
      | none => none
      | some pool => (pool.step use.label).map fun next => { h with bufferPool := some next }

end AcquireHandler

end AqMD3.Acquisition
