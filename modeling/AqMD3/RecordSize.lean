import Mathlib.Data.Rat.Floor
import AqMD3.AcquireHandler
import AqMD3.FixedWidth

/-!
`get_optimal_record_size` from a measured period, its products taken as exact: what the
guard and the rounding behind it leave of the period for a record.
-/

namespace AqMD3.Acquisition

open FixedWidth

def maxSampleRate : ℚ := 2000000000

/-- What the function is called with. A result of 2^64 and more has no `uint64_t`. -/
structure RecordRequest where
  pusherPulsePulseWidthSamples : UInt64
  postTriggerDelayS : ℚ
  sampleRate : ℚ
  trigRearmS : ℚ
  rate_positive : 0 < sampleRate
  rate_possible : sampleRate ≤ maxSampleRate
  delay_nonneg : 0 ≤ postTriggerDelayS
  rearm_nonneg : 0 ≤ trigRearmS
  delay_fits : postTriggerDelayS * sampleRate < 2 ^ 64
  rearm_fits : trigRearmS * sampleRate < 2 ^ 64

namespace RecordRequest

variable (r : RecordRequest)

def actualTriggerWidthSamples : Nat :=
  ⌊(r.pusherPulsePulseWidthSamples.toNat : ℚ) * (r.sampleRate / maxSampleRate)⌋₊

def trigRearmSamples : Nat := ⌊r.trigRearmS * r.sampleRate⌋₊

def delaySamples : Nat := ⌊r.postTriggerDelayS * r.sampleRate⌋₊

def measurement : PusherMeasurement where
  samplesPerTrigger := r.pusherPulsePulseWidthSamples
  refused := none
  actualTriggerWidthSamples := .ofNat r.actualTriggerWidthSamples
  trigRearmSamples := .ofNat r.trigRearmSamples
  delaySamples := .ofNat r.delaySamples

/-- The three sizes fill the period but for fewer than 32 samples. -/
structure Fills (width : Nat) (delay record rearm : UInt64) : Prop where
  positive : 0 < record.toNat
  whole : 32 ∣ record.toNat
  within : delay.toNat + record.toNat + rearm.toNat ≤ width
  most : width < delay.toNat + record.toNat + rearm.toNat + 32

/-- The function throws, or what it returns fills the period. -/
def RecordUsable : Prop :=
  ∀ delay record rearm, r.measurement.getOptimalRecordSize = .ok (delay, record, rearm) →
    Fills r.actualTriggerWidthSamples delay record rearm

theorem actualTriggerWidthSamples_le :
    r.actualTriggerWidthSamples ≤ r.pusherPulsePulseWidthSamples.toNat := by
  have highest : (0 : ℚ) < maxSampleRate := by norm_num [maxSampleRate]
  have scale : r.sampleRate / maxSampleRate ≤ 1 := (div_le_one highest).mpr r.rate_possible
  have scaled : (r.pusherPulsePulseWidthSamples.toNat : ℚ) * (r.sampleRate / maxSampleRate) ≤
      (r.pusherPulsePulseWidthSamples.toNat : ℚ) := mul_le_of_le_one_right (Nat.cast_nonneg _) scale
  calc r.actualTriggerWidthSamples
      ≤ ⌊(r.pusherPulsePulseWidthSamples.toNat : ℚ)⌋₊ := Nat.floor_le_floor scaled
    _ = r.pusherPulsePulseWidthSamples.toNat := Nat.floor_natCast _

theorem measurement_width :
    r.measurement.actualTriggerWidthSamples.toNat = r.actualTriggerWidthSamples := by
  have scaled := r.actualTriggerWidthSamples_le
  have period := r.pusherPulsePulseWidthSamples.toNat_lt
  exact UInt64.toNat_ofNat_of_lt' (Nat.lt_of_le_of_lt scaled period)

theorem measurement_delay : r.measurement.delaySamples.toNat = r.delaySamples := by
  have nonneg : 0 ≤ r.postTriggerDelayS * r.sampleRate :=
    mul_nonneg r.delay_nonneg r.rate_positive.le
  have fits : r.delaySamples < 2 ^ 64 := (Nat.floor_lt nonneg).mpr (by exact_mod_cast r.delay_fits)
  exact UInt64.toNat_ofNat_of_lt' fits

theorem measurement_rearm : r.measurement.trigRearmSamples.toNat = r.trigRearmSamples := by
  have nonneg : 0 ≤ r.trigRearmS * r.sampleRate := mul_nonneg r.rearm_nonneg r.rate_positive.le
  have fits : r.trigRearmSamples < 2 ^ 64 :=
    (Nat.floor_lt nonneg).mpr (by exact_mod_cast r.rearm_fits)
  exact UInt64.toNat_ofNat_of_lt' fits

theorem returns_iff :
    r.measurement.delaySamples + r.measurement.trigRearmSamples <
        r.measurement.actualTriggerWidthSamples ↔
      (r.delaySamples + r.trigRearmSamples) % 2 ^ 64 < r.actualTriggerWidthSamples := by
  rw [UInt64.lt_iff_toNat_lt, UInt64.toNat_add, measurement_width, measurement_delay,
    measurement_rearm]

/-- For any period and rate, and any delay and rearm time: the record is usable exactly
where the guard throws, or at least 32 samples are left behind the delay and the rearm time. -/
theorem record_usable_iff :
    r.RecordUsable ↔
      r.actualTriggerWidthSamples ≤ (r.delaySamples + r.trigRearmSamples) % 2 ^ 64 ∨
        r.delaySamples + r.trigRearmSamples + 32 ≤ r.actualTriggerWidthSamples := by
  have width := r.measurement_width
  have delay := r.measurement_delay
  have rearm := r.measurement_rearm
  have narrow := r.measurement.actualTriggerWidthSamples.toNat_lt
  constructor
  · intro usable
    by_cases short : r.actualTriggerWidthSamples ≤ (r.delaySamples + r.trigRearmSamples) % 2 ^ 64
    · exact Or.inl short
    · -- A positive multiple of 32 that fits is what leaves the 32 samples.
      have above := r.returns_iff.mpr (Nat.lt_of_not_le short)
      obtain ⟨positive, whole, within, _⟩ := usable _ _ _
        (PusherMeasurement.optimalRecordSize_ok_iff.mpr
          ⟨above, rfl, rfl, PusherMeasurement.record_rounded _⟩)
      rw [delay, rearm] at within
      omega
  · intro condition delayReturned record rearmReturned returned
    obtain ⟨above, rfl, rfl, rounded⟩ := PusherMeasurement.optimalRecordSize_ok_iff.mp returned
    have room : r.delaySamples + r.trigRearmSamples + 32 ≤ r.actualTriggerWidthSamples :=
      condition.resolve_left (Nat.not_le_of_lt (r.returns_iff.mp above))
    have first := uint64_sub_exact r.measurement.actualTriggerWidthSamples
      r.measurement.delaySamples (by omega)
    have second := uint64_sub_exact
      (r.measurement.actualTriggerWidthSamples - r.measurement.delaySamples)
      r.measurement.trigRearmSamples (by omega)
    rw [second, first, width, delay, rearm] at rounded
    constructor <;> omega

end RecordRequest

/-- A pusher of 12.05 us at the full rate, with the delay and the rearm time of the
console's defaults: four samples are left, and the record has none. -/
theorem record_usable_empty : ¬ ∀ r : RecordRequest, r.RecordUsable := by
  intro always
  have usable := always ⟨24100, 1 / 100000, 2000000000, 256 / 125000000, by norm_num,
    by norm_num [maxSampleRate], by norm_num, by norm_num, by norm_num, by norm_num⟩
  have empty := (usable 20000 0 4096 (by decide +kernel)).positive
  exact absurd empty (by decide)

end AqMD3.Acquisition
