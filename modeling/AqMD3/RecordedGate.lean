import AqMD3.UimfAcquisitionRecord

/-!
A gate as the digitizer records it when nothing is damaged: its marker, its
elements, and what holds of both. The source's widths are then exact for it, and
its elements hold every one of its samples.
-/

namespace AqMD3.Acquisition

open FixedWidth CountedLoop AcquisitionBuffer

/-- The signed 16-bit sample in the low half of an element, and in the high half. -/
def lowSample (element : Int32) : Int := element.toInt.bmod (2 ^ 16)

def highSample (element : Int32) : Int := element.toInt / 2 ^ 16

theorem high_shift (element : Int32) : (element >>> 16).toInt = highSample element := by
  change (element.toBitVec.sshiftRight 16).toInt = _
  rw [BitVec.toInt_sshiftRight, Int.shiftRight_eq_div_pow]
  rfl

theorem low_shift (element : Int32) : ((element <<< 16) >>> 16).toInt = lowSample element := by
  have up : (element <<< 16).toInt = (element.toInt * 2 ^ 16).bmod (2 ^ 32) := by
    change (element.toBitVec <<< 16).toInt = (element.toBitVec.toInt * 2 ^ 16).bmod (2 ^ 32)
    rw [BitVec.toInt_shiftLeft, Nat.shiftLeft_eq, BitVec.toInt_eq_toNat_cond, Int.bmod_def,
      Int.bmod_def]
    split <;> omega
  have bounds := int32_bounds element
  rw [high_shift, highSample, up, lowSample, Int.bmod_def, Int.bmod_def]
  omega

theorem lowSample_bounds (element : Int32) :
    -2 ^ 15 ≤ lowSample element ∧ lowSample element < 2 ^ 15 := by
  rw [lowSample, Int.bmod_def]
  omega

theorem highSample_bounds (element : Int32) :
    -2 ^ 15 ≤ highSample element ∧ highSample element < 2 ^ 15 := by
  have bounds := int32_bounds element
  rw [highSample]
  omega

/-- The sample at a position counted in samples from the first element. -/
def sampleOf (elements : List Int32) (position : Nat) : Int :=
  let element := elements.getD (position / 2) 0
  if position % 2 = 0 then lowSample element else highSample element

theorem sampleOf_bounds (elements : List Int32) (position : Nat) :
    -2 ^ 15 ≤ sampleOf elements position ∧ sampleOf elements position < 2 ^ 15 := by
  unfold sampleOf
  split
  · exact lowSample_bounds _
  · exact highSample_bounds _

/-- Shifted into the unsigned range, no sample wraps. -/
theorem sampleAt_exact (buffer : AcquisitionBuffer) (ptr : Int) (i : Int32) (position : Nat)
    (elements : List Int32) (counter : i.toInt = position)
    (element : buffer.read (ptr + (position / 2 : Nat)) = elements.getD (position / 2) 0) :
    (sampleAt buffer ptr i).toInt = sampleOf elements position + 32768 := by
  have limit := i.toInt_lt
  have half : (i / 2).toInt = (position / 2 : Nat) := by
    rw [Int32.toInt_div, counter, Int.bmod_def, show (2 : Int32).toInt = 2 from rfl,
      Int.tdiv_eq_ediv_of_nonneg (by omega)]
    omega
  have parity : i % 2 = 0 ↔ position % 2 = 0 := by
    rw [← Int32.toInt_inj, Int32.toInt_mod, counter, show (2 : Int32).toInt = 2 from rfl,
      show (0 : Int32).toInt = 0 from rfl, Int.tmod_eq_emod_of_nonneg (by omega)]
    omega
  have shift : AcquiredData.rangeShiftConstant.toInt = 32768 := rfl
  unfold sampleAt sampleOf
  rw [half, element]
  by_cases even : position % 2 = 0
  · have bounds := lowSample_bounds (elements.getD (position / 2) 0)
    simp only [parity.mpr even, even, ↓reduceIte]
    rw [int32_add_exact _ _ (by rw [low_shift, shift]; omega) (by rw [low_shift, shift]; omega),
      low_shift, shift]
  · have bounds := highSample_bounds (elements.getD (position / 2) 0)
    have odd : ¬ i % 2 = 0 := fun zero => even (parity.mp zero)
    simp only [odd, even, ↓reduceIte]
    rw [int32_add_exact _ _ (by rw [high_shift, shift]; omega) (by rw [high_shift, shift]; omega),
      high_shift, shift]

/-- The absolute sample indexes of a gate, counted without any width. -/
def GateMarker.firstSample (m : GateMarker) : Nat :=
  (m.startBlockIndex.toNat - 1) * 8 + m.startBlockSampleIndx.toNat

def GateMarker.pastSample (m : GateMarker) : Nat :=
  (m.unwrappedEnd.toNat - 1) * 8 + m.endBlockSampleIndx.toNat - 8

/-- A gate with its elements, and what holds of a gate that was not damaged. -/
structure RecordedGate where
  marker : GateMarker
  elements : List Int32
  startBlock : 1 ≤ marker.startBlockIndex.toNat
  startPos : marker.startBlockSampleIndx.toNat ≤ 7
  stopPos : marker.endBlockSampleIndx.toNat ≤ 8
  nonempty : marker.firstSample < marker.pastSample
  counted : elements.length = marker.gateData.elementCount.toNat

namespace RecordedGate

def gate (g : RecordedGate) : GateData := g.marker.gateData

def first (g : RecordedGate) : Nat := g.marker.firstSample

def past (g : RecordedGate) : Nat := g.marker.pastSample

/-- The sample at an absolute index: a gate's elements start at its start block. -/
def sample (g : RecordedGate) (index : Nat) : Int :=
  sampleOf g.elements (index - (g.marker.startBlockIndex.toNat - 1) * 8)

section Fits
variable (g : RecordedGate) (fits : g.past ≤ 2 ^ 31)
include fits

/-- A gate whose counter wrapped would end past every bin there is. -/
theorem ordered : g.marker.unwrappedEnd = g.marker.endBlockIndex ∧
    g.marker.startBlockIndex.toNat < g.marker.endBlockIndex.toNat := by
  have order := g.nonempty
  have low := g.startBlock
  have position := g.stopPos
  have width := g.marker.endBlockIndex.toNat_lt
  have wrap : (4294967295 : UInt64).toNat = 4294967295 := rfl
  simp only [past, GateMarker.firstSample, GateMarker.pastSample] at order fits
  by_cases reversed : g.marker.endBlockIndex < g.marker.startBlockIndex
  · have behind := UInt64.lt_iff_toNat_lt.mp reversed
    have unwrapped : g.marker.unwrappedEnd.toNat =
        (g.marker.endBlockIndex.toNat + 4294967295) % 2 ^ 64 := by
      rw [GateMarker.unwrappedEnd, if_pos reversed, UInt64.toNat_add, wrap]
    rw [unwrapped] at order fits
    omega
  · have same : g.marker.unwrappedEnd = g.marker.endBlockIndex := by
      rw [GateMarker.unwrappedEnd, if_neg reversed]
    rw [same] at order
    exact ⟨same, by omega⟩

theorem start_exact : g.gate.getStartSampleIndex.toNat = g.first := by
  have order := g.nonempty
  have low := g.startBlock
  have position := g.startPos
  have one : (1 : UInt64).toNat = 1 := rfl
  have eight : (8 : UInt64).toNat = 8 := rfl
  simp only [past, GateMarker.firstSample] at order fits
  have blocks : (g.marker.startBlockIndex - 1).toNat = g.marker.startBlockIndex.toNat - 1 :=
    uint64_sub_exact _ _ (by omega)
  change ((g.marker.startBlockIndex - 1) * 8 + g.marker.startBlockSampleIndx.toUInt64).toNat = _
  rw [UInt64.toNat_add, UInt64.toNat_mul, blocks, UInt32.toNat_toUInt64, eight, first,
    GateMarker.firstSample]
  omega

theorem stop_exact : g.gate.getStopSampleIndex.toNat = g.past := by
  have order := g.nonempty
  have low := g.startBlock
  have position := g.stopPos
  have one : (1 : UInt64).toNat = 1 := rfl
  have eight : (8 : UInt64).toNat = 8 := rfl
  have eight32 : (8 : UInt32).toNat = 8 := rfl
  have same := (ordered g fits).1
  simp only [past, GateMarker.pastSample] at order fits
  have blocks : (g.marker.unwrappedEnd - 1).toNat = g.marker.unwrappedEnd.toNat - 1 :=
    uint64_sub_exact _ _ (by omega)
  have rest : (8 - g.marker.endBlockSampleIndx).toUInt64.toNat =
      8 - g.marker.endBlockSampleIndx.toNat := by
    rw [UInt32.toNat_toUInt64, UInt32.toNat_sub, eight32]
    omega
  have whole : ((g.marker.unwrappedEnd - 1) * 8).toNat = (g.marker.unwrappedEnd.toNat - 1) * 8 := by
    rw [UInt64.toNat_mul, blocks, eight]
    omega
  change ((g.marker.unwrappedEnd - 1) * 8 - (8 - g.marker.endBlockSampleIndx).toUInt64).toNat = _
  rw [uint64_sub_exact _ _ (by omega), whole, rest, past, GateMarker.pastSample]
  omega

theorem unskipped : g.gate.skipped = false := by
  have order := g.nonempty
  have start := start_exact g fits
  have stop := stop_exact g fits
  rw [GateData.skipped, decide_eq_false_iff_not, UInt64.le_iff_toNat_le, start, stop]
  exact Nat.not_le.mpr order

theorem samples_exact : g.gate.samples.toInt = (g.past - g.first : Nat) := by
  have order : g.first < g.past := g.nonempty
  rw [GateData.samples, ← UInt64.toInt64_sub,
    uint64_signed_sub _ _ (by rw [stop_exact g fits]; omega) (by rw [start_exact g fits]; omega),
    start_exact g fits, stop_exact g fits]
  omega

theorem bound_exact : g.gate.readBound.toInt =
    (g.marker.startBlockSampleIndx.toNat + (g.past - g.first) : Nat) := by
  have position : g.gate.gateStartSamplePos.toUInt64.toInt64.toInt =
      g.marker.startBlockSampleIndx.toNat := by
    have width := g.marker.startBlockSampleIndx.toNat_lt
    exact uint64_signed_exact _ (by
      change g.marker.startBlockSampleIndx.toUInt64.toNat < 2 ^ 63
      rw [UInt32.toNat_toUInt64]
      omega)
  have small := g.startPos
  rw [GateData.readBound, Int64.toInt_add, position, samples_exact g fits, Int.bmod_def]
  omega

/-- The elements fetched for a gate hold every sample of it. -/
theorem elements_suffice :
    g.marker.startBlockSampleIndx.toNat + (g.past - g.first) ≤ 2 * g.elements.length := by
  obtain ⟨same, forward⟩ := ordered g fits
  have order := g.nonempty
  have low := g.startBlock
  have position := g.stopPos
  have rounded := g.marker.toAcquireMemoryBlocks_rounded
  have counted : g.elements.length = g.marker.toAcquireMemoryBlocks.toNat % 2 ^ 32 :=
    g.counted.trans (UInt64.toNat_toUInt32 _)
  simp only [past, first, GateMarker.firstSample, GateMarker.pastSample, same] at order fits ⊢
  omega

end Fits
end RecordedGate

end AqMD3.Acquisition
