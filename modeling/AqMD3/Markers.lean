import Mathlib.Data.UInt
import AqMD3.Segments
import AqMD3.Digitizer

/-!
The markers stream as the SA220P writes it: hunks of sixteen 32-bit words. A
trigger hunk carries a timestamp and an index, a gate hunk up to four blocks of
four words. `CstZs1Context::acquire` decodes both in place; the decoding is
stated here once and the walk applies it. `referenceParse` is the meaning of a
whole stream and knows nothing of fetches or calls.
-/

namespace AqMD3.Acquisition

open Segments

abbrev Hunk := Vector Int32 16

/-- The low byte of the first word. -/
def Hunk.kind (h : Hunk) : UInt32 := h[0].toUInt32 &&& 0x000000FF

def Hunk.isTrigger (h : Hunk) : Bool := h.kind == 0x01

def Hunk.isGate (h : Hunk) : Bool := h.kind == 0x04 || h.kind == 0x0a

structure GateData where
  gateStartBlockIndex : UInt64
  gateStartSamplePos : UInt32
  gateStopBlockIndex : UInt64
  gateStopSamplePos : UInt32
  elementCount : UInt32
  deriving DecidableEq

def GateData.getStartSampleIndex (g : GateData) : UInt64 :=
  (g.gateStartBlockIndex - 1) * 8 + g.gateStartSamplePos.toUInt64

-- `processing_block_size - gate_stop_sample_pos` is an int less a uint32_t, so it is 32 bits wide.
def GateData.getStopSampleIndex (g : GateData) : UInt64 :=
  (g.gateStopBlockIndex - 1) * 8 - (8 - g.gateStopSamplePos).toUInt64

-- The quotient of two ints, held in a double: `subsample_pos` is a whole number.
structure TriggerData where
  timestamp : UInt64
  index : UInt32
  subsamplePos : Int
  gateData : List GateData
  deriving DecidableEq

-- Each word is an int32_t, so its conversion to uint64_t extends the sign.
def Hunk.timestamp (h : Hunk) : UInt64 :=
  let low := h[1].toInt64.toUInt64
  let high := h[2].toInt64.toUInt64
  let timestampLow := (low >>> 8) &&& 0x0000000000ffffff
  let timestampHigh := high <<< 24
  timestampHigh ||| timestampLow

def Hunk.index (h : Hunk) : UInt32 := h[0].toUInt32 >>> 8

def Hunk.subsamplePos (h : Hunk) : Int :=
  let fraction : Int32 := h[1] &&& 0x000000ff
  ((-1 * fraction) / 256).toInt

def Hunk.trigger (h : Hunk) : TriggerData :=
  { timestamp := h.timestamp
    index := h.index
    subsamplePos := h.subsamplePos
    gateData := [] }

-- `CstContext` reads both words as unsigned.
def Hunk.cstTimestamp (h : Hunk) : UInt64 :=
  let low := h[1].toUInt32.toUInt64
  let high := h[2].toUInt32.toUInt64
  let timestampLow := (low >>> 8) &&& 0x0000000000ffffff
  let timestampHigh := high <<< 24
  timestampHigh ||| timestampLow

def Hunk.cstTrigger (h : Hunk) : TriggerData :=
  { timestamp := h.cstTimestamp
    index := h.index
    subsamplePos := h.subsamplePos
    gateData := [] }

/-- The fields of a trigger hunk. -/
def Hunk.indexField (h : Hunk) : Nat := h[0].toUInt32.toNat / 2 ^ 8

def Hunk.timestampField (h : Hunk) : Nat :=
  h[2].toUInt32.toNat * 2 ^ 24 + h[1].toUInt32.toNat / 2 ^ 8

def Hunk.subsampleField (h : Hunk) : Nat := h[1].toUInt32.toNat % 2 ^ 8

/-- The top bit of the third word is clear. -/
def Hunk.WellSigned (h : Hunk) : Prop := h[2].toUInt32.toNat < 2 ^ 31
  deriving Decidable

/-- One gate block as read: block counters of 32 bits, positions of 8 bits. -/
structure GateMarker where
  startBlockIndex : UInt64
  startBlockSampleIndx : UInt32
  endBlockIndex : UInt64
  endBlockSampleIndx : UInt32
  deriving DecidableEq

def blockIndex (lo hi : UInt32) : UInt64 :=
  ((hi &&& 0xffffff).toUInt64 <<< 8) ||| ((lo >>> 24) &&& 0xff).toUInt64

def blockSampleIndx (hi : UInt32) : UInt32 := (hi >>> 24) &&& 0xff

def Hunk.blockKind (h : Hunk) (block : Fin 4) : Int32 := h[4 * block.val] &&& 0x000000FF

def Hunk.gateMarker (h : Hunk) (block : Fin 4) : GateMarker :=
  let sLo := h[4 * block.val].toUInt32
  let sHi := h[4 * block.val + 1].toUInt32
  let eLo := h[4 * block.val + 2].toUInt32
  let eHi := h[4 * block.val + 3].toUInt32
  { startBlockIndex := blockIndex sLo sHi
    startBlockSampleIndx := blockSampleIndx sHi
    endBlockIndex := blockIndex eLo eHi
    endBlockSampleIndx := blockSampleIndx eHi }

-- The size is taken from the end block before the wrap of its counter is undone.
def GateMarker.toAcquireMemoryBlocks (m : GateMarker) : UInt64 :=
  let blocks := (m.endBlockIndex - m.startBlockIndex) * 4
  if blocks % 16 ≠ 0 then (blocks / 16 + 1) * 16 else blocks

/-- Four elements a block, rounded up to whole batches of sixteen, all in 64 bits. -/
theorem GateMarker.toAcquireMemoryBlocks_rounded (m : GateMarker) :
    m.toAcquireMemoryBlocks.toNat =
      ((2 ^ 64 - m.startBlockIndex.toNat + m.endBlockIndex.toNat) % 2 ^ 64 * 4 % 2 ^ 64 + 15) /
        16 * 16 % 2 ^ 64 := by
  have four : (4 : UInt64).toNat = 4 := rfl
  have sixteen : (16 : UInt64).toNat = 16 := rfl
  have blocks : ((m.endBlockIndex - m.startBlockIndex) * 4).toNat =
      (2 ^ 64 - m.startBlockIndex.toNat + m.endBlockIndex.toNat) % 2 ^ 64 * 4 % 2 ^ 64 := by
    rw [UInt64.toNat_mul, UInt64.toNat_sub, four]
  have width := ((m.endBlockIndex - m.startBlockIndex) * 4).toNat_lt
  simp only [GateMarker.toAcquireMemoryBlocks]
  rw [← blocks]
  generalize (m.endBlockIndex - m.startBlockIndex) * 4 = elements at width ⊢
  by_cases ragged : elements % 16 ≠ 0
  · have rest : elements.toNat % 16 ≠ 0 := fun none =>
      ragged (UInt64.toNat_inj.mp (by rw [UInt64.toNat_mod, sixteen, none]; rfl))
    rw [if_pos ragged, UInt64.toNat_mul, UInt64.toNat_add, UInt64.toNat_div, sixteen,
      UInt64.toNat_one]
    omega
  · have whole := congrArg UInt64.toNat (Classical.not_not.mp ragged)
    rw [UInt64.toNat_mod, sixteen, UInt64.toNat_zero] at whole
    rw [if_neg ragged]
    omega

def GateMarker.unwrappedEnd (m : GateMarker) : UInt64 :=
  if m.endBlockIndex < m.startBlockIndex then m.endBlockIndex + 4294967295 else m.endBlockIndex

def GateMarker.gateData (m : GateMarker) : GateData :=
  { gateStartBlockIndex := m.startBlockIndex
    gateStartSamplePos := m.startBlockSampleIndx
    gateStopBlockIndex := m.unwrappedEnd
    gateStopSamplePos := m.endBlockSampleIndx
    elementCount := m.toAcquireMemoryBlocks.toUInt32 }

/-- The blocks of a gate hunk that describe a gate, in order. A block of kind
0x0a places the record and holds no gate. -/
def Hunk.gateMarkers (h : Hunk) : List GateMarker :=
  (List.finRange 4).filterMap fun block =>
    if h.blockKind block = 0x04 then some (h.gateMarker block) else none

/-- A stream of hunks cut at its triggers. -/
def Hunk.segments (hunks : List Hunk) : List (Hunk × List GateMarker) :=
  Segments.segments Hunk.isTrigger Hunk.gateMarkers hunks

def stamp (segment : Hunk × List GateMarker) : TriggerData :=
  { segment.1.trigger with gateData := segment.2.map GateMarker.gateData }

def fetchSize (markers : List GateMarker) : UInt64 :=
  (markers.map GateMarker.toAcquireMemoryBlocks).sum

/-- A gate that ends no earlier than it starts, read without any wrap. -/
def GateMarker.plainGate (m : GateMarker) : GateData :=
  { gateStartBlockIndex := m.startBlockIndex
    gateStartSamplePos := m.startBlockSampleIndx
    gateStopBlockIndex := m.endBlockIndex
    gateStopSamplePos := m.endBlockSampleIndx
    elementCount := m.toAcquireMemoryBlocks.toUInt32 }

/-- The triggers of an unsliced stream, each with the gates that follow it. -/
def referenceParse (hunks : List Hunk) : List TriggerData :=
  (Hunk.segments hunks).map fun segment =>
    { segment.1.trigger with gateData := segment.2.map GateMarker.plainGate }

def Ordered (m : GateMarker) : Prop := m.startBlockIndex ≤ m.endBlockIndex

instance (m : GateMarker) : Decidable (Ordered m) :=
  inferInstanceAs (Decidable (m.startBlockIndex ≤ m.endBlockIndex))

theorem ordered_gate (m : GateMarker) (ordered : Ordered m) : m.gateData = m.plainGate := by
  have wrap : ¬ m.endBlockIndex < m.startBlockIndex := UInt64.not_lt.mpr ordered
  simp [GateMarker.gateData, GateMarker.plainGate, GateMarker.unwrappedEnd, wrap]

theorem blockIndex_lt (lo hi : UInt32) : (blockIndex lo hi).toNat < 2 ^ 32 := by
  have high : ((hi &&& 0xffffff).toUInt64 <<< 8).toNat < 2 ^ 32 := by
    have part : (hi &&& 0xffffff).toNat ≤ 0xffffff := Nat.and_le_right
    rw [UInt64.toNat_shiftLeft, UInt32.toNat_toUInt64, Nat.shiftLeft_eq]
    simp only [show UInt64.toNat 8 % 64 = 8 from rfl]
    omega
  have low : ((lo >>> 24) &&& 0xff).toUInt64.toNat < 2 ^ 32 := by
    have part : ((lo >>> 24) &&& 0xff).toNat ≤ 0xff := Nat.and_le_right
    rw [UInt32.toNat_toUInt64]
    omega
  rw [blockIndex, UInt64.toNat_or]
  exact Nat.or_lt_two_pow high low

theorem blockSampleIndx_lt (hi : UInt32) : (blockSampleIndx hi).toNat < 256 := by
  have part : (blockSampleIndx hi).toNat ≤ 0xff := Nat.and_le_right
  omega

/-- The widths of the fields of a gate block. -/
structure GateMarker.Fields (m : GateMarker) : Prop where
  start : m.startBlockIndex.toNat < 2 ^ 32
  stop : m.endBlockIndex.toNat < 2 ^ 32
  startPos : m.startBlockSampleIndx.toNat < 256
  stopPos : m.endBlockSampleIndx.toNat < 256

instance (m : GateMarker) : Decidable m.Fields :=
  decidable_of_iff
    (m.startBlockIndex.toNat < 2 ^ 32 ∧ m.endBlockIndex.toNat < 2 ^ 32 ∧
      m.startBlockSampleIndx.toNat < 256 ∧ m.endBlockSampleIndx.toNat < 256)
    ⟨fun ⟨start, stop, startPos, stopPos⟩ => ⟨start, stop, startPos, stopPos⟩,
      fun fields => ⟨fields.start, fields.stop, fields.startPos, fields.stopPos⟩⟩

theorem gateMarker_fields (h : Hunk) (block : Fin 4) : (h.gateMarker block).Fields :=
  ⟨blockIndex_lt _ _, blockIndex_lt _ _, blockSampleIndx_lt _, blockSampleIndx_lt _⟩

theorem gateMarkers_fields (h : Hunk) : ∀ m ∈ h.gateMarkers, m.Fields := by
  intro m member
  obtain ⟨block, _, found⟩ := List.mem_filterMap.mp member
  split at found
  · cases found
    exact gateMarker_fields h block
  · cases found

end AqMD3.Acquisition
