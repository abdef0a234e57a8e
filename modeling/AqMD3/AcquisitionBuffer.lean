import AqMD3.FixedWidth
import AqMD3.Overwrite

/-!
libaqmd3's `AcquisitionBuffer`: a vector of 32-bit elements with three `int`
positions into it. A pointer into the vector is the index it points at; the
driver writes through such a pointer, and the walk and the encoder read through
one. The constructors size the vector once, so its capacity is its size.
-/

namespace AqMD3.Acquisition

open FixedWidth Overwrite

structure AcquisitionBuffer where
  data : List Int32
  acquiredIndex : Int32
  processedIndex : Int32
  offset : Int32
  maxTriggersPerRead : UInt64
  samplesPerTrigger : UInt64
  deriving DecidableEq

namespace AcquisitionBuffer

def ofTriggers (maxTriggersPerRead samplesPerTrigger : UInt64) : AcquisitionBuffer :=
  { data := List.replicate (maxTriggersPerRead * samplesPerTrigger).toNat 0
    acquiredIndex := 0
    processedIndex := 0
    offset := 0
    maxTriggersPerRead := maxTriggersPerRead
    samplesPerTrigger := samplesPerTrigger }

def ofSize (size : Nat) : AcquisitionBuffer :=
  { data := List.replicate size 0
    acquiredIndex := 0
    processedIndex := 0
    offset := 0
    maxTriggersPerRead := 0
    samplesPerTrigger := 0 }

def getSize (b : AcquisitionBuffer) : Nat := b.data.length

-- `data.size() - acquired_index - offset` is a size_t, narrowed to the int returned.
def getAvailable (b : AcquisitionBuffer) : Int32 :=
  Int32.ofInt (b.data.length - b.acquiredIndex.toInt - b.offset.toInt)

def getUnprocessed (b : AcquisitionBuffer) : Int32 := b.acquiredIndex - b.processedIndex

def getProcessed (b : AcquisitionBuffer) : Int32 := b.processedIndex

def getAcquired (b : AcquisitionBuffer) : Int32 := b.acquiredIndex

def getRawUnprocessed (b : AcquisitionBuffer) : Int := (b.processedIndex + b.offset).toInt

def getRawUnaquired (b : AcquisitionBuffer) : Int := (b.acquiredIndex + b.offset).toInt

def advanceProcessed (b : AcquisitionBuffer) (num : Int32) : AcquisitionBuffer :=
  { b with processedIndex := b.processedIndex + num }

def advanceAcquired (b : AcquisitionBuffer) (num : Int32) : AcquisitionBuffer :=
  { b with acquiredIndex := b.acquiredIndex + num }

def advanceOffset (b : AcquisitionBuffer) (num : Int32) : AcquisitionBuffer :=
  { b with offset := b.offset + num }

def reset (b : AcquisitionBuffer) : AcquisitionBuffer :=
  { b with processedIndex := 0, acquiredIndex := 0, offset := 0 }

/-- A read through a pointer. The element outside the vector, which the source
would read as whatever memory holds there, is 0. -/
def read (b : AcquisitionBuffer) (index : Int) : Int32 := b.data.getD index.toNat 0

/-- The driver's store of a block of elements through a pointer. -/
def store (b : AcquisitionBuffer) (index : Int) (elements : List Int32) : AcquisitionBuffer :=
  { b with data := overwrite b.data index.toNat elements }

/-- The positions a buffer that is in use keeps: the unprocessed elements are a
range of the vector, and every position is an `int` that did not wrap. -/
structure Sound (b : AcquisitionBuffer) : Prop where
  processed : 0 ≤ b.processedIndex.toInt
  acquired : b.processedIndex.toInt ≤ b.acquiredIndex.toInt
  shift : 0 ≤ b.offset.toInt
  inside : b.acquiredIndex.toInt + b.offset.toInt ≤ b.data.length
  width : b.acquiredIndex.toInt + b.offset.toInt < 2 ^ 31

/-- The elements between `get_raw_unprocessed()` and `get_raw_unaquired()`. -/
def pending (b : AcquisitionBuffer) : List Int32 :=
  window b.data b.getRawUnprocessed.toNat b.getUnprocessed.toInt.toNat

def Empty (b : AcquisitionBuffer) : Prop :=
  b.acquiredIndex = 0 ∧ b.processedIndex = 0 ∧ b.offset = 0

theorem reset_empty (b : AcquisitionBuffer) : Empty b.reset := ⟨rfl, rfl, rfl⟩

theorem empty_sound {b : AcquisitionBuffer} (empty : Empty b) : Sound b := by
  obtain ⟨acquired, processed, shift⟩ := empty
  constructor <;> simp [acquired, processed, shift]

theorem empty_pending {b : AcquisitionBuffer} (empty : Empty b) : pending b = [] := by
  obtain ⟨acquired, processed, _⟩ := empty
  simp [pending, getUnprocessed, acquired, processed, window]

section Sound
variable {b : AcquisitionBuffer} (sound : Sound b)
include sound

theorem raw_unprocessed_exact :
    b.getRawUnprocessed = b.processedIndex.toInt + b.offset.toInt := by
  have := sound.processed
  have := sound.acquired
  have := sound.shift
  have := sound.width
  exact int32_add_exact _ _ (by omega) (by omega)

theorem unprocessed_exact :
    b.getUnprocessed.toInt = b.acquiredIndex.toInt - b.processedIndex.toInt := by
  have := sound.processed
  have := sound.acquired
  have := sound.shift
  have := sound.width
  exact int32_sub_exact _ _ (by omega) (by omega)

theorem pending_length :
    ((pending b).length : Int) = b.acquiredIndex.toInt - b.processedIndex.toInt := by
  have processed := sound.processed
  have acquired := sound.acquired
  have shift := sound.shift
  have inside := sound.inside
  rw [pending, raw_unprocessed_exact sound, unprocessed_exact sound,
    window_length _ _ _ (by omega)]
  omega

theorem unprocessed_pending : b.getUnprocessed.toInt = (pending b).length := by
  rw [pending_length sound, unprocessed_exact sound]

/-- An element of `pending` is what a read through `get_raw_unprocessed()` sees. -/
theorem read_pending (index : Nat) (inside : index < (pending b).length) :
    b.read (b.getRawUnprocessed + index) = (pending b)[index] := by
  have length := pending_length sound
  have processed := sound.processed
  have shift := sound.shift
  have position : (b.getRawUnprocessed + index).toNat = b.getRawUnprocessed.toNat + index := by
    rw [raw_unprocessed_exact sound]
    omega
  have present : (pending b)[index]? = b.data[b.getRawUnprocessed.toNat + index]? := by
    apply window_getElem?
    rw [unprocessed_exact sound]
    omega
  rw [read, position, List.getD_eq_getElem?_getD, ← present, List.getElem?_eq_getElem inside]
  rfl

/-- Consuming part of the unprocessed range drops it from `pending`. -/
theorem advance_processed_pending (count : Nat) (inside : count ≤ (pending b).length) :
    Sound (b.advanceProcessed (Int32.ofNat count)) ∧
      pending (b.advanceProcessed (Int32.ofNat count)) = (pending b).drop count := by
  have length := pending_length sound
  have processed := sound.processed
  have acquired := sound.acquired
  have shift := sound.shift
  have width := sound.width
  have amount : (Int32.ofNat count).toInt = count := int32_ofNat_exact count (by omega)
  have moved : (b.processedIndex + Int32.ofNat count).toInt = b.processedIndex.toInt + count := by
    rw [int32_add_exact _ _ (by omega) (by omega), amount]
  have next : Sound (b.advanceProcessed (Int32.ofNat count)) := by
    refine ⟨?_, ?_, shift, sound.inside, width⟩ <;> simp only [advanceProcessed, moved] <;> omega
  refine ⟨next, ?_⟩
  rw [pending, pending, window_drop, raw_unprocessed_exact next, unprocessed_exact next,
    raw_unprocessed_exact sound, unprocessed_exact sound]
  simp only [advanceProcessed, moved]
  congr 1 <;> omega

end Sound

/-- The positions of an empty buffer after a store and the two advances behind it. -/
theorem empty_filled_positions {b : AcquisitionBuffer} (empty : Empty b) (first : Nat)
    (elements : List Int32) (fits : first + elements.length ≤ b.data.length)
    (size : b.data.length < 2 ^ 31) :
    let filled := ((b.store (b.getRawUnaquired + first) elements).advanceOffset
      (Int32.ofNat first)).advanceAcquired (Int32.ofNat elements.length)
    filled.processedIndex.toInt = 0 ∧ filled.acquiredIndex.toInt = elements.length ∧
      filled.offset.toInt = first ∧ filled.data = overwrite b.data first elements := by
  obtain ⟨acquired, processed, shift⟩ := empty
  have place : (b.getRawUnaquired + first).toNat = first := by
    simp [getRawUnaquired, acquired, shift]
  have moved : (Int32.ofNat first).toInt = first := int32_ofNat_exact _ (by omega)
  have grown : (Int32.ofNat elements.length).toInt = elements.length :=
    int32_ofNat_exact _ (by omega)
  intro filled
  refine ⟨?_, ?_, ?_, ?_⟩
  · change b.processedIndex.toInt = _
    rw [processed, Int32.toInt_zero]
  · change (b.acquiredIndex + Int32.ofNat elements.length).toInt = _
    rw [acquired, Int32.zero_add, grown]
  · change (b.offset + Int32.ofNat first).toInt = _
    rw [shift, Int32.zero_add, moved]
  · rw [← place]
    rfl

/-- A block stored `first` elements into an empty buffer, and both advances by what
the driver reported, leave exactly the block unprocessed. -/
theorem empty_filled {b : AcquisitionBuffer} (empty : Empty b) (first : Nat)
    (elements : List Int32) (fits : first + elements.length ≤ b.data.length)
    (size : b.data.length < 2 ^ 31) :
    let filled := ((b.store (b.getRawUnaquired + first) elements).advanceOffset
      (Int32.ofNat first)).advanceAcquired (Int32.ofNat elements.length)
    Sound filled ∧ pending filled = elements ∧ filled.data.length = b.data.length := by
  intro filled
  obtain ⟨processedIndex, acquiredIndex, offset, data⟩ :
      filled.processedIndex.toInt = 0 ∧ filled.acquiredIndex.toInt = elements.length ∧
        filled.offset.toInt = first ∧ filled.data = overwrite b.data first elements :=
    empty_filled_positions empty first elements fits size
  have length : filled.data.length = b.data.length :=
    (congrArg List.length data).trans (overwrite_length _ _ _)
  have sound : Sound filled := by
    constructor <;> omega
  refine ⟨sound, ?_, length⟩
  rw [pending, raw_unprocessed_exact sound, unprocessed_exact sound, acquiredIndex,
    processedIndex, offset, data]
  simpa using window_overwrite b.data first elements fits

end AcquisitionBuffer
end AqMD3.Acquisition
