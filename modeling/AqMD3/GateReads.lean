import AqMD3.CallSequence
import AqMD3.UimfAcquisitionRecord

/-!
Which elements `process` reads, against the elements `acquire` fetched. A gate is
sized from its block counters as they came and read by its counters after the
wrap is undone, so the two agree only for the gates described here. The words of
the gate blocks are arbitrary throughout.
-/

namespace AqMD3.Acquisition

open FixedWidth CountedLoop Segments

/-- The samples loop of a gate is entered. -/
def GateData.Loops (g : GateData) : Prop :=
  g.skipped = false ∧ g.gateStartSamplePos.toInt32.toInt < g.readBound.toInt

def GateData.Ends (g : GateData) : Prop :=
  g.skipped = false → CountedLoop.Ends g.gateStartSamplePos.toInt32 g.readBound.toInt

/-- The positions `ptr[data_index]` takes while a gate is handled. -/
def GateData.ReadsAt (g : GateData) (ptr position : Int) : Prop :=
  g.skipped = false ∧ ∃ i, Visits g.gateStartSamplePos.toInt32 g.readBound.toInt i ∧
    position = ptr + (i / 2).toInt

/-- The running offset behind some gates, and the elements that belong to them. -/
def offsetAfter (gates : List GateData) : Int32 := (gates.map fun g => g.elementCount.toInt32).sum

def elementsOf (gates : List GateData) : Nat := (gates.map fun g => g.elementCount.toNat).sum

/-- The gates of the triggers before the first one whose `reserve` throws. -/
def reachedGates (stamps : List TriggerData) : List GateData :=
  (stamps.takeWhile fun t => ¬ reserved t.gateData < 0).flatMap TriggerData.gateData

/-- Every element read for a gate is one of its own and was fetched. -/
def ReadsInside (data : AcquiredData) (toAcquire : Nat) : Prop :=
  ∀ before g after, reachedGates data.stamps = before ++ g :: after →
    (∀ earlier ∈ before, earlier.Ends) →
    ∀ position, g.ReadsAt (data.samplesBuffer.getRawUnprocessed + (offsetAfter before).toInt) position →
      data.samplesBuffer.getRawUnprocessed + elementsOf before ≤ position ∧
      position < data.samplesBuffer.getRawUnprocessed + elementsOf before + g.elementCount.toNat ∧
      position < data.samplesBuffer.getRawUnprocessed + toAcquire

/-- A gate that loops has a bound an int can pass, lies where the int offset can
point, and ends inside what is fetched. -/
def ReadsFit (gates : List GateData) (toAcquire : Nat) : Prop :=
  ∀ before g after, gates = before ++ g :: after → (∀ earlier ∈ before, earlier.Ends) → g.Loops →
    g.readBound.toInt < 2 ^ 31 ∧ elementsOf before < 2 ^ 31 ∧
      (elementsOf before : Int) + (g.readBound.toInt + 1) / 2 ≤ toAcquire

theorem half_exact (i : Int32) : (i / 2).toInt = i.toInt.tdiv 2 := by
  have bounds := int32_bounds i
  rw [Int32.toInt_div, show (2 : Int32).toInt = 2 from rfl, Int.bmod_def]
  rcases Int.le_total 0 i.toInt with nonneg | negative
  · rw [Int.tdiv_eq_ediv_of_nonneg nonneg]
    omega
  · have mirrored : i.toInt.tdiv 2 = -((-i.toInt) / 2) := by
      rw [← Int.tdiv_eq_ediv_of_nonneg (by omega), Int.neg_tdiv, Int.neg_neg]
    omega

theorem offsetAfter_wraps (gates : List GateData) :
    (offsetAfter gates).toInt = (elementsOf gates : Int).bmod (2 ^ 32) := by
  induction gates with
  | nil => rfl
  | cons g rest ih =>
      rw [offsetAfter, elementsOf, List.map_cons, List.map_cons, List.sum_cons, List.sum_cons,
        ← offsetAfter, ← elementsOf, Int32.toInt_add, ih, uint32_reinterpret, Int.natCast_add,
        Int.bmod_add_bmod, Int.add_bmod_bmod]

/-- The read bound of a gate, whatever its words: the wrap of the counter undone,
less the rest of the last block as a 32-bit count. -/
theorem readBound_exact (m : GateMarker) (fields : m.Fields) :
    m.gateData.readBound.toInt =
      8 * (m.unwrappedEnd.toNat - m.startBlockIndex.toNat : Int) -
        ((8 - m.endBlockSampleIndx).toNat : Int) ∧
      m.startBlockIndex.toNat ≤ m.unwrappedEnd.toNat ∧ m.unwrappedEnd.toNat < 2 ^ 33 := by
  have start := fields.start
  have stop := fields.stop
  have wrap : (4294967295 : UInt64).toNat = 4294967295 := rfl
  have eight : (8 : UInt64).toNat = 8 := rfl
  have range : m.startBlockIndex.toNat ≤ m.unwrappedEnd.toNat ∧ m.unwrappedEnd.toNat < 2 ^ 33 := by
    by_cases reversed : m.endBlockIndex < m.startBlockIndex
    · rw [GateMarker.unwrappedEnd, if_pos reversed, uint64_add_exact _ _ (by omega)]
      omega
    · have order := UInt64.not_lt.mp reversed
      rw [GateMarker.unwrappedEnd, if_neg reversed]
      exact ⟨UInt64.le_iff_toNat_le.mp order, by omega⟩
  refine ⟨?_, range⟩
  have difference : (m.unwrappedEnd - m.startBlockIndex).toNat =
      m.unwrappedEnd.toNat - m.startBlockIndex.toNat := uint64_sub_exact _ _ range.1
  have blocks : ((m.unwrappedEnd - m.startBlockIndex) * 8).toNat =
      (m.unwrappedEnd.toNat - m.startBlockIndex.toNat) * 8 := by
    rw [UInt64.toNat_mul, difference, eight]
    omega
  have rest : (8 - m.endBlockSampleIndx).toUInt64.toNat = (8 - m.endBlockSampleIndx).toNat :=
    UInt32.toNat_toUInt64 _
  have small := (8 - m.endBlockSampleIndx).toNat_lt
  have sum : m.gateData.readBound =
      ((m.unwrappedEnd - m.startBlockIndex) * 8 - (8 - m.endBlockSampleIndx).toUInt64).toInt64 := by
    -- The start position is added to a count it was taken from.
    have ring : m.startBlockSampleIndx.toUInt64 +
        ((m.unwrappedEnd - 1) * 8 - (8 - m.endBlockSampleIndx).toUInt64 -
          ((m.startBlockIndex - 1) * 8 + m.startBlockSampleIndx.toUInt64)) =
        (m.unwrappedEnd - m.startBlockIndex) * 8 - (8 - m.endBlockSampleIndx).toUInt64 := by
      grind
    rw [← ring, UInt64.toInt64_add, UInt64.toInt64_sub]
    rfl
  rw [sum, uint64_signed_sub _ _ (by omega) (by omega), blocks, rest]
  omega

theorem bound_le_elements (m : GateMarker) (fields : m.Fields)
    (positive : 0 < m.gateData.readBound.toInt) (bound : m.gateData.readBound.toInt < 2 ^ 31) :
    m.gateData.readBound.toInt ≤ 2 * m.gateData.elementCount.toNat := by
  obtain ⟨exact, order, _⟩ := readBound_exact m fields
  have start := fields.start
  have stop := fields.stop
  have small := (8 - m.endBlockSampleIndx).toNat_lt
  have wrap : (4294967295 : UInt64).toNat = 4294967295 := rfl
  have counted : m.gateData.elementCount.toNat = m.toAcquireMemoryBlocks.toNat % 2 ^ 32 :=
    UInt64.toNat_toUInt32 _
  have rounded := m.toAcquireMemoryBlocks_rounded
  by_cases reversed : m.endBlockIndex < m.startBlockIndex
  · -- The size comes from before the wrap is undone, so only its low 32 bits are right.
    have behind := UInt64.lt_iff_toNat_lt.mp reversed
    have unwrapped : m.unwrappedEnd.toNat = m.endBlockIndex.toNat + 4294967295 := by
      rw [GateMarker.unwrappedEnd, if_pos reversed, uint64_add_exact _ _ (by omega), wrap]
    rw [unwrapped] at exact
    omega
  · have unwrapped : m.unwrappedEnd = m.endBlockIndex := by
      rw [GateMarker.unwrappedEnd, if_neg reversed]
    rw [unwrapped] at exact order
    omega

theorem readsAt_inside_iff (m : GateMarker) (fields : m.Fields) (raw : Int)
    (before : List GateData) (toAcquire : Nat) :
    (∀ position, m.gateData.ReadsAt (raw + (offsetAfter before).toInt) position →
        raw + elementsOf before ≤ position ∧
        position < raw + elementsOf before + m.gateData.elementCount.toNat ∧
        position < raw + toAcquire) ↔
      (m.gateData.Loops → m.gateData.readBound.toInt < 2 ^ 31 ∧ elementsOf before < 2 ^ 31 ∧
        (elementsOf before : Int) + (m.gateData.readBound.toInt + 1) / 2 ≤ toAcquire) := by
  have offset := offsetAfter_wraps before
  rw [Int.bmod_def] at offset
  have start : m.gateData.gateStartSamplePos.toInt32.toInt = m.startBlockSampleIndx.toNat :=
    uint32_signed_exact m.startBlockSampleIndx (by have := fields.startPos; omega)
  have small := fields.startPos
  constructor
  · intro inside loops
    obtain ⟨unskipped, enters⟩ := loops
    have bound : m.gateData.readBound.toInt < 2 ^ 31 := by
      -- Otherwise the counter wraps, and the smallest int is one of its values.
      by_contra past
      have lowest := visits_endless m.gateData.gateStartSamplePos.toInt32
        m.gateData.readBound.toInt (fun ends => past (ends enters)) Int32.minValue
      have low := (inside _ ⟨unskipped, _, lowest, rfl⟩).1
      rw [show (Int32.minValue / 2).toInt = -2 ^ 30 from by decide] at low
      omega
    have first := inside _ ⟨unskipped, _, Visits.first enters, rfl⟩
    rw [half_exact, start, Int.tdiv_eq_ediv_of_nonneg (by omega)] at first
    have count : m.gateData.gateStartSamplePos.toInt32.toInt +
        (m.gateData.readBound.toInt - 1 -
          m.gateData.gateStartSamplePos.toInt32.toInt).toNat < m.gateData.readBound.toInt := by
      omega
    have last := inside _ ⟨unskipped, _, visits_counter _ _ bound _ count, rfl⟩
    rw [half_exact, counter_exact _ _ bound _ count, Int.tdiv_eq_ediv_of_nonneg (by omega)] at last
    exact ⟨bound, by omega, by omega⟩
  · intro fit position reads
    obtain ⟨unskipped, i, visited, rfl⟩ := reads
    by_cases enters : m.gateData.gateStartSamplePos.toInt32.toInt < m.gateData.readBound.toInt
    · obtain ⟨bound, near, fetched⟩ := fit ⟨unskipped, enters⟩
      obtain ⟨low, high⟩ := (visits_iff _ _ bound i).mp visited
      have elements := bound_le_elements m fields (by omega) bound
      rw [half_exact, Int.tdiv_eq_ediv_of_nonneg (by omega)]
      omega
    · exact absurd visited (visits_none _ _ enters i)

theorem reads_inside_iff (data : AcquiredData) (toAcquire : Nat)
    (marked : ∀ g ∈ reachedGates data.stamps, ∃ m : GateMarker, m.Fields ∧ g = m.gateData) :
    ReadsInside data toAcquire ↔ ReadsFit (reachedGates data.stamps) toAcquire := by
  refine forall_congr' fun before => forall_congr' fun g => forall_congr' fun after =>
    forall_congr' fun cut => forall_congr' fun _ => ?_
  obtain ⟨m, fields, rfl⟩ := marked g (by rw [cut]; simp)
  exact readsAt_inside_iff m fields data.samplesBuffer.getRawUnprocessed before toAcquire

/-- The gates a call returns are blocks of the marker stream, and their sizes are
what it fetched. -/
theorem acquire_gates (c : CstZs1Context) (call : AcquireCall) (markers : List FetchReply)
    (data : AcquiredData) (returned : (c.acquire call markers).ending = .returned data) :
    ∃ blocks : List GateMarker, (∀ m ∈ blocks, m.Fields) ∧
      data.stamps.flatMap TriggerData.gateData = blocks.map GateMarker.gateData ∧
      (c.acquire call markers).toAcquire = fetchSize blocks := by
  cases ending : c.walkMarkers call markers with
  | threw thrown last rest => simp [CstZs1Context.acquire, ending] at returned
  | waiting last => simp [CstZs1Context.acquire, ending] at returned
  | lookAhead last rest =>
      obtain ⟨seen, parsed⟩ := walkMarkers_parsed c call markers last rest ending
      refine ⟨(Hunk.segments seen).flatMap Prod.snd, ?_, ?_, ?_⟩
      · intro m member
        obtain ⟨segment, inside, found⟩ := List.mem_flatMap.mp member
        obtain ⟨h, _, source⟩ := segments_parts _ _ seen segment inside m found
        exact gateMarkers_fields h m source
      · have stamps : data.stamps = last.stamps := by
          simp only [CstZs1Context.acquire, ending, processLabel] at returned
          split at returned
          · cases returned
            rfl
          · cases returned
          · cases returned
        rw [stamps, parsed.stamps, List.flatMap_map, List.map_flatMap]
        rfl
      · simp only [CstZs1Context.acquire, ending, processLabel]
        exact parsed.toAcquire

theorem reached_mem (stamps : List TriggerData) :
    ∀ g ∈ reachedGates stamps, g ∈ stamps.flatMap TriggerData.gateData := by
  intro g member
  obtain ⟨t, taken, inside⟩ := List.mem_flatMap.mp member
  exact List.mem_flatMap.mpr ⟨t, (List.takeWhile_prefix _).subset taken, inside⟩

/-- For whatever words the stream holds: the reads of a returned batch stay inside
exactly when every gate whose samples loop is entered fits. -/
theorem acquired_reads_inside_iff (c : CstZs1Context) (call : AcquireCall)
    (markers : List FetchReply) (data : AcquiredData)
    (returned : (c.acquire call markers).ending = .returned data) :
    ∃ blocks : List GateMarker, (∀ m ∈ blocks, m.Fields) ∧
      data.stamps.flatMap TriggerData.gateData = blocks.map GateMarker.gateData ∧
      (ReadsInside data (c.acquire call markers).toAcquire.toNat ↔
        ReadsFit (reachedGates data.stamps) (fetchSize blocks).toNat) := by
  obtain ⟨blocks, fields, gates, size⟩ := acquire_gates c call markers data returned
  refine ⟨blocks, fields, gates, ?_⟩
  rw [size]
  refine reads_inside_iff data _ fun g member => ?_
  have present := reached_mem data.stamps g member
  rw [gates] at present
  obtain ⟨m, inside, rfl⟩ := List.mem_map.mp present
  exact ⟨m, fields m inside, rfl⟩

/-- A gate hunk whose second block ends before it starts. -/
def damagedHunk : Hunk := ((gateHunk 1 9).set 4 ((2 : Int32) <<< 24 ||| 4)).set 6 ((1 : Int32) <<< 24)

def damagedRun : AcquireResult :=
  (CstZs1Context.create "Channel1" 4).start.acquire
    ⟨1, 0, 0, .ofSize 64, [⟨none, 32, 0, List.replicate 32 7, 0⟩]⟩
    [answered 0 0 [triggerHunk 5], answered 0 0 [damagedHunk], answered 0 0 [triggerHunk 6]]

def plainBlock : GateMarker := ⟨1, 0, 9, 0⟩

def damagedBlock : GateMarker := ⟨2, 0, 1, 0⟩

def damagedData : AcquiredData :=
  ⟨fillSamples (.ofSize 64) ⟨none, 32, 0, List.replicate 32 7, 0⟩,
    [stamp (triggerHunk 5, [plainBlock, damagedBlock])], 0⟩

theorem damagedRun_returns : damagedRun.ending = .returned damagedData := by decide +kernel

theorem acquired_reads_inside_iff_damaged :
    ∃ blocks : List GateMarker, (∀ m ∈ blocks, m.Fields) ∧
      damagedData.stamps.flatMap TriggerData.gateData = blocks.map GateMarker.gateData ∧
      (ReadsInside damagedData damagedRun.toAcquire.toNat ↔
        ReadsFit (reachedGates damagedData.stamps) (fetchSize blocks).toNat) :=
  acquired_reads_inside_iff _ _ _ damagedData damagedRun_returns

/-- The damaged gate is sized at no element, and the first sample read for it lies
behind the last element fetched. -/
theorem acquired_reads_outside :
    ¬ ∀ (c : CstZs1Context) (call : AcquireCall) (markers : List FetchReply) (data : AcquiredData),
        (c.acquire call markers).ending = .returned data →
        ReadsInside data (c.acquire call markers).toAcquire.toNat := by
  intro inside
  obtain ⟨_, own, _⟩ := inside _ _ _ damagedData damagedRun_returns [plainBlock.gateData]
    damagedBlock.gateData [] (by decide +kernel)
    (fun earlier member _ => by
      rw [List.mem_singleton.mp member]
      intro _
      decide +kernel)
    32 ⟨by decide +kernel, 0, Visits.first (by decide +kernel), by decide +kernel⟩
  exact absurd own (by decide +kernel)

/-- Where `process` reads, buffers may not differ; elsewhere they may. -/
def AgreeOnReads (b b' : AcquisitionBuffer) (offset : Int32) (gates : List GateData) : Prop :=
  ∀ before g after, gates = before ++ g :: after → (∀ earlier ∈ before, earlier.Ends) →
    ∀ position, g.ReadsAt (b.getRawUnprocessed + (offset + offsetAfter before).toInt) position →
      b'.read position = b.read position

theorem forInt_counters (start : Int32) (bound : Int) (counters : List Int32)
    (ends : forInt start bound = some counters) :
    CountedLoop.Ends start bound ∧ ∀ i ∈ counters, Visits start bound i := by
  by_cases finite : CountedLoop.Ends start bound
  · refine ⟨finite, fun i member => ?_⟩
    rw [forInt_ends start bound finite] at ends
    cases ends
    have limit := start.toInt_lt
    have fits : bound < 2 ^ 31 := by
      by_cases enters : start.toInt < bound
      · exact finite enters
      · omega
    exact (mem_indices start bound fits i).mp member
  · rw [forInt_endless start bound finite] at ends
    cases ends

theorem processGate_congr (b b' : AcquisitionBuffer) (offsetBins : UInt32) (offset : Int32)
    (prev : Option GateData) (g : GateData) (s : Scan)
    (raw : b'.getRawUnprocessed = b.getRawUnprocessed)
    (agree : ∀ position, g.ReadsAt (b.getRawUnprocessed + offset.toInt) position →
      b'.read position = b.read position) :
    processGate b' offsetBins offset prev g s = processGate b offsetBins offset prev g s ∧
      ∀ next, processGate b offsetBins offset prev g s = .ok next → g.Ends := by
  unfold processGate
  by_cases skipped : g.skipped = true
  · rw [if_pos skipped, if_pos skipped]
    exact ⟨rfl, fun _ _ unskipped => absurd unskipped (by rw [skipped]; decide)⟩
  · rw [if_neg skipped, if_neg skipped, raw]
    rw [Bool.not_eq_true] at skipped
    cases counted : forInt g.gateStartSamplePos.toInt32 g.readBound.toInt with
    | none => exact ⟨rfl, fun next ok => by simp at ok⟩
    | some counters =>
        obtain ⟨ends, visited⟩ := forInt_counters _ _ _ counted
        have same : counters.map (sampleAt b' (b.getRawUnprocessed + offset.toInt)) =
            counters.map (sampleAt b (b.getRawUnprocessed + offset.toInt)) := by
          refine List.map_congr_left fun i member => ?_
          rw [sampleAt, sampleAt, agree _ ⟨skipped, i, visited i member, rfl⟩]
        simp only [same, true_and]
        exact fun _ _ _ => ends

theorem processGates_congr (b b' : AcquisitionBuffer) (offsetBins : UInt32)
    (raw : b'.getRawUnprocessed = b.getRawUnprocessed) (gates : List GateData)
    (prev : Option GateData) (offset : Int32) (s : Scan) (agree : AgreeOnReads b b' offset gates) :
    processGates b' offsetBins prev gates offset s = processGates b offsetBins prev gates offset s ∧
      ∀ next offset', processGates b offsetBins prev gates offset s = .ok (next, offset') →
        offset' = offset + offsetAfter gates ∧ ∀ g ∈ gates, g.Ends := by
  induction gates generalizing prev offset s with
  | nil =>
      refine ⟨rfl, fun next offset' ok => ?_⟩
      cases ok
      exact ⟨(Int32.add_zero offset).symm, by simp⟩
  | cons g rest ih =>
      obtain ⟨same, ends⟩ := processGate_congr b b' offsetBins offset prev g s raw
        (fun position reads => agree [] g rest rfl (by simp) position (by
          rw [show offsetAfter [] = 0 from rfl, Int32.add_zero]
          exact reads))
      simp only [processGates, same]
      cases step : processGate b offsetBins offset prev g s with
      | error fault => exact ⟨rfl, fun next offset' ok => by cases ok⟩
      | ok next =>
          have here := ends next step
          have moved (before : List GateData) : offset + g.elementCount.toInt32 +
              offsetAfter before = offset + offsetAfter (g :: before) := by
            rw [Int32.add_assoc, offsetAfter, offsetAfter, List.map_cons, List.sum_cons]
          obtain ⟨tail, ended⟩ := ih (some g) (offset + g.elementCount.toInt32) next
            (fun before g' after cut earlier position reads =>
              agree (g :: before) g' after (by rw [cut, List.cons_append])
                (fun one member => by
                  rcases List.mem_cons.mp member with same | old
                  · rw [same]
                    exact here
                  · exact earlier one old) position (by rwa [← moved]))
          refine ⟨tail, fun last offset' ok => ?_⟩
          obtain ⟨offsets, all⟩ := ended last offset' ok
          refine ⟨by rw [offsets, moved], fun one member => ?_⟩
          rcases List.mem_cons.mp member with same | old
          · rw [same]
            exact here
          · exact all one old

theorem reached_cons (t : TriggerData) (rest : List TriggerData)
    (capacity : ¬ reserved t.gateData < 0) :
    reachedGates (t :: rest) = t.gateData ++ reachedGates rest := by
  rw [reachedGates, List.takeWhile_cons_of_pos (by simpa using capacity), List.flatMap_cons]
  rfl

theorem offsetAfter_append (first second : List GateData) :
    offsetAfter (first ++ second) = offsetAfter first + offsetAfter second := by
  rw [offsetAfter, offsetAfter, offsetAfter, List.map_append, List.sum_append]

theorem processStamps_congr (r : UimfAcquisitionRecord) (b' : AcquisitionBuffer)
    (raw : b'.getRawUnprocessed = r.acquiredData.samplesBuffer.getRawUnprocessed)
    (stamps : List TriggerData) (trigIndex : Nat) (offset : Int32)
    (agree : AgreeOnReads r.acquiredData.samplesBuffer b' offset (reachedGates stamps)) :
    UimfAcquisitionRecord.processStamps
        { r with acquiredData := { r.acquiredData with samplesBuffer := b' } } trigIndex stamps
        offset =
      r.processStamps trigIndex stamps offset := by
  induction stamps generalizing trigIndex offset with
  | nil => rfl
  | cons t rest ih =>
      simp only [UimfAcquisitionRecord.processStamps, UimfAcquisitionRecord.processTrigger]
      by_cases capacity : reserved t.gateData < 0
      · rw [if_pos capacity, if_pos capacity]
      · rw [if_neg capacity, if_neg capacity]
        rw [reached_cons t rest capacity] at agree
        obtain ⟨same, ended⟩ := processGates_congr r.acquiredData.samplesBuffer b'
          r.parameters.offsetBins raw t.gateData none offset Scan.begin
          (fun before g after cut => agree before g (after ++ reachedGates rest) (by
            rw [cut, List.append_assoc, List.cons_append]))
        rw [same]
        cases step : processGates r.acquiredData.samplesBuffer r.parameters.offsetBins none
            t.gateData offset Scan.begin with
        | error fault => rfl
        | ok outcome =>
            obtain ⟨offsets, ends⟩ := ended outcome.1 outcome.2 step
            have tail := ih (trigIndex + 1) outcome.2
              (fun before g after cut earlier position reads =>
                agree (t.gateData ++ before) g after (by rw [cut, List.append_assoc])
                  (fun one member => by
                    rcases List.mem_append.mp member with mine | old
                    · exact ends one mine
                    · exact earlier one old) position (by
                  rwa [offsetAfter_append, ← Int32.add_assoc, ← offsets]))
            simp only [tail]
            rfl

/-- `process` sees a samples buffer only at the positions of `ReadsAt`. -/
theorem process_reads_only (r : UimfAcquisitionRecord) (b' : AcquisitionBuffer)
    (raw : b'.getRawUnprocessed = r.acquiredData.samplesBuffer.getRawUnprocessed)
    (agree : AgreeOnReads r.acquiredData.samplesBuffer b' 0 (reachedGates r.acquiredData.stamps)) :
    UimfAcquisitionRecord.process
        { r with acquiredData := { r.acquiredData with samplesBuffer := b' } } = r.process :=
  processStamps_congr r b' raw r.acquiredData.stamps 0 0 agree

end AqMD3.Acquisition
