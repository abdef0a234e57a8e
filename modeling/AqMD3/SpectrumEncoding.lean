import AqMD3.RecordedGate
import AqMD3.RunLength

/-!
What a scan's run-length encoding says. Over recorded gates that lie back to back
in the samples buffer the encoding expands to every sample at its own bin and to
nothing else, for every reader.
-/

namespace AqMD3.Acquisition

open FixedWidth CountedLoop RunLength AcquisitionBuffer

theorem store_samples (values : List Int32) (s : Scan) :
    (values.foldl Scan.store s).encodedSamples = s.encodedSamples ++ values := by
  induction values generalizing s with
  | nil => simp
  | cons val rest ih =>
      have here : (s.store val).encodedSamples = s.encodedSamples ++ [val] := by
        unfold Scan.store
        split <;> rfl
      rw [List.foldl_cons, ih, here, List.append_assoc, List.singleton_append]

theorem gapCode_skips (zeroCount : Int32) (gap : Nat) (exact : zeroCount.toInt = gap) :
    (∀ v ∈ (gapCode zeroCount).map Int32.toInt, v < 0) ∧
      span ((gapCode zeroCount).map Int32.toInt) = gap ∧
      (-32768 : Int) ∉ (gapCode zeroCount).map Int32.toInt := by
  unfold gapCode
  -- A gap of 32768 takes two run lengths: -32768 alone could be mistaken for a sample.
  by_cases special : zeroCount = 32768
  · rw [if_pos special]
    rw [special, show (32768 : Int32).toInt = 32768 from rfl] at exact
    refine ⟨by decide, ?_, by decide⟩
    rw [show span ([-32767, -1].map Int32.toInt) = 32768 from rfl]
    omega
  · rw [if_neg special]
    have other : zeroCount.toInt ≠ 32768 := fun same => special (Int32.toInt_inj.mp same)
    have limit := zeroCount.toInt_lt
    by_cases some : 0 < zeroCount
    · have positive := Int32.lt_iff_toInt_lt.mp some
      rw [Int32.toInt_zero] at positive
      have negated : (-1 * zeroCount).toInt = -(gap : Int) := by
        rw [Int32.toInt_mul, exact, show (-1 : Int32).toInt = -1 from rfl, Int.bmod_def]
        omega
      rw [if_pos some, List.map_singleton, negated]
      refine ⟨?_, ?_, ?_⟩
      · intro v member
        rw [List.mem_singleton.mp member]
        omega
      · rw [span, span, if_pos (by omega)]
        omega
      · rw [List.mem_singleton]
        omega
    · have zero : ¬ 0 < zeroCount.toInt := fun positive =>
        some (Int32.lt_iff_toInt_lt.mpr (by rwa [Int32.toInt_zero]))
      rw [if_neg some, List.map_nil]
      refine ⟨by simp, ?_, by simp⟩
      rw [span]
      omega

/-- Where the scan stands in front of a gate: the bin behind the gate before it. -/
def binBehind (offsetBins : UInt32) (prev : Option RecordedGate) : Nat :=
  match prev with
  | none => 0
  | some before => offsetBins.toNat + before.past

theorem gateZeroCount_exact (offsetBins : UInt32) (prev : Option RecordedGate) (g : RecordedGate)
    (order : ∀ before ∈ prev, before.past ≤ g.first)
    (fits : offsetBins.toNat + g.past ≤ 2 ^ 31) :
    (gateZeroCount offsetBins (prev.map RecordedGate.gate) g.gate).toInt =
      (offsetBins.toNat + g.first - binBehind offsetBins prev : Nat) := by
  have inside : g.first < g.past := g.nonempty
  have start := RecordedGate.start_exact g (by omega)
  cases prev with
  | none =>
      have sum : (g.gate.getStartSampleIndex + offsetBins.toUInt64).toNat =
          offsetBins.toNat + g.first := by
        rw [uint64_add_exact _ _ (by rw [start, UInt32.toNat_toUInt64]; omega), start,
          UInt32.toNat_toUInt64, Nat.add_comm]
      exact (uint64_narrow_exact _ (by omega)).trans (congrArg Nat.cast sum)
  | some before =>
      have behind := order before rfl
      have stop := RecordedGate.stop_exact before (by omega)
      have difference : (g.gate.getStartSampleIndex - before.gate.getStopSampleIndex).toNat =
          g.first - before.past := by
        rw [uint64_sub_exact _ _ (by omega), start, stop]
      refine (uint64_narrow_exact _ (by omega)).trans (congrArg Nat.cast ?_)
      rw [difference, binBehind]
      omega

theorem processGate_recorded (buffer : AcquisitionBuffer) (offsetBins : UInt32) (offset : Int32)
    (prev : Option GateData) (g : RecordedGate) (s : Scan) (fits : g.past ≤ 2 ^ 31)
    (bound : g.gate.readBound.toInt < 2 ^ 31)
    (lies : ∀ index < g.elements.length,
      buffer.read (buffer.getRawUnprocessed + offset.toInt + index) = g.elements.getD index 0) :
    ∃ next values, processGate buffer offsetBins offset prev g.gate s = .ok next ∧
      next.encodedSamples =
        s.encodedSamples ++ (gapCode (gateZeroCount offsetBins prev g.gate) ++ values) ∧
      values.map Int32.toInt =
        (List.range' g.first (g.past - g.first)).map fun index => g.sample index + 32768 := by
  have inside : g.first < g.past := g.nonempty
  have limit := RecordedGate.bound_exact g fits
  have suffice := RecordedGate.elements_suffice g fits
  have small := g.startPos
  have start : g.gate.gateStartSamplePos.toInt32.toInt = g.marker.startBlockSampleIndx.toNat := by
    change g.marker.startBlockSampleIndx.toInt32.toInt = _
    rw [uint32_reinterpret, Int.bmod_def]
    omega
  have ends := forInt_ends g.gate.gateStartSamplePos.toInt32 g.gate.readBound.toInt fun _ => bound
  have step : processGate buffer offsetBins offset prev g.gate s =
      .ok (((indices g.gate.gateStartSamplePos.toInt32 g.gate.readBound.toInt).map
        (sampleAt buffer (buffer.getRawUnprocessed + offset.toInt))).foldl Scan.store
          (s.skip (gateZeroCount offsetBins prev g.gate))) := by
    simp only [processGate, RecordedGate.unskipped g fits, ends, Bool.false_eq_true, ↓reduceIte]
  refine ⟨_, (indices g.gate.gateStartSamplePos.toInt32 g.gate.readBound.toInt).map
    (sampleAt buffer (buffer.getRawUnprocessed + offset.toInt)), step, ?_, ?_⟩
  · rw [store_samples, Scan.skip, List.append_assoc]
  · have count : (g.gate.readBound.toInt - g.gate.gateStartSamplePos.toInt32.toInt).toNat =
        g.past - g.first := by omega
    rw [indices, count, List.range'_eq_map_range, List.map_map, List.map_map, List.map_map]
    refine List.map_congr_left fun k member => ?_
    have within := List.mem_range.mp member
    -- The k-th value of the counter reads the k-th sample of the gate.
    have counter := counter_exact g.gate.gateStartSamplePos.toInt32 g.gate.readBound.toInt bound k
      (by omega)
    have position : g.first + k - (g.marker.startBlockIndex.toNat - 1) * 8 =
        g.marker.startBlockSampleIndx.toNat + k := by
      rw [RecordedGate.first, GateMarker.firstSample]
      omega
    simp only [Function.comp_apply, RecordedGate.sample, position]
    exact sampleAt_exact buffer _ _ _ g.elements (by rw [counter, start]; rfl) (lies _ (by omega))

/-- Every sample of a trigger's gates at its own bin. -/
def placed (offsetBins : UInt32) (gates : List RecordedGate) : List (Nat × Int) :=
  gates.flatMap fun g => (List.range' g.first (g.past - g.first)).map fun index =>
    (offsetBins.toNat + index, g.sample index + 32768)

/-- Gates in increasing order; two of them may touch. -/
def Increasing (gates : List RecordedGate) : Prop :=
  gates.Pairwise fun before after => before.past ≤ after.first

theorem gate_expands (offsetBins : UInt32) (prev : Option RecordedGate) (g : RecordedGate)
    (order : ∀ before ∈ prev, before.past ≤ g.first) (fits : offsetBins.toNat + g.past ≤ 2 ^ 31)
    (values : List Int32) (stored : values.map Int32.toInt =
      (List.range' g.first (g.past - g.first)).map fun index => g.sample index + 32768) :
    let piece := (gapCode (gateZeroCount offsetBins (prev.map RecordedGate.gate) g.gate) ++
      values).map Int32.toInt
    expandFrom (binBehind offsetBins prev) piece = placed offsetBins [g] ∧
      binBehind offsetBins prev + span piece = binBehind offsetBins (some g) ∧
      (-32768 : Int) ∉ piece := by
  obtain ⟨skips, gap, unmarked⟩ := gapCode_skips _ _ (gateZeroCount_exact offsetBins prev g order fits)
  have inside : g.first < g.past := g.nonempty
  have behind : binBehind offsetBins prev ≤ offsetBins.toNat + g.first := by
    cases prev with
    | none => exact Nat.zero_le _
    | some before => exact Nat.add_le_add_left (order before rfl) _
  have shifted : ∀ index, 0 ≤ g.sample index + 32768 := by
    intro index
    have bounds := sampleOf_bounds g.elements (index - (g.marker.startBlockIndex.toNat - 1) * 8)
    rw [RecordedGate.sample]
    omega
  have nonneg : ∀ v ∈ values.map Int32.toInt, 0 ≤ v := by
    rw [stored]
    intro v member
    obtain ⟨index, _, rfl⟩ := List.mem_map.mp member
    exact shifted index
  have count : (values.map Int32.toInt).length = g.past - g.first := by
    rw [stored, List.length_map, List.length_range']
  intro piece
  have split : piece = (gapCode (gateZeroCount offsetBins (prev.map RecordedGate.gate)
      g.gate)).map Int32.toInt ++ values.map Int32.toInt := List.map_append
  have reached : binBehind offsetBins prev +
      (offsetBins.toNat + g.first - binBehind offsetBins prev) = offsetBins.toNat + g.first := by
    omega
  rw [split]
  refine ⟨?_, ?_, ?_⟩
  · rw [expandFrom_append, expandFrom_skips _ skips, gap, reached, stored,
      expandFrom_range _ shifted, List.nil_append, placed, List.flatMap_singleton]
  · rw [span_append, gap, span_values _ nonneg, count]
    change _ = offsetBins.toNat + g.past
    omega
  · rw [List.mem_append, not_or]
    exact ⟨unmarked, fun member => absurd (nonneg _ member) (by decide)⟩

theorem read_at_offset {buffer : AcquisitionBuffer} (sound : Sound buffer) {offset : Int32}
    {start : Nat} (at_start : offset.toInt = start) {front tail : List Int32}
    (lies : (pending buffer).drop start = front ++ tail) :
    ∀ index < front.length,
      buffer.read (buffer.getRawUnprocessed + offset.toInt + index) = front.getD index 0 := by
  intro index inside
  have room := congrArg List.length lies
  rw [List.length_drop, List.length_append] at room
  have present : start + index < (pending buffer).length := by omega
  have element : (pending buffer)[start + index]? = front[index]? := by
    rw [← List.getElem?_drop, lies, List.getElem?_append_left inside]
  have place : buffer.getRawUnprocessed + offset.toInt + index =
      buffer.getRawUnprocessed + (start + index : Nat) := by omega
  rw [place, read_pending sound _ present, List.getD_eq_getElem?_getD, ← element,
    List.getElem?_eq_getElem present, Option.getD_some]

/-- The gates of one trigger, from any gate on: the scan grows by a piece that
places exactly these gates, and the offset moves past their elements. -/
theorem processGates_recorded (buffer : AcquisitionBuffer) (sound : Sound buffer)
    (offsetBins : UInt32) (gates : List RecordedGate) (prev : Option RecordedGate)
    (offset : Int32) (start : Nat) (s : Scan) (tail : List Int32) (at_start : offset.toInt = start)
    (lies : (pending buffer).drop start = gates.flatMap RecordedGate.elements ++ tail)
    (increasing : Increasing gates) (order : ∀ before ∈ prev, ∀ g ∈ gates, before.past ≤ g.first)
    (fits : ∀ g ∈ gates, offsetBins.toNat + g.past ≤ 2 ^ 31)
    (bound : ∀ g ∈ gates, g.gate.readBound.toInt < 2 ^ 31) :
    ∃ next offset' piece,
      processGates buffer offsetBins (prev.map RecordedGate.gate) (gates.map RecordedGate.gate)
        offset s = .ok (next, offset') ∧
      offset'.toInt = (start + (gates.flatMap RecordedGate.elements).length : Nat) ∧
      next.encodedSamples = s.encodedSamples ++ piece ∧
      expandFrom (binBehind offsetBins prev) (piece.map Int32.toInt) = placed offsetBins gates ∧
      (-32768 : Int) ∉ piece.map Int32.toInt := by
  induction gates generalizing prev offset start s with
  | nil => exact ⟨s, offset, [], rfl, at_start, (List.append_nil _).symm, rfl, by simp⟩
  | cons g rest ih =>
      have inside : g.first < g.past := g.nonempty
      have suffice := RecordedGate.elements_suffice g (by
        have := fits g List.mem_cons_self
        omega)
      have first := lies
      rw [List.flatMap_cons, List.append_assoc] at first
      have room := congrArg List.length first
      rw [List.length_drop, List.length_append] at room
      have width := pending_length sound
      have limit := sound.width
      have positive := sound.processed
      have shift := sound.shift
      obtain ⟨next, values, step, grown, stored⟩ := processGate_recorded buffer offsetBins offset
        (prev.map RecordedGate.gate) g s (by have := fits g List.mem_cons_self; omega)
        (bound g List.mem_cons_self) (read_at_offset sound at_start first)
      obtain ⟨expanded, spanned, unmarked⟩ := gate_expands offsetBins prev g
        (fun before member => order before member g List.mem_cons_self)
        (fits g List.mem_cons_self) values stored
      have counted : g.gate.elementCount.toNat = g.elements.length := g.counted.symm
      have count : g.gate.elementCount.toInt32.toInt = g.elements.length := by
        rw [uint32_signed_exact _ (by omega), counted]
      have moved : (offset + g.gate.elementCount.toInt32).toInt =
          (start + g.elements.length : Nat) := by
        rw [int32_add_exact _ _ (by omega) (by omega)]
        omega
      obtain ⟨last, offset', piece, run, ended, appended, placement, plain⟩ :=
        ih (some g) (offset + g.gate.elementCount.toInt32) (start + g.elements.length) next moved
          (by rw [← List.drop_drop, first, List.drop_left])
          (List.pairwise_cons.mp increasing).2
          (fun before member g' inside => by
            cases member
            exact (List.pairwise_cons.mp increasing).1 g' inside)
          (fun g' inside => fits g' (List.mem_cons_of_mem g inside))
          (fun g' inside => bound g' (List.mem_cons_of_mem g inside))
      -- The gate's piece comes first, and the others' begin at the bin behind it.
      refine ⟨last, offset',
        (gapCode (gateZeroCount offsetBins (prev.map RecordedGate.gate) g.gate) ++ values) ++ piece,
        ?_, ?_, ?_, ?_, ?_⟩
      · simp only [List.map_cons, processGates, step]
        exact run
      · rw [ended, List.flatMap_cons, List.length_append, Nat.add_assoc]
      · rw [appended, grown, List.append_assoc]
      · rw [List.map_append, expandFrom_append, expanded, spanned, placement]
        simp [placed]
      · rw [List.map_append, List.mem_append, not_or]
        exact ⟨unmarked, plain⟩

/-- A trigger with its recorded gates. -/
structure RecordedTrigger where
  timestamp : UInt64
  index : UInt32
  subsamplePos : Int
  gates : List RecordedGate
  increasing : Increasing gates

namespace RecordedTrigger

def stamp (t : RecordedTrigger) : TriggerData :=
  ⟨t.timestamp, t.index, t.subsamplePos, t.gates.map RecordedGate.gate⟩

def elements (t : RecordedTrigger) : List Int32 := t.gates.flatMap RecordedGate.elements

def samples (t : RecordedTrigger) : Nat := (t.gates.map fun g => g.past - g.first).sum

end RecordedTrigger

/-- Every bin is below 2^31. -/
def BinsFit (offsetBins : UInt32) (t : RecordedTrigger) : Prop :=
  ∀ g ∈ t.gates, ∀ index, g.first ≤ index → index < g.past → offsetBins.toNat + index < 2 ^ 31

/-- The ints that `process` counts in stay below 2^31 too: the counter of a gate's
samples loop, and the capacity asked for. -/
structure CountersFit (t : RecordedTrigger) : Prop where
  bound : ∀ g ∈ t.gates, g.marker.startBlockSampleIndx.toNat + (g.past - g.first) < 2 ^ 31
  capacity : t.samples + t.gates.length < 2 ^ 31

/-- A scan read back, by a reader that ignores a literal 0 behind a run length of
-32768 and by one that does not. -/
structure Encodes (offsetBins : UInt32) (t : RecordedTrigger) (result : EncodedResult) : Prop where
  expansion : expandFrom 0 (result.encodedSpectra.map Int32.toInt) = placed offsetBins t.gates
  ignoring : expandIgnoring (-32768) false 0 (result.encodedSpectra.map Int32.toInt) =
    placed offsetBins t.gates
  once : (placed offsetBins t.gates).Pairwise fun before after => before.1 < after.1

theorem bins_past (offsetBins : UInt32) (t : RecordedTrigger) (bins : BinsFit offsetBins t) :
    ∀ g ∈ t.gates, offsetBins.toNat + g.past ≤ 2 ^ 31 := by
  intro g member
  have inside : g.first < g.past := g.nonempty
  have last := bins g member (g.past - 1) (by omega) (by omega)
  omega

instance (offsetBins : UInt32) (t : RecordedTrigger) : Decidable (BinsFit offsetBins t) :=
  decidable_of_iff (∀ g ∈ t.gates, offsetBins.toNat + g.past ≤ 2 ^ 31)
    ⟨fun past g member index _ below => by have := past g member; omega, bins_past offsetBins t⟩

theorem placed_once (offsetBins : UInt32) (gates : List RecordedGate)
    (increasing : Increasing gates) :
    (placed offsetBins gates).Pairwise fun before after => before.1 < after.1 := by
  induction gates with
  | nil => exact List.Pairwise.nil
  | cons g rest ih =>
      obtain ⟨order, later⟩ := List.pairwise_cons.mp increasing
      rw [placed, List.flatMap_cons, List.pairwise_append]
      refine ⟨?_, ih later, ?_⟩
      · rw [List.pairwise_map]
        exact List.Pairwise.imp (fun below => Nat.add_lt_add_left below _)
          List.pairwise_lt_range'
      · intro before here after there
        obtain ⟨low, inside, rfl⟩ := List.mem_map.mp here
        obtain ⟨g', member, there⟩ := List.mem_flatMap.mp there
        obtain ⟨high, beyond, rfl⟩ := List.mem_map.mp there
        rw [List.mem_range'_1] at inside beyond
        have behind := order g' member
        have nonempty : g.first < g.past := g.nonempty
        simp only
        omega

theorem reserve_exact (gates : List RecordedGate) (reserve : Int32) (total : Nat)
    (start : reserve.toInt = total) (fits : ∀ g ∈ gates, g.past ≤ 2 ^ 31)
    (width : total + (gates.map fun g => g.past - g.first).sum < 2 ^ 31) :
    ((gates.map RecordedGate.gate).foldl reserveStep reserve).toInt =
      (total + (gates.map fun g => g.past - g.first).sum : Nat) := by
  induction gates generalizing reserve total with
  | nil => exact start
  | cons g rest ih =>
      have inside : g.first < g.past := g.nonempty
      have samples := RecordedGate.samples_exact g (fits g List.mem_cons_self)
      simp only [List.map_cons, List.sum_cons] at width ⊢
      have some : 0 < g.gate.samples := by
        rw [Int64.lt_iff_toInt_lt, samples, Int64.toInt_zero]
        omega
      have step : (reserveStep reserve g.gate).toInt = (total + (g.past - g.first) : Nat) := by
        rw [reserveStep, if_pos some, Int64.toInt_toInt32, Int64.toInt_add, Int32.toInt_toInt64,
          samples, start, Int.bmod_def, Int.bmod_def]
        omega
      rw [List.foldl_cons, ih _ _ step
        (fun g' member => fits g' (List.mem_cons_of_mem g member)) (by omega), Nat.add_assoc]

theorem reserved_nonneg (t : RecordedTrigger) (fits : ∀ g ∈ t.gates, g.past ≤ 2 ^ 31)
    (capacity : t.samples + t.gates.length < 2 ^ 31) :
    ¬ reserved (t.gates.map RecordedGate.gate) < 0 := by
  have total := reserve_exact t.gates 0 0 rfl fits (by rw [← RecordedTrigger.samples]; omega)
  have count : (Int32.ofNat t.gates.length).toInt = t.gates.length := int32_ofNat_exact _ (by omega)
  rw [← RecordedTrigger.samples] at total
  rw [reserved, List.length_map, Int32.lt_iff_toInt_lt,
    int32_add_exact _ _ (by omega) (by omega), total, count, Int32.toInt_zero]
  omega

theorem processTrigger_recorded (r : UimfAcquisitionRecord)
    (sound : Sound r.acquiredData.samplesBuffer) (t : RecordedTrigger) (offset : Int32)
    (start : Nat) (tail : List Int32) (at_start : offset.toInt = start)
    (lies : (pending r.acquiredData.samplesBuffer).drop start = t.elements ++ tail)
    (bins : BinsFit r.parameters.offsetBins t) (counters : CountersFit t) :
    ∃ s next, r.processTrigger offset t.stamp = .ok (s, next) ∧
      next.toInt = (start + t.elements.length : Nat) ∧
      ∀ result : EncodedResult, result.encodedSpectra = s.encodedSamples →
        Encodes r.parameters.offsetBins t result := by
  have past := bins_past r.parameters.offsetBins t bins
  obtain ⟨s, next, piece, run, ended, grown, placement, unmarked⟩ :=
    processGates_recorded r.acquiredData.samplesBuffer sound r.parameters.offsetBins t.gates none
      offset start Scan.begin tail at_start lies t.increasing (fun _ none => by cases none) past
      (fun g member => by
        rw [RecordedGate.bound_exact g (by have := past g member; omega)]
        exact Int.ofNat_lt.mpr (counters.bound g member))
  have capacity := reserved_nonneg t (fun g member => by have := past g member; omega)
    counters.capacity
  refine ⟨s, next, ?_, ended, fun result spectra => ?_⟩
  · exact (if_neg capacity).trans run
  · have whole : s.encodedSamples = piece := grown.trans (List.nil_append _)
    constructor
    · rw [spectra, whole]
      exact placement
    · rw [spectra, whole, expandIgnoring_plain _ _ unmarked]
      exact placement
    · exact placed_once _ _ t.increasing

theorem processStamps_recorded (r : UimfAcquisitionRecord)
    (sound : Sound r.acquiredData.samplesBuffer) (trigs : List RecordedTrigger) (trigIndex : Nat)
    (offset : Int32) (start : Nat) (tail : List Int32) (at_start : offset.toInt = start)
    (lies : (pending r.acquiredData.samplesBuffer).drop start =
      trigs.flatMap RecordedTrigger.elements ++ tail)
    (bins : ∀ t ∈ trigs, BinsFit r.parameters.offsetBins t)
    (counters : ∀ t ∈ trigs, CountersFit t) :
    ∃ results, r.processStamps trigIndex (trigs.map RecordedTrigger.stamp) offset = .ok results ∧
      List.Forall₂ (Encodes r.parameters.offsetBins) trigs results := by
  induction trigs generalizing trigIndex offset start with
  | nil => exact ⟨[], rfl, List.Forall₂.nil⟩
  | cons t rest ih =>
      rw [List.flatMap_cons, List.append_assoc] at lies
      obtain ⟨s, next, run, ended, encodes⟩ := processTrigger_recorded r sound t offset start _
        at_start lies (bins t List.mem_cons_self) (counters t List.mem_cons_self)
      obtain ⟨results, tailRun, all⟩ := ih (trigIndex + 1) next (start + t.elements.length) ended
        (by rw [← List.drop_drop, lies, List.drop_left])
        (fun t' member => bins t' (List.mem_cons_of_mem t member))
        (fun t' member => counters t' (List.mem_cons_of_mem t member))
      refine ⟨r.result trigIndex t.stamp s :: results, ?_, List.Forall₂.cons (encodes _ rfl) all⟩
      simp only [List.map_cons, UimfAcquisitionRecord.processStamps, run, tailRun]

/-- One result per trigger, in order, and each of them says what was recorded. -/
theorem process_encodes (r : UimfAcquisitionRecord) (trigs : List RecordedTrigger)
    (tail : List Int32) (stamps : r.acquiredData.stamps = trigs.map RecordedTrigger.stamp)
    (sound : Sound r.acquiredData.samplesBuffer)
    (lies : pending r.acquiredData.samplesBuffer = trigs.flatMap RecordedTrigger.elements ++ tail)
    (bins : ∀ t ∈ trigs, BinsFit r.parameters.offsetBins t)
    (counters : ∀ t ∈ trigs, CountersFit t) :
    ∃ results, r.process = .ok results ∧
      List.Forall₂ (Encodes r.parameters.offsetBins) trigs results := by
  rw [UimfAcquisitionRecord.process, stamps]
  exact processStamps_recorded r sound trigs 0 0 0 tail rfl lies bins counters

/-- Samples 2 to 12 of a record, in the sixteen elements fetched for them. -/
def shortGate : RecordedGate where
  marker := ⟨1, 2, 3, 5⟩
  elements := List.replicate 16 0x00020001
  startBlock := by decide
  startPos := by decide
  stopPos := by decide
  nonempty := by decide
  counted := by decide

/-- Samples 13 to 16, right behind them. -/
def touchingGate : RecordedGate where
  marker := ⟨2, 5, 4, 1⟩
  elements := List.replicate 16 (-3)
  startBlock := by decide
  startPos := by decide
  stopPos := by decide
  nonempty := by decide
  counted := by decide

def twoGates : RecordedTrigger := ⟨7, 1, 0, [shortGate, touchingGate], by unfold Increasing; decide⟩

def oneGate : RecordedTrigger := ⟨9, 2, 0, [shortGate], by unfold Increasing; decide⟩

def recordOf (trigs : List RecordedTrigger) (offsetBins : UInt32) (elements : List Int32) :
    UimfAcquisitionRecord where
  parameters := ⟨0, 0, 0, 0, 1, offsetBins, ""⟩
  acquiredData := ⟨⟨elements, Int32.ofNat elements.length, 0, 0, 0, 0⟩,
    trigs.map RecordedTrigger.stamp, 0⟩
  startScanIndex := 0

theorem recordOf_lies (trigs : List RecordedTrigger) (offsetBins : UInt32) (elements : List Int32)
    (bound : elements.length < 2 ^ 31) :
    Sound (recordOf trigs offsetBins elements).acquiredData.samplesBuffer ∧
      pending (recordOf trigs offsetBins elements).acquiredData.samplesBuffer = elements := by
  have acquired : (Int32.ofNat elements.length).toInt = elements.length :=
    int32_ofNat_exact _ bound
  have sound : Sound (recordOf trigs offsetBins elements).acquiredData.samplesBuffer := by
    constructor <;> simp only [recordOf, acquired, Int32.toInt_zero] <;> omega
  refine ⟨sound, ?_⟩
  rw [pending, raw_unprocessed_exact sound, unprocessed_exact sound]
  simp [recordOf, Overwrite.window, acquired]

theorem process_encodes_touching :
    ∃ results, (recordOf [twoGates, oneGate] 32766
        ([twoGates, oneGate].flatMap RecordedTrigger.elements)).process = .ok results ∧
      List.Forall₂ (Encodes 32766) [twoGates, oneGate] results :=
  process_encodes _ [twoGates, oneGate] [] rfl
    ⟨by decide +kernel, by decide +kernel, by decide +kernel, by decide +kernel, by decide +kernel⟩
    (by decide +kernel) (by decide +kernel)
    (by
      intro t member
      simp only [List.mem_cons, List.not_mem_nil, or_false] at member
      rcases member with rfl | rfl
      · exact ⟨by decide, by decide⟩
      · exact ⟨by decide, by decide⟩)

/-- Samples 0 to 2^31 - 1: every bin is below 2^31, their count is not. -/
def widestGate (elements : List Int32) (counted : elements.length = 2 ^ 30) : RecordedGate where
  marker := ⟨1, 0, 2 ^ 28 + 1, 8⟩
  elements := elements
  startBlock := by decide
  startPos := by decide
  stopPos := by decide
  nonempty := by decide
  counted := counted.trans (by decide)

/-- The capacity asked for such a gate is negative as an int, and `reserve` throws. -/
theorem process_encodes_widest :
    ¬ ∀ (r : UimfAcquisitionRecord) (trigs : List RecordedTrigger) (tail : List Int32),
        r.acquiredData.stamps = trigs.map RecordedTrigger.stamp →
        Sound r.acquiredData.samplesBuffer →
        pending r.acquiredData.samplesBuffer =
          trigs.flatMap RecordedTrigger.elements ++ tail →
        (∀ t ∈ trigs, BinsFit r.parameters.offsetBins t) →
        ∃ results, r.process = .ok results ∧
          List.Forall₂ (Encodes r.parameters.offsetBins) trigs results := by
  intro encodes
  obtain ⟨elements, counted⟩ : ∃ elements : List Int32, elements.length = 2 ^ 30 :=
    ⟨List.replicate (2 ^ 30) 0, List.length_replicate⟩
  have increasing : Increasing [widestGate elements counted] := List.pairwise_singleton _ _
  let widest : RecordedTrigger := ⟨0, 0, 0, [widestGate elements counted], increasing⟩
  obtain ⟨sound, lies⟩ := recordOf_lies [widest] 0 elements (by omega)
  obtain ⟨results, run, _⟩ := encodes (recordOf [widest] 0 elements) [widest] [] rfl sound
    (by
      rw [lies]
      simp [widest, RecordedTrigger.elements, widestGate])
    (by
      intro t member
      rw [List.mem_singleton.mp member]
      intro g inside index _ below
      rw [List.mem_singleton.mp inside] at below
      have past : (widestGate elements counted).past = 2 ^ 31 := rfl
      have none : (recordOf [widest] 0 elements).parameters.offsetBins.toNat = 0 := rfl
      omega)
  have negative : reserved [GateMarker.gateData ⟨1, 0, 2 ^ 28 + 1, 8⟩] < 0 := by decide +kernel
  have refused : (recordOf [widest] 0 elements).processTrigger 0 widest.stamp =
      .error .lengthError := if_pos negative
  simp only [UimfAcquisitionRecord.process, recordOf, List.map_cons,
    UimfAcquisitionRecord.processStamps] at run refused
  rw [refused] at run
  cases run

end AqMD3.Acquisition
