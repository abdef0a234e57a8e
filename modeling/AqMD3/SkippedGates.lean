import AqMD3.SameScans

/-!
A gate that `process` skips, put into a trigger's gate list together with its elements.
The elements move with the running offset; the gap in front of the next gate is
measured from the gate before it in the list, and that is the skipped one then.
-/

namespace AqMD3.Acquisition

open FixedWidth CountedLoop

/-- The gap in front of the gate behind the place is what it was, or neither is written
and no sample from there on is larger than every one in front. -/
def GapKept (b : AcquisitionBuffer) (offsetBins : UInt32) (offset : Int32) (front back : List GateData)
    (g : GateData) : Prop :=
  ∀ next ∈ back.head?, next.skipped = false →
    gateZeroCount offsetBins (some g) next = gateZeroCount offsetBins front.getLast? next ∨
      gateZeroCount offsetBins front.getLast? next ≤ 0 ∧
        gateZeroCount offsetBins (some g) next ≤ 0 ∧
        ∀ v ∈ (gateReads b back (offsetBehind offset front)).flatten.map Int32.toInt,
          v ≤ peakOf ((gateReads b front offset).flatten.map Int32.toInt)

section Trigger

variable {b b' : AcquisitionBuffer} {offsetBins : UInt32} {offset : Int32} {front back : List GateData}
  {g : GateData} {r r' : UimfAcquisitionRecord} {n n' : Nat} {trig trig' : TriggerData}

theorem scanPieces_inserted (skipped : g.skipped = true) :
    scanPieces b' offsetBins none (front ++ g :: back) offset =
      scanPieces b' offsetBins none front offset ++ scanPieces b' offsetBins (some g) back
        (offsetBehind offset front + g.elementCount.toInt32) := by
  rw [scanPieces_append, scanPieces, if_pos skipped, List.nil_append]

theorem gateReads_inserted (skipped : g.skipped = true) :
    (gateReads b' (front ++ g :: back) offset).flatten =
      (gateReads b' front offset ++ gateReads b' back
        (offsetBehind offset front + g.elementCount.toInt32)).flatten := by
  rw [gateReads_append, gateReads, if_pos skipped, List.flatten_append, List.flatten_append,
    List.flatten_cons, List.nil_append]

theorem sameScan_reads (skipped : g.skipped = true)
    (same : SameScan
      (r.result n trig ((scanPieces b offsetBins none (front ++ back) offset).foldl Scan.add .begin))
      (r'.result n' trig'
        ((scanPieces b' offsetBins none (front ++ g :: back) offset).foldl Scan.add .begin))) :
    gateReads b' front offset = gateReads b front offset ∧
      gateReads b' back (offsetBehind offset front + g.elementCount.toInt32) =
        gateReads b back (offsetBehind offset front) := by
  have samples := sameScan_samples (scanPieces_stored _ _ _ _ _) (scanPieces_stored _ _ _ _ _) same
  rw [scanPieces_samples, scanPieces_samples, gateReads_inserted skipped, gateReads_append] at samples
  have flat := List.map_injective_iff.mpr (fun _ _ => Int32.toInt_inj.mp) samples
  have lengths : (gateReads b' front offset ++ gateReads b' back
      (offsetBehind offset front + g.elementCount.toInt32)).map List.length =
        (gateReads b front offset ++ gateReads b back (offsetBehind offset front)).map List.length := by
    rw [List.map_append, List.map_append, gateReads_lengths b b' front offset offset,
      gateReads_lengths b b' back (offsetBehind offset front)]
  have whole := List.eq_iff_flatten_eq.mpr ⟨flat, lengths⟩
  refine List.append_inj whole ?_
  have counts := congrArg List.length (gateReads_lengths b b' front offset offset)
  rwa [List.length_map, List.length_map] at counts

theorem sameScan_gap (skipped : g.skipped = true)
    (inFront : gateReads b' front offset = gateReads b front offset)
    (behind : gateReads b' back (offsetBehind offset front + g.elementCount.toInt32) =
      gateReads b back (offsetBehind offset front)) :
    SameScan
        (r.result n trig ((scanPieces b offsetBins none (front ++ back) offset).foldl Scan.add .begin))
        (r'.result n' trig'
          ((scanPieces b' offsetBins none (front ++ g :: back) offset).foldl Scan.add .begin)) ↔
      GapKept b offsetBins offset front back g := by
  have stored := scanPieces_stored b offsetBins (front ++ back) none offset
  rw [scanPieces_append, Option.or_none] at stored ⊢
  rw [scanPieces_inserted skipped, scanPieces_same inFront, scanPieces_same behind]
  unfold GapKept
  cases back with
  -- With nothing behind it, no gap starts at the skipped gate.
  | nil => exact ⟨fun _ _ member => (Option.not_mem_none _ member).elim, fun _ => sameScan_of_pieces⟩
  | cons next rest =>
      -- A next gate that is skipped too hides this one from those behind it.
      by_cases passed : next.skipped = true
      · rw [scanPieces, scanPieces, if_pos passed, if_pos passed]
        refine ⟨fun _ other member kept => ?_, fun _ => sameScan_of_pieces⟩
        cases member
        rw [passed] at kept
        cases kept
      · have samples := scanPieces_samples b offsetBins (next :: rest) front.getLast?
          (offsetBehind offset front)
        rw [scanPieces, if_neg passed, List.singleton_append] at stored samples ⊢
        rw [scanPieces, if_neg passed, List.singleton_append, sameScan_regap_iff stored,
          ← scanPieces_samples b offsetBins front none, ← samples]
        rw [Bool.not_eq_true] at passed
        constructor
        · intro regapped other member kept
          cases member
          exact regapped.unchanged
        · intro kept
          exact ⟨kept next rfl passed⟩

end Trigger

/-- A batch, a place in one trigger's gate list, and a gate to put there that `process`
skips, with the elements that belong to it. -/
structure Insertion where
  record : UimfAcquisitionRecord
  earlier : List TriggerData
  trigger : TriggerData
  later : List TriggerData
  stamps : record.acquiredData.stamps = earlier ++ trigger :: later
  front : List GateData
  back : List GateData
  gates : trigger.gateData = front ++ back
  gate : GateData
  skipped : gate.skipped = true
  elements : List Int32
  counted : elements.length = gate.elementCount.toNat

namespace Insertion

def buffer (i : Insertion) : AcquisitionBuffer := i.record.acquiredData.samplesBuffer

/-- Behind the elements of all gates in front. -/
def place (i : Insertion) : Nat :=
  (i.buffer.getRawUnprocessed + elementsOf (gatesOf i.earlier ++ i.front)).toNat

def longer (i : Insertion) : AcquisitionBuffer :=
  { i.buffer with
    data := i.buffer.data.take i.place ++ i.elements ++ i.buffer.data.drop i.place }

def enlarged (i : Insertion) : TriggerData :=
  { i.trigger with gateData := i.front ++ i.gate :: i.back }

def inserted (i : Insertion) : UimfAcquisitionRecord :=
  { i.record with
    acquiredData :=
      { i.record.acquiredData with
        samplesBuffer := i.longer
        stamps := i.earlier ++ i.enlarged :: i.later } }

/-- The trigger's scan and every later one are what they were. -/
def Unmoved (i : Insertion) (results : List EncodedResult) : Prop :=
  ∃ results', i.inserted.process = .ok results' ∧
    List.Forall₂ SameScan (results.drop i.earlier.length) (results'.drop i.earlier.length)

/-- The running offset where the trigger's gates begin, and at the place. -/
def start (i : Insertion) : Int32 := offsetBehind 0 (gatesOf i.earlier)

def reached (i : Insertion) : Int32 := offsetBehind i.start i.front

/-- The trigger's other gates, and all of the later triggers, find their samples in the
longer buffer, the gap of the next gate stays, and `reserve` is not asked for a negative
count. -/
structure Neutral (i : Insertion) : Prop where
  inFront : gateReads i.longer i.front i.start = gateReads i.buffer i.front i.start
  behind : gateReads i.longer (i.back ++ gatesOf i.later) (i.reached + i.gate.elementCount.toInt32) =
    gateReads i.buffer (i.back ++ gatesOf i.later) i.reached
  gap : GapKept i.buffer i.record.parameters.offsetBins i.start i.front i.back i.gate
  reserve : 0 ≤ reserved (i.front ++ i.gate :: i.back)

theorem inserted_runs (i : Insertion) (runs : Runs i.record.acquiredData.stamps) :
    Runs i.inserted.acquiredData.stamps ↔ 0 ≤ reserved (i.front ++ i.gate :: i.back) := by
  rw [Runs, i.stamps, List.forall_mem_append, List.forall_mem_cons] at runs
  obtain ⟨earlier, ⟨_, ends⟩, later⟩ := runs
  rw [i.gates, List.forall_mem_append] at ends
  constructor
  · intro inserted
    exact (inserted _ (List.mem_append_right _ List.mem_cons_self)).1
  · intro capacity
    rw [Runs, inserted, List.forall_mem_append, List.forall_mem_cons]
    refine ⟨earlier, ⟨capacity, ?_⟩, later⟩
    rw [enlarged, List.forall_mem_append, List.forall_mem_cons]
    refine ⟨ends.1, fun kept => ?_, ends.2⟩
    rw [i.skipped] at kept
    cases kept

theorem scans_dropped (i : Insertion) :
    (i.record.scanResults 0 i.record.acquiredData.stamps 0).drop i.earlier.length =
      i.record.scanResults i.earlier.length (i.trigger :: i.later) i.start := by
  rw [i.stamps, scanResults_append, Nat.zero_add]
  exact List.drop_left' (scanResults_length _ _ _ _)

theorem inserted_dropped (i : Insertion) :
    (i.inserted.scanResults 0 i.inserted.acquiredData.stamps 0).drop i.earlier.length =
      i.inserted.scanResults i.earlier.length (i.enlarged :: i.later) i.start := by
  have stamps : i.inserted.acquiredData.stamps = i.earlier ++ i.enlarged :: i.later := rfl
  rw [stamps, scanResults_append, Nat.zero_add]
  exact List.drop_left' (scanResults_length _ _ _ _)

theorem scans_same_iff (i : Insertion) :
    List.Forall₂ SameScan (i.record.scanResults i.earlier.length (i.trigger :: i.later) i.start)
        (i.inserted.scanResults i.earlier.length (i.enlarged :: i.later) i.start) ↔
      gateReads i.longer i.front i.start = gateReads i.buffer i.front i.start ∧
        gateReads i.longer (i.back ++ gatesOf i.later) (i.reached + i.gate.elementCount.toInt32) =
          gateReads i.buffer (i.back ++ gatesOf i.later) i.reached ∧
        GapKept i.buffer i.record.parameters.offsetBins i.start i.front i.back i.gate := by
  have behind : offsetBehind i.start i.trigger.gateData = offsetBehind i.reached i.back := by
    rw [i.gates, offsetBehind_append, reached]
  have behind' : offsetBehind i.start i.enlarged.gateData =
      offsetBehind (i.reached + i.gate.elementCount.toInt32) i.back := by
    rw [enlarged, offsetBehind_append, offsetBehind_cons, reached]
  have bins : i.inserted.parameters.offsetBins = i.record.parameters.offsetBins := rfl
  have longer : i.inserted.acquiredData.samplesBuffer = i.longer := rfl
  have buffer : i.record.acquiredData.samplesBuffer = i.buffer := rfl
  rw [UimfAcquisitionRecord.scanResults, UimfAcquisitionRecord.scanResults, List.forall₂_cons,
    laterScans_iff bins, behind, behind', bins, longer, buffer, i.gates, gateReads_append,
    gateReads_append]
  constructor
  · rintro ⟨here, later⟩
    obtain ⟨inFront, inBack⟩ := sameScan_reads i.skipped here
    refine ⟨inFront, ?_, (sameScan_gap i.skipped inFront inBack).mp here⟩
    rw [← reached] at inBack
    rw [inBack, later]
  · rintro ⟨inFront, rest, gap⟩
    obtain ⟨inBack, later⟩ := List.append_inj rest (by
      have counts := congrArg List.length (gateReads_lengths i.buffer i.longer i.back i.reached
        (i.reached + i.gate.elementCount.toInt32))
      rwa [List.length_map, List.length_map] at counts)
    exact ⟨(sameScan_gap i.skipped inFront inBack).mpr gap, later⟩

end Insertion

/-- The samples loop of a gate stays inside the gate's own elements. -/
def GateData.ReadsOwn (g : GateData) : Prop :=
  g.skipped = false → ∀ j ∈ indices g.gateStartSamplePos.toInt32 g.readBound.toInt,
    0 ≤ (j / 2).toInt ∧ (j / 2).toInt < g.elementCount.toNat

theorem gateReads_moved {b b' : AcquisitionBuffer} (raw : b'.getRawUnprocessed = b.getRawUnprocessed)
    (shift first past : Nat) (width : past + shift < 2 ^ 31)
    (reads : ∀ index : Int, b.getRawUnprocessed + first ≤ index → index < b.getRawUnprocessed + past →
      b'.read (index + shift) = b.read index)
    {gates : List GateData} (own : ∀ g ∈ gates, g.ReadsOwn) {offset offset' : Int32} (position : Nat)
    (here : offset.toInt = position) (moved : offset'.toInt = position + shift)
    (low : first ≤ position) (high : position + elementsOf gates ≤ past) :
    gateReads b' gates offset' = gateReads b gates offset := by
  induction gates generalizing offset offset' position with
  | nil => rfl
  | cons g rest ih =>
      have count : elementsOf (g :: rest) = g.elementCount.toNat + elementsOf rest := rfl
      have narrow := uint32_signed_exact g.elementCount (by omega)
      have next : (offset + g.elementCount.toInt32).toInt = (position + g.elementCount.toNat : Nat) := by
        rw [int32_add_exact _ _ (by omega) (by omega)]
        omega
      have next' : (offset' + g.elementCount.toInt32).toInt =
          (position + g.elementCount.toNat : Nat) + shift := by
        rw [int32_add_exact _ _ (by omega) (by omega)]
        omega
      have tail := ih (fun other member => own other (List.mem_cons_of_mem g member))
        (position + g.elementCount.toNat) next next' (by omega) (by omega)
      have values : g.skipped = false → gateValues b' offset' g = gateValues b offset g := by
        intro kept
        refine List.map_congr_left fun j member => ?_
        obtain ⟨nonneg, inside⟩ := own g List.mem_cons_self kept j member
        have same := reads (b.getRawUnprocessed + offset.toInt + (j / 2).toInt) (by omega) (by omega)
        have place : b'.getRawUnprocessed + offset'.toInt + (j / 2).toInt =
            b.getRawUnprocessed + offset.toInt + (j / 2).toInt + shift := by omega
        rw [sampleAt, sampleAt, place, same]
      cases skipped : g.skipped with
      | true => simp only [gateReads, skipped, ↓reduceIte, tail]
      | false =>
          simp only [gateReads, skipped, Bool.false_eq_true, ↓reduceIte, values skipped, tail]

theorem elementsOf_append (first second : List GateData) :
    elementsOf (first ++ second) = elementsOf first + elementsOf second := by
  simp [elementsOf]

theorem offsetBehind_exact (offset : Int32) (gates : List GateData) (position : Nat)
    (here : offset.toInt = position) (width : position + elementsOf gates < 2 ^ 31) :
    (offsetBehind offset gates).toInt = (position + elementsOf gates : Nat) := by
  induction gates generalizing offset position with
  | nil => simpa [elementsOf, offsetBehind] using here
  | cons g rest ih =>
      have count : elementsOf (g :: rest) = g.elementCount.toNat + elementsOf rest := rfl
      have narrow := uint32_signed_exact g.elementCount (by omega)
      rw [offsetBehind_cons, ih _ (position + g.elementCount.toNat) _ (by omega)]
      · omega
      · rw [int32_add_exact _ _ (by omega) (by omega)]
        omega

namespace Insertion

/-- Every other gate stays inside its elements, all of which the buffer holds and an int
counts, the ones put in as well. -/
structure ReadsOwn (i : Insertion) : Prop where
  own : ∀ g ∈ i.front ++ i.back ++ gatesOf i.later, g.ReadsOwn
  raw : 0 ≤ i.buffer.getRawUnprocessed
  held : i.place ≤ i.buffer.data.length
  width : elementsOf (gatesOf i.earlier ++ i.front ++ i.back ++ gatesOf i.later) +
    i.gate.elementCount.toNat < 2 ^ 31

theorem longer_front (i : Insertion) (held : i.place ≤ i.buffer.data.length) (index : Int)
    (inFront : index.toNat < i.place) : i.longer.read index = i.buffer.read index := by
  have taken : (i.buffer.data.take i.place).length = i.place := by
    rw [List.length_take, Nat.min_eq_left held]
  simp only [AcquisitionBuffer.read, longer, List.getD_eq_getElem?_getD]
  rw [List.append_assoc, List.getElem?_append_left (by omega), List.getElem?_take_of_lt inFront]

theorem longer_behind (i : Insertion) (held : i.place ≤ i.buffer.data.length) (index : Int)
    (nonneg : 0 ≤ index) (behind : i.place ≤ index.toNat) :
    i.longer.read (index + i.gate.elementCount.toNat) = i.buffer.read index := by
  have taken : (i.buffer.data.take i.place).length = i.place := by
    rw [List.length_take, Nat.min_eq_left held]
  have moved : (index + i.gate.elementCount.toNat).toNat = index.toNat + i.elements.length := by
    rw [i.counted]
    omega
  simp only [AcquisitionBuffer.read, longer, List.getD_eq_getElem?_getD, moved]
  rw [List.append_assoc, List.getElem?_append_right (by omega),
    List.getElem?_append_right (by omega), List.getElem?_drop, taken]
  congr 2
  omega

/-- Such gates find their samples, so the gap and the `reserve` are all that is left. -/
theorem neutral_iff_gap (i : Insertion) (reads : i.ReadsOwn) :
    i.Neutral ↔ GapKept i.buffer i.record.parameters.offsetBins i.start i.front i.back i.gate ∧
      0 ≤ reserved (i.front ++ i.gate :: i.back) := by
  have width := reads.width
  have raw := reads.raw
  simp only [elementsOf_append] at width
  have place : i.place = (i.buffer.getRawUnprocessed + elementsOf (gatesOf i.earlier) +
      elementsOf i.front).toNat := by
    rw [Insertion.place, elementsOf_append]
    congr 1
    omega
  have start : i.start.toInt = (elementsOf (gatesOf i.earlier) : Nat) := by
    have exact := offsetBehind_exact 0 (gatesOf i.earlier) 0 rfl (by omega)
    rwa [Nat.zero_add] at exact
  have reached := offsetBehind_exact i.start i.front _ start (by omega)
  have moved : (i.reached + i.gate.elementCount.toInt32).toInt =
      (elementsOf (gatesOf i.earlier) + elementsOf i.front : Nat) + i.gate.elementCount.toNat := by
    have narrow := uint32_signed_exact i.gate.elementCount (by omega)
    rw [← Insertion.reached] at reached
    rw [int32_add_exact _ _ (by omega) (by omega)]
    omega
  have still : i.longer.getRawUnprocessed = i.buffer.getRawUnprocessed := rfl
  -- The gates in front keep their elements in place; those behind move with theirs.
  have inFront : gateReads i.longer i.front i.start = gateReads i.buffer i.front i.start := by
    refine gateReads_moved still 0 (elementsOf (gatesOf i.earlier))
      (elementsOf (gatesOf i.earlier) + elementsOf i.front) (by omega) (fun index low high => ?_)
      (fun g member => reads.own g (by simp [member])) _ start (by simpa using start)
      (Nat.le_refl _) (Nat.le_refl _)
    rw [Int.natCast_zero, Int.add_zero]
    exact i.longer_front reads.held index (by omega)
  have behind : gateReads i.longer (i.back ++ gatesOf i.later)
      (i.reached + i.gate.elementCount.toInt32) =
        gateReads i.buffer (i.back ++ gatesOf i.later) i.reached := by
    refine gateReads_moved still i.gate.elementCount.toNat
      (elementsOf (gatesOf i.earlier) + elementsOf i.front)
      (elementsOf (gatesOf i.earlier) + elementsOf i.front + elementsOf (i.back ++ gatesOf i.later))
      (by rw [elementsOf_append]; omega) (fun index low high => ?_)
      (fun g member => reads.own g (by
        rw [List.append_assoc]
        exact List.mem_append_right _ member)) _ reached moved (Nat.le_refl _) (Nat.le_refl _)
    exact i.longer_behind reads.held index (by omega) (by omega)
  exact ⟨fun neutral => ⟨neutral.gap, neutral.reserve⟩,
    fun ⟨gap, reserve⟩ => ⟨inFront, behind, gap, reserve⟩⟩

end Insertion

/-- A gate that `process` skips leaves its trigger's scan and all later ones as they were
exactly where it is neutral. -/
theorem insertion_unmoved_iff (i : Insertion) (results : List EncodedResult)
    (ran : i.record.process = .ok results) : i.Unmoved results ↔ i.Neutral := by
  obtain ⟨runs, rfl⟩ := UimfAcquisitionRecord.processStamps_iff.mp ran
  have inserted := i.inserted_runs runs
  have same := i.scans_same_iff
  rw [← i.scans_dropped, ← i.inserted_dropped] at same
  constructor
  · rintro ⟨results', ran', scans⟩
    obtain ⟨runs', rfl⟩ := UimfAcquisitionRecord.processStamps_iff.mp ran'
    obtain ⟨inFront, behind, gap⟩ := same.mp scans
    exact ⟨inFront, behind, gap, inserted.mp runs'⟩
  · intro neutral
    exact ⟨_, UimfAcquisitionRecord.processStamps_iff.mpr ⟨inserted.mpr neutral.reserve, rfl⟩,
      same.mpr ⟨neutral.inFront, neutral.behind, neutral.gap⟩⟩

/-- Samples 0 to 7 and 24 to 31, and between them a gate that ends at 16 and starts at 23. -/
def betweenGates : Insertion where
  record :=
    { parameters := ⟨0, 0, 0, 0, 1, 0, ""⟩
      acquiredData :=
        ⟨⟨List.replicate 32 0, 32, 0, 0, 0, 0⟩, [⟨7, 1, 0, [⟨1, 0, 2, 8, 16⟩, ⟨4, 0, 5, 8, 16⟩]⟩], 0⟩
      startScanIndex := 0 }
  earlier := []
  trigger := ⟨7, 1, 0, [⟨1, 0, 2, 8, 16⟩, ⟨4, 0, 5, 8, 16⟩]⟩
  later := []
  stamps := rfl
  front := [⟨1, 0, 2, 8, 16⟩]
  back := [⟨4, 0, 5, 8, 16⟩]
  gates := rfl
  gate := ⟨3, 7, 4, 0, 16⟩
  skipped := by decide
  elements := List.replicate 16 0
  counted := by decide

def betweenResult : EncodedResult :=
  { scan := 0
    nonZeroCount := 16
    encodedSpectra := List.replicate 8 32768 ++ [-16] ++ List.replicate 8 32768
    tic := 524288
    bpi := 32768
    indexMaxIntensity := 0
    timestamp := 7 }

theorem insertion_unmoved_between :
    betweenGates.record.process = .ok [betweenResult] ∧
      (betweenGates.Unmoved [betweenResult] ↔ betweenGates.Neutral) := by
  have ran : betweenGates.record.process = .ok [betweenResult] := by decide +kernel
  exact ⟨ran, insertion_unmoved_iff betweenGates [betweenResult] ran⟩

/-- The gap of 16 bins in front of the second gate becomes one of 8. -/
theorem insertion_moves :
    ¬ ∀ (i : Insertion) (results : List EncodedResult), i.record.process = .ok results →
      i.Unmoved results := by
  intro always
  have ran : betweenGates.record.process = .ok [betweenResult] := by decide +kernel
  obtain ⟨results', ran', scans⟩ := always betweenGates [betweenResult] ran
  have spectra : (betweenGates.inserted.process.toOption.map fun results =>
      results.map EncodedResult.encodedSpectra) =
        some [List.replicate 8 32768 ++ [-8] ++ List.replicate 8 32768] := by decide +kernel
  rw [ran', Except.toOption, Option.map_some, Option.some.injEq] at spectra
  obtain ⟨moved, rfl, written⟩ := List.map_eq_singleton_iff.mp spectra
  have same := (List.forall₂_cons.mp scans).1.encodedSpectra
  rw [written] at same
  exact absurd same (by decide)

end AqMD3.Acquisition
