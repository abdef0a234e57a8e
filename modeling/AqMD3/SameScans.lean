import AqMD3.ScanSummary
import AqMD3.GateReads

/-!
When two scans are the same. Their samples and gaps decide it: the gates alone decide
the gaps, and the encoding gives back the samples every gate has read. `process` returns
the scans of all triggers as soon as nothing stops one of them.
-/

namespace AqMD3.Acquisition

open FixedWidth CountedLoop RunLength GapPieces RunningPeak

/-- What a scan's gaps and samples decide of its result. -/
structure SameScan (er er' : EncodedResult) : Prop where
  encodedSpectra : er'.encodedSpectra = er.encodedSpectra
  nonZeroCount : er'.nonZeroCount = er.nonZeroCount
  tic : er'.tic = er.tic
  bpi : er'.bpi = er.bpi
  indexMaxIntensity : er'.indexMaxIntensity = er.indexMaxIntensity

theorem gapCode_none {gap : Int32} (none : gap ≤ 0) : gapCode gap = [] := by
  have limit := Int32.le_iff_toInt_le.mp none
  rw [Int32.toInt_zero] at limit
  rw [gapCode, if_neg, if_neg]
  · rw [Int32.lt_iff_toInt_lt, Int32.toInt_zero]
    omega
  · rintro rfl
    exact absurd limit (by decide)

/-- Two gaps are written alike when they are one, or when neither is written. -/
theorem gapCode_same_iff (gap gap' : Int32) :
    gapCode gap' = gapCode gap ↔ gap' = gap ∨ gap ≤ 0 ∧ gap' ≤ 0 := by
  constructor
  · intro same
    have first := (gapCode_negative gap).2
    have second := (gapCode_negative gap').2
    rw [same, first] at second
    simp only [Int32.le_iff_toInt_le, Int32.toInt_zero, ← Int32.toInt_inj]
    omega
  · rintro (same | ⟨first, second⟩)
    · rw [same]
    · rw [gapCode_none first, gapCode_none second]

theorem int32_ofInt_moved (place : Int) (gap gap' : Int32) :
    Int32.ofInt (place + (gap'.toInt - gap.toInt)) = Int32.ofInt place ↔ gap' = gap := by
  rw [Int32.ofInt_add, Int32.ofInt_sub, Int32.ofInt_toInt, Int32.ofInt_toInt]
  constructor
  · intro same
    have none : gap' - gap = 0 := by
      rw [← Int32.add_right_inj (Int32.ofInt place), same, Int32.add_zero]
    rw [Int32.sub_eq_iff_eq_add.mp none, Int32.zero_add]
  · rintro rfl
    rw [Int32.sub_self, Int32.add_zero]

def samplesIn (pieces : List ScanPiece) : List Int := (pieces.map ScanPiece.exact).flatMap Piece.values

theorem peakOf_eq_best (pieces : List ScanPiece) (bin : Int) :
    ((placesFrom id bin (pieces.map ScanPiece.exact)).foldl improve (0, 0)).2 =
      peakOf (samplesIn pieces) :=
  running_value _ bin

/-- One gap of a scan written anew. -/
structure Regapped (front rest : List ScanPiece) (values : List Int32) (gap gap' : Int32) : Prop where
  unchanged : gap' = gap ∨ gap ≤ 0 ∧ gap' ≤ 0 ∧
    ∀ v ∈ samplesIn (⟨gap, values⟩ :: rest), v ≤ peakOf (samplesIn front)

section Regap

variable {front rest : List ScanPiece} {values : List Int32} {gap gap' : Int32}

theorem samplesIn_regap :
    samplesIn (front ++ ⟨gap', values⟩ :: rest) = samplesIn (front ++ ⟨gap, values⟩ :: rest) := by
  simp [samplesIn, ScanPiece.exact]

theorem samplesIn_append (first second : List ScanPiece) :
    samplesIn (first ++ second) = samplesIn first ++ samplesIn second := by
  simp [samplesIn]

/-- The maximum is behind the gap, and moves with it, unless it is in front. -/
theorem peak_regap :
    Int32.ofInt ((placesFrom id 0
        ((front ++ ⟨gap', values⟩ :: rest).map ScanPiece.exact)).foldl improve (0, 0)).1 =
      Int32.ofInt ((placesFrom id 0
        ((front ++ ⟨gap, values⟩ :: rest).map ScanPiece.exact)).foldl improve (0, 0)).1 ↔
      gap' = gap ∨ ∀ v ∈ samplesIn (⟨gap, values⟩ :: rest), v ≤ peakOf (samplesIn front) := by
  obtain ⟨past, places⟩ := placesFrom_append id (front.map ScanPiece.exact) 0
  -- What is in front of the gap keeps its places; what is behind it starts where it ends.
  have behind (g : Int32) :
      placesFrom id 0 ((front ++ ⟨g, values⟩ :: rest).map ScanPiece.exact) =
        placesFrom id 0 (front.map ScanPiece.exact) ++
          placesFrom id (past + g.toInt) ((⟨0, values⟩ :: rest : List ScanPiece).map ScanPiece.exact) := by
    rw [List.map_append, places]
    simp [placesFrom, ScanPiece.exact]
  have moved : placesFrom id (past + gap'.toInt)
      ((⟨0, values⟩ :: rest : List ScanPiece).map ScanPiece.exact) =
        (placesFrom id (past + gap.toInt)
          ((⟨0, values⟩ :: rest : List ScanPiece).map ScanPiece.exact)).map
            fun place => (place.1 + (gap'.toInt - gap.toInt), place.2) := by
    rw [← placesFrom_moved]
    congr 1
    omega
  have samples : (placesFrom id (past + gap.toInt)
      ((⟨0, values⟩ :: rest : List ScanPiece).map ScanPiece.exact)).map Prod.snd =
        samplesIn (⟨gap, values⟩ :: rest) := by
    rw [placesFrom_values]
    simp [samplesIn, ScanPiece.exact]
  have best := peakOf_eq_best front 0
  rw [behind gap', behind gap, List.foldl_append, List.foldl_append, moved,
    improve_moved (fun bin => bin + (gap'.toInt - gap.toInt))]
  generalize (placesFrom id 0 (front.map ScanPiece.exact)).foldl improve (0, 0) = top at best ⊢
  generalize placesFrom id (past + gap.toInt) _ = tail at samples ⊢
  rw [← best, ← samples]
  -- A maximum found behind the gap moves with it, and one in front stays.
  by_cases raised : top.2 < (tail.foldl improve top).2
  · rw [if_pos raised, int32_ofInt_moved]
    have present := List.mem_of_find?_eq_some (improve_first tail top raised)
    refine ⟨Or.inl, fun either => either.resolve_right fun low => ?_⟩
    exact absurd raised (Int.not_lt.mpr (low _ (List.mem_map.mpr ⟨_, present, rfl⟩)))
  · have same : (tail.foldl improve top).2 = top.2 :=
      Int.le_antisymm (Int.not_lt.mp raised) (improve_grows tail top)
    rw [if_neg raised, improve_stays tail top same]
    refine ⟨fun _ => Or.inr fun v member => ?_, fun _ => rfl⟩
    obtain ⟨place, inside, rfl⟩ := List.mem_map.mp member
    rw [← same]
    exact improve_largest tail top place inside

theorem encoding_append (first second : List ScanPiece) :
    encoding (first ++ second) = encoding first ++ encoding second := List.flatMap_append

theorem encoding_regap :
    encoding (front ++ ⟨gap', values⟩ :: rest) = encoding (front ++ ⟨gap, values⟩ :: rest) ↔
      gap' = gap ∨ gap ≤ 0 ∧ gap' ≤ 0 := by
  rw [encoding_append, encoding_append, List.append_cancel_left_eq, ← gapCode_same_iff]
  simp only [encoding, List.flatMap_cons, List.append_cancel_right_eq]

variable {r r' : UimfAcquisitionRecord} {n n' : Nat} {trig trig' : TriggerData}

/-- Over the same samples only the encoding and the place of the maximum can differ. -/
theorem sameScan_iff {pieces pieces' : List ScanPiece} (stored : Stored pieces)
    (stored' : Stored pieces') (samples : samplesIn pieces' = samplesIn pieces) :
    SameScan (r.result n trig (pieces.foldl Scan.add .begin))
        (r'.result n' trig' (pieces'.foldl Scan.add .begin)) ↔
      encoding pieces' = encoding pieces ∧
        Int32.ofInt ((placesFrom id 0 (pieces'.map ScanPiece.exact)).foldl improve (0, 0)).1 =
          Int32.ofInt ((placesFrom id 0 (pieces.map ScanPiece.exact)).foldl improve (0, 0)).1 := by
  obtain ⟨_, tally⟩ := tally_scan stored
  obtain ⟨_, tally'⟩ := tally_scan stored'
  rw [← samplesIn] at tally tally'
  rw [samples] at tally'
  rw [← encoded_scan pieces, ← encoded_scan pieces', ← tally.index, ← tally'.index]
  constructor
  · intro same
    exact ⟨same.encodedSpectra, same.indexMaxIntensity⟩
  · rintro ⟨spectra, index⟩
    refine ⟨spectra, tally'.count.trans tally.count.symm, ?_, ?_, index⟩
    · have total := tally'.total.trans tally.total.symm
      exact congrArg UInt64.toInt64 (UInt64.toNat_inj.mp (Int.ofNat.inj total))
    · have value := tally.bpi.trans (peakOf_eq_best pieces 0)
      have value' := tally'.bpi.trans (peakOf_eq_best pieces' 0)
      rw [samples] at value'
      exact Int64.toInt_inj.mp (value'.trans value.symm)

theorem sameScan_samples {pieces pieces' : List ScanPiece} (stored : Stored pieces)
    (stored' : Stored pieces')
    (same : SameScan (r.result n trig (pieces.foldl Scan.add .begin))
      (r'.result n' trig' (pieces'.foldl Scan.add .begin))) :
    samplesIn pieces' = samplesIn pieces := by
  have spectra := same.encodedSpectra
  simp only [UimfAcquisitionRecord.result] at spectra
  have samples := congrArg storedSamples spectra
  rwa [storedSamples_scan stored, storedSamples_scan stored'] at samples

theorem sameScan_of_pieces {pieces : List ScanPiece} :
    SameScan (r.result n trig (pieces.foldl Scan.add .begin))
      (r'.result n' trig' (pieces.foldl Scan.add .begin)) := ⟨rfl, rfl, rfl, rfl, rfl⟩

/-- The scan with one gap written anew is the same scan exactly where that gap is. -/
theorem sameScan_regap_iff (stored : Stored (front ++ ⟨gap, values⟩ :: rest)) :
    SameScan (r.result n trig ((front ++ ⟨gap, values⟩ :: rest).foldl Scan.add .begin))
        (r'.result n' trig' ((front ++ ⟨gap', values⟩ :: rest).foldl Scan.add .begin)) ↔
      Regapped front rest values gap gap' := by
  have stored' : Stored (front ++ ⟨gap', values⟩ :: rest) := by
    intro p member
    rcases List.mem_append.mp member with inFront | behind
    · exact stored p (List.mem_append_left _ inFront)
    · rcases List.mem_cons.mp behind with rfl | inRest
      · exact stored ⟨gap, values⟩ (List.mem_append_right _ List.mem_cons_self)
      · exact stored p (List.mem_append_right _ (List.mem_cons_of_mem _ inRest))
  rw [sameScan_iff stored stored' samplesIn_regap, encoding_regap, peak_regap]
  exact ⟨fun same => ⟨by tauto⟩, fun same => by have := same.unchanged; tauto⟩

end Regap

/-- The samples that each gate's loop reads, none for a skipped gate. -/
def gateReads (buffer : AcquisitionBuffer) : List GateData → Int32 → List (List Int32)
  | [], _ => []
  | g :: rest, offset =>
      (if g.skipped then [] else gateValues buffer offset g) ::
        gateReads buffer rest (offset + g.elementCount.toInt32)

theorem offsetBehind_cons (offset : Int32) (g : GateData) (rest : List GateData) :
    offsetBehind offset (g :: rest) = offsetBehind (offset + g.elementCount.toInt32) rest := rfl

theorem offsetBehind_append (offset : Int32) (first second : List GateData) :
    offsetBehind offset (first ++ second) = offsetBehind (offsetBehind offset first) second :=
  List.foldl_append

section Reads

variable {b b' : AcquisitionBuffer} {offsetBins : UInt32}

theorem gateReads_append (b : AcquisitionBuffer) (first second : List GateData) (offset : Int32) :
    gateReads b (first ++ second) offset =
      gateReads b first offset ++ gateReads b second (offsetBehind offset first) := by
  induction first generalizing offset with
  | nil => rfl
  | cons g rest ih =>
      rw [List.cons_append, gateReads, gateReads, ih, List.cons_append, offsetBehind_cons]

theorem gateReads_lengths (b b' : AcquisitionBuffer) (gates : List GateData) (offset offset' : Int32) :
    (gateReads b' gates offset').map List.length = (gateReads b gates offset).map List.length := by
  induction gates generalizing offset offset' with
  | nil => rfl
  | cons g rest ih =>
      have tail := ih (offset + g.elementCount.toInt32) (offset' + g.elementCount.toInt32)
      by_cases skipped : g.skipped = true
      · simp only [gateReads, skipped, ↓reduceIte, List.map_cons, tail]
      · simp only [gateReads, if_neg skipped, List.map_cons, tail, gateValues, List.length_map]

theorem scanPieces_append (b : AcquisitionBuffer) (offsetBins : UInt32) (first second : List GateData)
    (prev : Option GateData) (offset : Int32) :
    scanPieces b offsetBins prev (first ++ second) offset =
      scanPieces b offsetBins prev first offset ++
        scanPieces b offsetBins (first.getLast?.or prev) second (offsetBehind offset first) := by
  induction first generalizing prev offset with
  | nil => rfl
  | cons g rest ih =>
      rw [List.cons_append, scanPieces, scanPieces, ih, List.append_assoc, List.getLast?_cons,
        offsetBehind_cons]
      cases rest.getLast? with
      | none => simp only [Option.none_or, Option.getD_none, Option.some_or]
      | some last => simp only [Option.some_or, Option.getD_some]

/-- The gates alone decide the gaps, so scans that read the same samples are the same. -/
theorem scanPieces_same {gates : List GateData} {offset offset' : Int32}
    (same : gateReads b' gates offset' = gateReads b gates offset) (prev : Option GateData) :
    scanPieces b' offsetBins prev gates offset' = scanPieces b offsetBins prev gates offset := by
  induction gates generalizing prev offset offset' with
  | nil => rfl
  | cons g rest ih =>
      obtain ⟨here, later⟩ := List.cons.inj same
      by_cases skipped : g.skipped = true
      · simp only [scanPieces, skipped, ↓reduceIte, ih later]
      · rw [if_neg skipped, if_neg skipped] at here
        simp only [scanPieces, if_neg skipped, here, ih later]

theorem scanPieces_samples (b : AcquisitionBuffer) (offsetBins : UInt32) (gates : List GateData)
    (prev : Option GateData) (offset : Int32) :
    samplesIn (scanPieces b offsetBins prev gates offset) =
      (gateReads b gates offset).flatten.map Int32.toInt := by
  induction gates generalizing prev offset with
  | nil => rfl
  | cons g rest ih =>
      rw [scanPieces, samplesIn_append, ih, gateReads, List.flatten_cons, List.map_append]
      by_cases skipped : g.skipped = true
      · simp [skipped, samplesIn]
      · simp [skipped, samplesIn, ScanPiece.exact]

/-- An encoding gives back the samples of every gate. -/
theorem gateReads_of_samples {gates : List GateData} {offset offset' : Int32}
    (same : (gateReads b' gates offset').flatten.map Int32.toInt =
      (gateReads b gates offset).flatten.map Int32.toInt) :
    gateReads b' gates offset' = gateReads b gates offset := by
  refine List.eq_iff_flatten_eq.mpr ⟨?_, gateReads_lengths b b' gates offset offset'⟩
  exact List.map_injective_iff.mpr (fun _ _ => Int32.toInt_inj.mp) same

end Reads

/-- Nothing stops the scans of these triggers: no `reserve` of a negative count and no
samples loop without an end. -/
def Runs (stamps : List TriggerData) : Prop :=
  ∀ t ∈ stamps, 0 ≤ reserved t.gateData ∧ ∀ g ∈ t.gateData, g.Ends

theorem processGates_ends {b : AcquisitionBuffer} {offsetBins : UInt32} {gates : List GateData}
    {prev : Option GateData} {offset offset' : Int32} {s last : Scan}
    (ran : processGates b offsetBins prev gates offset s = .ok (last, offset')) :
    ∀ g ∈ gates, g.Ends :=
  ((processGates_congr b b offsetBins rfl gates prev offset s fun _ _ _ _ _ _ _ => rfl).2
    last offset' ran).2

theorem processGates_run (b : AcquisitionBuffer) (offsetBins : UInt32) {gates : List GateData}
    (ends : ∀ g ∈ gates, g.Ends) (prev : Option GateData) (offset : Int32) (s : Scan) :
    processGates b offsetBins prev gates offset s =
      .ok ((scanPieces b offsetBins prev gates offset).foldl Scan.add s, offsetBehind offset gates) := by
  induction gates generalizing prev offset s with
  | nil => rfl
  | cons g rest ih =>
      have here : ∃ next, processGate b offsetBins offset prev g s = .ok next := by
        unfold processGate
        by_cases skipped : g.skipped = true
        · exact ⟨s, if_pos skipped⟩
        · rw [Bool.not_eq_true] at skipped
          rw [forInt_ends _ _ (ends g List.mem_cons_self skipped)]
          simp [skipped]
      obtain ⟨next, here⟩ := here
      rw [processGates, here, scanPieces, List.foldl_append, ← processGate_pieces here,
        offsetBehind_cons]
      exact ih (fun other member => ends other (List.mem_cons_of_mem g member)) _ _ _

namespace UimfAcquisitionRecord

def scanResults (r : UimfAcquisitionRecord) : Nat → List TriggerData → Int32 → List EncodedResult
  | _, [], _ => []
  | n, trig :: rest, offset =>
      r.result n trig ((scanPieces r.acquiredData.samplesBuffer r.parameters.offsetBins none
          trig.gateData offset).foldl Scan.add .begin) ::
        r.scanResults (n + 1) rest (offsetBehind offset trig.gateData)

theorem processTrigger_iff {r : UimfAcquisitionRecord} {offset offset' : Int32} {trig : TriggerData}
    {s : Scan} :
    r.processTrigger offset trig = .ok (s, offset') ↔
      (0 ≤ reserved trig.gateData ∧ ∀ g ∈ trig.gateData, g.Ends) ∧
        s = (scanPieces r.acquiredData.samplesBuffer r.parameters.offsetBins none
          trig.gateData offset).foldl Scan.add .begin ∧
        offset' = offsetBehind offset trig.gateData := by
  unfold processTrigger
  by_cases capacity : reserved trig.gateData < 0
  · rw [if_pos capacity]
    constructor
    · intro ran
      cases ran
    · rintro ⟨⟨fits, _⟩, _⟩
      exact absurd capacity (Int32.not_lt.mpr fits)
  · rw [if_neg capacity]
    constructor
    · intro ran
      exact ⟨⟨Int32.not_lt.mp capacity, processGates_ends ran⟩, processGates_pieces ran⟩
    · rintro ⟨⟨_, ends⟩, rfl, rfl⟩
      exact processGates_run _ _ ends none offset .begin

/-- `process` returns the scans of all triggers, or stops. -/
theorem processStamps_iff {r : UimfAcquisitionRecord} {n : Nat} {stamps : List TriggerData}
    {offset : Int32} {results : List EncodedResult} :
    r.processStamps n stamps offset = .ok results ↔
      Runs stamps ∧ results = r.scanResults n stamps offset := by
  induction stamps generalizing n offset results with
  | nil =>
      rw [processStamps, scanResults, Except.ok.injEq]
      exact ⟨fun same => ⟨fun _ member => absurd member List.not_mem_nil, same.symm⟩,
        fun same => same.2.symm⟩
  | cons trig rest ih =>
      rw [Runs, List.forall_mem_cons, ← Runs]
      cases here : r.processTrigger offset trig with
      | error fault =>
          simp only [processStamps, here, reduceCtorEq, false_iff]
          rintro ⟨⟨first, _⟩, _⟩
          rw [processTrigger_iff.mpr ⟨first, rfl, rfl⟩] at here
          cases here
      | ok outcome =>
          obtain ⟨s, next⟩ := outcome
          obtain ⟨first, scan, behind⟩ := processTrigger_iff.mp here
          rw [scanResults, ← scan, ← behind]
          cases tail : r.processStamps (n + 1) rest next with
          | error fault =>
              simp only [processStamps, here, tail, reduceCtorEq, false_iff]
              rintro ⟨⟨_, later⟩, _⟩
              rw [ih.mpr ⟨later, rfl⟩] at tail
              cases tail
          | ok results' =>
              obtain ⟨later, rfl⟩ := ih.mp tail
              simp only [processStamps, here, tail, Except.ok.injEq]
              exact ⟨fun same => ⟨⟨first, later⟩, same.symm⟩, fun same => same.2.symm⟩

end UimfAcquisitionRecord

def gatesOf (stamps : List TriggerData) : List GateData := stamps.flatMap TriggerData.gateData

theorem gatesOf_cons (trig : TriggerData) (rest : List TriggerData) :
    gatesOf (trig :: rest) = trig.gateData ++ gatesOf rest := List.flatMap_cons

theorem scanResults_length (r : UimfAcquisitionRecord) (n : Nat) (stamps : List TriggerData)
    (offset : Int32) : (r.scanResults n stamps offset).length = stamps.length := by
  induction stamps generalizing n offset with
  | nil => rfl
  | cons trig rest ih => rw [UimfAcquisitionRecord.scanResults, List.length_cons, ih, List.length_cons]

theorem scanResults_append (r : UimfAcquisitionRecord) (n : Nat) (first second : List TriggerData)
    (offset : Int32) :
    r.scanResults n (first ++ second) offset =
      r.scanResults n first offset ++
        r.scanResults (n + first.length) second (offsetBehind offset (gatesOf first)) := by
  induction first generalizing n offset with
  | nil => rfl
  | cons trig rest ih =>
      rw [List.cons_append, UimfAcquisitionRecord.scanResults, UimfAcquisitionRecord.scanResults, ih,
        gatesOf_cons, offsetBehind_append, List.length_cons, List.cons_append, Nat.add_assoc,
        Nat.add_comm 1]

/-- The scans of untouched triggers are the same exactly where they read the same samples. -/
theorem laterScans_iff {r r' : UimfAcquisitionRecord} {n : Nat} {stamps : List TriggerData}
    {offset offset' : Int32} (bins : r'.parameters.offsetBins = r.parameters.offsetBins) :
    List.Forall₂ SameScan (r.scanResults n stamps offset) (r'.scanResults n stamps offset') ↔
      gateReads r'.acquiredData.samplesBuffer (gatesOf stamps) offset' =
        gateReads r.acquiredData.samplesBuffer (gatesOf stamps) offset := by
  induction stamps generalizing n offset offset' with
  | nil => exact ⟨fun _ => rfl, fun _ => .nil⟩
  | cons trig rest ih =>
      rw [UimfAcquisitionRecord.scanResults, UimfAcquisitionRecord.scanResults, List.forall₂_cons, ih,
        bins, gatesOf_cons, gateReads_append, gateReads_append]
      constructor
      · rintro ⟨here, later⟩
        have samples := sameScan_samples (scanPieces_stored _ _ _ _ _)
          (scanPieces_stored _ _ _ _ _) here
        rw [scanPieces_samples, scanPieces_samples] at samples
        rw [gateReads_of_samples samples, later]
      · intro same
        obtain ⟨here, later⟩ := List.append_inj same (by
          have counts := congrArg List.length (gateReads_lengths r.acquiredData.samplesBuffer
            r'.acquiredData.samplesBuffer trig.gateData offset offset')
          rwa [List.length_map, List.length_map] at counts)
        rw [scanPieces_same here]
        exact ⟨sameScan_of_pieces, later⟩

end AqMD3.Acquisition
