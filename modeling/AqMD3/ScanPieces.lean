import Mathlib.Data.List.Forall2
import AqMD3.GapPieces
import AqMD3.RunningPeak
import AqMD3.SpectrumEncoding

/-!
A trigger's scan in pieces: the gap and the samples of every gate that is not skipped.
The encoding is theirs one after another, and so are the counters kept beside it; the
bins these count are the gates' own, where a gap may be below zero.
-/

namespace AqMD3.Acquisition

open FixedWidth CountedLoop RunLength GapPieces RunningPeak

structure ScanPiece where
  gap : Int32
  values : List Int32
  deriving DecidableEq

def ScanPiece.exact (p : ScanPiece) : Piece := ⟨p.gap.toInt, p.values.map Int32.toInt⟩

/-- The samples of a gate, as the samples loop reads them. -/
def gateValues (buffer : AcquisitionBuffer) (offset : Int32) (g : GateData) : List Int32 :=
  (indices g.gateStartSamplePos.toInt32 g.readBound.toInt).map
    (sampleAt buffer (buffer.getRawUnprocessed + offset.toInt))

def scanPieces (buffer : AcquisitionBuffer) (offsetBins : UInt32) :
    Option GateData → List GateData → Int32 → List ScanPiece
  | _, [], _ => []
  | prev, g :: rest, offset =>
      (if g.skipped then [] else [⟨gateZeroCount offsetBins prev g, gateValues buffer offset g⟩]) ++
        scanPieces buffer offsetBins (some g) rest (offset + g.elementCount.toInt32)

/-- The offset behind some gates. -/
def offsetBehind (offset : Int32) (gates : List GateData) : Int32 :=
  gates.foldl (fun offset g => offset + g.elementCount.toInt32) offset

def Scan.add (s : Scan) (p : ScanPiece) : Scan := p.values.foldl Scan.store (s.skip p.gap)

theorem processGate_pieces {buffer : AcquisitionBuffer} {offsetBins : UInt32} {offset : Int32}
    {prev : Option GateData} {g : GateData} {s next : Scan}
    (ran : processGate buffer offsetBins offset prev g s = .ok next) :
    next = (if g.skipped then [] else
      [⟨gateZeroCount offsetBins prev g, gateValues buffer offset g⟩]).foldl Scan.add s := by
  unfold processGate at ran
  split at ran
  · rename_i skipped
    cases ran
    rw [if_pos skipped]
    rfl
  · rename_i kept
    rw [if_neg kept]
    by_cases ends : Ends g.gateStartSamplePos.toInt32 g.readBound.toInt
    · simp only [forInt_ends _ _ ends, Except.ok.injEq] at ran
      exact ran.symm
    · simp only [forInt_endless _ _ ends] at ran
      cases ran

theorem processGates_pieces {buffer : AcquisitionBuffer} {offsetBins : UInt32}
    {gates : List GateData} {prev : Option GateData} {offset offset' : Int32} {s last : Scan}
    (ran : processGates buffer offsetBins prev gates offset s = .ok (last, offset')) :
    last = (scanPieces buffer offsetBins prev gates offset).foldl Scan.add s ∧
      offset' = offsetBehind offset gates := by
  induction gates generalizing prev offset s with
  | nil =>
      cases ran
      exact ⟨rfl, rfl⟩
  | cons g rest ih =>
      simp only [processGates] at ran
      split at ran
      · cases ran
      · rename_i next here
        obtain ⟨folded, behind⟩ := ih ran
        refine ⟨?_, behind⟩
        rw [folded, processGate_pieces here, scanPieces, List.foldl_append]

theorem gateValues_bounds (buffer : AcquisitionBuffer) (offset : Int32) (g : GateData) :
    ∀ v ∈ gateValues buffer offset g, 0 ≤ v.toInt ∧ v.toInt ≤ 65535 := by
  intro v member
  obtain ⟨i, _, rfl⟩ := List.mem_map.mp member
  have shift : AcquiredData.rangeShiftConstant.toInt = 32768 := rfl
  simp only [sampleAt]
  split
  · have bounds := lowSample_bounds (buffer.read (buffer.getRawUnprocessed + offset.toInt + (i / 2).toInt))
    rw [int32_add_exact _ _ (by rw [low_shift, shift]; omega) (by rw [low_shift, shift]; omega),
      low_shift, shift]
    omega
  · have bounds := highSample_bounds (buffer.read (buffer.getRawUnprocessed + offset.toInt + (i / 2).toInt))
    rw [int32_add_exact _ _ (by rw [high_shift, shift]; omega) (by rw [high_shift, shift]; omega),
      high_shift, shift]
    omega

/-- A stored sample is one of 0 to 65535. -/
def Stored (pieces : List ScanPiece) : Prop :=
  ∀ p ∈ pieces, ∀ v ∈ p.values, 0 ≤ v.toInt ∧ v.toInt ≤ 65535

theorem scanPieces_stored (buffer : AcquisitionBuffer) (offsetBins : UInt32) (gates : List GateData)
    (prev : Option GateData) (offset : Int32) :
    Stored (scanPieces buffer offsetBins prev gates offset) := by
  induction gates generalizing prev offset with
  | nil => exact fun p member => absurd member List.not_mem_nil
  | cons g rest ih =>
      intro p member
      rw [scanPieces] at member
      rcases List.mem_append.mp member with here | later
      · split at here
        · cases here
        · rw [List.mem_singleton.mp here]
          exact gateValues_bounds buffer offset g
      · exact ih (some g) _ p later

def encoding (pieces : List ScanPiece) : List Int32 :=
  pieces.flatMap fun p => gapCode p.gap ++ p.values

theorem encoded_pieces (pieces : List ScanPiece) (s : Scan) :
    (pieces.foldl Scan.add s).encodedSamples = s.encodedSamples ++ encoding pieces := by
  induction pieces generalizing s with
  | nil => exact (List.append_nil _).symm
  | cons p rest ih =>
      have here : (s.add p).encodedSamples = s.encodedSamples ++ (gapCode p.gap ++ p.values) := by
        rw [Scan.add, store_samples, Scan.skip, List.append_assoc]
      rw [List.foldl_cons, ih, here, List.append_assoc]
      rfl

theorem encoded_scan (pieces : List ScanPiece) :
    (pieces.foldl Scan.add .begin).encodedSamples = encoding pieces := encoded_pieces pieces .begin

/-- The entries of an encoding that are no run lengths. -/
def storedSamples (encoded : List Int32) : List Int :=
  (encoded.map Int32.toInt).filter fun v => 0 ≤ v

theorem gapCode_negative (gap : Int32) :
    (∀ v ∈ (gapCode gap).map Int32.toInt, v < 0) ∧
      (span ((gapCode gap).map Int32.toInt) : Int) = max gap.toInt 0 := by
  by_cases skips : 0 ≤ gap.toInt
  · obtain ⟨negative, spans, _⟩ := gapCode_skips gap gap.toInt.toNat (by omega)
    exact ⟨negative, by omega⟩
  · have none : gapCode gap = [] := by
      rw [gapCode, if_neg, if_neg]
      · rw [Int32.lt_iff_toInt_lt, Int32.toInt_zero]
        omega
      · rintro rfl
        exact skips (by decide)
    rw [none, List.map_nil, span]
    exact ⟨by simp, by omega⟩

theorem storedSamples_encoding {pieces : List ScanPiece} (stored : Stored pieces) :
    storedSamples (encoding pieces) = (pieces.map ScanPiece.exact).flatMap Piece.values := by
  induction pieces with
  | nil => rfl
  | cons p rest ih =>
      have tail := ih fun q member => stored q (List.mem_cons_of_mem p member)
      have gap : ((gapCode p.gap).map Int32.toInt).filter (fun v => decide (0 ≤ v)) = [] := by
        rw [List.filter_eq_nil_iff]
        intro v member
        simpa using (gapCode_negative p.gap).1 v member
      have values : (p.values.map Int32.toInt).filter (fun v => decide (0 ≤ v)) =
          p.values.map Int32.toInt := by
        rw [List.filter_eq_self]
        intro v member
        obtain ⟨w, inside, rfl⟩ := List.mem_map.mp member
        simpa using (stored p List.mem_cons_self w inside).1
      rw [List.map_cons, List.flatMap_cons, ← tail]
      simp only [storedSamples, encoding, List.flatMap_cons, List.map_append, List.filter_append, gap,
        values, List.nil_append]
      rfl

theorem storedSamples_scan {pieces : List ScanPiece} (stored : Stored pieces) :
    storedSamples (pieces.foldl Scan.add .begin).encodedSamples =
      (pieces.map ScanPiece.exact).flatMap Piece.values := by
  rw [encoded_scan, storedSamples_encoding stored]

theorem expandFrom_values (values : List Int) (stored : ∀ v ∈ values, 0 ≤ v) (bin : Nat) :
    (expandFrom bin values).map (fun place => ((place.1 : Int), place.2)) = placeFrom bin values := by
  induction values generalizing bin with
  | nil => rfl
  | cons v rest ih =>
      have here : ¬ v < 0 := Int.not_lt.mpr (stored v List.mem_cons_self)
      have tail := ih (fun w member => stored w (List.mem_cons_of_mem v member)) (bin + 1)
      rw [expandFrom, if_neg here, List.map_cons, tail]
      rfl

/-- An encoding expands to its samples, gaps below zero counted as none. -/
theorem expand_pieces {pieces : List ScanPiece} (stored : Stored pieces) (bin : Nat) :
    (expandFrom bin ((encoding pieces).map Int32.toInt)).map
        (fun place => ((place.1 : Int), place.2)) =
      placesFrom (fun gap => max gap 0) bin (pieces.map ScanPiece.exact) := by
  induction pieces generalizing bin with
  | nil => rfl
  | cons p rest ih =>
      obtain ⟨negative, spans⟩ := gapCode_negative p.gap
      have nonneg : ∀ v ∈ p.values.map Int32.toInt, 0 ≤ v := by
        intro v member
        obtain ⟨w, inside, rfl⟩ := List.mem_map.mp member
        exact (stored p List.mem_cons_self w inside).1
      have tail := ih fun q member => stored q (List.mem_cons_of_mem p member)
      have whole : (encoding (p :: rest)).map Int32.toInt = (gapCode p.gap).map Int32.toInt ++
          (p.values.map Int32.toInt ++ (encoding rest).map Int32.toInt) := by
        simp [encoding]
      have first : ((bin + span ((gapCode p.gap).map Int32.toInt) : Nat) : Int) =
          bin + max p.gap.toInt 0 := by
        rw [← spans]
        exact Int.natCast_add _ _
      have past : ((bin + span ((gapCode p.gap).map Int32.toInt) + p.values.length : Nat) : Int) =
          bin + max p.gap.toInt 0 + p.values.length := by
        rw [← first]
        exact Int.natCast_add _ _
      rw [whole, expandFrom_append, expandFrom_skips _ negative, List.nil_append, expandFrom_append,
        span_values _ nonneg, List.length_map, List.map_append, expandFrom_values _ nonneg, tail,
        first, past]
      simp [placesFrom, ScanPiece.exact]

/-- The counters of a scan against the samples stored so far: `bin` is the bin that
comes next as the gates count, `best` the first of the largest samples and its bin. -/
structure Tally (s : Scan) (bin : Int) (best : Int × Int) (samples : List Int) : Prop where
  count : s.nonZeroCount = Int32.ofNat samples.length
  next : s.nonZeroCount + s.zeroCount = Int32.ofInt bin
  total : (s.tic.toNat : Int) = samples.sum % 2 ^ 64
  bpi : s.bpi.toInt = best.2
  index : s.indexMaxIntensity = Int32.ofInt best.1

theorem tally_begin : Tally .begin 0 (0, 0) [] := ⟨rfl, rfl, rfl, rfl, rfl⟩

theorem tally_skip {s : Scan} {bin : Int} {best : Int × Int} {samples : List Int}
    (tally : Tally s bin best samples) (gap : Int32) :
    Tally (s.skip gap) (bin + gap.toInt) best samples where
  count := tally.count
  next := by
    rw [Int32.ofInt_add, Int32.ofInt_toInt, ← tally.next]
    exact (Int32.add_assoc _ _ _).symm
  total := tally.total
  bpi := tally.bpi
  index := tally.index

theorem tally_store {s : Scan} {bin : Int} {best : Int × Int} {samples : List Int}
    (tally : Tally s bin best samples) (val : Int32) (stored : 0 ≤ val.toInt) :
    Tally (s.store val) (bin + 1) (improve best (bin, val.toInt)) (samples ++ [val.toInt]) := by
  have larger : s.bpi < val.toInt64 ↔ best.2 < val.toInt := by
    rw [Int64.lt_iff_toInt_lt, tally.bpi, Int32.toInt_toInt64]
  have widened := int32_widen_exact val stored
  have total : ((s.tic + val.toInt64.toUInt64).toNat : Int) = (samples ++ [val.toInt]).sum % 2 ^ 64 := by
    have before := tally.total
    rw [UInt64.toNat_add, List.sum_append, List.sum_singleton]
    omega
  have next : s.nonZeroCount + 1 + s.zeroCount = Int32.ofInt (bin + 1) := by
    rw [Int32.ofInt_add, ← tally.next, Int32.add_assoc, Int32.add_comm 1, ← Int32.add_assoc]
    rfl
  have count : s.nonZeroCount + 1 = Int32.ofNat (samples ++ [val.toInt]).length := by
    rw [tally.count, List.length_append, List.length_singleton, Int32.ofNat_add]
    rfl
  by_cases new : best.2 < val.toInt
  · have raised : s.bpi < val.toInt64 := larger.mpr new
    have first : improve best (bin, val.toInt) = (bin, val.toInt) := if_pos new
    rw [first, Scan.store, if_pos raised]
    exact ⟨count, next, total, Int32.toInt_toInt64 val, tally.next⟩
  · have kept : ¬ s.bpi < val.toInt64 := fun raised => new (larger.mp raised)
    have same : improve best (bin, val.toInt) = best := if_neg new
    rw [same, Scan.store, if_neg kept]
    exact ⟨count, next, total, tally.bpi, tally.index⟩

theorem tally_values (values : List Int32) {s : Scan} {bin : Int} {best : Int × Int}
    {samples : List Int} (tally : Tally s bin best samples) (stored : ∀ v ∈ values, 0 ≤ v.toInt) :
    Tally (values.foldl Scan.store s) (bin + values.length)
      ((placeFrom bin (values.map Int32.toInt)).foldl improve best)
      (samples ++ values.map Int32.toInt) := by
  induction values generalizing s bin best samples with
  | nil => simpa [placeFrom] using tally
  | cons val rest ih =>
      have here := tally_store tally val (stored val List.mem_cons_self)
      have tail := ih here fun w member => stored w (List.mem_cons_of_mem val member)
      rw [List.append_assoc, List.singleton_append] at tail
      rw [List.length_cons, Int.natCast_succ, Int.add_comm (rest.length : Int) 1, ← Int.add_assoc]
      exact tail

/-- A whole scan. -/
theorem tally_pieces (pieces : List ScanPiece) (stored : Stored pieces) {s : Scan} {bin : Int}
    {best : Int × Int} {samples : List Int} (tally : Tally s bin best samples) :
    ∃ past, Tally (pieces.foldl Scan.add s) past
      ((placesFrom id bin (pieces.map ScanPiece.exact)).foldl improve best)
      (samples ++ (pieces.map ScanPiece.exact).flatMap Piece.values) := by
  induction pieces generalizing s bin best samples with
  | nil =>
      refine ⟨bin, ?_⟩
      rw [List.map_nil, List.flatMap_nil, List.append_nil]
      exact tally
  | cons p rest ih =>
      have here := tally_values p.values (tally_skip tally p.gap)
        fun v member => (stored p List.mem_cons_self v member).1
      obtain ⟨past, tail⟩ := ih (fun q member => stored q (List.mem_cons_of_mem p member)) here
      refine ⟨past, ?_⟩
      rw [List.append_assoc, ← List.foldl_append] at tail
      simpa [placesFrom, ScanPiece.exact, Scan.add] using tail

theorem tally_scan {pieces : List ScanPiece} (stored : Stored pieces) :
    ∃ past, Tally (pieces.foldl Scan.add .begin) past
      ((placesFrom id 0 (pieces.map ScanPiece.exact)).foldl improve (0, 0))
      ((pieces.map ScanPiece.exact).flatMap Piece.values) := by
  obtain ⟨past, tally⟩ := tally_pieces pieces stored tally_begin
  exact ⟨past, tally⟩

theorem forall₂_right {Left Right : Type} {Related : Left → Right → Prop} {lefts : List Left}
    {rights : List Right} (all : List.Forall₂ Related lefts rights) {right : Right}
    (member : right ∈ rights) : ∃ left ∈ lefts, Related left right := by
  induction all with
  | nil => cases member
  | cons related _ ih =>
      rcases List.mem_cons.mp member with rfl | later
      · exact ⟨_, List.mem_cons_self, related⟩
      · obtain ⟨left, inside, found⟩ := ih later
        exact ⟨left, List.mem_cons_of_mem _ inside, found⟩

namespace UimfAcquisitionRecord

/-- The pieces of every trigger's scan. -/
def stampPieces (r : UimfAcquisitionRecord) : List TriggerData → Int32 → List (List ScanPiece)
  | [], _ => []
  | trig :: rest, offset =>
      scanPieces r.acquiredData.samplesBuffer r.parameters.offsetBins none trig.gateData offset ::
        r.stampPieces rest (offsetBehind offset trig.gateData)

/-- A result made of some pieces. -/
def MadeOfPieces (r : UimfAcquisitionRecord) (pieces : List ScanPiece) (result : EncodedResult) :
    Prop :=
  Stored pieces ∧ ∃ trigIndex trig, result = r.result trigIndex trig (pieces.foldl Scan.add .begin)

theorem processStamps_pieces {r : UimfAcquisitionRecord} {stamps : List TriggerData}
    {trigIndex : Nat} {offset : Int32} {results : List EncodedResult}
    (ran : r.processStamps trigIndex stamps offset = .ok results) :
    List.Forall₂ r.MadeOfPieces (r.stampPieces stamps offset) results := by
  induction stamps generalizing trigIndex offset results with
  | nil =>
      cases ran
      exact .nil
  | cons trig rest ih =>
      simp only [processStamps] at ran
      split at ran
      · cases ran
      · rename_i s next here
        split at ran
        · cases ran
        · rename_i later tail
          cases ran
          unfold processTrigger at here
          split at here
          · cases here
          · obtain ⟨folded, behind⟩ := processGates_pieces here
            refine .cons ⟨scanPieces_stored _ _ _ _ _, trigIndex, trig, ?_⟩ ?_
            · rw [folded]
            · rw [← behind]
              exact ih tail

theorem toFrame_process {r : UimfAcquisitionRecord} {results : List EncodedResult}
    (ran : r.process = .ok results) : r.toFrame = .ok ⟨r.parameters, results⟩ := by
  rw [toFrame, ran]

theorem process_pieces {r : UimfAcquisitionRecord} {results : List EncodedResult}
    (ran : r.process = .ok results) : ∀ er ∈ results, ∃ pieces, r.MadeOfPieces pieces er := by
  intro er member
  obtain ⟨pieces, _, made⟩ := forall₂_right (processStamps_pieces ran) member
  exact ⟨pieces, made⟩

end UimfAcquisitionRecord
end AqMD3.Acquisition
