import Mathlib.Algebra.Order.BigOperators.Group.List
import AqMD3.LostBatches
import AqMD3.ScanPieces

/-!
`UimfWriter::write_scan_data` and the TIC on its two ways out of the console: as a
column of `Frame_Scans` and as a field of the ZMQ message. The m/z of the base peak,
which is floating point, and the compressed spectrum are left out of a row.
-/

namespace AqMD3.Acquisition

open FixedWidth CountedLoop RunLength GapPieces AcquisitionBuffer

/-- What `sprintf` makes of `%d`: the low half of the argument's eight bytes, signed. -/
def printed (slot : UInt64) : Int := slot.toUInt32.toInt32.toInt

structure FrameScansRow where
  frameNum : Int
  scanNum : Int
  nonZeroCount : Int
  bpi : Int
  tic : Int
  deriving DecidableEq

/-- The row of one scan, if it gets one. The scan number is compared as a `uint64_t`. -/
def scanRow (parameters : UimfFrameParameters) (er : EncodedResult) : Option FrameScansRow :=
  if er.scan.toInt64.toUInt64 < parameters.startTrigger then none
  else if 1 < er.encodedSpectra.length ∨ er.scan = 0 then
    some
      { frameNum := printed parameters.frameNumber.toUInt64
        scanNum := printed (er.scan.toInt64.toUInt64 - parameters.startTrigger)
        nonZeroCount := printed er.nonZeroCount.toInt64.toUInt64
        bpi := printed er.bpi.toUInt64
        tic := printed er.tic.toUInt64 }
  else none

def writeScanData (frame : UimfFrame) : List FrameScansRow :=
  frame.data.filterMap (scanRow frame.parameters)

def publishedTic (er : EncodedResult) : UInt32 := er.tic.toUInt64.toUInt32

theorem message_tics (encode : Message → Except Thrown (List UInt8)) (frame : UimfFrame)
    (message : Send) (data : IsData encode frame message) :
    ∃ msg content, msg.tic = frame.data.map publishedTic ∧ encode msg = .ok content ∧
      message.payload = .bytes content := by
  obtain ⟨msg, content, tics, _, encoded, rfl⟩ := data
  exact ⟨msg, content, tics, encoded, rfl⟩

/-- The TIC of a scan is the exact sum of its samples, in the row and in the message. -/
structure TicsExact (parameters : UimfFrameParameters) (er : EncodedResult) : Prop where
  written : ∀ row, scanRow parameters er = some row →
    row.tic = (storedSamples er.encodedSpectra).sum
  published : ((publishedTic er).toNat : Int) = (storedSamples er.encodedSpectra).sum

theorem scanRow_tic {parameters : UimfFrameParameters} {er : EncodedResult} {row : FrameScansRow}
    (found : scanRow parameters er = some row) : row.tic = printed er.tic.toUInt64 := by
  unfold scanRow at found
  split at found
  · cases found
  · split at found
    · cases found
      rfl
    · cases found

theorem made_tic {r : UimfAcquisitionRecord} {pieces : List ScanPiece} {result : EncodedResult}
    (made : r.MadeOfPieces pieces result) :
    0 ≤ (storedSamples result.encodedSpectra).sum ∧
      printed result.tic.toUInt64 = (storedSamples result.encodedSpectra).sum.bmod (2 ^ 32) ∧
      ((publishedTic result).toNat : Int) = (storedSamples result.encodedSpectra).sum % 2 ^ 32 := by
  obtain ⟨stored, trigIndex, trig, rfl⟩ := made
  obtain ⟨past, tally⟩ := tally_scan stored
  have samples := storedSamples_scan stored
  have total := tally.total
  rw [← samples] at total
  have nonneg : 0 ≤ (storedSamples (pieces.foldl Scan.add .begin).encodedSamples).sum := by
    apply List.sum_nonneg
    intro v member
    exact of_decide_eq_true (List.mem_filter.mp member).2
  refine ⟨nonneg, ?_, ?_⟩
  · change ((pieces.foldl Scan.add .begin).tic.toInt64.toUInt64.toUInt32.toInt32.toInt) = _
    rw [UInt64.toUInt64_toInt64, uint32_reinterpret, UInt64.toNat_toUInt32]
    change _ = (storedSamples (pieces.foldl Scan.add .begin).encodedSamples).sum.bmod (2 ^ 32)
    rw [Int.bmod_def, Int.bmod_def]
    omega
  · change (((pieces.foldl Scan.add .begin).tic.toInt64.toUInt64.toUInt32).toNat : Int) =
      (storedSamples (pieces.foldl Scan.add .begin).encodedSamples).sum % 2 ^ 32
    rw [UInt64.toUInt64_toInt64, UInt64.toNat_toUInt32]
    omega

/-- Every scan of a frame: its TIC is exact exactly below 2^31, or below 2^32 where the
scan gets no row. -/
theorem tics_exact_iff (r : UimfAcquisitionRecord) (frame : UimfFrame)
    (made : r.toFrame = .ok frame) :
    ∀ er ∈ frame.data, TicsExact frame.parameters er ↔
      (storedSamples er.encodedSpectra).sum < 2 ^ 32 ∧
        ((scanRow frame.parameters er).isSome →
          (storedSamples er.encodedSpectra).sum < 2 ^ 31) := by
  unfold UimfAcquisitionRecord.toFrame at made
  split at made
  · cases made
  · rename_i results ran
    cases made
    intro er member
    obtain ⟨pieces, madeOf⟩ := UimfAcquisitionRecord.process_pieces ran er member
    obtain ⟨nonneg, row, message⟩ := made_tic madeOf
    constructor
    · intro exact
      have published := exact.published
      refine ⟨by omega, fun written => ?_⟩
      obtain ⟨columns, found⟩ := Option.isSome_iff_exists.mp written
      have column := exact.written columns found
      rw [scanRow_tic found, row, Int.bmod_def] at column
      omega
    · rintro ⟨small, smaller⟩
      refine ⟨fun columns found => ?_, by omega⟩
      have bound := smaller (Option.isSome_iff_exists.mpr ⟨columns, found⟩)
      rw [scanRow_tic found, row, Int.bmod_def]
      omega

theorem tics_exact_one_gate :
    ∃ frame, (recordOf [oneGate] 0 oneGate.elements).toFrame = .ok frame ∧
      ∀ er ∈ frame.data, TicsExact frame.parameters er ↔
        (storedSamples er.encodedSpectra).sum < 2 ^ 32 ∧
          ((scanRow frame.parameters er).isSome →
            (storedSamples er.encodedSpectra).sum < 2 ^ 31) := by
  cases made : (recordOf [oneGate] 0 oneGate.elements).toFrame with
  | ok frame => exact ⟨frame, rfl, tics_exact_iff _ frame made⟩
  | error fault =>
      have ends : (recordOf [oneGate] 0 oneGate.elements).toFrame.isOk = true := by decide +kernel
      rw [made] at ends
      cases ends

theorem storedSamples_expand (encoded : List Int) (bin : Nat) :
    encoded.filter (fun v => decide (0 ≤ v)) = (expandFrom bin encoded).map Prod.snd := by
  induction encoded generalizing bin with
  | nil => rfl
  | cons v rest ih =>
      by_cases skip : v < 0
      · rw [expandFrom, if_pos skip, List.filter_cons_of_neg (by simpa using skip)]
        exact ih _
      · rw [expandFrom, if_neg skip, List.filter_cons_of_pos (by simpa using skip), List.map_cons,
          ih (bin + 1)]

/-- 32776 samples in a row, all of them at the top of the range. -/
def brightGate : RecordedGate where
  marker := ⟨1, 0, 4098, 8⟩
  elements := List.replicate 16400 0x7fff7fff
  startBlock := by decide
  startPos := by decide
  stopPos := by decide
  nonempty := by decide
  counted := List.length_replicate.trans (by decide)

def bright : RecordedTrigger := ⟨7, 1, 0, [brightGate], List.pairwise_singleton _ _⟩

theorem brightGate_sample (index : Nat) (inside : index < 32776) :
    brightGate.sample index + 32768 = 65535 := by
  have element : brightGate.elements.getD ((index - (1 - 1) * 8) / 2) 0 = 0x7fff7fff := by
    rw [List.getD_eq_getElem?_getD, show brightGate.elements = List.replicate 16400 0x7fff7fff from rfl,
      List.getElem?_replicate, if_pos (by omega)]
    rfl
  change sampleOf brightGate.elements (index - (1 - 1) * 8) + 32768 = 65535
  rw [sampleOf, element]
  split
  · decide
  · decide

/-- The sum 2147975160 is a negative TIC in the row of the scan. -/
theorem tics_narrowed :
    ¬ ∀ (r : UimfAcquisitionRecord) (frame : UimfFrame), r.toFrame = .ok frame →
      ∀ er ∈ frame.data, TicsExact frame.parameters er := by
  intro always
  have elements : bright.elements = List.replicate 16400 0x7fff7fff := List.append_nil _
  have length : bright.elements.length = 16400 := by rw [elements, List.length_replicate]
  obtain ⟨sound, lies⟩ := recordOf_lies [bright] 0 bright.elements (by omega)
  obtain ⟨results, ran, encodes⟩ := processStamps_recorded (recordOf [bright] 0 bright.elements)
    sound [bright] 0 0 0 [] rfl (by simpa using lies) (by
      intro t member
      rw [List.mem_singleton.mp member]
      intro g inside index _ below
      rw [List.mem_singleton.mp inside] at below
      have past : brightGate.past = 32776 := rfl
      have none : (recordOf [bright] 0 bright.elements).parameters.offsetBins.toNat = 0 := rfl
      omega)
    (by
      intro t member
      rw [List.mem_singleton.mp member]
      refine ⟨fun g inside => ?_, by decide⟩
      rw [List.mem_singleton.mp inside]
      decide)
  obtain ⟨er, rest, encoded, _, rfl⟩ := List.forall₂_cons_left_iff.mp encodes
  have values : storedSamples er.encodedSpectra = List.replicate 32776 65535 := by
    have all : (List.range' 0 32776).map (fun index => brightGate.sample index + 32768) =
        List.replicate 32776 65535 := by
      rw [List.map_congr_left (g := fun _ => 65535), List.map_const', List.length_range']
      intro index member
      exact brightGate_sample index (by simpa using (List.mem_range'_1.mp member).2)
    rw [storedSamples, storedSamples_expand _ 0, encoded.expansion, placed, ← all]
    change ((((List.range' 0 32776).map _) ++ []).map Prod.snd) = _
    rw [List.append_nil, List.map_map]
    rfl
  have total : (storedSamples er.encodedSpectra).sum = 2147975160 := by
    rw [values, List.sum_replicate]
    rfl
  have exact := always _ _ (UimfAcquisitionRecord.toFrame_process ran) er List.mem_cons_self
  have long : 1 < er.encodedSpectra.length := by
    have kept : (storedSamples er.encodedSpectra).length ≤ (er.encodedSpectra.map Int32.toInt).length :=
      List.length_filter_le _ _
    rw [values, List.length_replicate, List.length_map] at kept
    omega
  have written : (scanRow (recordOf [bright] 0 bright.elements).parameters er).isSome := by
    have counted : ¬ er.scan.toInt64.toUInt64 <
        (recordOf [bright] 0 bright.elements).parameters.startTrigger :=
      UInt64.not_lt.mpr UInt64.zero_le
    rw [scanRow, if_neg counted, if_pos (Or.inl long)]
    rfl
  obtain ⟨row, found⟩ := Option.isSome_iff_exists.mp written
  obtain ⟨pieces, madeOf⟩ := UimfAcquisitionRecord.process_pieces ran er List.mem_cons_self
  have column := exact.written row found
  rw [scanRow_tic found, (made_tic madeOf).2.1, total] at column
  exact absurd column (by decide)

end AqMD3.Acquisition
