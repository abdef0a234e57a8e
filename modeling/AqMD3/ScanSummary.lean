import AqMD3.ScanPieces

/-!
The summary fields of an `EncodedResult` against its own spectrum. A gap below zero is
counted by `zero_count` and written nowhere, so behind it the two count bins apart.
-/

namespace AqMD3.Acquisition

open FixedWidth RunLength GapPieces RunningPeak

def peakOf (samples : List Int) : Int := samples.foldl max 0

structure SummaryAgrees (er : EncodedResult) : Prop where
  count : er.nonZeroCount.toInt = (storedSamples er.encodedSpectra).length
  tic : er.tic.toInt = (storedSamples er.encodedSpectra).sum
  bpi : er.bpi.toInt = peakOf (storedSamples er.encodedSpectra)
  index : 0 < er.bpi.toInt → ∃ bin : Nat,
    (expandFrom 0 (er.encodedSpectra.map Int32.toInt)).find? (fun place => place.2 = er.bpi.toInt) =
      some (bin, er.bpi.toInt) ∧ er.indexMaxIntensity.toInt = bin

/-- The bins of the samples are ints, as the encoding expands and as the gates count. -/
structure BinsInside (pieces : List ScanPiece) : Prop where
  expanded : ∀ place ∈ expandFrom 0 ((encoding pieces).map Int32.toInt), place.1 < 2 ^ 31
  counted : ∀ place ∈ placesFrom id 0 (pieces.map ScanPiece.exact),
    -2 ^ 31 ≤ place.1 ∧ place.1 < 2 ^ 31

/-- Fewer than 2^31 samples, and no gap below zero up to the gate that the first of the
largest samples lies in. -/
structure GapsForward (pieces : List ScanPiece) : Prop where
  few : ((pieces.map ScanPiece.exact).flatMap Piece.values).length < 2 ^ 31
  forward : 0 < peakOf ((pieces.map ScanPiece.exact).flatMap Piece.values) →
    ∀ p ∈ upTo (peakOf ((pieces.map ScanPiece.exact).flatMap Piece.values))
      (pieces.map ScanPiece.exact), 0 ≤ p.gap

theorem expandFrom_reaches (encoded : List Int) (bin : Nat) (present : expandFrom bin encoded ≠ []) :
    ∃ place ∈ expandFrom bin encoded, bin + (expandFrom bin encoded).length ≤ place.1 + 1 := by
  induction encoded generalizing bin with
  | nil => exact absurd rfl present
  | cons v rest ih =>
      unfold expandFrom at present ⊢
      by_cases skip : v < 0
      · simp only [skip, ↓reduceIte] at present ⊢
        obtain ⟨place, member, reaches⟩ := ih (bin + v.natAbs) present
        exact ⟨place, member, by omega⟩
      · simp only [skip, ↓reduceIte] at present ⊢
        by_cases last : expandFrom (bin + 1) rest = []
        · exact ⟨(bin, v), List.mem_cons_self, by simp [last]⟩
        · obtain ⟨place, member, reaches⟩ := ih (bin + 1) last
          refine ⟨place, List.mem_cons_of_mem _ member, ?_⟩
          rw [List.length_cons]
          omega

theorem sum_bounds (samples : List Int) (stored : ∀ v ∈ samples, 0 ≤ v ∧ v ≤ 65535) :
    0 ≤ samples.sum ∧ samples.sum ≤ 65535 * samples.length := by
  induction samples with
  | nil => simp
  | cons v rest ih =>
      have here := stored v List.mem_cons_self
      have tail := ih fun w member => stored w (List.mem_cons_of_mem v member)
      rw [List.sum_cons, List.length_cons]
      omega

theorem running_value (pieces : List Piece) (bin : Int) :
    ((placesFrom id bin pieces).foldl improve (0, 0)).2 = peakOf (pieces.flatMap Piece.values) := by
  rw [improve_value, placesFrom_values]
  rfl

section Pieces
variable {pieces : List ScanPiece} (stored : Stored pieces)
include stored

theorem exact_stored :
    ∀ v ∈ (pieces.map ScanPiece.exact).flatMap Piece.values, 0 ≤ v ∧ v ≤ 65535 := by
  intro v member
  obtain ⟨p, inside, here⟩ := List.mem_flatMap.mp member
  obtain ⟨q, there, rfl⟩ := List.mem_map.mp inside
  obtain ⟨w, value, rfl⟩ := List.mem_map.mp here
  exact stored q there w value

theorem samples_few (bins : BinsInside pieces) :
    ((pieces.map ScanPiece.exact).flatMap Piece.values).length ≤ 2 ^ 31 := by
  have length : (expandFrom 0 ((encoding pieces).map Int32.toInt)).length =
      ((pieces.map ScanPiece.exact).flatMap Piece.values).length := by
    have places := congrArg List.length (expand_pieces stored 0)
    have values := congrArg List.length
      (placesFrom_values (fun gap => max gap 0) (pieces.map ScanPiece.exact) ((0 : Nat) : Int))
    rw [List.length_map] at places values
    rw [places, values]
  by_cases none : expandFrom 0 ((encoding pieces).map Int32.toInt) = []
  · rw [← length, none]
    exact Nat.zero_le _
  · obtain ⟨place, member, reaches⟩ := expandFrom_reaches _ 0 none
    have inside := bins.expanded place member
    omega

/-- The bin the encoding gives the first of the largest samples, and how far off the
gates' own count of it is. -/
theorem peak_place
    (positive : 0 < peakOf ((pieces.map ScanPiece.exact).flatMap Piece.values)) :
    ∃ bin : Nat,
      (expandFrom 0 ((encoding pieces).map Int32.toInt)).find? (fun place =>
        place.2 = peakOf ((pieces.map ScanPiece.exact).flatMap Piece.values)) =
          some (bin, peakOf ((pieces.map ScanPiece.exact).flatMap Piece.values)) ∧
      ((placesFrom id 0 (pieces.map ScanPiece.exact)).foldl improve (0, 0)).1 =
        bin + ((upTo (peakOf ((pieces.map ScanPiece.exact).flatMap Piece.values))
          (pieces.map ScanPiece.exact)).map fun p => p.gap - max p.gap 0).sum ∧
      (placesFrom id 0 (pieces.map ScanPiece.exact)).foldl improve (0, 0) ∈
        placesFrom id 0 (pieces.map ScanPiece.exact) := by
  have value := running_value (pieces.map ScanPiece.exact) 0
  have first := improve_first (placesFrom id 0 (pieces.map ScanPiece.exact)) (0, 0) (by
    rw [value]
    exact positive)
  have present := List.mem_of_find?_eq_some first
  rw [value, placesFrom_find id (fun gap => max gap 0) _ _ 0 ((0 : Nat) : Int),
    ← expand_pieces stored 0, List.find?_map] at first
  obtain ⟨mapped, found, same⟩ := Option.map_eq_some_iff.mp first
  obtain ⟨place, reached, rfl⟩ := Option.map_eq_some_iff.mp found
  refine ⟨place.1, ?_, ?_, present⟩
  · have height := List.find?_some reached
    simp only [Function.comp_apply, decide_eq_true_eq] at height
    have whole : (place.1, peakOf ((pieces.map ScanPiece.exact).flatMap Piece.values)) = place :=
      Prod.ext rfl height.symm
    rw [whole]
    exact reached
  · rw [← same]
    simp

end Pieces

theorem made_agrees_iff {r : UimfAcquisitionRecord} {pieces : List ScanPiece}
    {result : EncodedResult} (made : r.MadeOfPieces pieces result) (bins : BinsInside pieces) :
    SummaryAgrees result ↔ GapsForward pieces := by
  obtain ⟨stored, trigIndex, trig, rfl⟩ := made
  obtain ⟨past, tally⟩ := tally_scan stored
  have encoded := encoded_scan pieces
  have samples := storedSamples_scan stored
  have few := samples_few stored bins
  have sums := sum_bounds _ (exact_stored stored)
  have value := running_value (pieces.map ScanPiece.exact) 0
  have bpi := tally.bpi.trans value
  have tic : (pieces.foldl Scan.add .begin).tic.toInt64.toInt =
      ((pieces.map ScanPiece.exact).flatMap Piece.values).sum := by
    have total := tally.total
    rw [uint64_signed_exact _ (by omega), total]
    omega
  have count := tally.count
  have place := tally.index
  constructor
  · intro agrees
    refine ⟨?_, fun positive => ?_⟩
    · -- `non_zero_count` is an int, so a count it agrees with is one.
      have exact := agrees.count
      simp only [UimfAcquisitionRecord.result, samples] at exact
      have limit := (pieces.foldl Scan.add .begin).nonZeroCount.toInt_lt
      omega
    · -- The index counted off and the peak's bin differ by what the gaps went back.
      obtain ⟨bin, found, drift, present⟩ := peak_place stored positive
      have inside := bins.counted _ present
      obtain ⟨bin', found', index⟩ := agrees.index (by
        simp only [UimfAcquisitionRecord.result]
        rw [bpi]
        exact positive)
      simp only [UimfAcquisitionRecord.result, encoded] at found' index
      rw [bpi, found] at found'
      cases found'
      rw [place, Int32.toInt_ofInt_of_le inside.1 inside.2, drift] at index
      exact (drift_zero _).mp (by omega)
  · intro forward
    refine ⟨?_, ?_, ?_, ?_⟩
    · simp only [UimfAcquisitionRecord.result, samples]
      rw [count]
      exact int32_ofNat_exact _ forward.few
    · simp only [UimfAcquisitionRecord.result, samples]
      exact tic
    · simp only [UimfAcquisitionRecord.result, samples]
      exact bpi
    · intro positive
      simp only [UimfAcquisitionRecord.result, encoded] at positive ⊢
      rw [bpi] at positive ⊢
      obtain ⟨bin, found, drift, present⟩ := peak_place stored positive
      have inside := bins.counted _ present
      have none := (drift_zero _).mpr (forward.forward positive)
      refine ⟨bin, found, ?_⟩
      rw [place, Int32.toInt_ofInt_of_le inside.1 inside.2, drift, none, Int.add_zero]

/-- Every scan of a record whose bins are ints: its summary is its spectrum's exactly
when no gap is below zero up to its base peak. -/
theorem summary_agrees_iff (r : UimfAcquisitionRecord) (results : List EncodedResult)
    (ran : r.process = .ok results) :
    List.Forall₂ (fun pieces result => BinsInside pieces →
      (SummaryAgrees result ↔ GapsForward pieces)) (r.stampPieces r.acquiredData.stamps 0) results :=
  (UimfAcquisitionRecord.processStamps_pieces ran).imp fun _ _ made bins => made_agrees_iff made bins

/-- Samples 0 to 7, then samples 2 to 7 once more, the first of these the largest. -/
def overlapping : UimfAcquisitionRecord where
  parameters := ⟨0, 0, 0, 0, 1, 0, ""⟩
  acquiredData :=
    ⟨⟨List.replicate 16 0 ++ List.replicate 16 1, 32, 0, 0, 0, 0⟩,
      [⟨7, 1, 0, [⟨1, 0, 2, 8, 16⟩, ⟨1, 2, 2, 8, 16⟩]⟩], 0⟩
  startScanIndex := 0

def overlappingResult : EncodedResult :=
  { scan := 0
    nonZeroCount := 14
    encodedSpectra := List.replicate 8 32768 ++ [32769, 32768, 32769, 32768, 32769, 32768]
    tic := 458755
    bpi := 32769
    indexMaxIntensity := 2
    timestamp := 7 }

def overlappingPieces : List ScanPiece :=
  [⟨0, List.replicate 8 32768⟩, ⟨-6, [32769, 32768, 32769, 32768, 32769, 32768]⟩]

theorem summary_agrees_overlapping :
    overlapping.process = .ok [overlappingResult] ∧
      List.Forall₂ (fun pieces result => BinsInside pieces →
        (SummaryAgrees result ↔ GapsForward pieces))
        (overlapping.stampPieces overlapping.acquiredData.stamps 0) [overlappingResult] := by
  have ran : overlapping.process = .ok [overlappingResult] := by decide +kernel
  exact ⟨ran, summary_agrees_iff overlapping [overlappingResult] ran⟩

/-- The base peak is written in bin 8 of the spectrum, and in bin 2 of the summary. -/
theorem summary_disagrees :
    ¬ ∀ (r : UimfAcquisitionRecord) (results : List EncodedResult), r.process = .ok results →
      List.Forall₂ (fun pieces result => BinsInside pieces → SummaryAgrees result)
        (r.stampPieces r.acquiredData.stamps 0) results := by
  intro always
  have ran : overlapping.process = .ok [overlappingResult] := by decide +kernel
  have pieces : overlapping.stampPieces overlapping.acquiredData.stamps 0 = [overlappingPieces] := by
    decide +kernel
  have all := always overlapping _ ran
  rw [pieces] at all
  have agrees := (List.forall₂_cons.mp all).1 (by
    constructor
    · intro place member
      have inside := List.all_eq_true.mp (by decide +kernel :
        (expandFrom 0 ((encoding overlappingPieces).map Int32.toInt)).all
          (fun place => decide (place.1 < 2 ^ 31)) = true) place member
      exact of_decide_eq_true inside
    · intro place member
      have inside := List.all_eq_true.mp (by decide +kernel :
        (placesFrom id 0 (overlappingPieces.map ScanPiece.exact)).all
          (fun place => decide (-2 ^ 31 ≤ place.1 ∧ place.1 < 2 ^ 31)) = true) place member
      exact of_decide_eq_true inside)
  obtain ⟨bin, found, index⟩ := agrees.index (by decide)
  have expanded : (expandFrom 0 (overlappingResult.encodedSpectra.map Int32.toInt)).find?
      (fun place => place.2 = overlappingResult.bpi.toInt) = some (8, 32769) := by decide +kernel
  rw [expanded] at found
  have eight : 8 = bin := (Prod.mk.inj (Option.some.inj found)).1
  rw [← eight] at index
  exact absurd index (by decide)

end AqMD3.Acquisition
