import AqMD3.BinSums

/-!
`check_alignment` against the gates of a frame. It sees a spectrum only: a gate opens at
the first value, and at the first one behind any run length. Where a sample at least is
suppressed between two gates these are the gates themselves, however a gap is written.
-/

namespace AqMD3.Acquisition

open FixedWidth CountedLoop

/-- The runs of a list between the items that break it. -/
def runs {Item : Type} (breaks : Item → Bool) : Bool → List Item → List (List Item)
  | _, [] => []
  | opening, item :: rest =>
      if breaks item then runs breaks true rest
      else if opening then (item :: rest.takeWhile fun next => !breaks next) :: runs breaks false rest
      else runs breaks false rest

section Runs

variable {Item : Type} {breaks : Item → Bool}

theorem runs_breaks {skips : List Item} (broken : ∀ item ∈ skips, breaks item = true)
    (opening : Bool) (rest : List Item) :
    runs breaks opening (skips ++ rest) = runs breaks (opening || !skips.isEmpty) rest := by
  induction skips generalizing opening with
  | nil => simp
  | cons item tail ih =>
      have later := ih (fun other member => broken other (List.mem_cons_of_mem item member)) true
      rw [List.cons_append, runs, if_pos (broken item List.mem_cons_self), later]
      simp

theorem runs_inside {values : List Item} (whole : ∀ item ∈ values, breaks item = false)
    (rest : List Item) : runs breaks false (values ++ rest) = runs breaks false rest := by
  induction values with
  | nil => rfl
  | cons item tail ih =>
      have later := ih fun other member => whole other (List.mem_cons_of_mem item member)
      have here := whole item List.mem_cons_self
      rw [List.cons_append, runs, if_neg (by simp [here]), if_neg (by simp), later]

theorem runs_values {values : List Item} (whole : ∀ item ∈ values, breaks item = false)
    (present : values ≠ []) {rest : List Item} (parted : ∀ item ∈ rest.head?, breaks item = true) :
    runs breaks true (values ++ rest) = values :: runs breaks false rest := by
  cases values with
  | nil => exact absurd rfl present
  | cons item tail =>
      have later : ∀ other ∈ tail, breaks other = false :=
        fun other member => whole other (List.mem_cons_of_mem item member)
      have stops : (rest.takeWhile fun next => !breaks next) = [] := by
        cases rest with
        | nil => rfl
        | cons next others => rw [List.takeWhile_cons_of_neg (by simp [parted next rfl])]
      have run : ((tail ++ rest).takeWhile fun next => !breaks next) = tail := by
        rw [List.takeWhile_append_of_pos (by simpa using later), stops, List.append_nil]
      rw [List.cons_append, runs, if_neg (by simp [whole item List.mem_cons_self]), if_pos rfl, run,
        runs_inside later]

end Runs

/-- The gates the checker takes a spectrum for. -/
def seenGates (spectrum : List Int32) : List (List Int32) := runs (fun val => decide (val < 0)) true spectrum

def opensBelow (floor : Int32) (run : List Int32) : Bool := run.head?.any fun val => val < floor

theorem openings_runs (floor : Int32) (spectrum : List Int32) (opening : Bool)
    (counts : UInt64 × UInt64) :
    openings floor opening spectrum counts =
      (counts.1 + UInt64.ofNat (runs (fun val => decide (val < 0)) opening spectrum).length,
        counts.2 + UInt64.ofNat
          ((runs (fun val => decide (val < 0)) opening spectrum).countP (opensBelow floor))) := by
  induction spectrum generalizing opening counts with
  | nil => simp [openings, runs]
  | cons val rest ih =>
      by_cases skip : val < 0
      · rw [openings, if_pos skip, runs, if_pos (decide_eq_true skip), ih]
      · cases opening with
        | false =>
            rw [openings, if_neg skip, if_neg Bool.false_ne_true, runs, if_neg (by simpa using skip),
              if_neg Bool.false_ne_true, ih]
        | true =>
            -- The run starts here, and its first value is what the floor is held against.
            have run : runs (fun val => decide (val < 0)) true (val :: rest) =
                (val :: rest.takeWhile fun next => !decide (next < 0)) ::
                  runs (fun val => decide (val < 0)) false rest := by
              simp [runs, skip]
            have counted : openings floor true (val :: rest) counts = openings floor false rest
                (counts.1 + 1, if val < floor then counts.2 + 1 else counts.2) := by
              simp [openings, skip]
            rw [run, counted, ih, List.length_cons, List.countP_cons]
            by_cases low : val < floor
            · simp [opensBelow, low, UInt64.ofNat_add, UInt64.add_assoc, UInt64.add_comm 1]
            · simp [opensBelow, low, UInt64.ofNat_add, UInt64.add_assoc, UInt64.add_comm 1]

theorem openings_frame (floor : Int32) (data : List EncodedResult) (counts : UInt64 × UInt64) :
    data.foldl (fun counts er => openings floor true er.encodedSpectra counts) counts =
      (counts.1 + UInt64.ofNat (data.flatMap fun er => seenGates er.encodedSpectra).length,
        counts.2 + UInt64.ofNat
          ((data.flatMap fun er => seenGates er.encodedSpectra).countP (opensBelow floor))) := by
  induction data generalizing counts with
  | nil => simp
  | cons er rest ih =>
      rw [List.foldl_cons, openings_runs, ih, List.flatMap_cons, List.length_append,
        List.countP_append, UInt64.ofNat_add, UInt64.ofNat_add, UInt64.add_assoc, UInt64.add_assoc]
      rfl

/-- All but the first piece have a gap in front that is written. -/
def Gapped : List ScanPiece → Prop
  | [] => True
  | _ :: rest => ∀ p ∈ rest, 0 < p.gap.toInt

theorem gapCode_written {gap : Int32} (positive : 0 < gap.toInt) : gapCode gap ≠ [] := by
  intro none
  have spans := (gapCode_negative gap).2
  rw [none] at spans
  simp only [List.map_nil, RunLength.span] at spans
  omega

theorem gapCode_breaks (gap : Int32) : ∀ val ∈ gapCode gap, decide (val < 0) = true := by
  intro val member
  have negative := (gapCode_negative gap).1 _ (List.mem_map_of_mem member)
  exact decide_eq_true ((skips_iff val).mpr negative)

theorem encoding_cons (p : ScanPiece) (rest : List ScanPiece) :
    encoding (p :: rest) = gapCode p.gap ++ (p.values ++ encoding rest) := by
  rw [encoding, List.flatMap_cons, List.append_assoc]
  rfl

theorem values_whole {pieces : List ScanPiece} (stored : Stored pieces) {p : ScanPiece}
    (member : p ∈ pieces) : ∀ val ∈ p.values, decide (val < 0) = false := by
  intro val inside
  have nonneg := (stored p member val inside).1
  rw [decide_eq_false_iff_not, skips_iff]
  omega

theorem encoding_parted {pieces : List ScanPiece} (gapped : ∀ p ∈ pieces, 0 < p.gap.toInt) :
    ∀ val ∈ (encoding pieces).head?, decide (val < 0) = true := by
  cases pieces with
  | nil => exact fun val member => absurd member (by simp [encoding])
  | cons p rest =>
      intro val member
      have written := gapCode_written (gapped p List.mem_cons_self)
      rw [encoding_cons, List.head?_append_of_ne_nil _ written] at member
      exact gapCode_breaks p.gap val (List.mem_of_head? member)

theorem runs_gapped {pieces : List ScanPiece} (stored : Stored pieces)
    (present : ∀ p ∈ pieces, p.values ≠ []) (gapped : ∀ p ∈ pieces, 0 < p.gap.toInt) :
    runs (fun val => decide (val < 0)) false (encoding pieces) = pieces.map ScanPiece.values := by
  induction pieces with
  | nil => rfl
  | cons p rest ih =>
      have later := fun q member => gapped q (List.mem_cons_of_mem p member)
      have written := gapCode_written (gapped p List.mem_cons_self)
      have opens : (false || !(gapCode p.gap).isEmpty) = true := by simpa using written
      have tail := ih (fun q member => stored q (List.mem_cons_of_mem p member))
        (fun q member => present q (List.mem_cons_of_mem p member)) later
      rw [encoding_cons, runs_breaks (gapCode_breaks p.gap), opens,
        runs_values (values_whole stored List.mem_cons_self) (present p List.mem_cons_self)
          (encoding_parted later), tail, List.map_cons]

/-- The first gate needs no gap: a spectrum opens. -/
theorem seenGates_pieces {pieces : List ScanPiece} (stored : Stored pieces)
    (present : ∀ p ∈ pieces, p.values ≠ []) (gapped : Gapped pieces) :
    seenGates (encoding pieces) = pieces.map ScanPiece.values := by
  cases pieces with
  | nil => rfl
  | cons p rest =>
      have tail := runs_gapped (fun q member => stored q (List.mem_cons_of_mem p member))
        (fun q member => present q (List.mem_cons_of_mem p member)) gapped
      rw [seenGates, encoding_cons, runs_breaks (gapCode_breaks p.gap), Bool.true_or,
        runs_values (values_whole stored List.mem_cons_self) (present p List.mem_cons_self)
          (encoding_parted gapped), tail, List.map_cons]

/-- The samples of some gates, each at the offset its own elements lie at. -/
def gateRuns (buffer : AcquisitionBuffer) : Int32 → List GateData → List (List Int32)
  | _, [] => []
  | offset, g :: rest =>
      gateValues buffer offset g :: gateRuns buffer (offset + g.elementCount.toInt32) rest

/-- The samples of the gates of every scan. -/
def stampRuns (buffer : AcquisitionBuffer) : Int32 → List TriggerData → List (List (List Int32))
  | _, [] => []
  | offset, trig :: rest =>
      gateRuns buffer offset trig.gateData ::
        stampRuns buffer (offsetBehind offset trig.gateData) rest

/-- Gates that hold a sample, with one at least suppressed between two, and all bins ints. -/
def Separated (offsetBins : UInt32) : Option GateData → List GateData → Prop
  | _, [] => True
  | prev, g :: rest =>
      (∀ before ∈ prev, before.getStopSampleIndex.toNat < g.getStartSampleIndex.toNat) ∧
        g.getStartSampleIndex.toNat < g.getStopSampleIndex.toNat ∧
        offsetBins.toNat + g.getStopSampleIndex.toNat ≤ 2 ^ 31 ∧ Separated offsetBins (some g) rest

instance decidableSeparated (offsetBins : UInt32) :
    (prev : Option GateData) → (gates : List GateData) → Decidable (Separated offsetBins prev gates)
  | _, [] => inferInstanceAs (Decidable True)
  | _, g :: rest =>
      have := decidableSeparated offsetBins (some g) rest
      inferInstanceAs (Decidable (_ ∧ _ ∧ _ ∧ _))

theorem gap_positive (offsetBins : UInt32) {before g : GateData}
    (apart : before.getStopSampleIndex.toNat < g.getStartSampleIndex.toNat)
    (near : g.getStartSampleIndex.toNat < 2 ^ 31) :
    0 < (gateZeroCount offsetBins (some before) g).toInt := by
  have difference : (g.getStartSampleIndex - before.getStopSampleIndex).toNat =
      g.getStartSampleIndex.toNat - before.getStopSampleIndex.toNat :=
    uint64_sub_exact _ _ (by omega)
  rw [gateZeroCount, uint64_narrow_exact _ (by omega), difference]
  omega

theorem gate_kept {g : GateData} (forward : g.getStartSampleIndex.toNat < g.getStopSampleIndex.toNat)
    (near : g.getStopSampleIndex.toNat ≤ 2 ^ 31) (buffer : AcquisitionBuffer) (offset : Int32) :
    g.skipped = false ∧ gateValues buffer offset g ≠ [] := by
  have order : ¬ g.getStopSampleIndex ≤ g.getStartSampleIndex := by
    rw [UInt64.le_iff_toNat_le]
    omega
  have position := g.gateStartSamplePos.toNat_lt
  have widened : g.gateStartSamplePos.toUInt64.toInt64.toInt = g.gateStartSamplePos.toNat := by
    have same : g.gateStartSamplePos.toUInt64.toNat = g.gateStartSamplePos.toNat :=
      UInt32.toNat_toUInt64 _
    rw [uint64_signed_exact _ (by omega), same]
  have bound : g.readBound.toInt = g.gateStartSamplePos.toNat +
      (g.getStopSampleIndex.toNat - g.getStartSampleIndex.toNat : Int) := by
    rw [GateData.readBound, GateData.samples, Int64.toInt_add, Int64.toInt_sub, widened,
      uint64_signed_exact _ (by omega), uint64_signed_exact _ (by omega), Int.bmod_def, Int.bmod_def]
    omega
  -- The int the loop starts at is the position, or less where that is no int.
  have start : g.gateStartSamplePos.toInt32.toInt ≤ g.gateStartSamplePos.toNat := by
    rw [uint32_reinterpret, Int.bmod_def]
    omega
  refine ⟨decide_eq_false order, fun none => ?_⟩
  have count := congrArg List.length none
  rw [gateValues, List.length_map, CountedLoop.indices, List.length_map, List.length_range,
    List.length_nil] at count
  omega

theorem scanPieces_separated (buffer : AcquisitionBuffer) {offsetBins : UInt32}
    {gates : List GateData} {prev : Option GateData} (offset : Int32)
    (separated : Separated offsetBins prev gates) :
    (scanPieces buffer offsetBins prev gates offset).map ScanPiece.values =
        gateRuns buffer offset gates ∧
      (∀ p ∈ scanPieces buffer offsetBins prev gates offset, p.values ≠ []) ∧
      Gapped (scanPieces buffer offsetBins prev gates offset) ∧
      (prev.isSome → ∀ p ∈ scanPieces buffer offsetBins prev gates offset, 0 < p.gap.toInt) := by
  induction gates generalizing prev offset with
  | nil => exact ⟨rfl, by simp [scanPieces], trivial, by simp [scanPieces]⟩
  | cons g rest ih =>
      obtain ⟨apart, forward, near, later⟩ := separated
      obtain ⟨values, present, _, gapped⟩ := ih (offset + g.elementCount.toInt32) later
      obtain ⟨kept, stores⟩ := gate_kept forward (by omega) buffer offset
      have pieces : scanPieces buffer offsetBins prev (g :: rest) offset =
          ⟨gateZeroCount offsetBins prev g, gateValues buffer offset g⟩ ::
            scanPieces buffer offsetBins (some g) rest (offset + g.elementCount.toInt32) := by
        rw [scanPieces, kept, if_neg Bool.false_ne_true, List.singleton_append]
      rw [pieces]
      refine ⟨?_, ?_, gapped rfl, ?_⟩
      · rw [List.map_cons, values, gateRuns]
      · intro p member
        rcases List.mem_cons.mp member with rfl | inside
        · exact stores
        · exact present p inside
      · intro follows p member
        obtain ⟨before, rfl⟩ := Option.isSome_iff_exists.mp follows
        rcases List.mem_cons.mp member with rfl | inside
        · exact gap_positive offsetBins (apart before rfl) (by omega)
        · exact gapped rfl p inside

theorem gateRuns_length (buffer : AcquisitionBuffer) (gates : List GateData) (offset : Int32) :
    (gateRuns buffer offset gates).length = gates.length := by
  induction gates generalizing offset with
  | nil => rfl
  | cons g rest ih => rw [gateRuns, List.length_cons, ih, List.length_cons]

theorem stampRuns_length (buffer : AcquisitionBuffer) (stamps : List TriggerData) (offset : Int32) :
    (stampRuns buffer offset stamps).flatten.length =
      (stamps.flatMap TriggerData.gateData).length := by
  induction stamps generalizing offset with
  | nil => rfl
  | cons trig rest ih =>
      rw [stampRuns, List.flatten_cons, List.length_append, gateRuns_length, ih, List.flatMap_cons,
        List.length_append]

theorem seenGates_stamps {r : UimfAcquisitionRecord} {stamps : List TriggerData} {offset : Int32}
    {results : List EncodedResult}
    (made : List.Forall₂ r.MadeOfPieces (r.stampPieces stamps offset) results)
    (separated : ∀ trig ∈ stamps, Separated r.parameters.offsetBins none trig.gateData) :
    results.map (fun er => seenGates er.encodedSpectra) =
      stampRuns r.acquiredData.samplesBuffer offset stamps := by
  induction stamps generalizing offset results with
  | nil =>
      cases made
      rfl
  | cons trig rest ih =>
      cases made with
      | cons here later =>
          obtain ⟨stored, trigIndex, stamped, rfl⟩ := here
          obtain ⟨values, present, gapped, _⟩ := scanPieces_separated
            r.acquiredData.samplesBuffer offset (separated trig List.mem_cons_self)
          rw [List.map_cons, stampRuns, ih later fun other inside =>
            separated other (List.mem_cons_of_mem trig inside)]
          rw [UimfAcquisitionRecord.result, encoded_scan, seenGates_pieces stored present gapped,
            values]

/-- Every gate of a frame is seen, and one error says how many open below the floor. -/
theorem gates_seen (r : UimfAcquisitionRecord) (frame : UimfFrame) (floor : Int32)
    (made : r.toFrame = .ok frame)
    (separated : ∀ trig ∈ r.acquiredData.stamps,
      Separated r.parameters.offsetBins none trig.gateData)
    (counted : (r.acquiredData.stamps.flatMap TriggerData.gateData).length < 2 ^ 64) :
    frame.data.map (fun er => seenGates er.encodedSpectra) =
        stampRuns r.acquiredData.samplesBuffer 0 r.acquiredData.stamps ∧
      ∃ gates below : UInt64,
        frame.data.foldl (fun counts er => openings floor true er.encodedSpectra counts) (0, 0) =
            (gates, below) ∧
          gates.toNat = (r.acquiredData.stamps.flatMap TriggerData.gateData).length ∧
          below.toNat = (stampRuns r.acquiredData.samplesBuffer 0
            r.acquiredData.stamps).flatten.countP (opensBelow floor) ∧
          checkAlignment floor frame =
            if ∃ run ∈ (stampRuns r.acquiredData.samplesBuffer 0 r.acquiredData.stamps).flatten,
                opensBelow floor run
            then [publishError ("samples misaligned (" ++ toString below ++ " of " ++ toString gates ++
              " gates) in frame " ++ toString r.parameters.frameNumber)]
            else [] := by
  unfold UimfAcquisitionRecord.toFrame at made
  split at made
  · cases made
  · rename_i results ran
    cases made
    have seen := seenGates_stamps (UimfAcquisitionRecord.processStamps_pieces ran) separated
    have total := stampRuns_length r.acquiredData.samplesBuffer r.acquiredData.stamps 0
    have low := List.countP_le_length
      (p := opensBelow floor)
      (l := (stampRuns r.acquiredData.samplesBuffer 0 r.acquiredData.stamps).flatten)
    have counts := openings_frame floor results (0, 0)
    have whole : (results.flatMap fun er => seenGates er.encodedSpectra) =
        (stampRuns r.acquiredData.samplesBuffer 0 r.acquiredData.stamps).flatten := by
      rw [← seen, List.flatMap_def]
    rw [whole, UInt64.zero_add, UInt64.zero_add] at counts
    -- Neither counter wraps, so one of them is 0 exactly where no gate opens low.
    have size : UInt64.size = 2 ^ 64 := rfl
    refine ⟨seen, _, _, counts, ?_, ?_, ?_⟩
    · rw [total, UInt64.toNat_ofNat_of_lt' (by omega)]
    · rw [UInt64.toNat_ofNat_of_lt' (by omega)]
    · unfold checkAlignment
      simp only [counts]
      by_cases opens : ∃ run ∈ (stampRuns r.acquiredData.samplesBuffer 0
          r.acquiredData.stamps).flatten, opensBelow floor run
      · have some := List.countP_pos_iff.mpr opens
        rw [if_pos opens, if_neg]
        intro zero
        have same := congrArg UInt64.toNat zero
        rw [UInt64.toNat_ofNat_of_lt' (by omega), UInt64.toNat_zero] at same
        omega
      · have nothing := List.countP_eq_zero.mpr fun run member low => opens ⟨run, member, low⟩
        rw [if_neg opens, nothing]
        rfl

/-- A gate at bin 0 with a stored zero in it, another one behind a gap, and a scan without gates. -/
def openScans : UimfAcquisitionRecord where
  parameters := ⟨0, 0, 0, 0, 1, 0, ""⟩
  acquiredData := ⟨⟨[0, 32768] ++ List.replicate 14 0 ++ 5 :: List.replicate 15 0, 32, 0, 0, 0, 0⟩,
    [⟨7, 1, 0, [GateMarker.gateData ⟨1, 0, 2, 3⟩, GateMarker.gateData ⟨3, 0, 4, 4⟩]⟩,
      ⟨8, 2, 0, []⟩], 0⟩
  startScanIndex := 0

def openFrame : UimfFrame :=
  ⟨openScans.parameters,
    [⟨0, 7, [32768, 32768, 0, -13, 32773, 32768, 32768, 32768], 196613, 32773, 16, 7⟩,
      ⟨1, 0, [], 0, 0, 0, 8⟩]⟩

theorem gates_seen_open :
    openFrame.data.map (fun er => seenGates er.encodedSpectra) =
        stampRuns openScans.acquiredData.samplesBuffer 0 openScans.acquiredData.stamps ∧
      ∃ gates below : UInt64,
        openFrame.data.foldl (fun counts er => openings 32770 true er.encodedSpectra counts) (0, 0) =
            (gates, below) ∧
          gates.toNat = (openScans.acquiredData.stamps.flatMap TriggerData.gateData).length ∧
          below.toNat = (stampRuns openScans.acquiredData.samplesBuffer 0
            openScans.acquiredData.stamps).flatten.countP (opensBelow 32770) ∧
          checkAlignment 32770 openFrame =
            if ∃ run ∈ (stampRuns openScans.acquiredData.samplesBuffer 0
                openScans.acquiredData.stamps).flatten, opensBelow 32770 run
            then [publishError ("samples misaligned (" ++ toString below ++ " of " ++ toString gates ++
              " gates) in frame " ++ toString openScans.parameters.frameNumber)]
            else [] :=
  gates_seen openScans openFrame 32770 (by decide +kernel) (by decide +kernel) (by decide +kernel)

end AqMD3.Acquisition
