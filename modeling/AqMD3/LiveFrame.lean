import AqMD3.GateOpenings
import AqMD3.ScanSummary
import AqMD3.StoredFrame

/-!
A frame from the streams of the digitizer to the message a client hears. The bins of the
message hold what was recorded for them, summed over the triggers of the record, each trigger
has its own total and timestamp, and recorded gates that open at the floor raise no alarm.
-/

namespace AqMD3.Acquisition

open FixedWidth CountedLoop RunLength BinTotals

theorem runs_open (spectrum : List Int32) (opening : Bool) (bin : Nat) :
    ∀ run ∈ runs (fun val => decide (val < 0)) opening spectrum,
      ∃ place ∈ expandFrom bin (spectrum.map Int32.toInt),
        run.head?.map Int32.toInt = some place.2 ∧ (opening = false → bin < place.1) ∧
          ∀ other ∈ expandFrom bin (spectrum.map Int32.toInt), other.1 + 1 ≠ place.1 := by
  induction spectrum generalizing opening bin with
  | nil => exact fun run member => absurd member List.not_mem_nil
  | cons val rest ih =>
      intro run member
      rw [List.map_cons]
      by_cases skip : val < 0
      · have negative := (skips_iff val).mp skip
        rw [runs, if_pos (decide_eq_true skip)] at member
        obtain ⟨place, stored, head, _, apart⟩ := ih true (bin + val.toInt.natAbs) run member
        rw [expandFrom, if_pos negative]
        have behind := (expandFrom_stored _ _ place stored).1
        exact ⟨place, stored, head, fun _ => by omega, apart⟩
      · have nonneg : ¬ val.toInt < 0 := fun negative => skip ((skips_iff val).mpr negative)
        rw [runs, if_neg (by simpa using skip)] at member
        rw [expandFrom, if_neg nonneg]
        have later (found : run ∈ runs (fun val => decide (val < 0)) false rest) :
            ∃ place ∈ (bin, val.toInt) :: expandFrom (bin + 1) (rest.map Int32.toInt),
              run.head?.map Int32.toInt = some place.2 ∧ (opening = false → bin < place.1) ∧
                ∀ other ∈ (bin, val.toInt) :: expandFrom (bin + 1) (rest.map Int32.toInt),
                  other.1 + 1 ≠ place.1 := by
          obtain ⟨place, stored, head, behind, apart⟩ := ih false (bin + 1) run found
          have past := behind rfl
          refine ⟨place, List.mem_cons_of_mem _ stored, head, fun _ => by omega, ?_⟩
          intro other inside
          rcases List.mem_cons.mp inside with rfl | inside
          · exact Nat.ne_of_lt past
          · exact apart other inside
        cases opening with
        | false => exact later (by simpa using member)
        | true =>
            rw [if_pos rfl] at member
            rcases List.mem_cons.mp member with rfl | member
            · refine ⟨(bin, val.toInt), List.mem_cons_self, rfl, by simp, ?_⟩
              intro other inside
              rcases List.mem_cons.mp inside with rfl | inside
              · exact Nat.succ_ne_self bin
              · have behind := (expandFrom_stored _ _ other inside).1
                simp only
                omega
            · exact later member

theorem placed_opens {offsetBins : UInt32} {gates : List RecordedGate} {place : Nat × Int}
    (member : place ∈ placed offsetBins gates)
    (apart : ∀ other ∈ placed offsetBins gates, other.1 + 1 ≠ place.1) :
    ∃ g ∈ gates, place.2 = g.sample g.first + 32768 := by
  obtain ⟨g, inside, here⟩ := List.mem_flatMap.mp member
  obtain ⟨index, range, rfl⟩ := List.mem_map.mp here
  rw [List.mem_range'_1] at range
  have begins : index = g.first := by
    by_contra later
    refine apart (offsetBins.toNat + (index - 1), g.sample (index - 1) + 32768) ?_ ?_
    · refine List.mem_flatMap.mpr ⟨g, inside, List.mem_map.mpr ⟨index - 1, ?_, rfl⟩⟩
      rw [List.mem_range'_1]
      omega
    · simp only
      omega
  exact ⟨g, inside, by rw [begins]⟩

def OpensAbove (floor : Int32) (t : RecordedTrigger) : Prop :=
  ∀ g ∈ t.gates, floor.toInt ≤ g.sample g.first + 32768

theorem recorded_opens {offsetBins : UInt32} {floor : Int32} {t : RecordedTrigger}
    {er : EncodedResult} (encodes : Encodes offsetBins t er) (above : OpensAbove floor t) :
    ∀ run ∈ seenGates er.encodedSpectra, opensBelow floor run = false := by
  intro run member
  obtain ⟨place, stored, head, _, apart⟩ := runs_open er.encodedSpectra true 0 run member
  rw [encodes.expansion] at stored apart
  obtain ⟨g, inside, value⟩ := placed_opens stored apart
  obtain ⟨val, first, same⟩ := Option.map_eq_some_iff.mp head
  have high := above g inside
  rw [opensBelow, first, Option.any_some, decide_eq_false_iff_not, Int32.lt_iff_toInt_lt]
  omega

theorem checkAlignment_silent {floor : Int32} {frame : UimfFrame}
    (above : ∀ er ∈ frame.data, ∀ run ∈ seenGates er.encodedSpectra, opensBelow floor run = false) :
    checkAlignment floor frame = [] := by
  have nothing : (frame.data.flatMap fun er => seenGates er.encodedSpectra).countP
      (opensBelow floor) = 0 := by
    rw [List.countP_eq_zero]
    intro run member
    obtain ⟨er, inside, seen⟩ := List.mem_flatMap.mp member
    simp [above er inside run seen]
  unfold checkAlignment
  simp [openings_frame, nothing]

theorem expandFrom_samples (spectrum : List Int) (bin : Nat) :
    (expandFrom bin spectrum).map Prod.snd = spectrum.filter fun v => 0 ≤ v := by
  induction spectrum generalizing bin with
  | nil => rfl
  | cons v rest ih =>
      by_cases skip : v < 0
      · rw [expandFrom, if_pos skip, ih, List.filter_cons_of_neg (by simpa using skip)]
      · rw [expandFrom, if_neg skip, List.map_cons, ih,
          List.filter_cons_of_pos (by simpa using skip)]

namespace RecordedTrigger

/-- What was recorded for a bin, shifted as it is stored: nothing where no gate covers it. -/
def amount (offsetBins : UInt32) (t : RecordedTrigger) (bin : Nat) : Int :=
  ((placed offsetBins t.gates).lookup bin).getD 0

def total (offsetBins : UInt32) (t : RecordedTrigger) : Int :=
  ((placed offsetBins t.gates).map Prod.snd).sum

end RecordedTrigger

theorem recorded_tic {r : UimfAcquisitionRecord} {frame : UimfFrame} (made : r.toFrame = .ok frame)
    {er : EncodedResult} (member : er ∈ frame.data) {t : RecordedTrigger}
    (encodes : Encodes r.parameters.offsetBins t er) :
    (er.tic.toUInt64.toUInt32.toNat : Int) = t.total r.parameters.offsetBins % 2 ^ 32 := by
  unfold UimfAcquisitionRecord.toFrame at made
  split at made
  · cases made
  rename_i results ran
  cases made
  obtain ⟨pieces, stored, trigIndex, trig, rfl⟩ := UimfAcquisitionRecord.process_pieces ran er member
  obtain ⟨past, tally⟩ := tally_scan stored
  have samples := storedSamples_scan stored
  have expanded := congrArg (fun places => (places.map Prod.snd).sum) encodes.expansion
  simp only [expandFrom_samples] at expanded
  have sum : ((pieces.map ScanPiece.exact).flatMap GapPieces.Piece.values).sum =
      t.total r.parameters.offsetBins := by
    rw [← samples]
    exact expanded
  have wide := tally.total
  rw [sum] at wide
  change (((pieces.foldl Scan.add .begin).tic.toInt64.toUInt64.toUInt32.toNat : Nat) : Int) = _
  rw [UInt64.toUInt64_toInt64, UInt64.toNat_toUInt32]
  omega

theorem recorded_timestamps {r : UimfAcquisitionRecord} {frame : UimfFrame}
    (made : r.toFrame = .ok frame) {group : List RecordedTrigger}
    (stamps : r.acquiredData.stamps = group.map RecordedTrigger.stamp) {k : Nat} {er : EncodedResult}
    (found : frame.data[k]? = some er) {t : RecordedTrigger} (here : group[k]? = some t) :
    er.timestamp = t.timestamp := by
  unfold UimfAcquisitionRecord.toFrame at made
  split at made
  · cases made
  rename_i results ran
  cases made
  obtain ⟨trig, _, s, _, place, _, rfl⟩ := processStamps_results ran k er found
  rw [stamps, List.getElem?_map, here, Option.map_some] at place
  cases place
  rfl

theorem scanPieces_kept {buffer : AcquisitionBuffer} {offsetBins : UInt32} {gates : List GateData}
    {prev : Option GateData} {offset : Int32}
    (kept : ∀ g ∈ gates, g.getStartSampleIndex.toNat < g.getStopSampleIndex.toNat ∧
      g.getStopSampleIndex.toNat ≤ 2 ^ 31) :
    ∀ p ∈ scanPieces buffer offsetBins prev gates offset, p.values ≠ [] := by
  induction gates generalizing prev offset with
  | nil => exact fun p member => absurd member List.not_mem_nil
  | cons g rest ih =>
      obtain ⟨forward, near⟩ := kept g List.mem_cons_self
      obtain ⟨unskipped, present⟩ := gate_kept forward near buffer offset
      intro p member
      rw [scanPieces, unskipped, if_neg Bool.false_ne_true] at member
      rcases List.mem_append.mp member with here | later
      · rw [List.mem_singleton.mp here]
        exact present
      · exact ih (fun other inside => kept other (List.mem_cons_of_mem g inside)) p later

theorem stampPieces_scan {r : UimfAcquisitionRecord} {stamps : List TriggerData} {start : Int32}
    {pieces : List ScanPiece} (member : pieces ∈ r.stampPieces stamps start) :
    ∃ trig ∈ stamps, ∃ offset, pieces =
      scanPieces r.acquiredData.samplesBuffer r.parameters.offsetBins none trig.gateData offset := by
  induction stamps generalizing start with
  | nil => cases member
  | cons trig rest ih =>
      rw [UimfAcquisitionRecord.stampPieces] at member
      rcases List.mem_cons.mp member with here | later
      · exact ⟨trig, List.mem_cons_self, start, here⟩
      · obtain ⟨other, inside, offset, same⟩ := ih later
        exact ⟨other, List.mem_cons_of_mem trig inside, offset, same⟩

/-- No scan of recorded triggers ends on a skip, and no entry is larger than a sample. -/
theorem recorded_scans {r : UimfAcquisitionRecord} {frame : UimfFrame} (made : r.toFrame = .ok frame)
    {group : List RecordedTrigger} (stamps : r.acquiredData.stamps = group.map RecordedTrigger.stamp)
    (near : ∀ t ∈ group, ∀ g ∈ t.gates, g.past ≤ 2 ^ 31) :
    ∀ er ∈ frame.data, (∀ val ∈ er.encodedSpectra.getLast?, ¬ val < 0) ∧
      ∀ val ∈ er.encodedSpectra, val.toInt ≤ 65535 := by
  unfold UimfAcquisitionRecord.toFrame at made
  split at made
  · cases made
  rename_i results ran
  cases made
  intro er member
  obtain ⟨pieces, among, stored, trigIndex, trig, rfl⟩ :=
    forall₂_right (UimfAcquisitionRecord.processStamps_pieces ran) member
  obtain ⟨stamped, inside, offset, same⟩ := stampPieces_scan among
  rw [stamps] at inside
  obtain ⟨t, held, rfl⟩ := List.mem_map.mp inside
  have present : ∀ p ∈ pieces, p.values ≠ [] := by
    rw [same]
    refine scanPieces_kept fun g gated => ?_
    obtain ⟨recorded, there, rfl⟩ := List.mem_map.mp gated
    have past := near t held recorded there
    rw [RecordedGate.start_exact recorded past, RecordedGate.stop_exact recorded past]
    exact ⟨recorded.nonempty, past⟩
  have encoded : (r.result trigIndex trig (pieces.foldl Scan.add .begin)).encodedSpectra =
      encoding pieces := encoded_scan pieces
  rw [encoded]
  exact ⟨encoding_ends stored present, encoding_bound stored⟩

/-- What a client hears of a group of triggers. -/
structure LiveMessage (sampleCount offsetBins : UInt32) (group : List RecordedTrigger)
    (msg : Message) : Prop where
  length : msg.mz.length = sampleCount.toNat
  sums : ∀ bin entry, msg.mz[bin]? = some entry →
    entry.toInt = (group.map fun t => t.amount offsetBins bin).sum
  tic : msg.tic.map (fun count => (count.toNat : Int)) =
    group.map fun t => t.total offsetBins % 2 ^ 32
  timeStamps : msg.timeStamps = group.map RecordedTrigger.timestamp

theorem scans_map {Value : Type} {data : List EncodedResult} {group : List RecordedTrigger}
    (length : data.length = group.length) {scanned : EncodedResult → Value}
    {recorded : RecordedTrigger → Value}
    (each : ∀ (k : Nat) er t, data[k]? = some er → group[k]? = some t → scanned er = recorded t) :
    data.map scanned = group.map recorded := by
  apply List.ext_getElem?
  intro k
  rw [List.getElem?_map, List.getElem?_map]
  by_cases inside : k < data.length
  · have here := List.getElem?_eq_getElem inside
    have there := List.getElem?_eq_getElem (show k < group.length by omega)
    rw [here, there, Option.map_some, Option.map_some, each k _ _ here there]
  · rw [List.getElem?_eq_none (by omega), List.getElem?_eq_none (by omega)]
    rfl

section Sent

variable {parameters : UimfFrameParameters} {data : AcquiredData} (start : UInt64)
  {group : List RecordedTrigger} {sampleCount : UInt32} {floor : Int32}

theorem handed_sent (hands : HandsOn group data)
    (fits : ∀ t ∈ group, TriggerFits parameters.offsetBins t)
    (counted : start.toNat + group.length < 2 ^ 31) (few : group.length ≤ 32768)
    (inside : ∀ t ∈ group, ∀ g ∈ t.gates,
      parameters.offsetBins.toNat + g.past ≤ sampleCount.toNat)
    (above : ∀ t ∈ group, OpensAbove floor t)
    (encode : Message → Except Thrown (List UInt8)) (z : ZmqAcquiredDataSubscriber)
    (size : z.dataVector.length = sampleCount.toNat) (floored : z.firstSampleFloor = floor) :
    ∃ frame msg, UimfAcquisitionRecord.toFrame ⟨parameters, data, start⟩ = .ok frame ∧
      LiveMessage sampleCount parameters.offsetBins group msg ∧
      ∀ content, encode msg = .ok content →
        (z.onNotify encode frame).sends = [⟨dataSubject, .bytes content, 100⟩] := by
  obtain ⟨frame, made, _, length, scans⟩ :=
    handed_frame parameters data start group hands fits counted
  have scanned (k : Nat) (er : EncodedResult) (t : RecordedTrigger) (found : frame.data[k]? = some er)
      (here : group[k]? = some t) : Encodes parameters.offsetBins t er := by
    obtain ⟨other, same, scan⟩ := scans k er found
    rw [here] at same
    cases same
    exact scan.encodes
  have encodes (er : EncodedResult) (member : er ∈ frame.data) :
      ∃ t ∈ group, Encodes parameters.offsetBins t er := by
    obtain ⟨k, within, found⟩ := List.mem_iff_getElem.mp member
    obtain ⟨t, here, scan⟩ := scans k er (List.getElem?_eq_some_iff.mpr ⟨within, found⟩)
    exact ⟨t, List.mem_of_getElem? here, scan.encodes⟩
  have past (t : RecordedTrigger) (member : t ∈ group) (g : RecordedGate) (gated : g ∈ t.gates) :
      parameters.offsetBins.toNat + g.past ≤ 2 ^ 31 :=
    bins_past parameters.offsetBins t (fits t member).bins g gated
  have ends := recorded_scans made hands.stamps fun t member g gated => by
    have := past t member g gated
    omega
  have steps : ∀ er ∈ frame.data, ∀ step ∈ binSteps 0 er.encodedSpectra,
      step.bin < sampleCount.toNat ∧ step.bin < 2 ^ 31 := by
    intro er member step stepped
    obtain ⟨place, stored, behind⟩ :=
      steps_before_stored er.encodedSpectra 0 (ends er member).1 step stepped
    obtain ⟨t, held, scan⟩ := encodes er member
    rw [scan.expansion] at stored
    obtain ⟨g, gated, here⟩ := List.mem_flatMap.mp stored
    obtain ⟨index, range, rfl⟩ := List.mem_map.mp here
    rw [List.mem_range'_1] at range
    have low := inside t held g gated
    have near := past t held g gated
    simp only at behind
    omega
  have zeros : List.replicate z.dataVector.length (0 : Int32) =
      (List.replicate sampleCount.toNat (0 : Int)).map Int32.ofInt := by
    rw [List.map_replicate, size]
    rfl
  obtain ⟨last, ran, total⟩ := sumFrame_totals frame.data
    ⟨0, List.replicate z.dataVector.length (0 : Int32), []⟩ _ zeros (by
      rw [List.length_replicate, size]
      exact steps)
  have silent : checkAlignment z.firstSampleFloor frame = [] := by
    rw [floored]
    refine checkAlignment_silent fun er member => ?_
    obtain ⟨t, held, scan⟩ := encodes er member
    exact recorded_opens scan (above t held)
  refine ⟨frame, ⟨last.data, frame.data.map fun er => er.tic.toUInt64.toUInt32,
    frame.data.map EncodedResult.timestamp⟩, made, ⟨?_, ?_, ?_, ?_⟩, ?_⟩
  · rw [total, List.length_map, deposits_length, List.length_replicate]
  · intro bin entry found
    simp only [total, List.getElem?_map, deposits_cell, Option.map_map] at found
    obtain ⟨zero, held, sum⟩ := Option.map_eq_some_iff.mp found
    have nothing : zero = 0 := (List.mem_replicate.mp (List.mem_of_getElem? held)).2
    rw [nothing, Function.comp_apply, Int.zero_add, amountAt_scans] at sum
    have values : (frame.data.map fun er => er.valueAt bin) =
        group.map fun t => t.amount parameters.offsetBins bin := by
      refine scans_map length fun k er t found here => ?_
      rw [EncodedResult.valueAt, EncodedResult.expansion, (scanned k er t found here).expansion]
      rfl
    -- A trigger adds at most 65535 to a bin, so 32768 of them do not wrap an int32.
    obtain ⟨low, high⟩ := scans_bounds frame.data bin fun er member => (ends er member).2
    rw [← values, ← sum, Int32.toInt_ofInt, Int.bmod_def]
    simp only [Int32.size]
    omega
  · rw [List.map_map]
    refine scans_map length fun k er t found here => ?_
    exact recorded_tic made (List.mem_of_getElem? found) (scanned k er t found here)
  · exact scans_map length fun k er t found here => recorded_timestamps made hands.stamps found here
  · intro content encoded
    unfold ZmqAcquiredDataSubscriber.onNotify
    simp only [ran, encoded, silent, List.nil_append]

end Sent

theorem record_few {c : CstZs1Context} {calls : List AcquireCall} {markers : List FetchReply}
    {hunks : List Hunk} {groups : List (List RecordedTrigger)} {b : Behaviour}
    {segmentSize : UInt64} {parameters : UimfFrameParameters} {steps : Nat}
    (served : StreamsServed c calls markers hunks groups)
    (answered : AnswersFrom b c calls markers (Frame.after b segmentSize parameters steps).events)
    (positive : 1 ≤ segmentSize) {i : Nat} {record : UimfAcquisitionRecord}
    (here : (records (Frame.after b segmentSize parameters steps).events)[i]? = some record) :
    record.acquiredData.stamps.length ≤ segmentSize.toNat := by
  have exact_ := calls_exact served answered
  have tiled := after_tiled positive steps exact_
  have handed := after_handed b segmentSize parameters steps
  have within := (List.getElem?_eq_some_iff.mp here).1
  have fewer := handed.fewer
  have count := handed.asked
  have call := List.getElem?_eq_getElem
    (show i < (acquires (Frame.after b segmentSize parameters steps).events).length by omega)
  have answer := handed.answered i _ call
  rw [(handed.each i record here).2] at answer
  have member := List.mem_of_getElem? call
  have size := exact_ _ member record.acquiredData answer
  have asks := UInt64.le_iff_toNat_le.mp (tiled.asks _ member).2
  omega

theorem record_sent {c : CstZs1Context} {calls : List AcquireCall} {markers : List FetchReply}
    {hunks : List Hunk} {groups : List (List RecordedTrigger)} {b : Behaviour}
    {segmentSize : UInt64} {parameters : UimfFrameParameters} {steps : Nat}
    (served : StreamsServed c calls markers hunks groups)
    (answered : AnswersFrom b c calls markers (Frame.after b segmentSize parameters steps).events)
    (positive : 1 ≤ segmentSize) (few : segmentSize.toNat ≤ 32768)
    (fits : ∀ t ∈ groups.flatten, TriggerFits parameters.offsetBins t)
    (counted : groups.flatten.length < 2 ^ 31) {sampleCount : UInt32} {floor : Int32}
    (inside : ∀ t ∈ groups.flatten, ∀ g ∈ t.gates,
      parameters.offsetBins.toNat + g.past ≤ sampleCount.toNat)
    (above : ∀ t ∈ groups.flatten, OpensAbove floor t)
    (before : List ((Message → Except Thrown (List UInt8)) × UimfFrame))
    (encode : Message → Except Thrown (List UInt8)) {i : Nat} {record : UimfAcquisitionRecord}
    (at_i : (records (Frame.after b segmentSize parameters steps).events)[i]? = some record) :
    ∃ group frame msg, groups[i]? = some group ∧ group.length ≤ 32768 ∧
      record.toFrame = .ok frame ∧ LiveMessage sampleCount parameters.offsetBins group msg ∧
      ∀ content, encode msg = .ok content →
        (((ZmqAcquiredDataSubscriber.create sampleCount floor).notifyAll before).onNotify encode
          frame).sends = [⟨dataSubject, .bytes content, 100⟩] := by
  obtain ⟨group, place, hands, same, start⟩ := records_grouped served answered positive at_i
  have among (t : RecordedTrigger) (held : t ∈ group) : t ∈ groups.flatten :=
    List.mem_flatten.mpr ⟨group, List.mem_of_getElem? place, held⟩
  have total := flatten_within place
  have short := record_few served answered positive at_i
  rw [hands.stamps, List.length_map] at short
  obtain ⟨kept, floored⟩ :=
    (ZmqAcquiredDataSubscriber.create sampleCount floor).notifyAll_kept before
  obtain ⟨frame, msg, made, live, sent⟩ := handed_sent record.startScanIndex hands
    (fun t held => fits t (among t held)) (by omega) (by omega)
    (fun t held => inside t (among t held)) (fun t held => above t (among t held)) encode
    ((ZmqAcquiredDataSubscriber.create sampleCount floor).notifyAll before)
    (kept.trans List.length_replicate) floored
  exact ⟨group, frame, msg, place, by omega, by rw [← same] at made; exact made, live, sent⟩

/-- From the streams to the client: where samples come without a gap, and whatever was summed
before, a record of the worker is heard as one message, and no alarm. -/
theorem frame_streamed (c : CstZs1Context) (calls : List AcquireCall) (markers : List FetchReply)
    (hunks : List Hunk) (groups : List (List RecordedTrigger)) (b : Behaviour)
    (segmentSize : UInt64) (parameters : UimfFrameParameters) (steps : Nat)
    (served : StreamsServed c calls markers hunks groups)
    (answered : AnswersFrom b c calls markers (Frame.after b segmentSize parameters steps).events)
    (positive : 1 ≤ segmentSize) (few : segmentSize.toNat ≤ 32768)
    (fits : ∀ t ∈ groups.flatten, TriggerFits parameters.offsetBins t)
    (counted : groups.flatten.length < 2 ^ 31) (sampleCount : UInt32) (floor : Int32)
    (inside : ∀ t ∈ groups.flatten, ∀ g ∈ t.gates,
      parameters.offsetBins.toNat + g.past ≤ sampleCount.toNat)
    (above : ∀ t ∈ groups.flatten, OpensAbove floor t)
    (before : List ((Message → Except Thrown (List UInt8)) × UimfFrame))
    (encode : Message → Except Thrown (List UInt8)) :
    ∀ (i : Nat) (record : UimfAcquisitionRecord),
      (records (Frame.after b segmentSize parameters steps).events)[i]? = some record →
        ∃ group frame msg, groups[i]? = some group ∧ record.toFrame = .ok frame ∧
          LiveMessage sampleCount parameters.offsetBins group msg ∧
          ∀ content, encode msg = .ok content →
            (((ZmqAcquiredDataSubscriber.create sampleCount floor).notifyAll before).onNotify encode
              frame).sends = [⟨dataSubject, .bytes content, 100⟩] := by
  intro i record at_i
  obtain ⟨group, frame, msg, place, _, made, live, sent⟩ :=
    record_sent served answered positive few fits counted inside above before encode at_i
  exact ⟨group, frame, msg, place, made, live, sent⟩

/-- The frame of two scans, heard behind one that was refused. -/
theorem frame_streamed_two_scans :
    (records (Frame.after frameBehaviour 1 frameParameters 9).events).length = 2 ∧
      ∀ (i : Nat) (record : UimfAcquisitionRecord),
        (records (Frame.after frameBehaviour 1 frameParameters 9).events)[i]? = some record →
          ∃ group frame msg, frameGroups[i]? = some group ∧ record.toFrame = .ok frame ∧
            LiveMessage 64 frameParameters.offsetBins group msg ∧
            ∀ content, (Except.ok [1] : Except Thrown (List UInt8)) = .ok content →
              (((ZmqAcquiredDataSubscriber.create 64 32775).notifyAll
                [(fun _ => .ok [], refusedFrame)]).onNotify (fun _ => .ok [1]) frame).sends =
                  [⟨dataSubject, .bytes content, 100⟩] :=
  ⟨by decide +kernel, frame_streamed frameContext twoCalls frameFetches frameHunks frameGroups
    frameBehaviour 1 frameParameters 9 frame_served frame_answered (by decide) (by decide) frame_fits
    (by decide) 64 32775 (by decide +kernel) (by unfold OpensAbove; decide +kernel)
    [(fun _ => .ok [], refusedFrame)] fun _ => .ok [1]⟩

end AqMD3.Acquisition
