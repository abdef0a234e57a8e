import AqMD3.CommittedRows
import AqMD3.CompressedBlob
import AqMD3.FrameTiling
import AqMD3.RecordedCalls

/-!
A frame from the streams of the digitizer to the rows of the file. Every record the worker
hands on holds the next triggers of the stream, its scans are numbered as the triggers are,
and the blob in a scan's row reads back to what was recorded for that trigger.
-/

namespace AqMD3.Acquisition

open FixedWidth CellMemory CountedLoop RunLength AcquisitionBuffer

theorem forall₂_at {First Second : Type} {related : First → Second → Prop} {first : List First}
    {second : List Second} (all : List.Forall₂ related first second) {k : Nat} {x : First}
    {y : Second} (here : first[k]? = some x) (there : second[k]? = some y) : related x y := by
  obtain ⟨inside, rfl⟩ := List.getElem?_eq_some_iff.mp here
  obtain ⟨within, rfl⟩ := List.getElem?_eq_some_iff.mp there
  exact all.get inside within

theorem gapCode_length (zeroCount : Int32) : (gapCode zeroCount).length ≤ 2 := by
  unfold gapCode
  split
  · exact Nat.le_refl 2
  · split
    · exact Nat.le_succ 1
    · exact Nat.zero_le 2

theorem processGate_length (buffer : AcquisitionBuffer) (offsetBins : UInt32) (offset : Int32)
    (prev : Option GateData) (g : RecordedGate) (s next : Scan) (fits : g.past ≤ 2 ^ 31)
    (bound : g.gate.readBound.toInt < 2 ^ 31)
    (run : processGate buffer offsetBins offset prev g.gate s = .ok next) :
    next.encodedSamples.length ≤ s.encodedSamples.length + (g.past - g.first + 2) := by
  have inside : g.first < g.past := g.nonempty
  have limit := RecordedGate.bound_exact g fits
  have small := g.startPos
  have gap := gapCode_length (gateZeroCount offsetBins prev g.gate)
  have start : g.gate.gateStartSamplePos.toInt32.toInt = g.marker.startBlockSampleIndx.toNat := by
    change g.marker.startBlockSampleIndx.toInt32.toInt = _
    rw [uint32_reinterpret, Int.bmod_def]
    omega
  have ends := forInt_ends g.gate.gateStartSamplePos.toInt32 g.gate.readBound.toInt fun _ => bound
  simp only [processGate, RecordedGate.unskipped g fits, ends, Bool.false_eq_true, ↓reduceIte] at run
  injection run with same
  rw [← same, store_samples, Scan.skip, List.length_append, List.length_append, List.length_map,
    indices, List.length_map, List.length_range, limit, start]
  omega

theorem processGates_length (buffer : AcquisitionBuffer) (offsetBins : UInt32)
    (gates : List RecordedGate) (prev : Option GateData) (offset last : Int32) (s ended : Scan)
    (fits : ∀ g ∈ gates, g.past ≤ 2 ^ 31) (bound : ∀ g ∈ gates, g.gate.readBound.toInt < 2 ^ 31)
    (run : processGates buffer offsetBins prev (gates.map RecordedGate.gate) offset s =
      .ok (ended, last)) :
    ended.encodedSamples.length ≤
      s.encodedSamples.length + ((gates.map fun g => g.past - g.first).sum + 2 * gates.length) := by
  induction gates generalizing prev offset s with
  | nil =>
      cases run
      exact Nat.le_add_right _ _
  | cons g rest ih =>
      rw [List.map_cons, processGates] at run
      cases step : processGate buffer offsetBins offset prev g.gate s with
      | error fault => rw [step] at run; cases run
      | ok next =>
          rw [step] at run
          have here := processGate_length buffer offsetBins offset prev g s next
            (fits g List.mem_cons_self) (bound g List.mem_cons_self) step
          have later := ih _ _ next (fun g member => fits g (List.mem_cons_of_mem _ member))
            (fun g member => bound g (List.mem_cons_of_mem _ member)) run
          rw [List.map_cons, List.sum_cons, List.length_cons]
          omega

theorem processStamps_results {r : UimfAcquisitionRecord} {stamps : List TriggerData}
    {trigIndex : Nat} {offset : Int32} {results : List EncodedResult}
    (ran : r.processStamps trigIndex stamps offset = .ok results) (k : Nat) (er : EncodedResult)
    (found : results[k]? = some er) :
    ∃ trig start s next, stamps[k]? = some trig ∧ r.processTrigger start trig = .ok (s, next) ∧
      er = r.result (trigIndex + k) trig s := by
  induction stamps generalizing trigIndex offset results k with
  | nil => cases ran; cases found
  | cons trig rest ih =>
      rw [UimfAcquisitionRecord.processStamps] at ran
      cases here : r.processTrigger offset trig with
      | error fault => rw [here] at ran; cases ran
      | ok pair =>
          obtain ⟨s, next⟩ := pair
          simp only [here] at ran
          cases later : r.processStamps (trigIndex + 1) rest next with
          | error fault => rw [later] at ran; cases ran
          | ok tail =>
              rw [later] at ran
              injection ran with same
              subst same
              cases k with
              | zero =>
                  injection found with first
                  exact ⟨trig, offset, s, next, rfl, here, first.symm⟩
              | succ k =>
                  obtain ⟨trig', start, s', next', place, run, result⟩ := ih later k found
                  refine ⟨trig', start, s', next', place, run, ?_⟩
                  rw [result, Nat.add_assoc, Nat.add_comm 1 k]

/-- What fits: the counters of a trigger's gates, and the ints a blob's size is counted in. -/
structure TriggerFits (offsetBins : UInt32) (t : RecordedTrigger) : Prop where
  bins : BinsFit offsetBins t
  counters : CountersFit t
  spectrum : t.samples + 2 * t.gates.length < 2 ^ 28

/-- A scan of a recorded trigger: its encoding, and its number in the frame. -/
structure ScanOf (offsetBins : UInt32) (place : Nat) (t : RecordedTrigger) (er : EncodedResult) :
    Prop where
  encodes : Encodes offsetBins t er
  short : er.encodedSpectra.length ≤ t.samples + 2 * t.gates.length
  scan : er.scan.toInt = place

/-- A record of handed-on data makes a frame, with one scan a trigger in their order. -/
theorem handed_frame (parameters : UimfFrameParameters) (data : AcquiredData) (start : UInt64)
    (group : List RecordedTrigger) (hands : HandsOn group data)
    (fits : ∀ t ∈ group, TriggerFits parameters.offsetBins t)
    (counted : start.toNat + group.length < 2 ^ 31) :
    ∃ frame, UimfAcquisitionRecord.toFrame ⟨parameters, data, start⟩ = .ok frame ∧
      frame.parameters = parameters ∧ frame.data.length = group.length ∧
      ∀ (k : Nat) (er : EncodedResult), frame.data[k]? = some er →
        ∃ t, group[k]? = some t ∧ ScanOf parameters.offsetBins (start.toNat + k) t er := by
  obtain ⟨stamps, sound, elements⟩ := hands
  obtain ⟨results, ran, all⟩ := processStamps_recorded ⟨parameters, data, start⟩
    sound group 0 0 0 [] rfl (by rw [List.drop_zero, elements, List.append_nil])
    (fun t member => (fits t member).bins) (fun t member => (fits t member).counters)
  refine ⟨⟨parameters, results⟩, ?_, rfl, all.length_eq.symm, ?_⟩
  · rw [UimfAcquisitionRecord.toFrame, UimfAcquisitionRecord.process, stamps, ran]
  intro k er found
  obtain ⟨trig, offset, s, next, place, run, result⟩ := processStamps_results ran k er found
  obtain ⟨t, at_k, rfl⟩ := Option.map_eq_some_iff.mp (List.getElem?_map ▸ place)
  have member := List.mem_of_getElem? at_k
  have past := bins_past parameters.offsetBins t (fits t member).bins
  have inside : k < group.length := (List.getElem?_eq_some_iff.mp at_k).1
  refine ⟨t, at_k, forall₂_at all at_k found, ?_, ?_⟩
  · simp only [UimfAcquisitionRecord.processTrigger] at run
    split at run
    · cases run
    have length := processGates_length data.samplesBuffer parameters.offsetBins t.gates none offset
      next .begin s (fun g inside => by have := past g inside; omega)
      (fun g inside => by
        rw [RecordedGate.bound_exact g (by have := past g inside; omega)]
        exact Int.ofNat_lt.mpr ((fits t member).counters.bound g inside)) run
    rw [result]
    exact length.trans (by rw [Scan.begin, List.length_nil, Nat.zero_add]; exact Nat.le_refl _)
  · rw [result]
    have index : (UInt64.ofNat (0 + k)).toNat = k := by
      rw [Nat.zero_add]
      exact UInt64.toNat_ofNat_of_lt' (show k < 2 ^ 64 by omega)
    have sum : (start + UInt64.ofNat (0 + k)).toNat = start.toNat + k := by
      rw [uint64_add_exact _ _ (by omega), index]
    change (start + UInt64.ofNat (0 + k)).toUInt32.toInt32.toInt = _
    rw [uint64_narrow_exact _ (by omega), sum]

/-- A statement that neither holds data nor reports what a call threw. -/
def Plain (statement : Statement) : Prop :=
  (∀ data, statement ≠ .notifying data) ∧ ∀ text, statement ≠ .reporting text

/-- What a step of a frame's worker does. -/
inductive FrameMove (b : Behaviour) (segmentSize : UInt64) (f : Frame) : Frame → Prop
  | resting (done : f.worker.Over) : FrameMove b segmentSize f f
  | quiet (statement : Statement) (event : Option Event) (before : Plain f.worker.statement)
      (after : Plain statement) (silent : ∀ e, event = some e → e.record = none ∧ e.acquire = none)
      (asks : statement = .acquiring → f.worker.hasErrored = false) :
      FrameMove b segmentSize f ⟨f.worker.goto statement, f.acquires, f.events ++ event.toList⟩
  | returned (data : AcquiredData) (acquiring : f.worker.statement = .acquiring)
      (answer : b.acquire f.acquires = .ok data) :
      FrameMove b segmentSize f ⟨f.worker.goto (.notifying data), f.acquires + 1,
        f.events ++ [.acquired (f.worker.toAcquireCount segmentSize) (.ok data)]⟩
  | threw (thrown : Thrown) (text : String) (acquiring : f.worker.statement = .acquiring)
      (answer : b.acquire f.acquires = .error thrown) :
      FrameMove b segmentSize f ⟨f.worker.goto (.reporting text), f.acquires + 1,
        f.events ++ [.acquired (f.worker.toAcquireCount segmentSize) (.error thrown)]⟩
  | notified (data : AcquiredData) (notifying : f.worker.statement = .notifying data) :
      FrameMove b segmentSize f
        ⟨{ f.worker with
            statement := .testing
            scansAcquiredCount := f.worker.scansAcquiredCount + UInt64.ofNat data.stamps.length },
          f.acquires,
          f.events ++ [.notified ⟨f.worker.parameters, data, f.worker.scansAcquiredCount⟩]⟩
  | reported (text : String) (reporting : f.worker.statement = .reporting text) :
      FrameMove b segmentSize f ⟨{ f.worker with statement := .testing, hasErrored := true },
        f.acquires, f.events ++ [.published text]⟩

theorem frame_move (b : Behaviour) (segmentSize : UInt64) (f : Frame) :
    FrameMove b segmentSize f (f.step b segmentSize) := by
  have quiet := @FrameMove.quiet b segmentSize f
  cases statement : f.worker.statement with
  | ended =>
      rw [frame_step_over (Or.inl statement)]
      exact .resting (Or.inl statement)
  | escaped thrown =>
      rw [frame_step_over (Or.inr ⟨thrown, statement⟩)]
      exact .resting (Or.inr ⟨thrown, statement⟩)
  | testing =>
      have plain : Plain f.worker.statement := by simp [Plain, statement]
      by_cases short : f.worker.scansAcquiredCount < f.worker.parameters.frameLength
      · by_cases clean : f.worker.hasErrored = true
        · simpa [Frame.step, Worker.step, statement, short, clean] using
            quiet .stopping none plain (by simp [Plain]) (by simp) (by simp)
        · by_cases stop : b.shouldStop f.acquires = true
          · simpa [Frame.step, Worker.step, statement, short, clean, Behaviour.answers, stop] using
              quiet .stopping (some .sawStop) plain (by simp [Plain]) (by simp) (by simp)
          · simpa [Frame.step, Worker.step, statement, short, clean, Behaviour.answers, stop] using
              quiet .acquiring none plain (by simp [Plain]) (by simp) (by simpa using clean)
      · simpa [Frame.step, Worker.step, statement, short] using
          quiet .stopping none plain (by simp [Plain]) (by simp) (by simp)
  | acquiring =>
      cases answer : b.acquire f.acquires with
      | ok data =>
          simpa [Frame.step, Worker.step, statement, Behaviour.answers, answer] using
            @FrameMove.returned b segmentSize f data statement answer
      | error thrown =>
          simpa [Frame.step, Worker.step, statement, Behaviour.answers, answer] using
            @FrameMove.threw b segmentSize f thrown
              (errorStatus f.worker.parameters.frameNumber thrown) statement answer
  | notifying data =>
      simpa [Frame.step, Worker.step, statement] using
        @FrameMove.notified b segmentSize f data statement
  | reporting text =>
      simpa [Frame.step, Worker.step, statement] using
        @FrameMove.reported b segmentSize f text statement
  | entering =>
      simpa [Frame.step, Worker.step, statement] using
        quiet .asking (some (.stored .acquiring)) (by simp [Plain, statement]) (by simp [Plain])
          (by simp) (by simp)
  | asking =>
      have plain : Plain f.worker.statement := by simp [Plain, statement]
      cases asked : b.getIsAcquiring with
      | error thrown =>
          simpa [Frame.step, Worker.step, statement, Behaviour.answers, asked] using
            quiet (.escaped thrown) (some (.asked (.error thrown))) plain (by simp [Plain])
              (by simp) (by simp)
      | ok acquiring =>
          cases acquiring with
          | true =>
              simpa [Frame.step, Worker.step, statement, Behaviour.answers, asked] using
                quiet .stopping (some (.asked (.ok true))) plain (by simp [Plain]) (by simp)
                  (by simp)
          | false =>
              simpa [Frame.step, Worker.step, statement, Behaviour.answers, asked] using
                quiet .starting (some (.asked (.ok false))) plain (by simp [Plain]) (by simp)
                  (by simp)
  | starting =>
      have plain : Plain f.worker.statement := by simp [Plain, statement]
      cases started : b.start with
      | error thrown =>
          simpa [Frame.step, Worker.step, statement, Behaviour.answers, started] using
            quiet (.escaped thrown) (some (.started (.error thrown))) plain (by simp [Plain])
              (by simp) (by simp)
      | ok _ =>
          simpa [Frame.step, Worker.step, statement, Behaviour.answers, started] using
            quiet .testing (some (.started (.ok ()))) plain (by simp [Plain]) (by simp) (by simp)
  | stopping =>
      simpa [Frame.step, Worker.step, statement] using
        quiet .aborting (some (.stored .stopped)) (by simp [Plain, statement]) (by simp [Plain])
          (by simp) (by simp)
  | aborting =>
      have plain : Plain f.worker.statement := by simp [Plain, statement]
      cases stop : b.stop with
      | error thrown =>
          simpa [Frame.step, Worker.step, statement, Behaviour.answers, stop] using
            quiet (.escaped thrown) (some (.aborted (.error thrown))) plain (by simp [Plain])
              (by simp) (by simp)
      | ok _ =>
          simpa [Frame.step, Worker.step, statement, Behaviour.answers, stop] using
            quiet .finishing (some (.aborted (.ok ()))) plain (by simp [Plain]) (by simp) (by simp)
  | finishing =>
      simpa [Frame.step, Worker.step, statement] using
        quiet .ended (some (.published finished)) (by simp [Plain, statement]) (by simp [Plain])
          (by simp) (by simp)

/-- The calls so far were answered in their order, and the records so far hold the answers; one
that is held is the next. -/
structure Handed (b : Behaviour) (parameters : UimfFrameParameters) (f : Frame) : Prop where
  same : f.worker.parameters = parameters
  answered : ∀ (i : Nat) (call : UInt64 × Except Thrown AcquiredData),
    (acquires f.events)[i]? = some call → call.2 = b.acquire i
  asked : (acquires f.events).length = f.acquires
  each : ∀ (i : Nat) (record : UimfAcquisitionRecord), (records f.events)[i]? = some record →
    record.parameters = parameters ∧ b.acquire i = .ok record.acquiredData
  fewer : (records f.events).length ≤ f.acquires
  acquiring : f.worker.statement = .acquiring → f.worker.hasErrored = false
  counted : f.worker.hasErrored = false → Plain f.worker.statement →
    f.acquires = (records f.events).length
  notifying : ∀ data, f.worker.statement = .notifying data → f.worker.hasErrored = false ∧
    f.acquires = (records f.events).length + 1 ∧ b.acquire (records f.events).length = .ok data

theorem handed_spawned (b : Behaviour) (parameters : UimfFrameParameters) :
    Handed b parameters (.spawned parameters) := by
  constructor <;> simp [Frame.spawned, Worker.spawned]

theorem concat_at {Value : Type} {values : List Value} {last found : Value} {i : Nat}
    (here : (values ++ [last])[i]? = some found) :
    values[i]? = some found ∨ i = values.length ∧ found = last := by
  rcases Nat.lt_trichotomy i values.length with earlier | same | beyond
  · rw [List.getElem?_append_left earlier] at here
    exact Or.inl here
  · subst same
    rw [List.getElem?_concat_length, Option.some.injEq] at here
    exact Or.inr ⟨rfl, here.symm⟩
  · rw [List.getElem?_eq_none (by rw [List.length_append, List.length_singleton]; omega)] at here
    cases here

theorem handed_step {b : Behaviour} {segmentSize : UInt64} {parameters : UimfFrameParameters}
    {f next : Frame} (handed : Handed b parameters f) (move : FrameMove b segmentSize f next) :
    Handed b parameters next := by
  cases move with
  | resting done => exact handed
  | quiet statement event before after silent asks =>
      have kept : records (f.events ++ event.toList) = records f.events ∧
          acquires (f.events ++ event.toList) = acquires f.events := by
        cases event with
        | none => simp
        | some e =>
            obtain ⟨unrecorded, unasked⟩ := silent e rfl
            rw [Option.toList_some, records_append, records_cons, unrecorded, acquires_append,
              acquires_cons, unasked]
            simp
      exact ⟨handed.same, by rw [kept.2]; exact handed.answered, by rw [kept.2]; exact handed.asked,
        by rw [kept.1]; exact handed.each, by rw [kept.1]; exact handed.fewer, asks,
        fun clean _ => by rw [kept.1]; exact handed.counted clean before,
        fun data holds => absurd holds (after.1 data)⟩
  | returned data here answer =>
      have clean := handed.acquiring here
      have count := handed.counted clean (by simp [Plain, here])
      have calls : acquires (f.events ++ [.acquired (f.worker.toAcquireCount segmentSize) (.ok data)]) =
          acquires f.events ++ [(f.worker.toAcquireCount segmentSize, .ok data)] := acquires_append _ _
      have kept : records (f.events ++ [.acquired (f.worker.toAcquireCount segmentSize) (.ok data)]) =
          records f.events := by simp
      refine ⟨handed.same, ?_, by rw [calls, List.length_append, handed.asked]; rfl,
        by rw [kept]; exact handed.each, by rw [kept]; exact Nat.le_succ_of_le handed.fewer,
        by simp [Worker.goto], fun _ plain => absurd rfl (plain.1 data), ?_⟩
      · intro i call found
        rw [calls] at found
        rcases concat_at found with earlier | ⟨rfl, rfl⟩
        · exact handed.answered i call earlier
        · rw [handed.asked, answer]
      · intro other holds
        cases holds
        rw [kept, ← count]
        exact ⟨clean, rfl, answer⟩
  | threw thrown text here answer =>
      have calls : acquires (f.events ++
          [.acquired (f.worker.toAcquireCount segmentSize) (.error thrown)]) =
          acquires f.events ++ [(f.worker.toAcquireCount segmentSize, .error thrown)] :=
        acquires_append _ _
      have kept : records (f.events ++
          [.acquired (f.worker.toAcquireCount segmentSize) (.error thrown)]) =
          records f.events := by simp
      refine ⟨handed.same, ?_, by rw [calls, List.length_append, handed.asked]; rfl,
        by rw [kept]; exact handed.each, by rw [kept]; exact Nat.le_succ_of_le handed.fewer,
        by simp [Worker.goto], fun _ plain => absurd rfl (plain.2 text), by simp [Worker.goto]⟩
      intro i call found
      rw [calls] at found
      rcases concat_at found with earlier | ⟨rfl, rfl⟩
      · exact handed.answered i call earlier
      · rw [handed.asked, answer]
  | notified data here =>
      obtain ⟨clean, count, answer⟩ := handed.notifying data here
      have kept : acquires (f.events ++
          [.notified ⟨f.worker.parameters, data, f.worker.scansAcquiredCount⟩]) =
          acquires f.events := by simp
      have grown : records (f.events ++
          [.notified ⟨f.worker.parameters, data, f.worker.scansAcquiredCount⟩]) =
          records f.events ++ [⟨f.worker.parameters, data, f.worker.scansAcquiredCount⟩] :=
        records_append _ _
      have length := congrArg List.length grown
      rw [List.length_append, List.length_singleton] at length
      refine ⟨handed.same, by rw [kept]; exact handed.answered, by rw [kept]; exact handed.asked, ?_,
        by rw [length, count], by simp, fun _ _ => by rw [length, count], by simp⟩
      intro i record found
      rw [grown] at found
      rcases concat_at found with earlier | ⟨rfl, rfl⟩
      · exact handed.each i record earlier
      · exact ⟨handed.same, answer⟩
  | reported text here =>
      have kept : records (f.events ++ [.published text]) = records f.events ∧
          acquires (f.events ++ [.published text]) = acquires f.events := by simp
      exact ⟨handed.same, by rw [kept.2]; exact handed.answered, by rw [kept.2]; exact handed.asked,
        by rw [kept.1]; exact handed.each, by rw [kept.1]; exact handed.fewer, by simp, by simp,
        by simp⟩

theorem after_handed (b : Behaviour) (segmentSize : UInt64) (parameters : UimfFrameParameters)
    (steps : Nat) : Handed b parameters (Frame.after b segmentSize parameters steps) := by
  induction steps with
  | zero => exact handed_spawned b parameters
  | succ steps ih => exact handed_step ih (frame_move b segmentSize _)

theorem tiles_start {low high : Nat} {intervals : List (Nat × Nat)}
    (tiles : Tiles low high intervals) {i start length : Nat}
    (here : intervals[i]? = some (start, length)) :
    start = low + ((intervals.take i).map Prod.snd).sum := by
  induction intervals generalizing low i with
  | nil => cases here
  | cons first rest ih =>
      obtain ⟨begins, extent⟩ := first
      cases i with
      | zero =>
          cases here
          exact tiles.1
      | succ i =>
          rw [List.take_succ_cons, List.map_cons, List.sum_cons, ← Nat.add_assoc]
          exact ih tiles.2 here

theorem flatten_at {Value : Type} {groups : List (List Value)} {i k : Nat} {group : List Value}
    (here : groups[i]? = some group) (inside : k < group.length) :
    groups.flatten[((groups.take i).map List.length).sum + k]? = group[k]? := by
  induction groups generalizing i with
  | nil => cases here
  | cons first rest ih =>
      cases i with
      | zero =>
          cases here
          rw [List.take_zero, List.map_nil, List.sum_nil, Nat.zero_add, List.flatten_cons,
            List.getElem?_append_left inside]
      | succ i =>
          rw [List.take_succ_cons, List.map_cons, List.sum_cons, Nat.add_assoc, List.flatten_cons,
            List.getElem?_append_right (Nat.le_add_right _ _), Nat.add_sub_cancel_left]
          exact ih here

theorem flatten_within {Value : Type} {groups : List (List Value)} {i : Nat} {group : List Value}
    (here : groups[i]? = some group) :
    ((groups.take i).map List.length).sum + group.length ≤ groups.flatten.length := by
  induction groups generalizing i with
  | nil => cases here
  | cons first rest ih =>
      rw [List.flatten_cons, List.length_append]
      cases i with
      | zero =>
          cases here
          rw [List.take_zero, List.map_nil, List.sum_nil]
          omega
      | succ i =>
          have later := @ih i here
          rw [List.take_succ_cons, List.map_cons, List.sum_cons]
          omega

/-- A frame over streams the driver serves: one `start`, then calls whose samples were recorded
for the triggers they take. -/
structure StreamsServed (c : CstZs1Context) (calls : List AcquireCall) (markers : List FetchReply)
    (hunks : List Hunk) (groups : List (List RecordedTrigger)) : Prop where
  idle : Empty c.markersBuffer
  size : c.markersBuffer.data.length < 2 ^ 31
  stream : markers.flatMap FetchReply.elements = flat hunks
  kinds : ∀ h ∈ hunks, h.isTrigger = true ∨ h.isGate = true
  askable : ∀ call ∈ calls, Askable call.triggersToRead
  enough : triggersAsked calls < hunks.countP Hunk.isTrigger
  fresh : NoReplay c.start hunks
  undisturbed : c.start.Undisturbed calls markers
  recorded : RecordedFor calls (Hunk.segments hunks) groups

/-- The worker's calls of `acquire` are these calls: the n-th asks for as many triggers as the
n-th of them, and is answered what that one returns. -/
structure AnswersFrom (b : Behaviour) (c : CstZs1Context) (calls : List AcquireCall)
    (markers : List FetchReply) (events : List Event) : Prop where
  answers : ∀ (i : Nat) (data : AcquiredData),
    ((c.start.acquireAll calls markers).map AcquireResult.ending)[i]? = some (.returned data) →
      b.acquire i = .ok data
  asked : (acquires events).map Prod.fst <+: calls.map AcquireCall.triggersToRead

section Streams

variable {c : CstZs1Context} {calls : List AcquireCall} {markers : List FetchReply}
  {hunks : List Hunk} {groups : List (List RecordedTrigger)} {b : Behaviour} {segmentSize : UInt64}
  {parameters : UimfFrameParameters} {steps : Nat}
  (served : StreamsServed c calls markers hunks groups)
  (answered : AnswersFrom b c calls markers (Frame.after b segmentSize parameters steps).events)
include served answered

theorem call_answered {i : Nat} {call : AcquireCall} (here : calls[i]? = some call) :
    ∃ group data, groups[i]? = some group ∧ b.acquire i = .ok data ∧ HandsOn group data ∧
      group.length = call.triggersToRead.toNat := by
  obtain ⟨datas, endings, lengths, all⟩ := acquireAll_recorded calls c.start markers hunks groups
    (empty_holds c.start markers hunks served.idle served.size served.stream) served.askable
    served.kinds served.fresh served.enough served.undisturbed served.recorded
  have count := all.length_eq
  have length : (groups.map List.length)[i]? = some call.triggersToRead.toNat := by
    rw [lengths, List.getElem?_map, here, Option.map_some]
  rw [List.getElem?_map] at length
  obtain ⟨group, at_i, size⟩ := Option.map_eq_some_iff.mp length
  have within := (List.getElem?_eq_some_iff.mp at_i).1
  obtain ⟨data, among⟩ : ∃ data, datas[i]? = some data := ⟨_, List.getElem?_eq_getElem (by omega)⟩
  refine ⟨group, data, at_i, answered.answers i _ ?_, forall₂_at all at_i among, size⟩
  rw [endings, List.getElem?_map, among, Option.map_some]

theorem calls_exact : Exact (Frame.after b segmentSize parameters steps).events := by
  have handed := after_handed b segmentSize parameters steps
  intro asked member data returned
  obtain ⟨i, inside, found⟩ := List.mem_iff_getElem.mp member
  have at_i := List.getElem?_eq_some_iff.mpr ⟨inside, found⟩
  obtain ⟨tail, whole⟩ := answered.asked
  have request : (calls.map AcquireCall.triggersToRead)[i]? = some asked.1 := by
    rw [← whole, List.getElem?_append_left (by rw [List.length_map]; exact inside),
      List.getElem?_map, at_i, Option.map_some]
  rw [List.getElem?_map] at request
  obtain ⟨call, here, same⟩ := Option.map_eq_some_iff.mp request
  obtain ⟨group, answer, _, answers, hands, size⟩ := call_answered served answered here
  have equal := handed.answered i asked at_i
  rw [returned, answers] at equal
  injection equal with equal
  rw [equal, hands.stamps, List.length_map, size, same]

theorem record_group {i : Nat} {record : UimfAcquisitionRecord}
    (here : (records (Frame.after b segmentSize parameters steps).events)[i]? = some record) :
    ∃ group, groups[i]? = some group ∧ HandsOn group record.acquiredData := by
  have handed := after_handed b segmentSize parameters steps
  have inside := (List.getElem?_eq_some_iff.mp here).1
  have fewer := handed.fewer
  have asks := handed.asked
  have few := answered.asked.length_le
  rw [List.length_map, List.length_map] at few
  obtain ⟨group, data, place, answers, hands, _⟩ :=
    call_answered served answered (List.getElem?_eq_getElem (show i < calls.length by omega))
  have same := (handed.each i record here).2
  rw [answers] at same
  injection same with same
  exact ⟨group, place, same ▸ hands⟩

/-- Every record holds the next group of triggers, and starts behind those before it. -/
theorem records_grouped (positive : 1 ≤ segmentSize) {i : Nat} {record : UimfAcquisitionRecord}
    (here : (records (Frame.after b segmentSize parameters steps).events)[i]? = some record) :
    ∃ group, groups[i]? = some group ∧ HandsOn group record.acquiredData ∧
      record.parameters = parameters ∧
      record.startScanIndex.toNat = ((groups.take i).map List.length).sum := by
  obtain ⟨group, place, hands⟩ := record_group served answered here
  have tiled := after_tiled positive steps (calls_exact served answered)
  have interval_at : ((records (Frame.after b segmentSize parameters steps).events).map interval)[i]? =
      some (record.startScanIndex.toNat, record.acquiredData.stamps.length) := by
    rw [List.getElem?_map, here, Option.map_some, interval]
  refine ⟨group, place, hands, ((after_handed b segmentSize parameters steps).each i record here).1, ?_⟩
  rw [tiles_start tiled.tiles interval_at, Nat.zero_add, ← List.map_take, List.map_map]
  congr 1
  -- The records before this one hold the groups before this one.
  apply List.ext_getElem?
  intro j
  rw [List.getElem?_map, List.getElem?_map]
  by_cases before : j < i
  · rw [List.getElem?_take_of_lt before, List.getElem?_take_of_lt before]
    have inside : j < (records (Frame.after b segmentSize parameters steps).events).length :=
      Nat.lt_trans before (List.getElem?_eq_some_iff.mp here).1
    obtain ⟨other, at_j, handsOn⟩ := record_group served answered (List.getElem?_eq_getElem inside)
    rw [at_j, List.getElem?_eq_getElem inside, Option.map_some, Option.map_some,
      Function.comp_apply, interval, handsOn.stamps, List.length_map]
  · rw [List.getElem?_take_eq_none (Nat.le_of_not_lt before),
      List.getElem?_take_eq_none (Nat.le_of_not_lt before)]
    rfl

end Streams

/-- The rows a batch inserts, each with the blob bound to it. -/
def writtenScans (behind memory : Memory UInt8) (frame : UimfFrame) :
    List (FrameScansRow × List UInt8) :=
  frame.data.filterMap fun er =>
    (scanRow frame.parameters er).map fun row => (row, er.blob behind memory)

theorem writtenScans_rows (behind memory : Memory UInt8) (frame : UimfFrame) :
    (writtenScans behind memory frame).map Prod.fst = writeScanData frame := by
  rw [writtenScans, List.map_filterMap, writeScanData]
  congr 1
  funext er
  rw [Option.map_map]
  exact Option.map_id'

theorem scanRow_number {parameters : UimfFrameParameters} {er : EncodedResult} {row : FrameScansRow}
    {place : Nat} (found : scanRow parameters er = some row) (scan : er.scan.toInt = place) :
    row.scanNum = (place : Int) - parameters.startTrigger.toNat := by
  have wide := int32_widen_exact er.scan (by omega)
  have number : (scanRow parameters er).map FrameScansRow.scanNum = some row.scanNum := by
    rw [found, Option.map_some]
  rw [scanRow_map] at number
  split at number
  · rename_i kept
    have due := UInt64.le_iff_toNat_le.mp kept.1
    injection number with same
    rw [← same, scanNum_exact (by omega), scan]
  · cases number

/-- What is in the file for a trigger of the stream: a row with its number from the start
trigger on, and a blob that reads back to its samples. Without a gate the blob is empty. -/
def HoldsTrigger (parameters : UimfFrameParameters) (trigs : List RecordedTrigger)
    (written : FrameScansRow × List UInt8) : Prop :=
  ∃ (place : Nat) (t : RecordedTrigger), trigs[place]? = some t ∧
    written.1.scanNum = (place : Int) - parameters.startTrigger.toNat ∧
    (t.gates = [] → written.2 = []) ∧
    (t.gates ≠ [] → ∀ room, 4 * (t.samples + 2 * t.gates.length) ≤ room →
      readBlob written.2 room = some (placed parameters.offsetBins t.gates))

/-- From the streams to the file: where samples come without a gap, each row written for a record
of the worker holds the trigger of the stream it is numbered for. -/
theorem frame_stored (c : CstZs1Context) (calls : List AcquireCall) (markers : List FetchReply)
    (hunks : List Hunk) (groups : List (List RecordedTrigger)) (b : Behaviour)
    (segmentSize : UInt64) (parameters : UimfFrameParameters) (steps : Nat)
    (served : StreamsServed c calls markers hunks groups)
    (answered : AnswersFrom b c calls markers (Frame.after b segmentSize parameters steps).events)
    (positive : 1 ≤ segmentSize) (fits : ∀ t ∈ groups.flatten, TriggerFits parameters.offsetBins t)
    (counted : groups.flatten.length < 2 ^ 31) (behind memory : Memory UInt8) :
    ∀ record ∈ records (Frame.after b segmentSize parameters steps).events,
      ∃ frame, record.toFrame = .ok frame ∧
        ∀ written ∈ writtenScans behind memory frame,
          HoldsTrigger parameters groups.flatten written := by
  intro record member
  obtain ⟨i, inside, at_i⟩ := List.mem_iff_getElem.mp member
  obtain ⟨group, place, hands, same, start⟩ :=
    records_grouped served answered positive (List.getElem?_eq_some_iff.mpr ⟨inside, at_i⟩)
  have among (t : RecordedTrigger) (held : t ∈ group) : t ∈ groups.flatten :=
    List.mem_flatten.mpr ⟨group, List.mem_of_getElem? place, held⟩
  have total := flatten_within place
  obtain ⟨frame, made, keeps, _, scans⟩ := handed_frame parameters record.acquiredData
    record.startScanIndex group hands (fun t held => fits t (among t held)) (by omega)
  refine ⟨frame, by rw [← same] at made; exact made, ?_⟩
  intro written here
  obtain ⟨er, scanned, row_of⟩ := List.mem_filterMap.mp here
  obtain ⟨row, found, rfl⟩ := Option.map_eq_some_iff.mp row_of
  obtain ⟨k, within, at_k⟩ := List.mem_iff_getElem.mp scanned
  obtain ⟨t, in_group, encodes, short, scan⟩ :=
    scans k er (List.getElem?_eq_some_iff.mpr ⟨within, at_k⟩)
  rw [keeps] at found
  refine ⟨record.startScanIndex.toNat + k, t, ?_, scanRow_number found scan, ?_, ?_⟩
  · rw [start, flatten_at place (List.getElem?_eq_some_iff.mp in_group).1, in_group]
  · intro gateless
    have entries : er.encodedSpectra.length ≤ 0 := by
      rw [RecordedTrigger.samples, gateless] at short
      exact short
    exact blob_empty behind memory (List.length_eq_zero_iff.mp (Nat.le_zero.mp entries))
  · intro gated room enough
    have spectrum := (fits t (among t (List.mem_of_getElem? in_group))).spectrum
    exact recorded_blob behind memory parameters.offsetBins t er encodes gated (by omega) room
      (by omega)

/-- Two triggers with three gates between them, and the one behind. -/
def frameHunks : List Hunk :=
  [triggerHunk 5, gateHunk 2 4, gateHunk 6 8, triggerHunk 6, gateHunk 3 5, triggerHunk 7]

/-- The third fetch tells of a backlog, and the fourth brings two hunks: the look-ahead trigger
of the first call and all of the second. -/
def frameFetches : List FetchReply :=
  [answered 16 0 [triggerHunk 5], answered 16 3 [gateHunk 2 4], answered 64 0 [gateHunk 6 8],
    answered 16 0 [triggerHunk 6, gateHunk 3 5], answered 16 1 [triggerHunk 7]]

def frameContext : CstZs1Context := CstZs1Context.create "Channel1" 4

def gateBetween (start stop : UInt64) (low : 1 ≤ start.toNat)
    (nonempty : (⟨start, 0, stop, 0⟩ : GateMarker).firstSample <
      (⟨start, 0, stop, 0⟩ : GateMarker).pastSample)
    (counted : (List.replicate 16 (7 : Int32)).length =
      (⟨start, 0, stop, 0⟩ : GateMarker).gateData.elementCount.toNat) : RecordedGate where
  marker := ⟨start, 0, stop, 0⟩
  elements := List.replicate 16 7
  startBlock := low
  startPos := Nat.zero_le 7
  stopPos := Nat.zero_le 8
  nonempty := nonempty
  counted := counted

def frameGroups : List (List RecordedTrigger) :=
  [[⟨5, 0, (triggerHunk 5).trigger.subsamplePos,
      [gateBetween 2 4 (by decide) (by decide) (by decide),
        gateBetween 6 8 (by decide) (by decide) (by decide)], by unfold Increasing; decide⟩],
    [⟨6, 0, (triggerHunk 6).trigger.subsamplePos,
      [gateBetween 3 5 (by decide) (by decide) (by decide)], by unfold Increasing; decide⟩]]

def answerOf : Option (Ending AcquiredData) → Except Thrown AcquiredData
  | some (.returned data) => .ok data
  | _ => .error (.exception "timeout")

def frameBehaviour : Behaviour where
  getIsAcquiring := .ok false
  start := .ok ()
  acquire i := answerOf ((frameContext.start.acquireAll twoCalls frameFetches).map
    AcquireResult.ending)[i]?
  stop := .ok ()
  shouldStop _ := false

def frameParameters : UimfFrameParameters := ⟨0, 100, 1, 2, 1, 0, "frame.uimf"⟩

theorem frame_served :
    StreamsServed frameContext twoCalls frameFetches frameHunks frameGroups where
  idle := ⟨rfl, rfl, rfl⟩
  size := by decide +kernel
  stream := by decide +kernel
  kinds h member := (Bool.or_eq_true _ _).mp (List.all_eq_true.mp
    (by decide +kernel : frameHunks.all (fun h => h.isTrigger || h.isGate) = true) h member)
  askable call member := askable_of_lt call.triggersToRead
    ((by decide +kernel : ∀ call ∈ twoCalls, 0 < call.triggersToRead.toNat) call member)
    ((by decide +kernel : ∀ call ∈ twoCalls, call.triggersToRead.toNat < 2 ^ 24) call member)
  enough := by decide +kernel
  fresh := by decide +kernel
  undisturbed := ⟨by decide +kernel, by decide +kernel, trivial⟩
  recorded := ⟨_, _, rfl, by decide +kernel,
    ⟨⟨rfl, rfl, rfl⟩, by decide +kernel, by decide +kernel, by decide +kernel,
      by simp [Gapless], by decide +kernel⟩,
    _, _, rfl, by decide +kernel,
    ⟨⟨rfl, rfl, rfl⟩, by decide +kernel, by decide +kernel, by decide +kernel,
      by simp [Gapless], by decide +kernel⟩, rfl⟩

theorem frame_answered : AnswersFrom frameBehaviour frameContext twoCalls frameFetches
    (Frame.after frameBehaviour 1 frameParameters 9).events where
  answers i data returned := by
    have answer : frameBehaviour.acquire i = answerOf (some (.returned data)) :=
      congrArg answerOf returned
    rw [answer, answerOf]
  asked := by decide +kernel

theorem frame_fits : ∀ t ∈ frameGroups.flatten, TriggerFits frameParameters.offsetBins t := by
  intro t member
  rcases List.mem_cons.mp member with rfl | member
  · exact ⟨by decide +kernel, ⟨by decide, by decide⟩, by decide⟩
  · rw [List.mem_singleton.mp member]
    exact ⟨by decide +kernel, ⟨by decide, by decide⟩, by decide⟩

/-- A frame of two scans, a call for each, and the rows of both. -/
theorem frame_stored_two_scans :
    (records (Frame.after frameBehaviour 1 frameParameters 9).events).length = 2 ∧
      ∀ record ∈ records (Frame.after frameBehaviour 1 frameParameters 9).events,
        ∃ frame, record.toFrame = .ok frame ∧
          ∀ written ∈ writtenScans (fun _ => 0) (fun _ => 0) frame,
            HoldsTrigger frameParameters frameGroups.flatten written :=
  ⟨by decide +kernel, frame_stored frameContext twoCalls frameFetches frameHunks frameGroups
    frameBehaviour 1 frameParameters 9 frame_served frame_answered (by decide) frame_fits
    (by decide) (fun _ => 0) fun _ => 0⟩

end AqMD3.Acquisition
