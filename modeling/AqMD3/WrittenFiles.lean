import Mathlib.Data.List.Flatten
import AqMD3.ChainOrder
import AqMD3.NumberedScans
import AqMD3.StoredFrame

/-!
The files of `UimfFrameWriterSubscriber` over whole runs of the console. A call of `on_notify`
swallows what its SQLite calls throw, so that a batch may be missing; the rows of the others
stand in the order of the scans.
-/

namespace AqMD3.Acquisition

open FixedWidth QueueStage Transitions Transactions

/-- The rows of each file; `none` is no file. -/
abbrev Files := String → Option (List FrameScansRow)

/-- How the SQLite calls of one `on_notify` end: whether the file opens, and the statement of
the batch that throws. -/
structure Attempt where
  opens : Bool
  throws : Option Nat
  deriving DecidableEq

namespace UimfFrameWriterSubscriber

/-- A batch in a file: the statement that throws is the first not to run. -/
def writeBatch (attempt : Attempt) (frame : UimfFrame) (rows : List FrameScansRow) :
    List FrameScansRow :=
  rowsLeft ((batch frame).take (attempt.throws.getD (batch frame).length)) rows

-- A file is opened to be read and written, which makes none.
def onNotify (attempt : Attempt) (frame : UimfFrame) (files : Files) : Files :=
  match files frame.parameters.fileName with
  | none => files
  | some rows =>
      if attempt.opens then
        Function.update files frame.parameters.fileName (some (writeBatch attempt frame rows))
      else files

/-- The calls for the frames the worker has taken, each with its own attempt. -/
def filesAfter (attempts : Nat → Attempt) : Nat → List UimfFrame → Files → Files
  | _, [], files => files
  | i, frame :: rest, files =>
      filesAfter attempts (i + 1) rest (onNotify (attempts i) frame files)

theorem rowsLeft_batch (frame : UimfFrame) (rows : List FrameScansRow) :
    rowsLeft (batch frame) rows = rows ++ writeScanData frame := by
  have ended := rowsLeft_ended (writeScanData frame) rows
  rw [rowsLeft] at ended ⊢
  rw [batch, List.foldl_append]
  exact ended

theorem writeBatch_kept (attempt : Attempt) (frame : UimfFrame) (rows : List FrameScansRow) :
    writeBatch attempt frame rows = rows ++ writeScanData frame ∨
      writeBatch attempt frame rows = rows := by
  have whole := rowsLeft_batch frame rows
  unfold writeBatch
  cases attempt.throws with
  | none =>
      rw [Option.getD_none, List.take_length]
      exact Or.inl whole
  | some index =>
      rw [Option.getD_some]
      by_cases inside : index < (batch frame).length
      · rw [thrown_left frame rows index inside]
        split
        · exact Or.inl rfl
        · exact Or.inr rfl
      · rw [List.take_of_length_le (Nat.le_of_not_lt inside)]
        exact Or.inl whole

theorem onNotify_other {frame : UimfFrame} {name : String}
    (other : frame.parameters.fileName ≠ name) (attempt : Attempt) (files : Files) :
    onNotify attempt frame files name = files name := by
  cases found : files frame.parameters.fileName with
  | none => simp only [onNotify, found]
  | some rows =>
      simp only [onNotify, found]
      cases attempt.opens with
      | true => exact Function.update_of_ne (Ne.symm other) _ _
      | false => rfl

theorem onNotify_kept {attempt : Attempt} {frame : UimfFrame} {files : Files}
    {rows : List FrameScansRow}
    (after : onNotify attempt frame files frame.parameters.fileName = some rows) :
    ∃ before, files frame.parameters.fileName = some before ∧
      (rows = before ++ writeScanData frame ∨ rows = before) := by
  cases found : files frame.parameters.fileName with
  | none =>
      simp only [onNotify, found] at after
      cases after
  | some before =>
      refine ⟨before, rfl, ?_⟩
      simp only [onNotify, found] at after
      cases opens : attempt.opens with
      | true =>
          rw [opens, if_pos rfl, Function.update_self] at after
          injection after with same
          exact same ▸ writeBatch_kept attempt frame before
      | false =>
          rw [opens, if_neg Bool.false_ne_true, found] at after
          injection after with same
          exact Or.inr same.symm

def framesFor (name : String) (frames : List UimfFrame) : List UimfFrame :=
  frames.filter fun frame => frame.parameters.fileName = name

/-- What is put behind a file's rows is some of the rows of its frames, in their order. -/
theorem filesAfter_rows (attempts : Nat → Attempt) (frames : List UimfFrame) (i : Nat)
    (files : Files) (name : String) (rows : List FrameScansRow)
    (after : filesAfter attempts i frames files name = some rows) :
    ∃ before written, files name = some before ∧ rows = before ++ written ∧
      written.Sublist ((framesFor name frames).flatMap writeScanData) := by
  induction frames generalizing i files with
  | nil => exact ⟨rows, [], after, (List.append_nil rows).symm, List.nil_sublist _⟩
  | cons frame rest ih =>
      obtain ⟨middle, written, reached, rfl, inside⟩ := ih (i + 1) _ after
      by_cases here : frame.parameters.fileName = name
      · have among : framesFor name (frame :: rest) = frame :: framesFor name rest := by
          simp [framesFor, here]
        rw [among, List.flatMap_cons]
        rw [← here] at reached
        obtain ⟨before, found, rfl | rfl⟩ := onNotify_kept reached
        · exact ⟨before, writeScanData frame ++ written, here ▸ found, List.append_assoc _ _ _,
            inside.append_left _⟩
        · exact ⟨middle, written, here ▸ found, rfl, inside.trans (List.sublist_append_right _ _)⟩
      · have among : framesFor name (frame :: rest) = framesFor name rest := by
          simp [framesFor, here]
        rw [among]
        rw [onNotify_other here] at reached
        exact ⟨middle, written, reached, rfl, inside⟩

def Succeeds (attempts : Nat → Attempt) : Prop := ∀ i, attempts i = ⟨true, none⟩

theorem onNotify_succeeds (frame : UimfFrame) (files : Files) :
    onNotify ⟨true, none⟩ frame files frame.parameters.fileName =
      (files frame.parameters.fileName).map (· ++ writeScanData frame) := by
  cases found : files frame.parameters.fileName with
  | none => simp only [onNotify, found, Option.map_none]
  | some rows =>
      simp only [onNotify, found, if_true, Function.update_self, Option.map_some]
      rw [writeBatch, Option.getD_none, List.take_length, rowsLeft_batch]

theorem filesAfter_succeeds {attempts : Nat → Attempt} (succeeds : Succeeds attempts)
    (frames : List UimfFrame) (i : Nat) (files : Files) (name : String) :
    filesAfter attempts i frames files name =
      (files name).map (· ++ (framesFor name frames).flatMap writeScanData) := by
  induction frames generalizing i files with
  | nil =>
      cases found : files name with
      | none => exact found
      | some rows => simp [filesAfter, found, framesFor]
  | cons frame rest ih =>
      rw [filesAfter, ih, succeeds i]
      by_cases here : frame.parameters.fileName = name
      · subst here
        rw [onNotify_succeeds, Option.map_map]
        congr 1
        funext rows
        simp [framesFor]
      · rw [onNotify_other here]
        simp [framesFor, here]

end UimfFrameWriterSubscriber

theorem record_scans {record : UimfAcquisitionRecord} {frame : UimfFrame}
    (made : record.toFrame = .ok frame)
    (bound : record.startScanIndex.toNat + record.acquiredData.stamps.length ≤ 2 ^ 31) (k : Nat)
    (er : EncodedResult) (found : frame.data[k]? = some er) :
    k < record.acquiredData.stamps.length ∧
      er.scan.toInt = ((record.startScanIndex.toNat + k : Nat) : Int) := by
  cases ran : record.process with
  | error fault => simp [UimfAcquisitionRecord.toFrame, ran] at made
  | ok results =>
      rw [UimfAcquisitionRecord.toFrame_process ran] at made
      injection made with same
      subst same
      obtain ⟨trig, start, scan, next, place, _, rfl⟩ := processStamps_results ran k er found
      have inside := (List.getElem?_eq_some_iff.mp place).1
      have index : (UInt64.ofNat (0 + k)).toNat = k := by
        rw [Nat.zero_add]
        exact UInt64.toNat_ofNat_of_lt' (show k < 2 ^ 64 by omega)
      have sum : (record.startScanIndex + UInt64.ofNat (0 + k)).toNat =
          record.startScanIndex.toNat + k := by
        rw [uint64_add_exact _ _ (by omega), index]
      refine ⟨inside, ?_⟩
      change (record.startScanIndex + UInt64.ofNat (0 + k)).toUInt32.toInt32.toInt = _
      rw [uint64_narrow_exact _ (by omega), sum]

/-- A row of a record's part of a frame. -/
def PartRow (record : UimfAcquisitionRecord) (row : FrameScansRow) : Prop :=
  row.frameNum = printed record.parameters.frameNumber.toUInt64 ∧
    ∃ place, record.startScanIndex.toNat ≤ place ∧
      place < record.startScanIndex.toNat + record.acquiredData.stamps.length ∧
      row.scanNum = (place : Int) - record.parameters.startTrigger.toNat

theorem scanRow_frame {parameters : UimfFrameParameters} {er : EncodedResult} {row : FrameScansRow}
    (found : scanRow parameters er = some row) :
    row.frameNum = printed parameters.frameNumber.toUInt64 := by
  unfold scanRow at found
  split at found
  · cases found
  · split at found
    · cases found
      rfl
    · cases found

theorem record_rows {record : UimfAcquisitionRecord} {frame : UimfFrame}
    (made : record.toFrame = .ok frame)
    (bound : record.startScanIndex.toNat + record.acquiredData.stamps.length ≤ 2 ^ 31) :
    (∀ row ∈ writeScanData frame, PartRow record row) ∧
      (writeScanData frame).Pairwise fun earlier later => earlier.scanNum < later.scanNum := by
  have same := toFrame_parameters made
  constructor
  · intro row member
    obtain ⟨er, scanned, found⟩ := List.mem_filterMap.mp member
    obtain ⟨k, inside, at_k⟩ := List.mem_iff_getElem.mp scanned
    obtain ⟨within, scan⟩ :=
      record_scans made bound k er (List.getElem?_eq_some_iff.mpr ⟨inside, at_k⟩)
    refine ⟨same ▸ scanRow_frame found, record.startScanIndex.toNat + k, Nat.le_add_right _ _,
      by omega, ?_⟩
    rw [scanRow_number found scan, same]
  · rw [writeScanData, List.pairwise_filterMap, List.pairwise_iff_getElem]
    intro i j first second before earlier found later reached
    obtain ⟨_, scan⟩ := record_scans made bound i _ (List.getElem?_eq_getElem first)
    obtain ⟨_, next⟩ := record_scans made bound j _ (List.getElem?_eq_getElem second)
    rw [scanRow_number found scan, scanRow_number reached next]
    omega

namespace UimfFrameWriterSubscriber

def rowsFor (name : String) (record : UimfAcquisitionRecord) : List FrameScansRow :=
  match record.toFrame with
  | .error _ => []
  | .ok frame =>
      if record.parameters.fileName.isEmpty = false ∧ record.parameters.fileName = name then
        writeScanData frame
      else []

theorem framesFor_rows (name : String) (records : List UimfAcquisitionRecord) :
    (framesFor name (forSink .writer (records.flatMap updates))).flatMap writeScanData =
      records.flatMap (rowsFor name) := by
  induction records with
  | nil => rfl
  | cons record rest ih =>
      have split : framesFor name (forSink .writer ((record :: rest).flatMap updates)) =
          framesFor name (forSink .writer (updates record)) ++
            framesFor name (forSink .writer (rest.flatMap updates)) := by
        rw [List.flatMap_cons, forSink_append, framesFor, List.filter_append]
        rfl
      rw [split, List.flatMap_append, ih, List.flatMap_cons]
      congr 1
      cases made : record.toFrame with
      | error fault => simp [updates, rowsFor, made, forSink, framesFor]
      | ok frame =>
          have same := toFrame_parameters made
          rw [updates_encoded made, rowsFor]
          simp only [made]
          by_cases unnamed : record.parameters.fileName.isEmpty = true
          · simp [unnamed, forSink, framesFor]
          · by_cases here : record.parameters.fileName = name
            · subst here
              simp [unnamed, forSink, framesFor, same]
            · simp [unnamed, forSink, framesFor, same, here]

theorem rowsFor_made {name : String} {record : UimfAcquisitionRecord} {row : FrameScansRow}
    (member : row ∈ rowsFor name record) :
    record.parameters.Named ∧ record.parameters.fileName = name ∧
      ∃ frame, record.toFrame = .ok frame ∧ row ∈ writeScanData frame := by
  unfold rowsFor at member
  split at member
  · cases member
  · rename_i frame made
    split at member
    · rename_i written
      exact ⟨written.1, written.2, frame, made, member⟩
    · cases member

/-- The scans of every frame in a file stand in their order, none of them twice. -/
def InOrder (rows : List FrameScansRow) : Prop :=
  rows.Pairwise fun earlier later =>
    earlier.frameNum = later.frameNum → earlier.scanNum < later.scanNum

/-- What is in the files before: rows in order, of other frames than those that are asked for. -/
def Before (files : Files) (frames : List UimfFrameParameters) : Prop :=
  ∀ name rows, files name = some rows → InOrder rows ∧
    ∀ row ∈ rows, ∀ parameters ∈ frames, parameters.fileName = name →
      row.frameNum ≠ printed parameters.frameNumber.toUInt64

theorem printed_frameNumber {a b : UInt32} (same : printed a.toUInt64 = printed b.toUInt64) :
    a = b := by
  unfold printed at same
  rw [UInt32.toUInt32_toUInt64, UInt32.toUInt32_toUInt64] at same
  exact congrArg Int32.toUInt32 (Int32.toInt_inj.mp same)

variable {segmentSize : UInt64}

theorem rows_inOrder {labels : List ConsoleLabel} {s : Console}
    (ran : run (Console.step segmentSize) .begin labels = some s) (distinct : Distinct s.frames)
    (few : s.Few) (name : String) : InOrder ((notifiedOf s.history).flatMap (rowsFor name)) := by
  have numbered := console_numbered ran distinct few
  have part {record : UimfAcquisitionRecord} (member : record ∈ notifiedOf s.history)
      (named : record.parameters.Named) :
      record.startScanIndex.toNat + record.acquiredData.stamps.length ≤ 2 ^ 31 :=
    (numbered.within record member named).trans (few _ (numbered.owned record member) named)
  rw [InOrder, List.pairwise_flatMap]
  constructor
  · intro record member
    unfold rowsFor
    split
    · exact List.Pairwise.nil
    · rename_i frame made
      split
      · rename_i written
        refine List.Pairwise.imp ?_ (record_rows made (part member written.1)).2
        intro earlier later less _
        exact less
      · exact List.Pairwise.nil
  · apply numbered.ordered.imp_of_mem
    intro earlier later first second parts row inEarlier other inLater same
    obtain ⟨named, here, frame, made, written⟩ := rowsFor_made inEarlier
    obtain ⟨otherNamed, there, otherFrame, otherMade, otherWritten⟩ := rowsFor_made inLater
    obtain ⟨number, place, _, below, at_place⟩ :=
      (record_rows made (part first named)).1 row written
    obtain ⟨otherNumber, otherPlace, above, _, at_other⟩ :=
      (record_rows otherMade (part second otherNamed)).1 other otherWritten
    -- One file and one frame number are one frame.
    have frames : earlier.parameters = later.parameters := by
      have one : earlier.parameters ∈ s.frames := numbered.owned earlier first
      have two : later.parameters ∈ s.frames := numbered.owned later second
      exact distinct_same distinct named one two (here.trans there.symm)
        (printed_frameNumber (number.symm.trans (same.trans otherNumber)))
    have ends := parts named frames
    rw [at_place, at_other, frames]
    omega

/-- In every state of every run, whatever the SQLite calls throw: the rows that a file had are
there, those behind them are of scans that were acquired for it, and the scans of every frame
stand in their order, none of them twice. -/
theorem files_in_order (segmentSize : UInt64) (labels : List ConsoleLabel) (s : Console)
    (ran : run (Console.step segmentSize) .begin labels = some s) (distinct : Distinct s.frames)
    (few : s.Few) (attempts : Nat → Attempt) (files : Files) (before : Before files s.frames)
    (name : String) (rows : List FrameScansRow)
    (after : filesAfter attempts 0 s.chain.writer.seen files name = some rows) :
    InOrder rows ∧ ∃ kept written, files name = some kept ∧ rows = kept ++ written ∧
      ∀ row ∈ written, ∃ record ∈ notifiedOf s.history, record.parameters.fileName = name ∧
        ∃ frame, record.toFrame = .ok frame ∧ row ∈ writeScanData frame := by
  have numbered := console_numbered ran distinct few
  obtain ⟨kept, written, held, rfl, inside⟩ := filesAfter_rows attempts _ 0 files name rows after
  have all : written.Sublist ((notifiedOf s.history).flatMap (rowsFor name)) := by
    rw [← framesFor_rows]
    have handled := (carries_seen (console_carries ran) .writer).sublist
    exact inside.trans ((handled.filter _).flatMap _)
  have made {row : FrameScansRow} (member : row ∈ written) :
      ∃ record ∈ notifiedOf s.history, row ∈ rowsFor name record :=
    List.mem_flatMap.mp (all.subset member)
  refine ⟨?_, kept, written, held, rfl, ?_⟩
  · rw [InOrder, List.pairwise_append]
    refine ⟨(before name kept held).1, (rows_inOrder ran distinct few name).sublist all, ?_⟩
    intro row old other new same
    obtain ⟨record, member, held_by⟩ := made new
    obtain ⟨named, here, frame, encoded, among⟩ := rowsFor_made held_by
    have number := ((record_rows encoded ((numbered.within record member named).trans
      (few _ (numbered.owned record member) named))).1 other among).1
    exact absurd (same.trans number)
      ((before name kept held).2 row old _ (numbered.owned record member) here)
  · intro row member
    obtain ⟨record, notified, held_by⟩ := made member
    obtain ⟨_, here, frame, encoded, among⟩ := rowsFor_made held_by
    exact ⟨record, notified, here, frame, encoded, among⟩

/-- Two scans, of 15 and of 11 samples. -/
def twoScans : UimfAcquisitionRecord :=
  recordOf [twoGates, oneGate] 0 ([twoGates, oneGate].flatMap RecordedTrigger.elements)

def scansDigitizer : Answers := { servingDigitizer with acquire := .ok twoScans.acquiredData }

def numberedFrame (number : UInt32) (length : UInt64) : UimfFrameParameters :=
  { oneScan with fileName := "frames.uimf", frameNumber := number, frameLength := length }

/-- A frame of two records, `stop(false)`, a frame of one, then `stop(true)` over its ended
worker. -/
def storedScans : List ConsoleLabel :=
  (.calls (.start (numberedFrame 2 4)) :: List.replicate 4 (.commands none)) ++
    List.replicate 13 (.works 0 scansDigitizer) ++
    (.calls (.stop false) :: List.replicate 2 (.commands none)) ++
    (.calls (.start (numberedFrame 3 2)) :: List.replicate 4 (.commands none)) ++
    List.replicate 10 (.works 1 scansDigitizer) ++
    (.calls (.stop true) :: List.replicate 2 (.commands none)) ++
    List.replicate 23 (.turns .processing) ++ List.replicate 17 (.turns .zmq) ++
    List.replicate 17 (.turns .writer) ++ List.replicate 3 (.turns .processing) ++
    List.replicate 3 (.commands none)

/-- The file already has two scans of frame 1, and there is no other file. -/
def framesFile : Files := fun name =>
  if name = "frames.uimf" then some [⟨1, 0, 9, 40, 200⟩, ⟨1, 3, 2, 50, 90⟩] else none

/-- The second batch throws behind its first row. -/
def secondThrows (i : Nat) : Attempt := ⟨true, if i = 1 then some 3 else none⟩

def storedEnd : Console := (run (Console.step 2) .begin storedScans).getD .begin

theorem storedScans_ran : run (Console.step 2) .begin storedScans = some storedEnd := by
  have ends : (run (Console.step 2) .begin storedScans).isSome = true := by decide +kernel
  obtain ⟨s, ran⟩ := Option.isSome_iff_exists.mp ends
  rw [storedEnd, ran]
  rfl

theorem storedEnd_frames : storedEnd.frames = [numberedFrame 2 4, numberedFrame 3 2] := by
  decide +kernel

theorem framesFile_before : Before framesFile storedEnd.frames := by
  rw [storedEnd_frames]
  intro name rows held
  unfold framesFile at held
  split at held
  · cases held
    have other : ∀ row ∈ ([⟨1, 0, 9, 40, 200⟩, ⟨1, 3, 2, 50, 90⟩] : List FrameScansRow),
        ∀ parameters ∈ [numberedFrame 2 4, numberedFrame 3 2],
          row.frameNum ≠ printed parameters.frameNumber.toUInt64 := by decide
    exact ⟨by unfold InOrder; decide, fun row member parameters asked _ =>
      other row member parameters asked⟩
  · cases held

theorem files_in_order_second_throws :
    ∃ rows, filesAfter secondThrows 0 storedEnd.chain.writer.seen framesFile "frames.uimf" =
        some rows ∧
      rows.map (fun row => (row.frameNum, row.scanNum)) =
        [(1, 0), (1, 3), (2, 0), (2, 1), (3, 0), (3, 1)] ∧
      InOrder rows ∧ ∃ kept written, framesFile "frames.uimf" = some kept ∧
        rows = kept ++ written ∧
        ∀ row ∈ written, ∃ record ∈ notifiedOf storedEnd.history,
          record.parameters.fileName = "frames.uimf" ∧
          ∃ frame, record.toFrame = .ok frame ∧ row ∈ writeScanData frame := by
  have numbers : (filesAfter secondThrows 0 storedEnd.chain.writer.seen framesFile
      "frames.uimf").map (·.map fun row => (row.frameNum, row.scanNum)) =
        some [(1, 0), (1, 3), (2, 0), (2, 1), (3, 0), (3, 1)] := by
    decide +kernel
  obtain ⟨rows, after, numbered⟩ := Option.map_eq_some_iff.mp numbers
  refine ⟨rows, after, numbered, files_in_order 2 storedScans storedEnd storedScans_ran ?_ ?_
    secondThrows framesFile framesFile_before "frames.uimf" rows after⟩
  · rw [storedEnd_frames]
    exact List.pairwise_pair.mpr fun _ same => absurd same.2 (by decide)
  · have counts : ∀ parameters ∈ [numberedFrame 2 4, numberedFrame 3 2],
        scansOf parameters (notifiedOf storedEnd.history) ≤ 2 ^ 31 := by decide +kernel
    intro parameters member _
    exact counts parameters (storedEnd_frames ▸ member)

theorem closed_seen {c : Chain} {records : List UimfAcquisitionRecord} (sound : c.Sound records)
    (completed : c.processing.phase = .completed) (sink : Sink) :
    (c.sink sink).seen = forSink sink (records.flatMap updates) := by
  have handled : c.processing.seen = records :=
    (settled_seen sound.settled (Or.inr completed)).trans sound.received
  have idle : c.pending = [] := by
    by_contra pending
    have drains := sound.handling pending
    rw [completed] at drains
    cases drains
  have routed := sound.routed sink
  rw [idle, handled] at routed
  rw [settled_seen (sound.sinks sink) (Or.inr (sinks_completed sound completed sink)), ← routed]
  exact (List.append_nil _).symm

/-- Where completion is signalled over ended workers only, nothing is started behind it and no
record makes `to_frame` throw: once the wait for the chain has returned, and if no SQLite call
has thrown, every file that was there holds the rows of all the frames acquired for it. -/
theorem files_complete (segmentSize : UInt64) (labels : List ConsoleLabel) (s : Console)
    (meets : Meets (Console.step segmentSize) (fun s label => drainsFirst s label = true) .begin labels)
    (ran : run (Console.step segmentSize) .begin labels = some s) (waited : s.chain.Waited)
    (attempts : Nat → Attempt) (succeeds : Succeeds attempts) (files : Files) (name : String) :
    filesAfter attempts 0 s.chain.writer.seen files name =
      (files name).map (· ++ (notifiedOf s.history).flatMap (rowsFor name)) := by
  have drained : s.Drained := run_keeps (fun _ _ _ => drained_step) drained_begin meets ran
  have seen : s.chain.writer.seen = forSink .writer ((notifiedOf s.history).flatMap updates) :=
    closed_seen drained.sound waited.2 .writer
  rw [filesAfter_succeeds succeeds, seen, framesFor_rows]

theorem files_complete_three_records :
    (notifiedOf storedEnd.history).length = 3 ∧
      filesAfter (fun _ => ⟨true, none⟩) 0 storedEnd.chain.writer.seen framesFile "frames.uimf" =
        (framesFile "frames.uimf").map
          (· ++ (notifiedOf storedEnd.history).flatMap (rowsFor "frames.uimf")) := by
  obtain ⟨s, allowed⟩ := Option.isSome_iff_exists.mp
    (by decide +kernel : (runAllowed (Console.step 2) drainsFirst .begin storedScans).isSome = true)
  exact ⟨by decide +kernel, files_complete 2 storedScans storedEnd (runAllowed_meets allowed).2
    storedScans_ran ⟨by decide +kernel, by decide +kernel⟩ _ (fun _ => rfl) framesFile
    "frames.uimf"⟩

end UimfFrameWriterSubscriber

end AqMD3.Acquisition
