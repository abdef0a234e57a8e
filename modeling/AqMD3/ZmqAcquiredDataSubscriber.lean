import AqMD3.Digitizer
import AqMD3.UimfAcquisitionRecord

/-!
`ZmqAcquiredDataSubscriber::on_notify`: a frame's scans are summed bin by bin and
published as one message, or refused with a status. Serialising and compressing
are not in the repository and are a parameter. What is modelled is what the
subscriber hands to `publisher->send`, and every write into `data_vector`.
-/

namespace AqMD3.Acquisition

structure Message where
  mz : List Int32
  tic : List UInt32
  timeStamps : List UInt64
  deriving DecidableEq

inductive Payload where
  | text (line : String)
  | bytes (content : List UInt8)
  deriving DecidableEq

structure Send where
  subject : String
  payload : Payload
  timeoutMs : Nat
  deriving DecidableEq

structure ZmqAcquiredDataSubscriber where
  dataVector : List Int32
  processed : UInt64
  firstSampleFloor : Int32
  deriving DecidableEq

def dataSubject : String := "data"

def statusSubject : String := "status"

def oneLine (text : String) : String :=
  text.map fun character =>
    if character = '\r' || character = '\n' || character = '\t' then ' ' else character

def publishError (what : String) : Send :=
  ⟨statusSubject, .text ("error data: " ++ oneLine what), 1000⟩

/-- The gates of one spectrum that `check_alignment` counts, and those of them that
open below the floor. -/
def openings (floor : Int32) : Bool → List Int32 → UInt64 × UInt64 → UInt64 × UInt64
  | _, [], counts => counts
  | opening, val :: rest, counts =>
      if val < 0 then openings floor true rest counts
      else if opening then
        openings floor false rest (counts.1 + 1, if val < floor then counts.2 + 1 else counts.2)
      else openings floor false rest counts

def checkAlignment (floor : Int32) (frame : UimfFrame) : List Send :=
  let counts := frame.data.foldl (fun counts er => openings floor true er.encodedSpectra counts) (0, 0)
  if counts.2 = 0 then []
  else
    [publishError ("samples misaligned (" ++ toString counts.2 ++ " of " ++ toString counts.1 ++
      " gates) in frame " ++ toString frame.parameters.frameNumber)]

-- An int compared with a size, or used as one, is converted to it.
def sizeOfInt (index : Int32) : Nat := index.toInt64.toUInt64.toNat

/-- The sum under way: the index of one scan, the vector, and the indexes written. -/
structure Summing where
  index : Int32
  data : List Int32
  writes : List Nat
  deriving DecidableEq

/-- A skip's landing is tested against the vector, a value's index is not. -/
def sumSpectrum : Summing → List Int32 → Except (String × Summing) Summing
  | s, [] => .ok s
  | s, val :: rest =>
      if val < 0 then
        let index := s.index + (-1 * val)
        if s.data.length ≤ sizeOfInt index then
          .error ("index oob error -> index: " ++ toString index, { s with index := index })
        else sumSpectrum { s with index := index } rest
      else
        sumSpectrum
          { index := s.index + 1
            data := s.data.modify (sizeOfInt s.index) (fun sum => sum + val)
            writes := s.writes ++ [sizeOfInt s.index] } rest

inductive SumEnd where
  | summed (s : Summing)
  | refused (scan : EncodedResult) (what : String) (s : Summing)
  deriving DecidableEq

def sumFrame : Summing → List EncodedResult → SumEnd
  | s, [] => .summed s
  | s, er :: rest =>
      match sumSpectrum { s with index := 0 } er.encodedSpectra with
      | .ok next => sumFrame next rest
      | .error (what, last) => .refused er what last

def whereOf (frame : UimfFrame) (scan : EncodedResult) : String :=
  " in scan " ++ toString scan.scan ++ " of frame " ++ toString frame.parameters.frameNumber

structure Notified where
  subscriber : ZmqAcquiredDataSubscriber
  sends : List Send
  writes : List Nat
  deriving DecidableEq

namespace ZmqAcquiredDataSubscriber

def create (sampleCount : UInt32) (firstSampleFloor : Int32) : ZmqAcquiredDataSubscriber :=
  ⟨List.replicate sampleCount.toNat 0, 0, firstSampleFloor⟩

/-- What a throw behind the sum is reported as: `at` is the frame's last scan by then. -/
def encodeError (frame : UimfFrame) (thrown : Thrown) : Send :=
  match thrown with
  | .unknown _ => publishError "unknown error when processing ZMQ data"
  | .exception what | .frameDamaged what =>
      publishError (what ++ (frame.data.getLast?.map (whereOf frame)).getD "")

def onNotify (encode : Message → Except Thrown (List UInt8)) (z : ZmqAcquiredDataSubscriber)
    (frame : UimfFrame) : Notified :=
  let alignment := checkAlignment z.firstSampleFloor frame
  let filled := List.replicate z.dataVector.length (0 : Int32)
  match sumFrame ⟨0, filled, []⟩ frame.data with
  | .refused scan what s =>
      { subscriber := { z with dataVector := s.data }
        sends := alignment ++ [publishError (what ++ whereOf frame scan)]
        writes := s.writes }
  | .summed s =>
      let msg : Message :=
        { mz := s.data
          tic := frame.data.map fun er => er.tic.toUInt64.toUInt32
          timeStamps := frame.data.map EncodedResult.timestamp }
      match encode msg with
      | .ok content =>
          { subscriber := { z with dataVector := s.data, processed := z.processed + 1 }
            sends := alignment ++ [⟨dataSubject, .bytes content, 100⟩]
            writes := s.writes }
      | .error thrown =>
          { subscriber := { z with dataVector := s.data }
            sends := alignment ++ [encodeError frame thrown]
            writes := s.writes }

end ZmqAcquiredDataSubscriber

/-- What an entry of a spectrum does, by bins that no width wraps. -/
inductive BinStep where
  | store (bin : Nat)
  | land (bin : Nat)
  deriving DecidableEq

def binSteps : Nat → List Int32 → List BinStep
  | _, [] => []
  | bin, val :: rest =>
      if val < 0 then .land (bin + val.toInt.natAbs) :: binSteps (bin + val.toInt.natAbs) rest
      else .store bin :: binSteps (bin + 1) rest

def frameSteps (data : List EncodedResult) : List BinStep :=
  data.flatMap fun er => binSteps 0 er.encodedSpectra

/-- A bin taken as an int and used as an index of the vector. -/
def indexOf (bin : Nat) : Nat := sizeOfInt (Int32.ofNat bin)

def refusedAt (sampleCount : Nat) : BinStep → Bool
  | .store _ => false
  | .land bin => sampleCount ≤ indexOf bin

/-- The steps in front of the first refused skip. -/
def stepsMade (sampleCount : Nat) (steps : List BinStep) : List BinStep :=
  steps.takeWhile fun step => !refusedAt sampleCount step

def storeIndexes (steps : List BinStep) : List Nat :=
  steps.filterMap fun step =>
    match step with
    | .store bin => some (indexOf bin)
    | .land _ => none

theorem storeIndexes_append (front back : List BinStep) :
    storeIndexes (front ++ back) = storeIndexes front ++ storeIndexes back := List.filterMap_append

section Made

variable {sampleCount : Nat} {front : List BinStep} (back : List BinStep)

/-- A refused step is the end of what is made. -/
theorem stepsMade_refused {step : BinStep} (member : step ∈ front)
    (refused : refusedAt sampleCount step = true) :
    stepsMade sampleCount (front ++ back) = stepsMade sampleCount front := by
  rw [stepsMade, stepsMade, List.takeWhile_append, if_neg]
  intro full
  have whole := List.takeWhile_eq_self_iff.mp
    ((List.takeWhile_prefix _).eq_of_length full) step member
  simp only [refused, Bool.not_true, Bool.false_eq_true] at whole

theorem stepsMade_passed (passed : ∀ step ∈ front, refusedAt sampleCount step = false) :
    stepsMade sampleCount (front ++ back) = front ++ stepsMade sampleCount back := by
  rw [stepsMade, stepsMade, List.takeWhile_append_of_pos]
  intro step member
  simp [passed step member]

end Made

theorem skip_index (bin : Nat) (val : Int32) (skip : val < 0) :
    Int32.ofNat bin + (-1 * val) = Int32.ofNat (bin + val.toInt.natAbs) := by
  have negative := Int32.lt_iff_toInt_lt.mp skip
  rw [Int32.toInt_zero] at negative
  have negated : -1 * val = Int32.ofNat val.toInt.natAbs := by
    apply Int32.toInt_inj.mp
    rw [Int32.toInt_mul, Int32.toInt_ofNat', show (-1 : Int32).toInt = -1 from rfl]
    congr 1
    omega
  rw [negated, Int32.ofNat_add]

theorem value_index (bin : Nat) : Int32.ofNat bin + 1 = Int32.ofNat (bin + 1) := by
  rw [Int32.ofNat_add]
  rfl

/-- What one spectrum's sum did, against its steps. -/
def Summed (sampleCount : Nat) (steps : List BinStep) (before : List Nat) :
    Except (String × Summing) Summing → Prop
  | .ok last =>
      (∀ step ∈ steps, refusedAt sampleCount step = false) ∧
        last.writes = before ++ storeIndexes steps ∧ last.data.length = sampleCount
  | .error (_, last) =>
      (∃ step ∈ steps, refusedAt sampleCount step = true) ∧
        last.writes = before ++ storeIndexes (stepsMade sampleCount steps)

/-- A step that is not refused comes first, with the index it may have written. -/
theorem summed_cons (sampleCount : Nat) (step : BinStep) (steps : List BinStep)
    (before : List Nat) (result : Except (String × Summing) Summing)
    (passed : refusedAt sampleCount step = false)
    (tail : Summed sampleCount steps (before ++ storeIndexes [step]) result) :
    Summed sampleCount (step :: steps) before result := by
  have split (rest : List BinStep) :
      storeIndexes (step :: rest) = storeIndexes [step] ++ storeIndexes rest :=
    storeIndexes_append [step] rest
  cases result with
  | ok last =>
      obtain ⟨all, writes, length⟩ := tail
      refine ⟨fun one member => ?_, ?_, length⟩
      · rcases List.mem_cons.mp member with same | later
        · rw [same]
          exact passed
        · exact all one later
      · rw [writes, List.append_assoc, ← split]
  | error refusal =>
      obtain ⟨⟨one, member, refused⟩, writes⟩ := tail
      refine ⟨⟨one, List.mem_cons_of_mem step member, refused⟩, ?_⟩
      rw [writes, stepsMade, stepsMade, List.takeWhile_cons_of_pos (by simp [passed]),
        List.append_assoc, ← split]

/-- One spectrum: it is refused at the first landing outside the vector, and has
written what it stores before. -/
theorem sumSpectrum_steps (spectrum : List Int32) (s : Summing) (bin : Nat)
    (place : s.index = Int32.ofNat bin) :
    Summed s.data.length (binSteps bin spectrum) s.writes (sumSpectrum s spectrum) := by
  induction spectrum generalizing s bin with
  | nil => exact ⟨fun step member => absurd member List.not_mem_nil, (List.append_nil _).symm, rfl⟩
  | cons val rest ih =>
      unfold sumSpectrum binSteps
      by_cases skip : val < 0
      · have landing : s.index + (-1 * val) = Int32.ofNat (bin + val.toInt.natAbs) := by
          rw [place, skip_index bin val skip]
        rw [if_pos skip, if_pos skip]
        simp only
        -- Only a skip is checked, where it lands; a store goes through unasked.
        by_cases outside : s.data.length ≤ sizeOfInt (s.index + (-1 * val))
        · have refused : refusedAt s.data.length (.land (bin + val.toInt.natAbs)) = true := by
            rw [landing] at outside
            exact decide_eq_true outside
          rw [if_pos outside]
          refine ⟨⟨_, List.mem_cons_self, refused⟩, ?_⟩
          rw [stepsMade, List.takeWhile_cons_of_neg (by simp [refused])]
          exact (List.append_nil _).symm
        · have passed : refusedAt s.data.length (.land (bin + val.toInt.natAbs)) = false := by
            rw [landing] at outside
            exact decide_eq_false outside
          rw [if_neg outside]
          refine summed_cons _ _ _ _ _ passed ?_
          rw [show storeIndexes [.land (bin + val.toInt.natAbs)] = [] from rfl, List.append_nil]
          exact ih { s with index := s.index + (-1 * val) } _ landing
      · rw [if_neg skip, if_neg skip]
        refine summed_cons _ (.store bin) _ _ _ rfl ?_
        have tail := ih
          { index := s.index + 1
            data := s.data.modify (sizeOfInt s.index) (fun sum => sum + val)
            writes := s.writes ++ [sizeOfInt s.index] } (bin + 1) (by rw [place, value_index])
        rw [List.length_modify] at tail
        rw [show storeIndexes [.store bin] = [indexOf bin] from rfl, indexOf, ← place]
        exact tail

/-- A whole frame: every scan starts at bin 0, and the first refused one ends the sum. -/
theorem sumFrame_steps (data : List EncodedResult) (s : Summing) :
    match sumFrame s data with
    | .summed last =>
        (∀ step ∈ frameSteps data, refusedAt s.data.length step = false) ∧
          last.writes = s.writes ++ storeIndexes (frameSteps data)
    | .refused _ _ last =>
        (∃ step ∈ frameSteps data, refusedAt s.data.length step = true) ∧
          last.writes = s.writes ++ storeIndexes (stepsMade s.data.length (frameSteps data)) := by
  induction data generalizing s with
  | nil => exact ⟨fun step member => absurd member List.not_mem_nil, (List.append_nil _).symm⟩
  | cons er rest ih =>
      have here := sumSpectrum_steps er.encodedSpectra { s with index := 0 } 0 rfl
      have steps : frameSteps (er :: rest) = binSteps 0 er.encodedSpectra ++ frameSteps rest :=
        List.flatMap_cons
      rw [steps]
      unfold sumFrame
      cases result : sumSpectrum { s with index := 0 } er.encodedSpectra with
      | error refusal =>
          rw [result] at here
          obtain ⟨⟨step, member, refused⟩, writes⟩ := here
          refine ⟨⟨step, List.mem_append_left _ member, refused⟩, ?_⟩
          rw [stepsMade_refused _ member refused]
          exact writes
      | ok next =>
          rw [result] at here
          obtain ⟨all, writes, length⟩ := here
          have tail := ih next
          rw [length, writes] at tail
          simp only
          cases ending : sumFrame next rest with
          | summed last =>
              rw [ending] at tail
              refine ⟨fun step member => ?_, ?_⟩
              · rcases List.mem_append.mp member with mine | later
                · exact all step mine
                · exact tail.1 step later
              · rw [tail.2, storeIndexes_append, List.append_assoc]
          | refused scan what last =>
              rw [ending] at tail
              obtain ⟨⟨step, member, refused⟩, wrote⟩ := tail
              refine ⟨⟨step, List.mem_append_right _ member, refused⟩, ?_⟩
              rw [stepsMade_passed _ all, wrote, storeIndexes_append, List.append_assoc]

end AqMD3.Acquisition
