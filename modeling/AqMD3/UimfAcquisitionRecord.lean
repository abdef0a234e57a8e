import AqMD3.CountedLoop
import AqMD3.Zs1Context

/-!
`UimfAcquisitionRecord`: from the gates of a batch and its samples buffer to one
run-length encoded scan per trigger. The vectors of triggers and gates are lists
(the source counts them with an int), every other number has the source's width.
`process` stops early in two ways: `reserve` throws on a count that went
negative, and a samples loop whose bound no int reaches does not end.
-/

namespace AqMD3.Acquisition

open CountedLoop

structure UimfFrameParameters where
  startTrigger : UInt64
  nbrSamples : UInt64
  nbrAccumulations : UInt64
  frameLength : UInt64
  frameNumber : UInt32
  offsetBins : UInt32
  fileName : String
  deriving DecidableEq

structure EncodedResult where
  scan : Int32
  nonZeroCount : Int32
  encodedSpectra : List Int32
  tic : Int64
  bpi : Int64
  indexMaxIntensity : Int32
  timestamp : UInt64
  deriving DecidableEq

structure UimfFrame where
  parameters : UimfFrameParameters
  data : List EncodedResult
  deriving DecidableEq

structure UimfAcquisitionRecord where
  parameters : UimfFrameParameters
  acquiredData : AcquiredData
  startScanIndex : UInt64
  deriving DecidableEq

inductive Fault where
  | lengthError
  | endless
  deriving DecidableEq

def GateData.samples (g : GateData) : Int64 :=
  g.getStopSampleIndex.toInt64 - g.getStartSampleIndex.toInt64

def GateData.skipped (g : GateData) : Bool := g.getStopSampleIndex ≤ g.getStartSampleIndex

/-- One past the last in-block position read: the bound of the samples loop. -/
def GateData.readBound (g : GateData) : Int64 :=
  g.gateStartSamplePos.toUInt64.toInt64 + g.samples

-- `reserve += samples` adds an int64_t to an int and narrows the sum.
def reserveStep (reserve : Int32) (g : GateData) : Int32 :=
  if 0 < g.samples then (reserve.toInt64 + g.samples).toInt32 else reserve

def reserved (gates : List GateData) : Int32 :=
  gates.foldl reserveStep 0 + Int32.ofNat gates.length

def gateZeroCount (offsetBins : UInt32) (prev : Option GateData) (g : GateData) : Int32 :=
  match prev with
  | none => (g.getStartSampleIndex + offsetBins.toUInt64).toUInt32.toInt32
  | some prevGate => (g.getStartSampleIndex - prevGate.getStopSampleIndex).toUInt32.toInt32

/-- A gap as run lengths; -32768 is never one of them. -/
def gapCode (zeroCount : Int32) : List Int32 :=
  if zeroCount = 32768 then [-32767, -1] else if 0 < zeroCount then [-1 * zeroCount] else []

/-- Two samples to an element, the even one in the low half. -/
def sampleAt (buffer : AcquisitionBuffer) (ptr : Int) (i : Int32) : Int32 :=
  let element := buffer.read (ptr + (i / 2).toInt)
  if i % 2 = 0 then ((element <<< 16) >>> 16) + AcquiredData.rangeShiftConstant
  else (element >>> 16) + AcquiredData.rangeShiftConstant

/-- The locals of one trigger's scan. -/
structure Scan where
  encodedSamples : List Int32
  tic : UInt64
  bpi : Int64
  indexMaxIntensity : Int32
  nonZeroCount : Int32
  zeroCount : Int32
  deriving DecidableEq

def Scan.begin : Scan := ⟨[], 0, 0, 0, 0, 0⟩

def Scan.skip (s : Scan) (zeroCount : Int32) : Scan :=
  { s with
    encodedSamples := s.encodedSamples ++ gapCode zeroCount
    zeroCount := s.zeroCount + zeroCount }

def Scan.store (s : Scan) (val : Int32) : Scan :=
  let s :=
    if s.bpi < val.toInt64 then
      { s with bpi := val.toInt64, indexMaxIntensity := s.nonZeroCount + s.zeroCount }
    else s
  { s with
    encodedSamples := s.encodedSamples ++ [val]
    nonZeroCount := s.nonZeroCount + 1
    tic := s.tic + val.toInt64.toUInt64 }

def processGate (buffer : AcquisitionBuffer) (offsetBins : UInt32) (offset : Int32)
    (prev : Option GateData) (g : GateData) (s : Scan) : Except Fault Scan :=
  if g.skipped then .ok s
  else
    let ptr := buffer.getRawUnprocessed + offset.toInt
    match forInt g.gateStartSamplePos.toInt32 g.readBound.toInt with
    | none => .error .endless
    | some counters =>
        .ok ((counters.map (sampleAt buffer ptr)).foldl Scan.store
          (s.skip (gateZeroCount offsetBins prev g)))

-- A skipped gate still moves the offset past its elements.
def processGates (buffer : AcquisitionBuffer) (offsetBins : UInt32) :
    Option GateData → List GateData → Int32 → Scan → Except Fault (Scan × Int32)
  | _, [], offset, s => .ok (s, offset)
  | prev, g :: rest, offset, s =>
      match processGate buffer offsetBins offset prev g s with
      | .error fault => .error fault
      | .ok next =>
          processGates buffer offsetBins (some g) rest (offset + g.elementCount.toInt32) next

namespace UimfAcquisitionRecord

def result (r : UimfAcquisitionRecord) (trigIndex : Nat) (trig : TriggerData) (s : Scan) :
    EncodedResult :=
  { scan := (r.startScanIndex + UInt64.ofNat trigIndex).toUInt32.toInt32
    nonZeroCount := s.nonZeroCount
    encodedSpectra := s.encodedSamples
    tic := s.tic.toInt64
    bpi := s.bpi
    indexMaxIntensity := s.indexMaxIntensity
    timestamp := trig.timestamp }

def processTrigger (r : UimfAcquisitionRecord) (offset : Int32) (trig : TriggerData) :
    Except Fault (Scan × Int32) :=
  if reserved trig.gateData < 0 then .error .lengthError
  else processGates r.acquiredData.samplesBuffer r.parameters.offsetBins none trig.gateData offset
    Scan.begin

def processStamps (r : UimfAcquisitionRecord) :
    Nat → List TriggerData → Int32 → Except Fault (List EncodedResult)
  | _, [], _ => .ok []
  | trigIndex, trig :: rest, offset =>
      match r.processTrigger offset trig with
      | .error fault => .error fault
      | .ok (s, next) =>
          match r.processStamps (trigIndex + 1) rest next with
          | .error fault => .error fault
          | .ok results => .ok (r.result trigIndex trig s :: results)

def process (r : UimfAcquisitionRecord) : Except Fault (List EncodedResult) :=
  r.processStamps 0 r.acquiredData.stamps 0

def toFrame (r : UimfAcquisitionRecord) : Except Fault UimfFrame :=
  match r.process with
  | .error fault => .error fault
  | .ok results => .ok ⟨r.parameters, results⟩

end UimfAcquisitionRecord

end AqMD3.Acquisition
