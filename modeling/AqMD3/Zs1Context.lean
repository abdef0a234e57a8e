import AqMD3.AcquisitionBuffer
import AqMD3.Markers

/-!
`CstZs1Context`: the markers walk and the samples fetch of zero-suppressed
acquisition. The driver's answers are consumed from two lists, one a stream; a
call that outlives its list is still `waiting` inside the driver. The pool's
buffer is handed in, as `buffer_pool->get_buffer()` returned it. Log lines and
the counters only they read are left out; the texts of exceptions are kept.
-/

namespace AqMD3.Acquisition

inductive Ending (Value : Type) where
  | returned (value : Value)
  | threw (thrown : Thrown)
  | waiting
  deriving DecidableEq

structure AcquiredData where
  samplesBuffer : AcquisitionBuffer
  stamps : List TriggerData
  samplesCount : UInt64
  deriving DecidableEq

def AcquiredData.rangeShiftConstant : Int32 := 32768

structure TriggerSeen where
  valid : Bool
  timestamp : UInt64
  index : UInt32
  deriving DecidableEq

structure CstZs1Context where
  markersChannel : String
  samplesChannel : String
  markersBuffer : AcquisitionBuffer
  lastTrigger : TriggerSeen
  frameLastTrigger : TriggerSeen
  frameFirstTriggerChecked : Bool
  deriving DecidableEq

def markersHunkSize : UInt64 := 16

def multiplierMax : Int32 := 8

namespace CstZs1Context

def create (channel : String) (maxTriggersPerRead : UInt64) : CstZs1Context :=
  { markersChannel := if channel = "Channel1" then "MarkersCh1" else "MarkersCh2"
    samplesChannel := if channel = "Channel1" then "StreamCh1" else "StreamCh2"
    markersBuffer := .ofSize (maxTriggersPerRead * markersHunkSize * 8 + 15).toNat
    lastTrigger := ⟨false, 0, 0⟩
    frameLastTrigger := ⟨false, 0, 0⟩
    frameFirstTriggerChecked := false }

-- What is left of `start` and `stop` once the driver's begin or abort has succeeded.
def start (c : CstZs1Context) : CstZs1Context :=
  { c with frameLastTrigger := c.lastTrigger, frameFirstTriggerChecked := false }

def stop (c : CstZs1Context) : CstZs1Context :=
  { c with markersBuffer := c.markersBuffer.reset }

/-- The replay check of a frame's first trigger, then the latest trigger seen. -/
def noteTrigger (c : CstZs1Context) (timestamp : UInt64) (index : UInt32) :
    CstZs1Context × Option Thrown :=
  let checked := { c with frameFirstTriggerChecked := true }
  if !c.frameFirstTriggerChecked && c.frameLastTrigger.valid &&
      timestamp ≤ c.frameLastTrigger.timestamp then
    (checked, some (.frameDamaged "markers replayed"))
  else if !c.lastTrigger.valid || c.lastTrigger.timestamp < timestamp then
    ({ checked with lastTrigger := ⟨true, timestamp, index⟩ }, none)
  else (checked, none)

end CstZs1Context

def hexDigits (width n : Nat) : String :=
  let digits := Nat.toDigits 16 n
  String.ofList (List.replicate (width - digits.length) '0' ++ digits)

def hunkHex (h : Hunk) : String :=
  (List.finRange 16).foldl (fun out i =>
    out ++ (if i.val = 0 then "" else if i.val % 4 = 0 then " | " else " ") ++
      hexDigits 8 h[i].toUInt32.toNat) ""

/-- Gates walked before the call's first trigger: reported, never attached. -/
structure Orphans where
  gates : UInt64
  elements : UInt64
  position : Int32
  hunk : Hunk
  deriving DecidableEq

def Orphans.describe (o : Orphans) : String :=
  toString o.gates ++ " gates before this acquire's first trigger, " ++ toString o.elements ++
    " sample elements, the first at element " ++ toString o.position ++ " in hunk " ++ hunkHex o.hunk

/-- The locals of `acquire` that outlive a hunk, with the context they act on. -/
structure Walk where
  context : CstZs1Context
  trigCount : Int32
  toAcquire : UInt64
  stamps : List TriggerData
  orphans : Orphans
  markersToAcquire : Int32
  activeMultiplier : Int32
  fetches : List FetchCall
  deriving DecidableEq

def Walk.begin (c : CstZs1Context) (triggersToRead : UInt64) : Walk :=
  { context := c
    trigCount := 0
    toAcquire := 0
    stamps := []
    orphans := ⟨0, 0, 0, .replicate 16 0⟩
    markersToAcquire := (triggersToRead * markersHunkSize).toUInt32.toInt32
    activeMultiplier := 1
    fetches := [] }

def Walk.buffer (w : Walk) : AcquisitionBuffer := w.context.markersBuffer

def Walk.onBuffer (w : Walk) (change : AcquisitionBuffer → AcquisitionBuffer) : Walk :=
  { w with context := { w.context with markersBuffer := change w.context.markersBuffer } }

/-- The sixteen words at `get_raw_unprocessed()`. -/
def Walk.segment (w : Walk) : Hunk :=
  Vector.ofFn fun word : Fin 16 => w.buffer.read (w.buffer.getRawUnprocessed + word.val)

def Walk.orphan (w : Walk) (seg : Hunk) (m : GateMarker) : Walk :=
  { w with
    orphans :=
      { gates := w.orphans.gates + 1
        elements := w.orphans.elements + m.toAcquireMemoryBlocks
        position := if w.orphans.gates = 0 then w.buffer.getProcessed else w.orphans.position
        hunk := if w.orphans.gates = 0 then seg else w.orphans.hunk } }

-- `note_gate` reports a gate past the record and changes nothing else: the gate is kept.
def Walk.attach (w : Walk) (m : GateMarker) : Walk :=
  { w with
    stamps := w.stamps.modifyLast fun t => { t with gateData := t.gateData ++ [m.gateData] }
    toAcquire := w.toAcquire + m.toAcquireMemoryBlocks }

def walkBlock (seg : Hunk) (w : Walk) (block : Fin 4) : Walk :=
  if seg.blockKind block = 0x04 then
    if w.stamps.length = 0 then w.orphan seg (seg.gateMarker block)
    else w.attach (seg.gateMarker block)
  else w

def unexpectedHeader (w : Walk) (seg : Hunk) : String :=
  "markers: unexpected header 0x" ++ hexDigits 2 seg.kind.toNat ++ " at element " ++
    toString w.buffer.getProcessed ++ " of " ++ toString w.buffer.getAcquired ++
    " fetched, trigger " ++ toString w.trigCount ++ " of this acquire, hunk " ++ hunkHex seg ++
    (if w.orphans.gates = 0 then "" else "; " ++ w.orphans.describe)

/-- How a walk over one or more hunks left the loop: past the last hunk, by the
`goto` on the look-ahead trigger, or by an exception. -/
inductive Stage where
  | walked (w : Walk)
  | lookAhead (w : Walk)
  | threw (thrown : Thrown) (w : Walk)

def walkTrigger (triggersToRead : UInt64) (w : Walk) (seg : Hunk) : Stage :=
  let w := { w with trigCount := w.trigCount + 1 }
  -- The comparison converts the int to uint64_t.
  if triggersToRead + 1 ≤ w.trigCount.toInt64.toUInt64 then .lookAhead w
  else
    let noted := w.context.noteTrigger seg.timestamp seg.index
    let w := { w with context := noted.1, stamps := w.stamps ++ [seg.trigger] }
    match noted.2 with
    | some damaged => .threw damaged w
    | none => .walked (w.onBuffer fun b => b.advanceProcessed 16)

def walkGate (w : Walk) (seg : Hunk) : Walk :=
  ((List.finRange 4).foldl (walkBlock seg) w).onBuffer fun b => b.advanceProcessed 16

def walkHunk (triggersToRead : UInt64) (w : Walk) : Stage :=
  let seg := w.segment
  if seg.isTrigger then walkTrigger triggersToRead w seg
  else if seg.isGate then .walked (walkGate w seg)
  else if seg.kind = 0x08 then .threw (.exception "dummy gate error") w
  else .threw (.exception (unexpectedHeader w seg)) w

def walkHunks (triggersToRead : UInt64) : Nat → Walk → Stage
  | 0, w => .walked w
  | count + 1, w =>
      match walkHunk triggersToRead w with
      | .walked next => walkHunks triggersToRead count next
      | .lookAhead last => .lookAhead last
      | .threw thrown last => .threw thrown last

/-- The driver's store through `get_raw_unaquired()`, and the fetch it answers. -/
def Walk.fetched (w : Walk) (reply : FetchReply) : Walk :=
  { w.onBuffer fun b => b.store (b.getRawUnaquired + reply.first) reply.elements with
    fetches := w.fetches ++ [⟨.markers, w.markersToAcquire.toInt, w.buffer.getSize, reply⟩] }

/-- A backlog raises the next request, up to eight times the first one. -/
def Walk.grown (w : Walk) (triggersToRead : UInt64) (available : Int) : Walk :=
  if w.markersToAcquire.toInt < available ∧ w.activeMultiplier < multiplierMax then
    { w with
      activeMultiplier := w.activeMultiplier + 1
      markersToAcquire :=
        (triggersToRead * markersHunkSize *
          (w.activeMultiplier + 1).toInt64.toUInt64).toUInt32.toInt32 }
  else w

def Walk.advanced (w : Walk) (reply : FetchReply) : Walk :=
  w.onBuffer fun b =>
    (b.advanceOffset (Int32.ofNat reply.first)).advanceAcquired (Int32.ofNat reply.elements.length)

def timeoutWhat (w : Walk) (reply : FetchReply) : String :=
  "timeout in acquisition.\n" ++ "timeout conditions:\n\n" ++
    "markers_buffer.get_size(): " ++ toString w.buffer.getSize ++ "\n" ++
    "\tmarkers_buffer.get_acquired(): " ++ toString w.buffer.getAcquired ++ "\n" ++
    "\tmarkers_to_acquire: " ++ toString w.markersToAcquire ++ "\n" ++
    "\tavailable_elements_markers: " ++ toString reply.available ++ "\n" ++
    "\tactual_elements_markers: " ++ toString reply.elements.length ++ "\n\n" ++
    "\ttrig_count: " ++ toString w.trigCount ++ "\n" ++
    (if w.orphans.gates = 0 then "" else "\t" ++ w.orphans.describe ++ "\n")

inductive MarkersEnd where
  | lookAhead (w : Walk) (replies : List FetchReply)
  | threw (thrown : Thrown) (w : Walk) (replies : List FetchReply)
  | waiting (w : Walk)

/-- Fetch, repeat while nothing came, walk what came, start over. The walk's
buffer is empty whenever this is entered. -/
def markersLoop (triggersToRead : UInt64) (deadline : Option Int) :
    List FetchReply → Walk → MarkersEnd
  | [], w =>
      match checkFetchAlignment w.context.markersChannel w.markersToAcquire.toInt with
      | .error thrown => .threw thrown w []
      | .ok () => .waiting w
  | reply :: replies, w =>
      match checkFetchAlignment w.context.markersChannel w.markersToAcquire.toInt with
      | .error thrown => .threw thrown w (reply :: replies)
      | .ok () =>
          let w := w.fetched reply
          match reply.error with
          | some text => .threw (.exception text) w replies
          | none =>
              if deadline.any (fun finish => finish < reply.now) then
                .threw (.exception (timeoutWhat w reply)) w replies
              else if reply.elements.length = 0 then
                markersLoop triggersToRead deadline replies w
              else
                match walkHunks triggersToRead (reply.elements.length / 16)
                    ((w.grown triggersToRead reply.available).advanced reply) with
                | .lookAhead last => .lookAhead last replies
                | .threw thrown last => .threw thrown last replies
                | .walked next =>
                    markersLoop triggersToRead deadline replies (next.onBuffer fun b => b.reset)

/-- A fetch that is asked for aligned, succeeds, and is in time. -/
theorem markersLoop_served (triggersToRead : UInt64) (deadline : Option Int) (reply : FetchReply)
    (replies : List FetchReply) (w : Walk)
    (aligned : checkFetchAlignment w.context.markersChannel w.markersToAcquire.toInt = .ok ())
    (succeeded : reply.error = none)
    (timely : deadline.any (fun finish => finish < reply.now) = false) :
    markersLoop triggersToRead deadline (reply :: replies) w =
      if reply.elements.length = 0 then markersLoop triggersToRead deadline replies (w.fetched reply)
      else
        match walkHunks triggersToRead (reply.elements.length / 16)
            (((w.fetched reply).grown triggersToRead reply.available).advanced reply) with
        | .lookAhead last => .lookAhead last replies
        | .threw thrown last => .threw thrown last replies
        | .walked next =>
            markersLoop triggersToRead deadline replies (next.onBuffer fun b => b.reset) := by
  simp only [markersLoop, aligned, succeeded, timely, Bool.false_eq_true, ↓reduceIte]

structure SamplesResult where
  buffer : AcquisitionBuffer
  ending : Ending Unit
  fetches : List FetchCall
  replies : List FetchReply
  deriving DecidableEq

def SamplesResult.after (call : FetchCall) (result : SamplesResult) : SamplesResult :=
  { result with fetches := call :: result.fetches }

/-- One samples fetch: the store through `get_raw_unaquired()` and both advances. -/
def fillSamples (b : AcquisitionBuffer) (reply : FetchReply) : AcquisitionBuffer :=
  ((b.store (b.getRawUnaquired + reply.first) reply.elements).advanceOffset
    (Int32.ofNat reply.first)).advanceAcquired (Int32.ofNat reply.elements.length)

def samplesLoop (samplesChannel : String) (toAcquire : UInt64) :
    List FetchReply → UInt64 → AcquisitionBuffer → SamplesResult
  | [], fetched, b =>
      if fetched < toAcquire then
        match checkFetchAlignment samplesChannel (toAcquire - fetched).toInt64.toInt with
        | .error thrown => ⟨b, .threw thrown, [], []⟩
        | .ok () => ⟨b, .waiting, [], []⟩
      else ⟨b, .returned (), [], []⟩
  | reply :: replies, fetched, b =>
      if fetched < toAcquire then
        let outstanding := (toAcquire - fetched).toInt64.toInt
        match checkFetchAlignment samplesChannel outstanding with
        | .error thrown => ⟨b, .threw thrown, [], reply :: replies⟩
        | .ok () =>
            let call : FetchCall := ⟨.samples, outstanding, b.getAvailable.toInt, reply⟩
            match reply.error with
            | some text => ⟨b, .threw (.exception text), [call], replies⟩
            | none =>
                (samplesLoop samplesChannel toAcquire replies
                  (fetched + UInt64.ofNat reply.elements.length) (fillSamples b reply)).after call
      else ⟨b, .returned (), [], reply :: replies⟩

/-- `toAcquire` is the local of that name when the call ended. -/
structure AcquireResult where
  context : CstZs1Context
  ending : Ending AcquiredData
  toAcquire : UInt64
  fetches : List FetchCall
  markers : List FetchReply
  samples : List FetchReply
  deriving DecidableEq

def processLabel (w : Walk) (samplesBuffer : AcquisitionBuffer)
    (markers samples : List FetchReply) : AcquireResult :=
  let filled := samplesLoop w.context.samplesChannel w.toAcquire samples 0 samplesBuffer
  { context := w.context
    ending :=
      match filled.ending with
      | .returned () =>
          .returned ⟨filled.buffer, w.stamps, samplesBuffer.samplesPerTrigger⟩
      | .threw thrown => .threw thrown
      | .waiting => .waiting
    toAcquire := w.toAcquire
    fetches := w.fetches ++ filled.fetches
    markers := markers
    samples := filled.replies }

/-- The driver's side of one call, the clock at its start and the timeout, 0 for none. -/
structure AcquireCall where
  triggersToRead : UInt64
  timeoutMs : Int
  now : Int
  samplesBuffer : AcquisitionBuffer
  samples : List FetchReply
  deriving DecidableEq

def AcquireCall.deadline (call : AcquireCall) : Option Int :=
  if call.timeoutMs = 0 then none else some (call.now + call.timeoutMs)

/-- From the start of a call to its `process` label: the hunks left over from the
last call, then the fetches. -/
def CstZs1Context.walkMarkers (c : CstZs1Context) (call : AcquireCall)
    (markers : List FetchReply) : MarkersEnd :=
  let w := Walk.begin c call.triggersToRead
  let unprocessed := c.markersBuffer.getUnprocessed.toInt
  if unprocessed.tmod 16 ≠ 0 then
    .threw (.exception "actual_elements_markers % 16 != 0 at start of acquire") w markers
  else
    match walkHunks call.triggersToRead (unprocessed.tdiv 16).toNat w with
    | .lookAhead last => .lookAhead last markers
    | .threw thrown last => .threw thrown last markers
    | .walked next =>
        markersLoop call.triggersToRead call.deadline markers (next.onBuffer fun b => b.reset)

theorem walkMarkers_aligned (c : CstZs1Context) (call : AcquireCall) (markers : List FetchReply)
    (aligned : ¬ c.markersBuffer.getUnprocessed.toInt.tmod 16 ≠ 0) :
    c.walkMarkers call markers =
      match walkHunks call.triggersToRead (c.markersBuffer.getUnprocessed.toInt.tdiv 16).toNat
          (Walk.begin c call.triggersToRead) with
      | .lookAhead last => .lookAhead last markers
      | .threw thrown last => .threw thrown last markers
      | .walked next =>
          markersLoop call.triggersToRead call.deadline markers
            (next.onBuffer fun b => b.reset) := by
  simp only [CstZs1Context.walkMarkers, if_neg aligned]

def CstZs1Context.acquire (c : CstZs1Context) (call : AcquireCall) (markers : List FetchReply) :
    AcquireResult :=
  match c.walkMarkers call markers with
  | .lookAhead w rest => processLabel w call.samplesBuffer rest call.samples
  | .threw thrown w rest => ⟨w.context, .threw thrown, w.toAcquire, w.fetches, rest, call.samples⟩
  | .waiting w => ⟨w.context, .waiting, w.toAcquire, w.fetches, [], call.samples⟩

/-- Successive calls on one context, each from where the last one left the markers. -/
def CstZs1Context.acquireAll (c : CstZs1Context) :
    List AcquireCall → List FetchReply → List AcquireResult
  | [], _ => []
  | call :: calls, markers =>
      let result := c.acquire call markers
      result :: result.context.acquireAll calls result.markers

end AqMD3.Acquisition
