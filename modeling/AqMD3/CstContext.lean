import AqMD3.Overwrite
import AqMD3.Zs1Context

/-!
`CstContext::acquire`: the timestamps of a number of triggers, scanned out of whatever the
markers stream holds, and then the samples of that many records in one request. The
markers buffer is a local of the call; the vector it is taken to be always fits memory.
The driver's answers are consumed from two lists, as in zero-suppressed acquisition.
-/

namespace AqMD3.Acquisition

open Overwrite

structure CstContext where
  markersChannel : String
  samplesChannel : String
  deriving DecidableEq

/-- The locals of `acquire` that outlive a markers fetch. -/
structure CstWalk where
  markersBuffer : List Int32
  stamps : List TriggerData
  hunksSkipped : UInt64
  available : Int
  fetches : List FetchCall
  deriving DecidableEq

namespace CstContext

def create (channel : String) : CstContext :=
  { markersChannel := if channel = "Channel1" then "MarkersCh1" else "MarkersCh2"
    samplesChannel := if channel = "Channel1" then "StreamCh1" else "StreamCh2" }

def markersHunkSize : Int64 := 16

def markersMultiplierMax : Int64 := 16

def markersToAcquire (triggersToRead : UInt64) : Int64 :=
  (triggersToRead * markersHunkSize.toUInt64).toInt64

def markersRequestMax (triggersToRead : UInt64) : Int64 :=
  markersToAcquire triggersToRead * markersMultiplierMax

def markersBufferSize (triggersToRead : UInt64) : Nat :=
  ((markersRequestMax triggersToRead).toUInt64 + 15).toNat

/-- What the next fetch asks for, from what the last one said is there. -/
def markersRequest (triggersToRead : UInt64) (available : Int) : Int :=
  let request := (markersToAcquire triggersToRead).toInt
  if request < available then
    let request := min available (markersRequestMax triggersToRead).toInt
    request - request.tmod markersHunkSize.toInt
  else request

/-- The scan of one fetch's hunks, up to the trigger that is the last one asked for. -/
def scanHunks (triggersToRead : UInt64) : List Hunk → CstWalk → CstWalk
  | [], w => w
  | seg :: rest, w =>
      if seg.kind ≠ 0x01 then
        scanHunks triggersToRead rest { w with hunksSkipped := w.hunksSkipped + 1 }
      else
        let w := { w with stamps := w.stamps ++ [seg.cstTrigger] }
        if triggersToRead.toNat ≤ w.stamps.length then w else scanHunks triggersToRead rest w

end CstContext

def CstWalk.begin (triggersToRead : UInt64) : CstWalk :=
  { markersBuffer := List.replicate (CstContext.markersBufferSize triggersToRead) 0
    stamps := []
    hunksSkipped := 0
    available := 0
    fetches := [] }

/-- The sixteen words of a hunk behind a pointer into the markers buffer. -/
def CstWalk.segment (w : CstWalk) (pointer hunk : Nat) : Hunk :=
  Vector.ofFn fun word : Fin 16 => w.markersBuffer.getD (pointer + hunk * 16 + word.val) 0

/-- The driver's store, and the fetch it answers. -/
def CstWalk.fetched (w : CstWalk) (request : Int) (reply : FetchReply) : CstWalk :=
  { w with
    markersBuffer := overwrite w.markersBuffer reply.first reply.elements
    available := reply.available
    fetches := w.fetches ++ [⟨.markers, request, w.markersBuffer.length, reply⟩] }

def CstWalk.scanned (w : CstWalk) (triggersToRead : UInt64) (reply : FetchReply) : CstWalk :=
  CstContext.scanHunks triggersToRead
    ((List.range (reply.elements.length / 16)).map (w.segment reply.first)) w

/-- The scan touches neither the buffer nor the trace. -/
theorem scanned_kept (w : CstWalk) (triggersToRead : UInt64) (reply : FetchReply) :
    (w.scanned triggersToRead reply).fetches = w.fetches ∧
      (w.scanned triggersToRead reply).markersBuffer = w.markersBuffer := by
  unfold CstWalk.scanned
  generalize (List.range (reply.elements.length / 16)).map (w.segment reply.first) = hunks
  induction hunks generalizing w with
  | nil => exact ⟨rfl, rfl⟩
  | cons seg rest ih =>
      unfold CstContext.scanHunks
      split
      · exact ih { w with hunksSkipped := w.hunksSkipped + 1 }
      · simp only
        split
        · exact ⟨rfl, rfl⟩
        · exact ih { w with stamps := w.stamps ++ [seg.cstTrigger] }

def CstWalk.timeoutWhat (w : CstWalk) (triggersToRead : UInt64) : String :=
  "timeout collecting trigger timestamps: " ++ toString w.stamps.length ++ " of " ++
    toString triggersToRead ++ " collected, " ++ toString w.hunksSkipped ++
    " marker hunks skipped as not triggers, " ++ toString w.available ++ " elements available"

inductive CstMarkersEnd where
  | collected (w : CstWalk) (replies : List FetchReply)
  | threw (thrown : Thrown) (w : CstWalk) (replies : List FetchReply)
  | waiting (w : CstWalk)

structure CstSamples where
  buffer : AcquisitionBuffer
  ending : Ending Unit
  fetches : List FetchCall
  replies : List FetchReply
  deriving DecidableEq

def CstSamples.after (call : FetchCall) (result : CstSamples) : CstSamples :=
  { result with fetches := call :: result.fetches }

def samplesTimeoutWhat (elementsToAcquire available : Int) : String :=
  "timeout fetching samples: asked for " ++ toString elementsToAcquire ++ ", " ++
    toString available ++ " available"

structure CstResult where
  ending : Ending AcquiredData
  fetches : List FetchCall
  markers : List FetchReply
  samples : List FetchReply
  deriving DecidableEq

namespace CstContext

/-- The timeout is looked at behind the scan, also when it found the last trigger. -/
def markersLoop (c : CstContext) (triggersToRead : UInt64) (deadline : Option Int) :
    List FetchReply → CstWalk → CstMarkersEnd
  | [], w =>
      if w.stamps.length < triggersToRead.toNat then
        match checkFetchAlignment c.markersChannel (markersRequest triggersToRead w.available) with
        | .error thrown => .threw thrown w []
        | .ok () => .waiting w
      else .collected w []
  | reply :: replies, w =>
      if w.stamps.length < triggersToRead.toNat then
        let request := markersRequest triggersToRead w.available
        match checkFetchAlignment c.markersChannel request with
        | .error thrown => .threw thrown w (reply :: replies)
        | .ok () =>
            let w := w.fetched request reply
            match reply.error with
            | some text => .threw (.exception text) w replies
            | none =>
                let w := w.scanned triggersToRead reply
                if deadline.any (fun finish => finish < reply.now) then
                  .threw (.exception (w.timeoutWhat triggersToRead)) w replies
                else markersLoop c triggersToRead deadline replies w
      else .collected w (reply :: replies)

/-- One request, repeated to the same place until it is answered in full. -/
def samplesLoop (elementsToAcquire : Int) (deadline : Option Int) :
    List FetchReply → AcquisitionBuffer → CstSamples
  | [], b => ⟨b, .waiting, [], []⟩
  | reply :: replies, b =>
      let call : FetchCall := ⟨.samples, elementsToAcquire, b.getSize, reply⟩
      let b := b.store (b.getRawUnaquired + reply.first) reply.elements
      match reply.error with
      | some text => ⟨b, .threw (.exception text), [call], replies⟩
      | none =>
          if deadline.any (fun finish => finish < reply.now) then
            ⟨b, .threw (.exception (samplesTimeoutWhat elementsToAcquire reply.available)), [call],
              replies⟩
          else if (reply.elements.length : Int) < elementsToAcquire then
            (samplesLoop elementsToAcquire deadline replies b).after call
          else
            ⟨(b.advanceOffset (Int32.ofNat reply.first)).advanceAcquired
              (Int32.ofNat reply.elements.length), .returned (), [call], replies⟩

def elementsToAcquire (triggersToRead samplesPerTrigger : UInt64) : Int :=
  ((triggersToRead * samplesPerTrigger) / 2).toInt64.toInt

def fetchSamples (c : CstContext) (call : AcquireCall) (w : CstWalk) (markers : List FetchReply) :
    CstResult :=
  let elements := elementsToAcquire call.triggersToRead call.samplesBuffer.samplesPerTrigger
  match checkFetchAlignment c.samplesChannel elements with
  | .error thrown => ⟨.threw thrown, w.fetches, markers, call.samples⟩
  | .ok () =>
      let filled := samplesLoop elements call.deadline call.samples call.samplesBuffer
      { ending :=
          match filled.ending with
          | .returned () =>
              .returned ⟨filled.buffer, w.stamps, call.samplesBuffer.samplesPerTrigger⟩
          | .threw thrown => .threw thrown
          | .waiting => .waiting
        fetches := w.fetches ++ filled.fetches
        markers := markers
        samples := filled.replies }

def acquire (c : CstContext) (call : AcquireCall) (markers : List FetchReply) : CstResult :=
  match c.markersLoop call.triggersToRead call.deadline markers (.begin call.triggersToRead) with
  | .collected w rest => c.fetchSamples call w rest
  | .threw thrown w rest => ⟨.threw thrown, w.fetches, rest, call.samples⟩
  | .waiting w => ⟨.waiting, w.fetches, [], call.samples⟩

end CstContext
end AqMD3.Acquisition
