import AqMD3.TriggerNotes
import AqMD3.CallSequence
import AqMD3.AcquirePublisherWorker
import AqMD3.Transitions

/-!
One `CstZs1Context` under the worker threads of `AcquirePublisher`, one frame after the
other: the context outlives its frames, and a frame is what lies between one `start` and
the next. The replay check is made once a frame, in front of the samples fetch of that
call; that no later call of the frame fetches is the worker's error flag alone.
-/

namespace AqMD3.Acquisition

open Transitions

/-- The calls of one frame in their order. -/
abbrev FrameSeen := List CallSeen

namespace FrameSeen

def walked (frame : FrameSeen) : List UInt64 := frame.flatMap CallSeen.walked

def accepted (frame : FrameSeen) : List UInt64 := frame.flatMap CallSeen.accepted

def damaged (frame : FrameSeen) : Bool := frame.any CallSeen.damaged

def samplesFetches (frame : FrameSeen) : List FetchCall := frame.flatMap CallSeen.samplesFetches

end FrameSeen

def acceptedIn (frames : List FrameSeen) : List UInt64 := frames.flatMap FrameSeen.accepted

/-- The pool's and the driver's side of one call of `acquire`. -/
structure AcquireSide where
  buffer : Except String AcquisitionBuffer
  timeoutMs : Int
  now : Int
  markers : List FetchReply
  samples : List FetchReply

/-- The context and the worker of the frame, with the frames so far, the newest first. -/
structure DrivenContext where
  context : CstZs1Context
  worker : Worker
  -- The driver has not answered a fetch of the call.
  waiting : Bool
  frames : List FrameSeen

inductive DrivenLabel where
  | spawns (parameters : UimfFrameParameters)
  | works (answers : Answers) (side : AcquireSide)

namespace DrivenContext

def create (channel : String) (maxTriggersPerRead : UInt64) (parameters : UimfFrameParameters) :
    DrivenContext :=
  ⟨.create channel maxTriggersPerRead, .spawned parameters, false, []⟩

def worksOn (segmentSize : UInt64) (answers : Answers) (s : DrivenContext) : DrivenContext :=
  { s with worker := (s.worker.step segmentSize answers).1 }

/-- The call belongs to the newest frame. -/
def called (s : DrivenContext) (context : CstZs1Context) (seen : CallSeen) : DrivenContext :=
  { s with
    context := context
    frames :=
      match s.frames with
      | [] => [[seen]]
      | frame :: earlier => (frame ++ [seen]) :: earlier }

def acquires (segmentSize : UInt64) (answers : Answers) (side : AcquireSide) (s : DrivenContext) :
    DrivenContext :=
  match side.buffer with
  | .error what => s.worksOn segmentSize { answers with acquire := .error (.exception what) }
  | .ok buffer =>
      let call : AcquireCall :=
        ⟨s.worker.toAcquireCount segmentSize, side.timeoutMs, side.now, buffer, side.samples⟩
      let result := s.context.acquire call side.markers
      let s := s.called result.context (s.context.sees call side.markers)
      match result.ending with
      | .waiting => { s with waiting := true }
      | .threw thrown => s.worksOn segmentSize { answers with acquire := .error thrown }
      | .returned data => s.worksOn segmentSize { answers with acquire := .ok data }

def started (s : DrivenContext) : Except Thrown Unit → DrivenContext
  | .error _ => s
  | .ok () => { s with context := s.context.start, frames := [] :: s.frames }

def stopped (s : DrivenContext) : Except Thrown Unit → DrivenContext
  | .error _ => s
  | .ok () => { s with context := s.context.stop }

def step (segmentSize : UInt64) (s : DrivenContext) : DrivenLabel → Option DrivenContext
  | .spawns parameters =>
      if s.worker.statement = .ended then some { s with worker := .spawned parameters } else none
  | .works answers side =>
      match s.worker.statement with
      | .acquiring => if s.waiting then none else some (s.acquires segmentSize answers side)
      | .starting => some ((s.started answers.start).worksOn segmentSize answers)
      | .aborting => some ((s.stopped answers.stop).worksOn segmentSize answers)
      | .ended | .escaped _ => none
      | _ => some (s.worksOn segmentSize answers)

end DrivenContext

/-- Inside the loop of a frame, which the worker enters behind `start`. -/
def Worker.inLoop (w : Worker) : Bool :=
  match w.statement with
  | .testing | .acquiring | .notifying _ | .reporting _ => true
  | _ => false

/-- Another call of `acquire` may follow before the next `start`. -/
def Worker.mayAcquire (w : Worker) : Bool :=
  match w.statement with
  | .testing => !w.hasErrored
  | .acquiring | .notifying _ => true
  | _ => false

section Worker

variable {segmentSize : UInt64} {answers : Answers} {w : Worker}

theorem step_inLoop (inside : (w.step segmentSize answers).1.inLoop = true) :
    w.inLoop = true ∨ w.statement = .starting ∧ answers.start = .ok () := by
  cases statement : w.statement with
  | testing | acquiring | notifying | reporting => exact Or.inl (by simp [Worker.inLoop, statement])
  | starting =>
      cases start : answers.start with
      | error thrown => simp [Worker.step, Worker.inLoop, statement, start] at inside
      | ok => exact Or.inr ⟨rfl, rfl⟩
  | asking =>
      rcases asked : answers.getIsAcquiring with thrown | (_ | _) <;>
        simp [Worker.step, Worker.inLoop, statement, asked] at inside
  | aborting =>
      cases stop : answers.stop <;> simp [Worker.step, Worker.inLoop, statement, stop] at inside
  | _ => simp [Worker.step, Worker.inLoop, statement] at inside

theorem step_mayAcquire (may : (w.step segmentSize answers).1.mayAcquire = true)
    (running : w.statement ≠ .starting) : w.mayAcquire = true := by
  cases statement : w.statement with
  | acquiring | notifying => simp [Worker.mayAcquire, statement]
  | starting => exact absurd statement running
  | testing =>
      cases errored : w.hasErrored with
      | false => simp [Worker.mayAcquire, statement, errored]
      | true =>
          by_cases more : w.scansAcquiredCount < w.parameters.frameLength <;>
            simp [Worker.step, Worker.mayAcquire, statement, errored, more] at may
  | asking =>
      rcases asked : answers.getIsAcquiring with thrown | (_ | _) <;>
        simp [Worker.step, Worker.mayAcquire, statement, asked] at may
  | aborting =>
      cases stop : answers.stop <;> simp [Worker.step, Worker.mayAcquire, statement, stop] at may
  | _ => simp [Worker.step, Worker.mayAcquire, statement] at may

theorem step_threw {thrown : Thrown} (acquiring : w.statement = .acquiring)
    (threw : answers.acquire = .error thrown) :
    (w.step segmentSize answers).1.mayAcquire = false := by
  simp [Worker.step, acquiring, threw, Worker.mayAcquire]

end Worker

/-- A frame damaged exactly when its first trigger is not past every trigger accepted in
`earlier` frames, and without a fetch of samples if so. -/
structure FrameChecked (earlier : List UInt64) (frame : FrameSeen) : Prop where
  damaged : frame.damaged = true ↔
    ∃ first ∈ frame.walked.head?, ∃ top, Highest earlier (some top) ∧ first ≤ top
  unfetched : frame.damaged = true → frame.samplesFetches = []

def FramesChecked (frames : List FrameSeen) : Prop :=
  ∀ later frame earlier, frames = later ++ frame :: earlier → FrameChecked (acceptedIn earlier) frame

theorem framesChecked_cons {frame : FrameSeen} {earlier : List FrameSeen}
    (newest : FrameChecked (acceptedIn earlier) frame) (rest : FramesChecked earlier) :
    FramesChecked (frame :: earlier) := by
  intro later other before split
  cases later with
  | nil =>
      cases split
      exact newest
  | cons first later =>
      cases split
      exact rest later other before rfl

theorem framesChecked_tail {frame : FrameSeen} {earlier : List FrameSeen}
    (checked : FramesChecked (frame :: earlier)) : FramesChecked earlier := by
  intro later other before split
  exact checked (frame :: later) other before (by rw [split, List.cons_append])

/-- What the context knows of the newest frame. -/
structure Newest (c : CstZs1Context) (frame : FrameSeen) (earlier : List FrameSeen) : Prop where
  frozen : Highest (acceptedIn earlier) c.frameLastTrigger.latest
  noted : c.frameFirstTriggerChecked = true ↔ frame.walked ≠ []
  unfetched : frame.walked = [] → frame.samplesFetches = []

structure ContextChecked (c : CstZs1Context) (frames : List FrameSeen) : Prop where
  highest : Highest (acceptedIn frames) c.lastTrigger.latest
  sound : FramesChecked frames
  newest : ∀ frame earlier, frames = frame :: earlier → Newest c frame earlier

section Called

variable {c after : CstZs1Context} {frame : FrameSeen} {earlier : List FrameSeen} {seen : CallSeen}

theorem walked_concat (frame : FrameSeen) (seen : CallSeen) :
    FrameSeen.walked (frame ++ [seen]) = FrameSeen.walked frame ++ seen.walked := by
  simp [FrameSeen.walked]

theorem samplesFetches_concat (frame : FrameSeen) (seen : CallSeen) :
    FrameSeen.samplesFetches (frame ++ [seen]) =
      FrameSeen.samplesFetches frame ++ seen.samplesFetches := by
  simp [FrameSeen.samplesFetches]

theorem damaged_concat {frame : FrameSeen} (undamaged : frame.damaged = false) (seen : CallSeen) :
    FrameSeen.damaged (frame ++ [seen]) = seen.damaged := by
  rw [FrameSeen.damaged] at undamaged ⊢
  simp [undamaged]

/-- What `Replays` compares with is the maximum of the earlier frames. -/
theorem replays_earlier (newest : Newest c frame earlier) (timestamp : UInt64) :
    c.Replays timestamp ↔ frame.walked = [] ∧
      ∃ top, Highest (acceptedIn earlier) (some top) ∧ timestamp ≤ top := by
  rw [CstZs1Context.Replays, ← Bool.not_eq_true, newest.noted, Classical.not_not]
  refine and_congr_right fun _ => ⟨?_, ?_⟩
  · rintro ⟨last, known, late⟩
    have frozen := newest.frozen
    rw [known] at frozen
    exact ⟨last, frozen, late⟩
  · rintro ⟨top, highest, late⟩
    exact ⟨top, highest_unique newest.frozen highest, late⟩

/-- One more call of the newest frame. -/
theorem frameChecked_called (newest : Newest c frame earlier) (undamaged : frame.damaged = false)
    (checked : FrameChecked (acceptedIn earlier) frame) {before : List UInt64}
    (sees : Sees c before seen after) : FrameChecked (acceptedIn earlier) (frame ++ [seen]) := by
  constructor
  · rw [damaged_concat undamaged, sees.damaged, walked_concat]
    cases walked : FrameSeen.walked frame with
    | nil =>
        rw [List.nil_append]
        refine exists_congr fun first => and_congr_right fun _ => ?_
        rw [replays_earlier newest first]
        exact and_iff_right walked
    | cons first rest =>
        -- Behind the first trigger of a frame the context holds no frame for a replay.
        have unreplayed : ∀ timestamp, ¬ c.Replays timestamp := by
          intro timestamp replays
          rw [replays_earlier newest timestamp, walked] at replays
          cases replays.1
        have sound := checked.damaged
        rw [undamaged, walked] at sound
        constructor
        · rintro ⟨timestamp, _, replays⟩
          exact absurd replays (unreplayed timestamp)
        · intro replayed
          exact absurd (sound.mpr replayed) Bool.false_ne_true
  · rw [damaged_concat undamaged, samplesFetches_concat]
    intro damaged
    obtain ⟨first, _, replays⟩ := sees.damaged.mp damaged
    have none := ((replays_earlier newest first).mp replays).1
    rw [newest.unfetched none, sees.unfetched (Or.inr damaged), List.append_nil]

theorem contextChecked_called (checked : ContextChecked c (frame :: earlier))
    (undamaged : frame.damaged = false)
    (sees : Sees c (acceptedIn (frame :: earlier)) seen after) :
    ContextChecked after ((frame ++ [seen]) :: earlier) := by
  have newest := checked.newest frame earlier rfl
  constructor
  · refine highest_perm (fun timestamp => ?_) sees.highest
    simp only [acceptedIn, FrameSeen.accepted, List.flatMap_cons, List.flatMap_append,
      List.flatMap_nil, List.append_nil, List.mem_append]
    tauto
  · exact framesChecked_cons
      (frameChecked_called newest undamaged (checked.sound [] frame earlier rfl) sees)
      (framesChecked_tail checked.sound)
  · rintro _ _ ⟨rfl, rfl⟩
    constructor
    · rw [sees.frame]
      exact newest.frozen
    · rw [sees.checked, newest.noted, walked_concat]
      simp [or_iff_not_imp_left]
    · rw [walked_concat, samplesFetches_concat, List.append_eq_nil_iff]
      rintro ⟨none, still⟩
      rw [newest.unfetched none, sees.unfetched (Or.inl still), List.append_nil]

end Called

theorem contextChecked_start {c : CstZs1Context} {frames : List FrameSeen}
    (checked : ContextChecked c frames) : ContextChecked c.start ([] :: frames) := by
  refine ⟨checked.highest, ?_, ?_⟩
  · refine framesChecked_cons ?_ checked.sound
    constructor <;> simp [FrameSeen.damaged, FrameSeen.walked]
  · rintro _ _ ⟨rfl, rfl⟩
    exact ⟨checked.highest, by simp [CstZs1Context.start, FrameSeen.walked],
      fun _ => by simp [FrameSeen.samplesFetches]⟩

/-- Only the triggers the context keeps matter to `ContextChecked`. -/
theorem contextChecked_stop {c : CstZs1Context} {frames : List FrameSeen}
    (checked : ContextChecked c frames) : ContextChecked c.stop frames :=
  ⟨checked.highest, checked.sound, fun frame earlier split =>
    have newest := checked.newest frame earlier split
    ⟨newest.frozen, newest.noted, newest.unfetched⟩⟩

/-- Inside its loop a worker has started a frame, and after a damaged call it makes no other. -/
structure DrivenContext.Checked (s : DrivenContext) : Prop where
  context : ContextChecked s.context s.frames
  opened : s.worker.inLoop = true → s.frames ≠ []
  stops : ∀ frame earlier, s.frames = frame :: earlier → frame.damaged = true →
    s.worker.mayAcquire = false

section Driven

variable {segmentSize : UInt64} {answers : Answers} {s : DrivenContext}

/-- A statement of the worker that neither starts a frame nor calls `acquire`. -/
theorem checked_worksOn (checked : s.Checked) (running : s.worker.statement ≠ .starting) :
    (s.worksOn segmentSize answers).Checked where
  context := checked.context
  opened := fun inside => by
    rcases step_inLoop inside with before | ⟨starting, _⟩
    · exact checked.opened before
    · exact absurd starting running
  stops := fun frame earlier split damaged => by
    by_contra may
    rw [Bool.not_eq_false] at may
    have before := step_mayAcquire may running
    rw [checked.stops frame earlier split damaged] at before
    cases before

theorem checked_starting (checked : s.Checked) (starting : s.worker.statement = .starting) :
    ((s.started answers.start).worksOn segmentSize answers).Checked := by
  cases start : answers.start with
  | error thrown =>
      have escaped : (s.worker.step segmentSize answers).1.inLoop = false ∧
          (s.worker.step segmentSize answers).1.mayAcquire = false := by
        simp [Worker.step, Worker.inLoop, Worker.mayAcquire, starting, start]
      refine ⟨checked.context, fun inside => ?_, fun _ _ _ _ => escaped.2⟩
      exact absurd (escaped.1.symm.trans inside) Bool.false_ne_true
  | ok =>
      refine ⟨contextChecked_start checked.context, fun _ => List.cons_ne_nil _ _, ?_⟩
      rintro _ _ ⟨rfl, rfl⟩ damaged
      cases damaged

/-- The call, and the worker as it goes on: after a damaged one it may not acquire. -/
theorem checked_called (checked : s.Checked) (acquiring : s.worker.statement = .acquiring)
    (call : AcquireCall) (markers : List FetchReply) (next : Worker) (waiting : Bool)
    (quiet : (s.context.acquire call markers).damaged = true → next.mayAcquire = false) :
    DrivenContext.Checked
      { s.called (s.context.acquire call markers).context (s.context.sees call markers) with
        worker := next
        waiting := waiting } := by
  have may : s.worker.mayAcquire = true := by simp [Worker.mayAcquire, acquiring]
  obtain ⟨frame, earlier, split⟩ :=
    List.exists_cons_of_ne_nil (checked.opened (by simp [Worker.inLoop, acquiring]))
  have undamaged : frame.damaged = false := by
    by_contra damaged
    rw [Bool.not_eq_false] at damaged
    rw [checked.stops frame earlier split damaged] at may
    cases may
  have context := checked.context
  rw [split] at context
  have called := contextChecked_called context undamaged
    (acquire_sees call markers context.highest)
  constructor
  · simpa only [DrivenContext.called, split] using called
  · intro _
    simp [DrivenContext.called, split]
  · intro other before newest damaged
    simp only [DrivenContext.called, split, List.cons.injEq] at newest
    rw [← newest.1, damaged_concat undamaged] at damaged
    exact quiet damaged

theorem checked_acquires (checked : s.Checked) (acquiring : s.worker.statement = .acquiring)
    (side : AcquireSide) : (s.acquires segmentSize answers side).Checked := by
  unfold DrivenContext.acquires
  cases side.buffer with
  | error what => exact checked_worksOn checked (by simp [acquiring])
  | ok buffer =>
      simp only
      split
      · rename_i ending
        refine checked_called checked acquiring _ side.markers s.worker true fun damaged => ?_
        simp [AcquireResult.damaged, ending] at damaged
      · refine checked_called checked acquiring _ side.markers _ s.waiting fun _ => ?_
        exact step_threw acquiring rfl
      · rename_i data ending
        refine checked_called checked acquiring _ side.markers _ s.waiting fun damaged => ?_
        simp [AcquireResult.damaged, ending] at damaged

theorem checked_step {label : DrivenLabel} {next : DrivenContext} (checked : s.Checked)
    (stepped : s.step segmentSize label = some next) : next.Checked := by
  cases label with
  | spawns parameters =>
      obtain ⟨_, spawned⟩ := Option.ite_none_right_eq_some.mp stepped
      cases spawned
      exact ⟨checked.context, fun inside => absurd inside Bool.false_ne_true, fun _ _ _ _ => rfl⟩
  | works answers side =>
      simp only [DrivenContext.step] at stepped
      cases statement : s.worker.statement with
      | acquiring =>
          simp only [statement, Option.ite_none_left_eq_some, Option.some.injEq] at stepped
          rw [← stepped.2]
          exact checked_acquires checked statement side
      | starting =>
          simp only [statement, Option.some.injEq] at stepped
          rw [← stepped]
          exact checked_starting checked statement
      | aborting =>
          simp only [statement, Option.some.injEq] at stepped
          rw [← stepped]
          refine checked_worksOn ?_ ?_
          · cases answers.stop with
            | error thrown => exact checked
            | ok => exact ⟨contextChecked_stop checked.context, checked.opened, checked.stops⟩
          · cases answers.stop <;> simp [DrivenContext.stopped, statement]
      | ended => simp [statement] at stepped
      | escaped thrown => simp [statement] at stepped
      | _ =>
          simp only [statement, Option.some.injEq] at stepped
          rw [← stepped]
          exact checked_worksOn checked (by simp [statement])

theorem checked_create (channel : String) (maxTriggersPerRead : UInt64)
    (parameters : UimfFrameParameters) :
    (DrivenContext.create channel maxTriggersPerRead parameters).Checked where
  context := by
    refine ⟨rfl, ?_, ?_⟩
    · intro later frame earlier split
      simp [DrivenContext.create] at split
    · intro frame earlier split
      cases split
  opened := fun inside => absurd inside Bool.false_ne_true
  stops := fun _ _ _ _ => rfl

end Driven

/-- Over any frames: the context's last trigger is the maximum of all accepted, and a
frame is damaged exactly when its first trigger is not past every earlier frame's, before
any of its samples is fetched. -/
theorem replayed_frames_checked (segmentSize : UInt64) (channel : String)
    (maxTriggersPerRead : UInt64) (parameters : UimfFrameParameters) (labels : List DrivenLabel)
    (final : DrivenContext)
    (ran : run (DrivenContext.step segmentSize)
      (.create channel maxTriggersPerRead parameters) labels = some final) :
    Highest (acceptedIn final.frames) final.context.lastTrigger.latest ∧
      FramesChecked final.frames := by
  have checked : final.Checked :=
    run_invariant (fun _ _ _ kept stepped => checked_step kept stepped)
      (checked_create channel maxTriggersPerRead parameters) ran
  exact ⟨checked.context.highest, checked.context.sound⟩

def quietAnswers : Answers :=
  ⟨false, .ok false, .ok (), .error (.exception ""), .ok ()⟩

/-- A frame of one scan, from the spawn of its worker to its `finished`. -/
def oneScanSteps (markers : List Hunk) : List DrivenLabel :=
  List.replicate 10 (.works quietAnswers
    ⟨.ok (.ofSize 64), 0, 0, [answered 0 0 markers], [⟨none, 16, 0, List.replicate 16 7, 0⟩]⟩)

def oneScanFrame : UimfFrameParameters := ⟨0, 0, 0, 1, 1, 0, ""⟩

/-- A frame, and a second one that reads the first trigger again. -/
theorem replayed_frames_checked_twice :
    ∃ final, run (DrivenContext.step 1) (.create "Channel1" 1 oneScanFrame)
        (oneScanSteps [triggerHunk 5, gateHunk 2 4, triggerHunk 6] ++
          .spawns oneScanFrame :: oneScanSteps [triggerHunk 5]) = some final ∧
      (Highest (acceptedIn final.frames) final.context.lastTrigger.latest ∧
        FramesChecked final.frames) ∧
      final.frames.map FrameSeen.damaged = [true, false] := by
  have seen : (run (DrivenContext.step 1) (.create "Channel1" 1 oneScanFrame)
      (oneScanSteps [triggerHunk 5, gateHunk 2 4, triggerHunk 6] ++
        .spawns oneScanFrame :: oneScanSteps [triggerHunk 5])).map
      (fun final => final.frames.map FrameSeen.damaged) = some [true, false] := by
    decide +kernel
  obtain ⟨final, ran, damaged⟩ := Option.map_eq_some_iff.mp seen
  exact ⟨final, ran, replayed_frames_checked 1 "Channel1" 1 oneScanFrame _ final ran, damaged⟩

end AqMD3.Acquisition
