import AqMD3.ZmqAcquiredDataSubscriber

/-!
The worker thread that `AcquirePublisher::start` spawns for a frame, one statement
at a time. What a call into the streaming context answers, and what the worker
reads from the stop flag, is given to each step from outside, so that the steps
can be put in any order with those of other threads.
-/

namespace AqMD3.Acquisition

inductive State where
  | acquiring
  | stopped
  | errored
  | unknown
  deriving DecidableEq

/-- The status each catch clause of the acquire loop publishes. -/
def errorStatus (frameNumber : UInt32) : Thrown → String
  | .frameDamaged what =>
      "error" ++ (" data: " ++ oneLine what ++ " in frame " ++ toString frameNumber.toNat)
  | .exception what => "error" ++ (" " ++ oneLine what)
  | .unknown what => "error" ++ (" unknown error when acquiring UIMF data: " ++ oneLine what)

def finished : String := "finished"

/-- The statement the worker executes next. -/
inductive Statement where
  | entering
  | asking
  | starting
  | testing
  | acquiring
  | notifying (data : AcquiredData)
  | reporting (text : String)
  | stopping
  | aborting
  | finishing
  | ended
  -- An exception left the thread function, which terminates the process.
  | escaped (thrown : Thrown)
  deriving DecidableEq

structure Worker where
  parameters : UimfFrameParameters
  statement : Statement
  scansAcquiredCount : UInt64
  hasErrored : Bool
  deriving DecidableEq

def Worker.spawned (parameters : UimfFrameParameters) : Worker := ⟨parameters, .entering, 0, false⟩

/-- What the worker does that another thread or a client can see, and how its calls
end. -/
inductive Event where
  | stored (state : State)
  | asked (answer : Except Thrown Bool)
  | started (answer : Except Thrown Unit)
  | sawStop
  | acquired (toAcquireCount : UInt64) (answer : Except Thrown AcquiredData)
  | notified (record : UimfAcquisitionRecord)
  | published (text : String)
  | aborted (answer : Except Thrown Unit)

structure Answers where
  shouldStop : Bool
  getIsAcquiring : Except Thrown Bool
  start : Except Thrown Unit
  acquire : Except Thrown AcquiredData
  stop : Except Thrown Unit

def Worker.goto (w : Worker) (statement : Statement) : Worker := { w with statement := statement }

@[simp] theorem goto_parameters (w : Worker) (statement : Statement) :
    (w.goto statement).parameters = w.parameters := rfl

@[simp] theorem goto_statement (w : Worker) (statement : Statement) :
    (w.goto statement).statement = statement := rfl

@[simp] theorem goto_scansAcquiredCount (w : Worker) (statement : Statement) :
    (w.goto statement).scansAcquiredCount = w.scansAcquiredCount := rfl

@[simp] theorem goto_hasErrored (w : Worker) (statement : Statement) :
    (w.goto statement).hasErrored = w.hasErrored := rfl

/-- `scans_total_count` is the frame length throughout. -/
def Worker.toAcquireCount (segmentSize : UInt64) (w : Worker) : UInt64 :=
  if w.parameters.frameLength - w.scansAcquiredCount < segmentSize then
    w.parameters.frameLength - w.scansAcquiredCount
  else segmentSize

@[simp] theorem goto_toAcquireCount (segmentSize : UInt64) (w : Worker) (statement : Statement) :
    (w.goto statement).toAcquireCount segmentSize = w.toAcquireCount segmentSize := rfl

def Worker.step (segmentSize : UInt64) (answers : Answers) (w : Worker) : Worker × Option Event :=
  match w.statement with
  | .entering => (w.goto .asking, some (.stored .acquiring))
  | .asking =>
      match answers.getIsAcquiring with
      | .error thrown => (w.goto (.escaped thrown), some (.asked (.error thrown)))
      | .ok true => (w.goto .stopping, some (.asked (.ok true)))
      | .ok false => (w.goto .starting, some (.asked (.ok false)))
  | .starting =>
      match answers.start with
      | .error thrown => (w.goto (.escaped thrown), some (.started (.error thrown)))
      | .ok () => (w.goto .testing, some (.started (.ok ())))
  | .testing =>
      if w.scansAcquiredCount < w.parameters.frameLength then
        if w.hasErrored then (w.goto .stopping, none)
        else if answers.shouldStop then (w.goto .stopping, some .sawStop)
        else (w.goto .acquiring, none)
      else (w.goto .stopping, none)
  | .acquiring =>
      match answers.acquire with
      | .error thrown =>
          (w.goto (.reporting (errorStatus w.parameters.frameNumber thrown)),
            some (.acquired (w.toAcquireCount segmentSize) (.error thrown)))
      | .ok data =>
          (w.goto (.notifying data), some (.acquired (w.toAcquireCount segmentSize) (.ok data)))
  | .notifying data =>
      ({ w with
          statement := .testing
          scansAcquiredCount := w.scansAcquiredCount + UInt64.ofNat data.stamps.length },
        some (.notified ⟨w.parameters, data, w.scansAcquiredCount⟩))
  | .reporting text =>
      ({ w with statement := .testing, hasErrored := true }, some (.published text))
  | .stopping => (w.goto .aborting, some (.stored .stopped))
  | .aborting =>
      match answers.stop with
      | .error thrown => (w.goto (.escaped thrown), some (.aborted (.error thrown)))
      | .ok () => (w.goto .finishing, some (.aborted (.ok ())))
  | .finishing => (w.goto .ended, some (.published finished))
  | .ended => (w, none)
  | .escaped _ => (w, none)

/-- A thread function that has returned or thrown takes no more steps. -/
def Worker.Over (w : Worker) : Prop := w.statement = .ended ∨ ∃ thrown, w.statement = .escaped thrown

theorem step_over {w : Worker} (done : w.Over) (segmentSize : UInt64) (answers : Answers) :
    w.step segmentSize answers = (w, none) := by
  rcases done with ended | ⟨thrown, escaped⟩
  · simp [Worker.step, ended]
  · simp [Worker.step, escaped]

theorem step_parameters (segmentSize : UInt64) (answers : Answers) (w : Worker) :
    (w.step segmentSize answers).1.parameters = w.parameters := by
  unfold Worker.step
  split <;> (try split) <;> (try split) <;> (try split) <;> rfl

/-- A record is notified from the statement that holds its data. -/
theorem step_notified {segmentSize : UInt64} {answers : Answers} {w : Worker}
    {record : UimfAcquisitionRecord}
    (notified : (w.step segmentSize answers).2 = some (.notified record)) :
    ∃ data, w.statement = .notifying data ∧
      record = ⟨w.parameters, data, w.scansAcquiredCount⟩ := by
  cases statement : w.statement with
  | notifying data =>
      simp only [Worker.step, statement, Option.some.injEq, Event.notified.injEq] at notified
      exact ⟨data, rfl, notified.symm⟩
  | _ =>
      simp only [Worker.step, statement] at notified
      (repeat' split at notified) <;> cases notified

theorem errorStatus_error (frameNumber : UInt32) (thrown : Thrown) :
    ∃ rest, errorStatus frameNumber thrown = "error" ++ rest := by
  cases thrown with
  | frameDamaged what => exact ⟨_, rfl⟩
  | exception what => exact ⟨_, rfl⟩
  | unknown what => exact ⟨_, rfl⟩

theorem filterMap_cons_toList {Value Seen : Type} (see : Value → Option Seen) (value : Value)
    (rest : List Value) :
    (value :: rest).filterMap see = (see value).toList ++ rest.filterMap see := by
  cases seen : see value with
  | none => rw [List.filterMap_cons_none seen, Option.toList_none, List.nil_append]
  | some _ => rw [List.filterMap_cons_some seen, Option.toList_some, List.singleton_append]

/-- How the streaming context behaves in one frame: how each call ends, the calls of
`acquire` in their order, and what each test of the loop reads from the stop flag. -/
structure Behaviour where
  getIsAcquiring : Except Thrown Bool
  start : Except Thrown Unit
  acquire : Nat → Except Thrown AcquiredData
  stop : Except Thrown Unit
  shouldStop : Nat → Bool

/-- A worker on its own, with how many calls of `acquire` it has made. -/
structure Frame where
  worker : Worker
  acquires : Nat
  events : List Event

def Behaviour.answers (b : Behaviour) (acquires : Nat) : Answers :=
  ⟨b.shouldStop acquires, b.getIsAcquiring, b.start, b.acquire acquires, b.stop⟩

def Frame.step (b : Behaviour) (segmentSize : UInt64) (f : Frame) : Frame :=
  { worker := (f.worker.step segmentSize (b.answers f.acquires)).1
    acquires := if f.worker.statement = .acquiring then f.acquires + 1 else f.acquires
    events := f.events ++ (f.worker.step segmentSize (b.answers f.acquires)).2.toList }

def Frame.spawned (parameters : UimfFrameParameters) : Frame := ⟨.spawned parameters, 0, []⟩

def Frame.after (b : Behaviour) (segmentSize : UInt64) (parameters : UimfFrameParameters) :
    Nat → Frame
  | 0 => .spawned parameters
  | steps + 1 => (Frame.after b segmentSize parameters steps).step b segmentSize

theorem frame_step_over {f : Frame} (done : f.worker.Over) (b : Behaviour) (segmentSize : UInt64) :
    f.step b segmentSize = f := by
  have still : f.worker.statement ≠ .acquiring := by
    rintro acquiring
    simp [Worker.Over, acquiring] at done
  simp [Frame.step, step_over done, still]

variable {b : Behaviour} {segmentSize : UInt64} {parameters : UimfFrameParameters}

theorem after_over {steps : Nat} (done : (Frame.after b segmentSize parameters steps).worker.Over)
    (more : Nat) :
    Frame.after b segmentSize parameters (steps + more) = Frame.after b segmentSize parameters steps := by
  induction more with
  | zero => rfl
  | succ more ih => rw [← Nat.add_assoc, Frame.after, ih, frame_step_over done]

/-- A worker ends in one way only. -/
theorem ended_not_escaped (steps : Nat)
    (ended : (Frame.after b segmentSize parameters steps).worker.statement = .ended)
    (other : Nat) (thrown : Thrown) :
    (Frame.after b segmentSize parameters other).worker.statement ≠ .escaped thrown := by
  intro escaped
  rcases Nat.le_total steps other with before | before
  · obtain ⟨more, rfl⟩ := Nat.exists_eq_add_of_le before
    rw [after_over (Or.inl ended), ended] at escaped
    cases escaped
  · obtain ⟨more, rfl⟩ := Nat.exists_eq_add_of_le before
    rw [after_over (Or.inr ⟨thrown, escaped⟩), escaped] at ended
    cases ended

theorem events_grow (steps more : Nat) :
    (Frame.after b segmentSize parameters steps).events <+:
      (Frame.after b segmentSize parameters (steps + more)).events := by
  induction more with
  | zero => exact List.prefix_refl _
  | succ more ih => exact ih.trans (List.prefix_append _ _)

end AqMD3.Acquisition
