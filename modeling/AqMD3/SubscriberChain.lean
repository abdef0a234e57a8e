import AqMD3.QueueStage
import AqMD3.Transitions
import AqMD3.UimfAcquisitionRecord

/-!
The chain the `acquire` command builds: the `AcquirePublisher` feeds the
`ProcessSubject`, which turns records into frames for the ZMQ subscriber and the
file writer. Each subscriber has a worker and a queue of its own. An `update` locks
one queue, so the updates of one `on_notify` are steps of their own.
-/

namespace AqMD3.Acquisition

open QueueStage Transitions

inductive SubscriberType where
  | acquire
  | acquireFrame
  | both
  deriving DecidableEq

def SubscriberType.bits : SubscriberType → UInt8
  | .acquire => 1
  | .acquireFrame => 2
  | .both => 3

def SubscriberType.selects (type mask : SubscriberType) : Bool := type.bits &&& mask.bits != 0

inductive Sink where
  | zmq
  | writer
  deriving DecidableEq

/-- The subscribers of the `ProcessSubject`, as `acquire` registers them. -/
def frameSubscribers : List (SubscriberType × Sink) := [(.acquire, .zmq), (.acquireFrame, .writer)]

/-- The `ProcessSubject` is the one subscriber of the `AcquirePublisher`. -/
def recordSubscriber : SubscriberType := .both

def targets (type : SubscriberType) : List Sink :=
  (frameSubscribers.filter fun subscriber => type.selects subscriber.1).map Prod.snd

def notifyType (frame : UimfFrame) : SubscriberType :=
  if frame.parameters.fileName.isEmpty then .acquire else .both

/-- What `ProcessSubject::on_notify` pushes for a record: a throw is logged and pushes
nothing. -/
def updates (record : UimfAcquisitionRecord) : List (Sink × UimfFrame) :=
  match record.toFrame with
  | .ok frame => (targets (notifyType frame)).map fun sink => (sink, frame)
  | .error _ => []

/-- Where `ProcessSubject::on_completed` stands: it signals its own subscribers, then
waits for each. -/
inductive Closing where
  | signals
  | awaits (remaining : List Sink)
  deriving DecidableEq

structure Chain where
  completed : Bool
  processing : QueueWorker UimfAcquisitionRecord
  pending : List (Sink × UimfFrame)
  closing : Closing
  framesCompleted : Bool
  zmq : QueueWorker UimfFrame
  writer : QueueWorker UimfFrame
  deriving DecidableEq

def Chain.begin : Chain := ⟨false, .begin, [], .signals, false, .begin, .begin⟩

def Chain.sink (c : Chain) : Sink → QueueWorker UimfFrame
  | .zmq => c.zmq
  | .writer => c.writer

def Chain.update (c : Chain) (frame : UimfFrame) : Sink → Chain
  | .zmq => { c with zmq := c.zmq.update frame }
  | .writer => { c with writer := c.writer.update frame }

@[simp] theorem update_processing (c : Chain) (frame : UimfFrame) (sink : Sink) :
    (c.update frame sink).processing = c.processing := by
  cases sink <;> rfl

@[simp] theorem update_completed (c : Chain) (frame : UimfFrame) (sink : Sink) :
    (c.update frame sink).completed = c.completed := by
  cases sink <;> rfl

@[simp] theorem update_closing (c : Chain) (frame : UimfFrame) (sink : Sink) :
    (c.update frame sink).closing = c.closing := by
  cases sink <;> rfl

@[simp] theorem update_framesCompleted (c : Chain) (frame : UimfFrame) (sink : Sink) :
    (c.update frame sink).framesCompleted = c.framesCompleted := by
  cases sink <;> rfl

theorem update_sink (c : Chain) (frame : UimfFrame) (sink other : Sink) :
    (c.update frame sink).sink other =
      if other = sink then (c.sink other).update frame else c.sink other := by
  cases sink <;> cases other <;> rfl

def Chain.notify (c : Chain) (type : SubscriberType) (record : UimfAcquisitionRecord) : Chain :=
  if type.selects recordSubscriber then { c with processing := c.processing.update record } else c

inductive Turn where
  | processing
  | zmq
  | writer
  deriving DecidableEq

/-- A step of the `ProcessSubject`'s worker. A `to_frame` that does not return keeps
it where it is. -/
def Chain.turnProcessing (c : Chain) : Option Chain :=
  match c.pending with
  | (sink, frame) :: rest => some { c.update frame sink with pending := rest }
  | [] =>
      match c.processing.phase with
      | .completed => none
      | .completing =>
          match c.closing with
          | .signals =>
              some { c with
                framesCompleted := true
                closing := .awaits (frameSubscribers.map Prod.snd) }
          | .awaits (sink :: rest) =>
              if (c.sink sink).phase = .completed then some { c with closing := .awaits rest }
              else none
          | .awaits [] => some { c with processing := c.processing.step c.completed }
      | .drains =>
          match c.processing.items with
          | [] => some { c with processing := c.processing.step c.completed }
          | record :: _ =>
              if record.toFrame = .error .endless then none
              else
                some { c with
                  processing := c.processing.step c.completed
                  pending := updates record }
      | _ => some { c with processing := c.processing.step c.completed }

def Chain.turn (c : Chain) : Turn → Option Chain
  | .processing => c.turnProcessing
  | .zmq =>
      if c.zmq.phase = .completed then none
      else some { c with zmq := c.zmq.step c.framesCompleted }
  | .writer =>
      if c.writer.phase = .completed then none
      else some { c with writer := c.writer.step c.framesCompleted }

def forSink (sink : Sink) (updates : List (Sink × UimfFrame)) : List UimfFrame :=
  updates.filterMap fun update => if update.1 = sink then some update.2 else none

theorem forSink_append (sink : Sink) (front back : List (Sink × UimfFrame)) :
    forSink sink (front ++ back) = forSink sink front ++ forSink sink back :=
  List.filterMap_append

/-- What holds of the chain after any steps, `notified` being the records handed to
it: nothing is lost or moved on the way, and a worker that has left its loop leaves
nothing behind it. -/
structure Chain.Sound (notified : List UimfAcquisitionRecord) (c : Chain) : Prop where
  received : c.processing.received = notified
  routed : ∀ sink, (c.sink sink).received ++ forSink sink c.pending =
    forSink sink (c.processing.seen.flatMap updates)
  settled : Settled c.completed c.processing
  sinks : ∀ sink, Settled c.framesCompleted (c.sink sink)
  handling : c.pending ≠ [] → c.processing.phase = .drains
  signalled : c.framesCompleted = true →
    c.processing.phase = .completing ∨ c.processing.phase = .completed
  awaited : ∀ rest, c.closing = .awaits rest →
    c.framesCompleted = true ∧ ∀ sink, sink ∉ rest → (c.sink sink).phase = .completed
  closed : c.processing.phase = .completed → c.closing = .awaits []

theorem sound_begin : Chain.Sound [] .begin where
  received := rfl
  routed := fun sink => by cases sink <;> rfl
  settled := settled_begin false
  sinks := fun sink => by cases sink <;> exact settled_begin false
  handling := fun pending => absurd rfl pending
  signalled := by simp [Chain.begin]
  awaited := by simp [Chain.begin]
  closed := by simp [Chain.begin, QueueWorker.begin]

variable {c : Chain} {notified : List UimfAcquisitionRecord}

/-- A record goes on the queue as long as completion has not been signalled. -/
theorem sound_notify (sound : c.Sound notified) (record : UimfAcquisitionRecord)
    (running : c.completed = false) :
    (c.notify .both record).Sound (notified ++ [record]) := by
  have settled := sound.settled
  rw [running] at settled
  have updated := settled_update settled record
  rw [← running] at updated
  exact {
    received := by
      rw [← sound.received]
      exact received_update _ _
    routed := sound.routed
    settled := updated
    sinks := sound.sinks
    handling := sound.handling
    signalled := sound.signalled
    awaited := sound.awaited
    closed := sound.closed }

theorem sound_complete (sound : c.Sound notified) :
    Chain.Sound notified { c with completed := true } where
  received := sound.received
  routed := sound.routed
  settled := settled_stopped sound.settled
  sinks := sound.sinks
  handling := sound.handling
  signalled := sound.signalled
  awaited := sound.awaited
  closed := sound.closed

/-- While it handles a record, the `ProcessSubject` has not signalled its own
subscribers. -/
theorem handling_unsignalled (sound : c.Sound notified)
    (inside : c.processing.phase ≠ .completing ∧ c.processing.phase ≠ .completed) :
    c.framesCompleted = false := by
  rw [← Bool.not_eq_true]
  intro signalled
  rcases sound.signalled signalled with completing | completed
  · exact inside.1 completing
  · exact inside.2 completed

theorem unsignalled_closing (sound : c.Sound notified) (unsignalled : c.framesCompleted = false)
    (rest : List Sink) : c.closing ≠ .awaits rest := by
  intro closing
  rw [(sound.awaited rest closing).1] at unsignalled
  cases unsignalled

theorem sound_updates (sound : c.Sound notified) {sink : Sink} {frame : UimfFrame}
    {rest : List (Sink × UimfFrame)} (pending : c.pending = (sink, frame) :: rest) :
    Chain.Sound notified { c.update frame sink with pending := rest } := by
  have drains := sound.handling (by simp [pending])
  have unsignalled := handling_unsignalled sound (by simp [drains])
  have routed := sound.routed
  rw [pending] at routed
  constructor
  case received =>
    rw [update_processing]
    exact sound.received
  case routed =>
    intro other
    change ((c.update frame sink).sink other).received ++ forSink other rest =
      forSink other ((c.update frame sink).processing.seen.flatMap updates)
    rw [update_processing, update_sink, ← routed other]
    -- The frame leaves the pending ones and reaches its sink; the other sink sees neither.
    by_cases same : other = sink
    · simp [same, received_update, forSink]
    · simp [same, Ne.symm same, forSink]
  case settled =>
    rw [update_completed, update_processing]
    exact sound.settled
  case sinks =>
    intro other
    change Settled (c.update frame sink).framesCompleted ((c.update frame sink).sink other)
    have settled := sound.sinks other
    rw [unsignalled] at settled
    rw [update_framesCompleted, update_sink, unsignalled]
    split
    · exact settled_update settled frame
    · exact settled
  case handling =>
    rw [update_processing]
    exact fun _ => drains
  case signalled => simp [unsignalled]
  case awaited =>
    rw [update_closing]
    exact fun others awaits => absurd awaits (unsignalled_closing sound unsignalled others)
  case closed => simp [drains]

/-- A step of the worker's loop that handles no record. -/
theorem sound_loop (sound : c.Sound notified) (pending : c.pending = [])
    (inside : c.processing.phase ≠ .completing ∧ c.processing.phase ≠ .completed)
    (handled : (c.processing.step c.completed).seen = c.processing.seen) :
    Chain.Sound notified { c with processing := c.processing.step c.completed } := by
  have unsignalled := handling_unsignalled sound inside
  exact {
    received := (received_step _ _).trans sound.received
    routed := by
      rw [handled]
      exact sound.routed
    settled := settled_step sound.settled
    sinks := sound.sinks
    handling := fun more => absurd pending more
    signalled := fun signalled => by simp [unsignalled] at signalled
    awaited := fun others closing =>
      absurd closing (unsignalled_closing sound unsignalled others)
    closed := fun completed => by
      rcases inside with ⟨looping, running⟩
      cases phase : c.processing.phase with
      | drains =>
          rw [QueueWorker.step, phase] at completed
          cases items : c.processing.items <;> simp [items] at completed
      | completing => exact absurd phase looping
      | completed => exact absurd phase running
      | readsStop =>
          simp only [QueueWorker.step, phase] at completed
          split at completed <;> cases completed
      | readsItems =>
          simp only [QueueWorker.step, phase] at completed
          split at completed <;> cases completed
      | readsQueue =>
          simp only [QueueWorker.step, phase] at completed
          split at completed <;> cases completed
      | moves => simp [QueueWorker.step, phase] at completed }

theorem sound_handles (sound : c.Sound notified) (pending : c.pending = [])
    (drains : c.processing.phase = .drains) {record : UimfAcquisitionRecord}
    {rest : List UimfAcquisitionRecord} (items : c.processing.items = record :: rest) :
    Chain.Sound notified
      { c with processing := c.processing.step c.completed, pending := updates record } := by
  have unsignalled := handling_unsignalled sound (by simp [drains])
  have popped : c.processing.step c.completed =
      { c.processing with items := rest, seen := c.processing.seen ++ [record] } := by
    simp only [QueueWorker.step, drains, items]
  have routed := sound.routed
  rw [pending] at routed
  exact {
    received := (received_step _ _).trans sound.received
    routed := by
      intro sink
      rw [popped, List.flatMap_append, forSink_append, ← routed sink]
      simp [Chain.sink, forSink]
    settled := settled_step sound.settled
    sinks := sound.sinks
    handling := fun _ => by rw [popped]; exact drains
    signalled := fun signalled => by simp [unsignalled] at signalled
    awaited := fun others closing =>
      absurd closing (unsignalled_closing sound unsignalled others)
    closed := fun completed => by
      rw [popped] at completed
      rw [completed] at drains
      cases drains }

section Completing

variable (sound : c.Sound notified) (completing : c.processing.phase = .completing)
include sound completing

theorem sound_signals : Chain.Sound notified
    { c with framesCompleted := true, closing := .awaits (frameSubscribers.map Prod.snd) } where
  received := sound.received
  routed := sound.routed
  settled := sound.settled
  sinks := fun sink => settled_stopped (sound.sinks sink)
  handling := sound.handling
  signalled := fun _ => Or.inl completing
  awaited := fun rest awaits => by
    cases awaits
    refine ⟨rfl, ?_⟩
    rintro (_ | _) outside
    · simp [frameSubscribers] at outside
    · simp [frameSubscribers] at outside
  closed := fun completed => by
    rw [show c.processing.phase = .completing from completing] at completed
    cases completed

theorem sound_awaits {sink : Sink} {rest : List Sink} (closing : c.closing = .awaits (sink :: rest))
    (completed : (c.sink sink).phase = .completed) :
    Chain.Sound notified { c with closing := .awaits rest } := by
  obtain ⟨signalled, awaited⟩ := sound.awaited _ closing
  constructor
  case awaited =>
    intro others awaits
    cases awaits
    refine ⟨signalled, fun other outside => ?_⟩
    by_cases same : other = sink
    · rw [same]
      exact completed
    · apply awaited other
      simp [same, outside]
  case closed =>
    intro done
    rw [show c.processing.phase = .completing from completing] at done
    cases done
  case received => exact sound.received
  case routed => exact sound.routed
  case settled => exact sound.settled
  case sinks => exact sound.sinks
  case handling => exact sound.handling
  case signalled => exact sound.signalled

theorem sound_closes (pending : c.pending = []) (closing : c.closing = .awaits []) :
    Chain.Sound notified { c with processing := c.processing.step c.completed } where
  received := (received_step _ _).trans sound.received
  routed := by
    simp only [QueueWorker.step, completing]
    exact sound.routed
  settled := settled_step sound.settled
  sinks := sound.sinks
  handling := fun more => absurd pending more
  signalled := fun _ => Or.inr (by simp only [QueueWorker.step, completing])
  awaited := sound.awaited
  closed := fun _ => closing

end Completing

theorem sound_turnProcessing (sound : c.Sound notified) {next : Chain}
    (step : c.turnProcessing = some next) : next.Sound notified := by
  unfold Chain.turnProcessing at step
  split at step
  case h_1 sink frame rest pending =>
    cases step
    exact sound_updates sound pending
  case h_2 pending =>
    split at step
    case h_1 => cases step
    case h_2 completing =>
      split at step
      case h_1 closing =>
        cases step
        exact sound_signals sound completing
      case h_2 sink rest closing =>
        split at step
        case isTrue completed =>
          cases step
          exact sound_awaits sound completing closing completed
        case isFalse => cases step
      case h_3 closing =>
        cases step
        exact sound_closes sound completing pending closing
    case h_3 drains =>
      split at step
      case h_1 items =>
        cases step
        apply sound_loop sound pending (by simp [drains])
        simp only [QueueWorker.step, drains, items]
      case h_2 record rest items =>
        split at step
        · cases step
        · cases step
          exact sound_handles sound pending drains items
    case h_4 running looping undrained =>
      cases step
      apply sound_loop sound pending ⟨looping, running⟩
      cases phase : c.processing.phase with
      | drains => exact absurd phase undrained
      | _ => simp only [QueueWorker.step, phase]

theorem sound_sink (sound : c.Sound notified) (sink : Sink) (next : Chain)
    (same : ∀ other, next.sink other =
      if other = sink then (c.sink other).step c.framesCompleted else c.sink other)
    (rest : next = { c with zmq := next.zmq, writer := next.writer })
    (running : (c.sink sink).phase ≠ .completed) : next.Sound notified := by
  rw [rest]
  rw [rest] at same
  exact {
    received := sound.received
    routed := by
      intro other
      rw [same other]
      split
      · rw [received_step]
        exact sound.routed other
      · exact sound.routed other
    settled := sound.settled
    sinks := by
      intro other
      rw [same other]
      split
      · exact settled_step (sound.sinks other)
      · exact sound.sinks other
    handling := sound.handling
    signalled := sound.signalled
    awaited := by
      intro others awaits
      obtain ⟨signalled, awaited⟩ := sound.awaited others awaits
      refine ⟨signalled, ?_⟩
      intro other outside
      rw [same other, if_neg]
      · exact awaited other outside
      · -- A sink waited for has completed, so it is not the one that moves.
        rintro moved
        rw [moved] at outside
        exact running (awaited sink outside)
    closed := sound.closed }

theorem sound_turn (sound : c.Sound notified) {turn : Turn} {next : Chain}
    (step : c.turn turn = some next) : next.Sound notified := by
  cases turn with
  | processing => exact sound_turnProcessing sound step
  | zmq =>
      simp only [Chain.turn] at step
      split at step
      · cases step
      · rename_i running
        cases step
        apply sound_sink sound .zmq _ _ rfl running
        rintro (_ | _) <;> rfl
  | writer =>
      simp only [Chain.turn] at step
      split at step
      · cases step
      · rename_i running
        cases step
        apply sound_sink sound .writer _ _ rfl running
        rintro (_ | _) <;> rfl

/-- Only the publisher sets its completion signal. -/
theorem turn_completed {turn : Turn} {next : Chain} (step : c.turn turn = some next) :
    next.completed = c.completed := by
  cases turn with
  | processing =>
      simp only [Chain.turn, Chain.turnProcessing] at step
      split at step
      case h_1 sink frame rest pending =>
        cases step
        cases sink <;> rfl
      case h_2 =>
        (repeat' split at step) <;> cases step <;> rfl
  | zmq =>
      simp only [Chain.turn] at step
      split at step <;> cases step
      rfl
  | writer =>
      simp only [Chain.turn] at step
      split at step <;> cases step
      rfl

end AqMD3.Acquisition
