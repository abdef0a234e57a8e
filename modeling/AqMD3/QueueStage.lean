import Mathlib.Data.List.Basic

/-!
One stage of a pipeline: a worker that takes what other threads push on its queue.
Its loop test reads the stop flag, the items and the queue in three steps, so what
it decides on may be out of date by the next one. A pass moves values from the
queue to the items under a bound that shrinks as it pops, then handles the items.
-/

namespace AqMD3.QueueStage

variable {Value : Type}

inductive Phase where
  | readsStop
  | readsItems
  | readsQueue
  | moves
  | drains
  | completing
  | completed
  deriving DecidableEq

structure QueueWorker (Value : Type) where
  phase : Phase
  queue : List Value
  items : List Value
  seen : List Value
  deriving DecidableEq

def QueueWorker.begin : QueueWorker Value := ⟨.readsStop, [], [], []⟩

def QueueWorker.update (s : QueueWorker Value) (value : Value) : QueueWorker Value :=
  { s with queue := s.queue ++ [value] }

/-- `for (int i = 0; i < queue.size(); i++)` around one pop. -/
def moveLoop (i : Nat) (items : List Value) : List Value → List Value × List Value
  | [] => (items, [])
  | value :: rest =>
      if i < (value :: rest).length then moveLoop (i + 1) (items ++ [value]) rest
      else (items, value :: rest)

def QueueWorker.step (stopped : Bool) (s : QueueWorker Value) : QueueWorker Value :=
  match s.phase with
  | .readsStop => { s with phase := if stopped then .readsItems else .moves }
  | .readsItems => { s with phase := if s.items.isEmpty then .readsQueue else .moves }
  | .readsQueue => { s with phase := if s.queue.isEmpty then .completing else .moves }
  | .moves =>
      { s with
        phase := .drains
        items := (moveLoop 0 s.items s.queue).1
        queue := (moveLoop 0 s.items s.queue).2 }
  | .drains =>
      match s.items with
      | [] => { s with phase := .readsStop }
      | value :: rest => { s with items := rest, seen := s.seen ++ [value] }
  | .completing => { s with phase := .completed }
  | .completed => s

/-- Everything pushed so far, in the order it was pushed. -/
def QueueWorker.received (s : QueueWorker Value) : List Value := s.seen ++ s.items ++ s.queue

/-- A pass leaves the later half of the queue for the next one. -/
theorem moveLoop_half (i : Nat) (items queue : List Value) :
    moveLoop i items queue =
      (items ++ queue.take ((queue.length - i + 1) / 2),
        queue.drop ((queue.length - i + 1) / 2)) := by
  induction queue generalizing i items with
  | nil => simp [moveLoop]
  | cons value rest ih =>
      unfold moveLoop
      split
      · rename_i inside
        rw [List.length_cons] at inside
        have count : (rest.length + 1 - i + 1) / 2 = (rest.length - (i + 1) + 1) / 2 + 1 := by
          omega
        simp [ih, count]
      · rename_i past
        rw [List.length_cons] at past
        have count : (rest.length + 1 - i + 1) / 2 = 0 := by omega
        simp [count]

theorem moveLoop_keeps (i : Nat) (items queue : List Value) :
    (moveLoop i items queue).1 ++ (moveLoop i items queue).2 = items ++ queue := by
  rw [moveLoop_half, List.append_assoc, List.take_append_drop]

@[simp] theorem received_begin : (QueueWorker.begin : QueueWorker Value).received = [] := rfl

theorem received_update (s : QueueWorker Value) (value : Value) :
    (s.update value).received = s.received ++ [value] := by
  simp [QueueWorker.received, QueueWorker.update]

/-- Nothing is lost, duplicated or moved past something else. -/
theorem received_step (stopped : Bool) (s : QueueWorker Value) :
    (s.step stopped).received = s.received := by
  unfold QueueWorker.step
  split
  case h_4 =>
    simp only [QueueWorker.received, List.append_assoc, moveLoop_keeps]
  case h_5 =>
    split
    · rfl
    · rename_i value rest items
      simp [QueueWorker.received, items]
  all_goals rfl

/-- Values are handled within one pass, a worker past its first test has seen the
stop flag, and one that has left its loop left nothing behind. -/
structure Settled (stopped : Bool) (s : QueueWorker Value) : Prop where
  items : s.phase ≠ .drains → s.items = []
  stopped : s.phase = .readsItems ∨ s.phase = .readsQueue ∨ s.phase = .completing ∨
    s.phase = .completed → stopped = true
  drained : s.phase = .completing ∨ s.phase = .completed → s.queue = []

theorem settled_begin (stopped : Bool) : Settled stopped (QueueWorker.begin : QueueWorker Value) where
  items := fun _ => rfl
  stopped := by simp [QueueWorker.begin]
  drained := fun _ => rfl

theorem settled_stopped {stopped : Bool} {s : QueueWorker Value} (settled : Settled stopped s) :
    Settled true s where
  items := settled.items
  stopped := fun _ => rfl
  drained := settled.drained

/-- Pushing is safe as long as the flag is not set. -/
theorem settled_update {s : QueueWorker Value} (settled : Settled false s) (value : Value) :
    Settled false (s.update value) where
  items := settled.items
  stopped := settled.stopped
  drained := fun left => absurd (settled.stopped (Or.inr (Or.inr left))) Bool.false_ne_true

theorem settled_step {stopped : Bool} {s : QueueWorker Value} (settled : Settled stopped s) :
    Settled stopped (s.step stopped) := by
  have items := settled.items
  have flag := settled.stopped
  have drained := settled.drained
  cases phase : s.phase with
  | readsStop =>
      cases stopped with
      | false => constructor <;> simp_all [QueueWorker.step]
      | true => constructor <;> simp_all [QueueWorker.step]
  | readsItems => constructor <;> simp_all [QueueWorker.step]
  | readsQueue =>
      cases queue : s.queue with
      | nil => constructor <;> simp_all [QueueWorker.step]
      | cons value rest => constructor <;> simp_all [QueueWorker.step]
  | moves => constructor <;> simp [QueueWorker.step, phase]
  | drains =>
      cases held : s.items with
      | nil => constructor <;> simp [QueueWorker.step, phase, held]
      | cons value rest => constructor <;> simp [QueueWorker.step, phase, held]
  | completing => constructor <;> simp_all [QueueWorker.step]
  | completed => constructor <;> simp_all [QueueWorker.step]

/-- A worker that has left its loop has handled everything it was given. -/
theorem settled_seen {stopped : Bool} {s : QueueWorker Value} (settled : Settled stopped s)
    (left : s.phase = .completing ∨ s.phase = .completed) : s.seen = s.received := by
  have loop : s.phase ≠ .drains := by
    rintro drains
    rw [drains] at left
    simp at left
  rw [QueueWorker.received, settled.items loop, settled.drained left, List.append_nil, List.append_nil]

end AqMD3.QueueStage
