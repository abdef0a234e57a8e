import AqMD3.AcquirePublisherWorker
import AqMD3.SubscriberChain

/-!
The console's command thread between the workers it starts and the chain that drains
them: `AcquirePublisher::start` and `AcquirePublisher::stop`, one statement at a time.
A `std::thread` whose joinable handle is overwritten, and an exception that leaves a
thread function, terminate the process.
-/

namespace AqMD3.Acquisition

open QueueStage Transitions

inductive Call where
  | start (parameters : UimfFrameParameters)
  | stop (terminateAcquisitionChain : Bool)
  deriving DecidableEq

/-- The statement the command thread executes next; idle, it has returned from the
call it carries. -/
inductive Command where
  | idle (returned : Option Call)
  | guarding (parameters : UimfFrameParameters)
  | clearing (parameters : UimfFrameParameters)
  | spawning (parameters : UimfFrameParameters)
  | moving (parameters : UimfFrameParameters) (thread : Nat)
  | reporting (parameters : UimfFrameParameters) (text : String)
  | flagging (terminateAcquisitionChain : Bool)
  | signalling
  | waiting
  | announcing
  | joining (terminateAcquisitionChain : Bool)
  deriving DecidableEq

/-- A worker thread, and whether it has been joined. -/
structure Thread where
  worker : Worker
  joined : Bool
  deriving DecidableEq

inductive Termination where
  | handleOverwritten
  | exceptionEscaped (thrown : Thrown)
  deriving DecidableEq

/-- What happened, in order: an event of a worker, the `finished acquire` of a
`stop(true)`, or the error a failed `start` publishes. -/
inductive Entry where
  | worker (event : Event)
  | announced
  | startFailed (text : String)

structure Console where
  state : State
  shouldStop : Bool
  threads : List Thread
  -- The thread `worker_handle` refers to, while that is joinable.
  handle : Option Nat
  command : Command
  chain : Chain
  history : List Entry
  terminated : Option Termination

def Console.begin : Console := ⟨.unknown, false, [], none, .idle none, .begin, [], none⟩

/-- What the catch clauses of `start` publish when `std::thread` cannot be made. -/
def startError : Thrown → String
  | .frameDamaged what | .exception what => "error " ++ oneLine what
  | .unknown _ => "error unknown error when processing UIMF request"

inductive ConsoleLabel where
  | calls (call : Call)
  | commands (spawnFails : Option Thrown)
  | works (thread : Nat) (answers : Answers)
  | turns (turn : Turn)

def Console.begins (s : Console) : Call → Console
  | .start parameters => { s with command := .guarding parameters }
  | .stop terminate => { s with command := .flagging terminate }

def Console.commandStep (s : Console) (spawnFails : Option Thrown) : Option Console :=
  match s.command with
  | .idle _ => none
  | .guarding parameters =>
      if s.state = .acquiring then some { s with command := .idle (some (.start parameters)) }
      else some { s with command := .clearing parameters }
  | .clearing parameters => some { s with shouldStop := false, command := .spawning parameters }
  | .spawning parameters =>
      match spawnFails with
      | some thrown => some { s with command := .reporting parameters (startError thrown) }
      | none =>
          some { s with
            threads := s.threads ++ [⟨.spawned parameters, false⟩]
            command := .moving parameters s.threads.length }
  | .moving parameters thread =>
      match s.handle with
      | some _ => some { s with terminated := some .handleOverwritten }
      | none =>
          some { s with handle := some thread, command := .idle (some (.start parameters)) }
  | .reporting parameters text =>
      some { s with
        history := s.history ++ [.startFailed text]
        command := .idle (some (.start parameters)) }
  | .flagging terminate =>
      some { s with
        shouldStop := true
        command := if terminate then .signalling else .joining terminate }
  | .signalling =>
      -- A second `set_value` throws, and the catch clause of `stop` returns.
      if s.chain.completed then some { s with command := .idle (some (.stop true)) }
      else some { s with chain := { s.chain with completed := true }, command := .waiting }
  | .waiting =>
      if s.chain.processing.phase = .completed then some { s with command := .announcing } else none
  | .announcing =>
      some { s with history := s.history ++ [.announced], command := .joining true }
  | .joining terminate =>
      match s.handle with
      | none => some { s with command := .idle (some (.stop terminate)) }
      | some thread =>
          match s.threads[thread]? with
          | none => none
          | some t =>
              if t.worker.statement = .ended then
                some { s with
                  threads := s.threads.set thread { t with joined := true }
                  handle := none
                  command := .idle (some (.stop terminate)) }
              else none

/-- Everything a statement of the command thread can do, and what it was seen to be. -/
inductive Console.CommandStep (s : Console) : Console → Prop where
  | refuses {parameters : UimfFrameParameters} (command : s.command = .guarding parameters)
      (acquiring : s.state = .acquiring) :
      s.CommandStep { s with command := .idle (some (.start parameters)) }
  | passes {parameters : UimfFrameParameters} (command : s.command = .guarding parameters)
      (stopped : s.state ≠ .acquiring) : s.CommandStep { s with command := .clearing parameters }
  | clears {parameters : UimfFrameParameters} (command : s.command = .clearing parameters) :
      s.CommandStep { s with shouldStop := false, command := .spawning parameters }
  | fails {parameters : UimfFrameParameters} (command : s.command = .spawning parameters)
      (thrown : Thrown) : s.CommandStep { s with command := .reporting parameters (startError thrown) }
  | spawns {parameters : UimfFrameParameters} (command : s.command = .spawning parameters) :
      s.CommandStep { s with
        threads := s.threads ++ [⟨.spawned parameters, false⟩]
        command := .moving parameters s.threads.length }
  | overwrites {parameters : UimfFrameParameters} {thread : Nat}
      (command : s.command = .moving parameters thread) {held : Nat} (handle : s.handle = some held) :
      s.CommandStep { s with terminated := some .handleOverwritten }
  | moves {parameters : UimfFrameParameters} {thread : Nat}
      (command : s.command = .moving parameters thread) (handle : s.handle = none) :
      s.CommandStep { s with handle := some thread, command := .idle (some (.start parameters)) }
  | reports {parameters : UimfFrameParameters} {text : String}
      (command : s.command = .reporting parameters text) :
      s.CommandStep { s with
        history := s.history ++ [.startFailed text]
        command := .idle (some (.start parameters)) }
  | flags {terminate : Bool} (command : s.command = .flagging terminate) :
      s.CommandStep { s with
        shouldStop := true
        command := if terminate then .signalling else .joining terminate }
  | signalledTwice (command : s.command = .signalling) (completed : s.chain.completed = true) :
      s.CommandStep { s with command := .idle (some (.stop true)) }
  | signals (command : s.command = .signalling) (running : s.chain.completed = false) :
      s.CommandStep { s with chain := { s.chain with completed := true }, command := .waiting }
  | waits (command : s.command = .waiting) (completed : s.chain.processing.phase = .completed) :
      s.CommandStep { s with command := .announcing }
  | announces (command : s.command = .announcing) :
      s.CommandStep { s with history := s.history ++ [.announced], command := .joining true }
  | finds {terminate : Bool} (command : s.command = .joining terminate) (handle : s.handle = none) :
      s.CommandStep { s with command := .idle (some (.stop terminate)) }
  | joins {terminate : Bool} (command : s.command = .joining terminate) {thread : Nat}
      (handle : s.handle = some thread) {t : Thread} (here : s.threads[thread]? = some t)
      (ended : t.worker.statement = .ended) :
      s.CommandStep { s with
        threads := s.threads.set thread { t with joined := true }
        handle := none
        command := .idle (some (.stop terminate)) }

theorem commandStep_cases {s next : Console} {spawnFails : Option Thrown}
    (step : s.commandStep spawnFails = some next) : s.CommandStep next := by
  unfold Console.commandStep at step
  split at step
  case h_1 => cases step
  case h_2 parameters command =>
    split at step <;> cases step
    · exact .refuses command ‹_›
    · exact .passes command ‹_›
  case h_3 parameters command =>
    cases step
    exact .clears command
  case h_4 parameters command =>
    split at step <;> cases step
    · exact .fails command _
    · exact .spawns command
  case h_5 parameters thread command =>
    split at step <;> cases step
    · exact .overwrites command ‹_›
    · exact .moves command ‹_›
  case h_6 parameters text command =>
    cases step
    exact .reports command
  case h_7 terminate command =>
    cases step
    exact .flags command
  case h_8 command =>
    split at step <;> cases step
    · exact .signalledTwice command ‹_›
    · exact .signals command (eq_false_of_ne_true ‹_›)
  case h_9 command =>
    split at step <;> cases step
    exact .waits command ‹_›
  case h_10 command =>
    cases step
    exact .announces command
  case h_11 terminate command =>
    split at step
    · cases step
      exact .finds command ‹_›
    · split at step
      · cases step
      · split at step <;> cases step
        exact .joins command ‹_› ‹_› ‹_›

/-- What a worker's event does to what it shares with the other threads. -/
def Console.sees (s : Console) (event : Event) : Console :=
  let s := { s with history := s.history ++ [.worker event] }
  match event with
  | .stored state => { s with state := state }
  | .notified record => { s with chain := s.chain.notify .both record }
  | _ => s

@[simp] theorem sees_threads (s : Console) (event : Event) : (s.sees event).threads = s.threads := by
  cases event <;> rfl

@[simp] theorem sees_handle (s : Console) (event : Event) : (s.sees event).handle = s.handle := by
  cases event <;> rfl

@[simp] theorem sees_command (s : Console) (event : Event) : (s.sees event).command = s.command := by
  cases event <;> rfl

@[simp] theorem sees_history (s : Console) (event : Event) :
    (s.sees event).history = s.history ++ [.worker event] := by
  cases event <;> rfl

@[simp] theorem sees_terminated (s : Console) (event : Event) :
    (s.sees event).terminated = s.terminated := by
  cases event <;> rfl

@[simp] theorem sees_completed (s : Console) (event : Event) :
    (s.sees event).chain.completed = s.chain.completed := by
  cases event <;> rfl

/-- A record notified does not touch what the worker of the `ProcessSubject` is at. -/
@[simp] theorem sees_phase (s : Console) (event : Event) :
    (s.sees event).chain.processing.phase = s.chain.processing.phase := by
  cases event <;> rfl

def terminationOf (w : Worker) : Option Termination :=
  match w.statement with
  | .escaped thrown => some (.exceptionEscaped thrown)
  | _ => none

def Console.workStep (segmentSize : UInt64) (s : Console) (thread : Nat) (answers : Answers) :
    Option Console :=
  match s.threads[thread]? with
  | none => none
  | some t =>
      if t.worker.statement = .ended then none
      else
        let (worker, event) := t.worker.step segmentSize { answers with shouldStop := s.shouldStop }
        let s := { s with
          threads := s.threads.set thread { t with worker := worker }
          terminated := terminationOf worker }
        some (match event with
          | none => s
          | some event => s.sees event)

/-- What a worker's step leaves of its thread, before the others see the event. -/
def Console.worked (s : Console) (thread : Nat) (t : Thread) (worker : Worker) : Console :=
  { s with
    threads := s.threads.set thread { t with worker := worker }
    terminated := terminationOf worker }

/-- A worker that has not ended takes its step, with or without an event. -/
theorem workStep_cases {segmentSize : UInt64} {s next : Console} {thread : Nat} {answers : Answers}
    (step : s.workStep segmentSize thread answers = some next) :
    ∃ t worker event, s.threads[thread]? = some t ∧ t.worker.statement ≠ .ended ∧
      t.worker.step segmentSize { answers with shouldStop := s.shouldStop } = (worker, event) ∧
      next = event.elim (s.worked thread t worker) (s.worked thread t worker).sees := by
  unfold Console.workStep at step
  split at step
  · cases step
  · rename_i t here
    split at step
    · cases step
    · rename_i alive
      cases outcome : t.worker.step segmentSize { answers with shouldStop := s.shouldStop } with
      | mk worker event =>
          rw [outcome] at step
          cases step
          refine ⟨t, worker, event, here, alive, outcome, ?_⟩
          cases event <;> rfl

def Console.step (segmentSize : UInt64) (s : Console) (label : ConsoleLabel) : Option Console :=
  match s.terminated with
  | some _ => none
  | none =>
      match label with
      | .calls call =>
          match s.command with
          | .idle _ => some (s.begins call)
          | _ => none
      | .commands spawnFails => s.commandStep spawnFails
      | .works thread answers => s.workStep segmentSize thread answers
      | .turns turn => (s.chain.turn turn).map fun chain => { s with chain := chain }

end AqMD3.Acquisition
