import AqMD3.CommandThread

/-!
The worker handle over the calls of the command thread. A frame that ends by itself
leaves its handle joinable, and the state flag that `start` tests no longer says so.
-/

namespace AqMD3.Acquisition

open QueueStage Transitions

def Thread.Alive (t : Thread) : Prop := t.worker.statement ≠ .ended

/-- The handle was never overwritten while joinable, one worker is alive at most, and a
`stop` that has returned has joined the last one. -/
structure Console.Kept (s : Console) : Prop where
  owned : s.terminated ≠ some .handleOverwritten
  alone : ∀ (i j : Nat) (t u : Thread), s.threads[i]? = some t → s.threads[j]? = some u →
    t.Alive → u.Alive → i = j
  joined : ∀ terminate, s.command = .idle (some (.stop terminate)) →
    ∀ t, s.threads.getLast? = some t → t.joined = true

/-- `start` passes its guard only over a handle that is not joinable, and `stop(true)`
signals a second time only so. -/
def joinsFirst (s : Console) : ConsoleLabel → Bool
  | .commands _ =>
      match s.command with
      | .guarding _ => s.state == .acquiring || s.handle.isNone
      | .signalling => !s.chain.completed || s.handle.isNone
      | _ => true
  | _ => true

/-- Between its guard and its last statement, `start` is about to set the handle. -/
def Command.starts : Command → Bool
  | .clearing _ | .spawning _ | .moving _ _ => true
  | _ => false

structure Console.Owned (s : Console) : Prop where
  overwritten : s.terminated ≠ some .handleOverwritten
  handle : ∀ i, s.handle = some i → s.threads.length = i + 1
  joined : ∀ (i : Nat) (t : Thread), s.threads[i]? = some t → s.handle ≠ some i →
    (∀ parameters, s.command ≠ .moving parameters i) → t.joined = true
  ended : ∀ (i : Nat) (t : Thread), s.threads[i]? = some t → t.joined = true →
    t.worker.statement = .ended
  free : s.command.starts = true → s.handle = none
  moving : ∀ parameters i, s.command = .moving parameters i → s.threads.length = i + 1
  returned : ∀ terminate, s.command = .idle (some (.stop terminate)) → s.handle = none

theorem owned_begin : Console.begin.Owned := by
  constructor <;> simp [Console.begin, Command.starts]

/-- A worker that is alive is the last one started. -/
theorem alive_last {s : Console} (owned : s.Owned) {i : Nat} {t : Thread}
    (here : s.threads[i]? = some t) (alive : t.Alive) : s.threads.length = i + 1 := by
  by_cases held : s.handle = some i
  · exact owned.handle i held
  · by_cases fresh : ∃ parameters, s.command = .moving parameters i
    · obtain ⟨parameters, moving⟩ := fresh
      exact owned.moving parameters i moving
    · have joined := owned.joined i t here held fun parameters moving => fresh ⟨parameters, moving⟩
      exact absurd (owned.ended i t here joined) alive

theorem owned_kept {s : Console} (owned : s.Owned) : s.Kept where
  owned := owned.overwritten
  alone := by
    intro i j t u first second firstAlive secondAlive
    have one := alive_last owned first firstAlive
    have other := alive_last owned second secondAlive
    omega
  joined := by
    intro terminate idle t last
    have free := owned.returned terminate idle
    rw [List.getLast?_eq_getElem?] at last
    apply owned.joined _ t last
    · simp [free]
    · simp [idle]

variable {segmentSize : UInt64}

/-- A statement of the command thread that moves neither threads nor handle. -/
theorem owned_moves {s next : Console} (owned : s.Owned)
    (threads : next.threads = s.threads) (handle : next.handle = s.handle)
    (terminated : next.terminated = s.terminated)
    (before : ∀ parameters i, s.command ≠ .moving parameters i)
    (after : ∀ parameters i, next.command ≠ .moving parameters i)
    (free : next.command.starts = true → s.handle = none)
    (returned : ∀ terminate, next.command = .idle (some (.stop terminate)) → s.handle = none) :
    next.Owned where
  overwritten := by rw [terminated]; exact owned.overwritten
  handle := by rw [handle, threads]; exact owned.handle
  joined := by
    rw [threads, handle]
    exact fun i t here other _ => owned.joined i t here other fun parameters =>
      before parameters i
  ended := by rw [threads]; exact owned.ended
  free := by rw [handle]; exact free
  moving := fun parameters i moving => absurd moving (after parameters i)
  returned := by rw [handle]; exact returned

theorem owned_call {s : Console} (owned : s.Owned) (call : Call) {returned : Option Call}
    (idle : s.command = .idle returned) : (s.begins call).Owned := by
  cases call with
  | start parameters =>
      refine owned_moves owned rfl rfl rfl (by simp [idle]) ?_ ?_ ?_ <;> simp [Console.begins, Command.starts]
  | stop terminate =>
      refine owned_moves owned rfl rfl rfl (by simp [idle]) ?_ ?_ ?_ <;> simp [Console.begins, Command.starts]

/-- The new thread is the last one, and its handle is not yet `worker_handle`. -/
theorem owned_spawn {s : Console} (owned : s.Owned) {parameters : UimfFrameParameters}
    (spawning : s.command = .spawning parameters) :
    Console.Owned { s with
      threads := s.threads ++ [⟨.spawned parameters, false⟩]
      command := .moving parameters s.threads.length } := by
  have free := owned.free (by rw [spawning]; rfl)
  constructor
  case overwritten => exact owned.overwritten
  case handle => simp [free]
  case joined =>
    intro i t here other unmoved
    rw [List.getElem?_append] at here
    split at here
    · apply owned.joined i t here (by simp [free])
      simp [spawning]
    · rename_i beyond
      have last : i = s.threads.length := by
        have inside := (List.getElem?_eq_some_iff.mp here).1
        rw [List.length_singleton] at inside
        omega
      exact absurd (by rw [last]) (unmoved parameters)
  case ended =>
    intro i t here joined
    rw [List.getElem?_append] at here
    split at here
    · exact owned.ended i t here joined
    · obtain ⟨inside, same⟩ := List.getElem?_eq_some_iff.mp here
      rw [List.getElem_singleton] at same
      rw [← same] at joined
      cases joined
  case free => exact fun _ => free
  case moving =>
    intro others i moving
    cases moving
    simp
  case returned => simp

theorem owned_move {s : Console} (owned : s.Owned) {parameters : UimfFrameParameters}
    {thread : Nat} (moving : s.command = .moving parameters thread) :
    Console.Owned
      { s with handle := some thread, command := .idle (some (.start parameters)) } := by
  have free := owned.free (by rw [moving]; rfl)
  constructor
  case overwritten => exact owned.overwritten
  case handle =>
    intro i same
    cases same
    exact owned.moving parameters thread moving
  case joined =>
    intro i t here other _
    apply owned.joined i t here (by simp [free])
    rintro others same
    rw [moving] at same
    cases same
    exact other rfl
  case ended => exact owned.ended
  case free => simp [Command.starts]
  case moving => simp
  case returned => simp

theorem owned_join {s : Console} (owned : s.Owned) {terminate : Bool} {thread : Nat} {t : Thread}
    (joining : s.command = .joining terminate) (handle : s.handle = some thread)
    (ended : t.worker.statement = .ended) :
    Console.Owned { s with
      threads := s.threads.set thread { t with joined := true }
      handle := none
      command := .idle (some (.stop terminate)) } := by
  constructor
  case overwritten => exact owned.overwritten
  case handle => simp
  case joined =>
    intro i u found _ _
    rw [List.getElem?_set] at found
    split at found
    · split at found
      · cases found
        rfl
      · cases found
    · rename_i other
      apply owned.joined i u found
      · rw [handle]
        exact fun same => other (Option.some.inj same)
      · simp [joining]
  case ended =>
    intro i u found joined
    rw [List.getElem?_set] at found
    split at found
    · split at found
      · cases found
        exact ended
      · cases found
    · exact owned.ended i u found joined
  case free => simp
  case moving => simp
  case returned => simp

theorem owned_command {s next : Console} (owned : s.Owned) {spawnFails : Option Thrown}
    (allowed : joinsFirst s (.commands spawnFails) = true)
    (step : s.commandStep spawnFails = some next) : next.Owned := by
  cases commandStep_cases step with
  | refuses command acquiring =>
      refine owned_moves owned rfl rfl rfl (by simp [command]) ?_ ?_ ?_ <;> simp [Command.starts]
  | passes command stopped =>
      -- The guard let the call through, so the condition leaves only a free handle.
      have free : s.handle = none := by
        simpa [joinsFirst, command, stopped] using allowed
      refine owned_moves owned rfl rfl rfl (by simp [command]) ?_ ?_ ?_ <;> simp [free]
  | clears command =>
      have free := owned.free (by rw [command]; rfl)
      refine owned_moves owned rfl rfl rfl (by simp [command]) ?_ ?_ ?_ <;> simp [free]
  | fails command thrown =>
      have free := owned.free (by rw [command]; rfl)
      refine owned_moves owned rfl rfl rfl (by simp [command]) ?_ ?_ ?_ <;> simp [free]
  | spawns command => exact owned_spawn owned command
  | overwrites command handle =>
      have free := owned.free (by rw [command]; rfl)
      exact absurd (handle.symm.trans free) (by simp)
  | moves command handle => exact owned_move owned command
  | reports command =>
      refine owned_moves owned rfl rfl rfl (by simp [command]) ?_ ?_ ?_ <;> simp [Command.starts]
  | flags command =>
      rename_i terminate
      cases terminate <;>
        (refine owned_moves owned rfl rfl rfl (by simp [command]) ?_ ?_ ?_ <;> simp [Command.starts])
  | signalledTwice command completed =>
      have free : s.handle = none := by
        simpa [joinsFirst, command, completed] using allowed
      refine owned_moves owned rfl rfl rfl (by simp [command]) ?_ ?_ ?_ <;> simp [free]
  | signals command running =>
      refine owned_moves owned rfl rfl rfl (by simp [command]) ?_ ?_ ?_ <;> simp [Command.starts]
  | waits command completed =>
      refine owned_moves owned rfl rfl rfl (by simp [command]) ?_ ?_ ?_ <;> simp [Command.starts]
  | announces command =>
      refine owned_moves owned rfl rfl rfl (by simp [command]) ?_ ?_ ?_ <;> simp [Command.starts]
  | finds command free =>
      refine owned_moves owned rfl rfl rfl (by simp [command]) ?_ ?_ ?_ <;> simp [free]
  | joins command handle here ended => exact owned_join owned command handle ended

theorem terminationOf_plain (w : Worker) : terminationOf w ≠ some .handleOverwritten := by
  unfold terminationOf
  split <;> simp

/-- A step of one worker leaves the handle, and its thread is not joined by it. -/
theorem owned_worked {s next : Console} (owned : s.Owned) {thread : Nat} {t : Thread}
    {worker : Worker} (here : s.threads[thread]? = some t) (alive : t.worker.statement ≠ .ended)
    (threads : next.threads = s.threads.set thread { t with worker := worker })
    (handle : next.handle = s.handle) (command : next.command = s.command)
    (overwritten : next.terminated ≠ some .handleOverwritten) : next.Owned := by
  have unjoined : t.joined = false := by
    rw [← Bool.not_eq_true]
    intro joined
    exact alive (owned.ended thread t here joined)
  have found {i : Nat} {u : Thread} (there : next.threads[i]? = some u) :
      ∃ v, s.threads[i]? = some v ∧ v.joined = u.joined ∧ (u.joined = true → v = u) := by
    rw [threads, List.getElem?_set] at there
    split at there
    · rename_i same
      split at there
      · cases there
        exact ⟨t, same ▸ here, rfl, fun joined => by simp [unjoined] at joined⟩
      · cases there
    · exact ⟨u, there, rfl, fun _ => rfl⟩
  constructor
  case overwritten => exact overwritten
  case handle =>
    rw [handle, threads, List.length_set]
    exact owned.handle
  case joined =>
    rw [handle, command]
    intro i u there other unmoved
    obtain ⟨v, old, same, _⟩ := found there
    rw [← same]
    exact owned.joined i v old other unmoved
  case ended =>
    intro i u there joined
    obtain ⟨v, old, same, kept⟩ := found there
    rw [← kept joined]
    exact owned.ended i v old (same.trans joined)
  case free =>
    rw [handle, command]
    exact owned.free
  case moving =>
    rw [command, threads, List.length_set]
    exact owned.moving
  case returned =>
    rw [handle, command]
    exact owned.returned

/-- A worker has no say in the handle, and one that has been joined takes no step. -/
theorem owned_work {s next : Console} (owned : s.Owned) {thread : Nat} {answers : Answers}
    (step : s.workStep segmentSize thread answers = some next) : next.Owned := by
  obtain ⟨t, worker, event, here, alive, _, rfl⟩ := workStep_cases step
  have plain := terminationOf_plain worker
  cases event with
  | none => exact owned_worked owned here alive rfl rfl rfl plain
  | some event =>
      apply owned_worked owned here alive
      · exact sees_threads _ event
      · exact sees_handle _ event
      · exact sees_command _ event
      · rw [Option.elim_some, sees_terminated]
        exact plain

theorem owned_step {s next : Console} {label : ConsoleLabel} (owned : s.Owned)
    (allowed : joinsFirst s label = true) (step : s.step segmentSize label = some next) :
    next.Owned := by
  unfold Console.step at step
  split at step
  · cases step
  · cases label with
    | calls call =>
        simp only at step
        split at step
        · rename_i returned idle
          cases step
          exact owned_call owned call idle
        · cases step
    | commands spawnFails => exact owned_command owned allowed step
    | works thread answers => exact owned_work owned step
    | turns turn =>
        obtain ⟨chain, _, same⟩ := Option.map_eq_some_iff.mp step
        rw [← same]
        exact ⟨owned.overwritten, owned.handle, owned.joined, owned.ended, owned.free, owned.moving,
          owned.returned⟩

/-- In a run whose every `start` past its guard and every second `stop(true)` finds the
handle not joinable, no handle is lost, no two workers are alive, and a `stop` returns
over a joined worker. -/
theorem handle_kept (segmentSize : UInt64) (labels : List ConsoleLabel) (s : Console)
    (meets : Meets (Console.step segmentSize) (fun s label => joinsFirst s label = true) .begin labels)
    (ran : run (Console.step segmentSize) .begin labels = some s) : s.Kept := by
  apply owned_kept
  exact run_keeps (fun _ _ _ => owned_step) owned_begin meets ran

def noScans : UimfFrameParameters := ⟨0, 0, 1, 0, 1, 0, ""⟩

def idleDigitizer : Answers := ⟨false, .ok false, .ok (), .error (.exception "timeout"), .ok ()⟩

def startFrame : List ConsoleLabel :=
  .calls (.start noScans) :: List.replicate 4 (.commands none)

/-- A frame's worker from its first statement to its last. -/
def frameRuns (thread : Nat) : List ConsoleLabel := List.replicate 7 (.works thread idleDigitizer)

/-- Two frames, each started only when the one before it has been joined. -/
def joinedBetween : List ConsoleLabel :=
  startFrame ++ frameRuns 0 ++ (.calls (.stop false) :: List.replicate 2 (.commands none)) ++
    startFrame ++ frameRuns 1

theorem handle_kept_joined_between :
    ∃ s, run (Console.step 500) .begin joinedBetween = some s ∧ s.Kept := by
  obtain ⟨s, allowed⟩ := Option.isSome_iff_exists.mp
    (by decide +kernel : (runAllowed (Console.step 500) joinsFirst .begin joinedBetween).isSome = true)
  obtain ⟨ran, meets⟩ := runAllowed_meets allowed
  exact ⟨s, ran, handle_kept 500 joinedBetween s meets ran⟩

/-- A frame ends by itself, and the next one is started without a `stop` between. -/
def startedAgain : List ConsoleLabel := startFrame ++ frameRuns 0 ++ startFrame

theorem handle_kept_started_again :
    ¬ ∀ (labels : List ConsoleLabel) (s : Console),
      run (Console.step 500) .begin labels = some s → s.Kept := by
  intro claimed
  have lost : ((run (Console.step 500) .begin startedAgain).map Console.terminated) =
      some (some .handleOverwritten) := by decide +kernel
  obtain ⟨s, ran, terminated⟩ := Option.map_eq_some_iff.mp lost
  exact (claimed startedAgain s ran).owned terminated

end AqMD3.Acquisition
