import AqMD3.FramesAlone
import AqMD3.HandleLifetime
import Mathlib.Data.List.Forall2

/-!
The frames of a console, whatever order its threads step in. Until a joinable handle is
about to be overwritten the workers run one after another, each as if it were alone; and
from there the command thread only ever ends the process.
-/

namespace AqMD3.Acquisition

open QueueStage Transitions

/-- `start` has spawned its worker over a handle that is still joinable. -/
def Console.Doomed (s : Console) : Prop :=
  (∃ parameters thread, s.command = .moving parameters thread) ∧ s.handle.isSome

/-- A worker that is alive is the last one started, and a handle is the last one's. -/
structure Console.Lone (s : Console) : Prop where
  last : ∀ (i : Nat) (t : Thread), s.threads[i]? = some t → t.worker.statement ≠ .ended →
    s.threads.length = i + 1
  free : s.handle = none → (∀ parameters thread, s.command ≠ .moving parameters thread) →
    ∀ t ∈ s.threads, t.worker.statement = .ended
  held : ∀ i, s.handle = some i → s.threads.length = i + 1
  fresh : ∀ parameters thread, s.command = .moving parameters thread →
    s.threads.length = thread + 1

theorem lone_begin : Console.begin.Lone := by
  constructor <;> simp [Console.begin]

/-- A step that moves neither threads nor handle, at a command that has spawned nothing. -/
theorem lone_moves {s next : Console} (lone : s.Lone) (threads : next.threads = s.threads)
    (handle : next.handle = s.handle)
    (before : ∀ parameters thread, s.command ≠ .moving parameters thread)
    (after : ∀ parameters thread, next.command ≠ .moving parameters thread) : next.Lone where
  last := by rw [threads]; exact lone.last
  free := by
    rw [threads, handle]
    exact fun none _ => lone.free none before
  held := by rw [threads, handle]; exact lone.held
  fresh := fun parameters thread moving => absurd moving (after parameters thread)

theorem lone_spawn {s : Console} (lone : s.Lone) {parameters : UimfFrameParameters}
    (spawning : s.command = .spawning parameters) (unheld : s.handle = none) :
    Console.Lone { s with
      threads := s.threads ++ [⟨.spawned parameters, false⟩]
      command := .moving parameters s.threads.length } where
  last := by
    intro i t here alive
    rw [List.length_append, List.length_singleton]
    rw [List.getElem?_append] at here
    split at here
    · have ended := lone.free unheld (by simp [spawning]) t (List.mem_of_getElem? here)
      exact absurd ended alive
    · have inside := (List.getElem?_eq_some_iff.mp here).1
      rw [List.length_singleton] at inside
      omega
  free := fun _ unmoved => absurd rfl (unmoved parameters s.threads.length)
  held := fun i same => by
    rw [show s.handle = none from unheld] at same
    cases same
  fresh := fun others thread moving => by
    cases moving
    simp

theorem lone_move {s : Console} (lone : s.Lone) {parameters : UimfFrameParameters} {thread : Nat}
    (moving : s.command = .moving parameters thread) :
    Console.Lone
      { s with handle := some thread, command := .idle (some (.start parameters)) } where
  last := lone.last
  free := by simp
  held := fun i same => by
    cases same
    exact lone.fresh parameters thread moving
  fresh := by simp

theorem lone_join {s : Console} (lone : s.Lone) {terminate : Bool} {thread : Nat} {t : Thread}
    (handle : s.handle = some thread) (ended : t.worker.statement = .ended) :
    Console.Lone { s with
      threads := s.threads.set thread { t with joined := true }
      handle := none
      command := .idle (some (.stop terminate)) } := by
  have other {i : Nat} {u : Thread}
      (found : (s.threads.set thread { t with joined := true })[i]? = some u)
      (alive : u.worker.statement ≠ .ended) : s.threads[i]? = some u ∧ thread ≠ i := by
    rw [List.getElem?_set] at found
    split at found
    · split at found
      · cases found
        exact absurd ended alive
      · cases found
    · exact ⟨found, ‹_›⟩
  constructor
  case last =>
    intro i u found alive
    rw [List.length_set]
    exact lone.last i u (other found alive).1 alive
  case free =>
    intro _ _ u member
    by_contra alive
    obtain ⟨i, inside, found⟩ := List.mem_iff_getElem.mp member
    obtain ⟨here, elsewhere⟩ := other (List.getElem?_eq_some_iff.mpr ⟨inside, found⟩) alive
    -- The last thread is the one joined.
    have last := lone.last i u here alive
    have held := lone.held thread handle
    omega
  case held => simp
  case fresh => simp

theorem lone_worked {s next : Console} (lone : s.Lone) {thread : Nat} {t : Thread}
    {worker : Worker} (here : s.threads[thread]? = some t) (alive : t.worker.statement ≠ .ended)
    (threads : next.threads = s.threads.set thread { t with worker := worker })
    (handle : next.handle = s.handle) (command : next.command = s.command) : next.Lone where
  last := by
    intro i u found _
    rw [threads, List.getElem?_set] at found
    rw [threads, List.length_set]
    split at found
    · rename_i same
      exact same ▸ lone.last thread t here alive
    · exact lone.last i u found ‹_›
  free := by
    rw [handle, command]
    exact fun none unmoved =>
      absurd (lone.free none unmoved t (List.mem_of_getElem? here)) alive
  held := by
    rw [threads, List.length_set, handle]
    exact lone.held
  fresh := by
    rw [threads, List.length_set, command]
    exact lone.fresh

def Entry.event : Entry → Option Event
  | .worker event => some event
  | _ => none

/-- What the workers did, in order. -/
def workerEvents (history : List Entry) : List Event := history.filterMap Entry.event

theorem workerEvents_append (front back : List Entry) :
    workerEvents (front ++ back) = workerEvents front ++ workerEvents back := List.filterMap_append

/-- The workers ran one after another, each as if alone. -/
def Console.Serial (segmentSize : UInt64) (s : Console) : Prop :=
  ∃ frames : List (List Event),
    List.Forall₂ (Alone segmentSize) (s.threads.map Thread.worker) frames ∧
      workerEvents s.history = frames.flatten

variable {segmentSize : UInt64}

theorem serial_begin : Console.begin.Serial segmentSize := ⟨[], List.Forall₂.nil, rfl⟩

theorem serial_moves {s next : Console} (serial : s.Serial segmentSize)
    (workers : next.threads.map Thread.worker = s.threads.map Thread.worker)
    (history : workerEvents next.history = workerEvents s.history) : next.Serial segmentSize := by
  obtain ⟨frames, all, events⟩ := serial
  exact ⟨frames, workers ▸ all, history.trans events⟩

theorem serial_spawn {s next : Console} (serial : s.Serial segmentSize)
    {parameters : UimfFrameParameters}
    (threads : next.threads = s.threads ++ [⟨.spawned parameters, false⟩])
    (history : next.history = s.history) : next.Serial segmentSize := by
  obtain ⟨frames, all, events⟩ := serial
  refine ⟨frames ++ [[]], ?_, ?_⟩
  · rw [threads, List.map_append]
    exact List.rel_append all (.cons (alone_spawned segmentSize parameters) .nil)
  · rw [history, events, List.flatten_append, List.flatten_singleton, List.append_nil]

/-- A list whose last place is known. -/
theorem last_at {Value : Type} {values : List Value} {i : Nat} {value : Value}
    (here : values[i]? = some value) (last : values.length = i + 1) :
    ∃ front, values = front ++ [value] ∧ front.length = i := by
  obtain ⟨inside, same⟩ := List.getElem?_eq_some_iff.mp here
  refine ⟨values.take i, ?_, by rw [List.length_take]; omega⟩
  rw [← same, List.take_append_getElem, List.take_of_length_le (by omega)]

theorem set_last {Value : Type} (front : List Value) (value next : Value) :
    (front ++ [value]).set front.length next = front ++ [next] := by
  rw [List.set_append_right _ _ le_rfl, Nat.sub_self]
  rfl

theorem forall₂_last {First Second : Type} {related : First → Second → Prop} {front : List First}
    {value : First} {others : List Second}
    (all : List.Forall₂ related (front ++ [value]) others) :
    ∃ before other, others = before ++ [other] ∧ List.Forall₂ related front before ∧
      related value other := by
  induction front generalizing others with
  | nil =>
      obtain ⟨other, rest, here, none, rfl⟩ := List.forall₂_cons_left_iff.mp all
      cases none
      exact ⟨[], other, rfl, .nil, here⟩
  | cons first rest ih =>
      obtain ⟨second, later, here, tail, rfl⟩ := List.forall₂_cons_left_iff.mp all
      obtain ⟨before, other, rfl, pairs, last⟩ := ih tail
      exact ⟨second :: before, other, rfl, .cons here pairs, last⟩

/-- The last worker's step goes behind everything before it. -/
theorem serial_worked {s next : Console} (serial : s.Serial segmentSize) {thread : Nat} {t : Thread}
    {answers : Answers} (here : s.threads[thread]? = some t)
    (last : s.threads.length = thread + 1)
    (threads : next.threads =
      s.threads.set thread { t with worker := (t.worker.step segmentSize answers).1 })
    (history : workerEvents next.history =
      workerEvents s.history ++ (t.worker.step segmentSize answers).2.toList) :
    next.Serial segmentSize := by
  obtain ⟨frames, all, events⟩ := serial
  obtain ⟨front, split, length⟩ := last_at here last
  rw [split, List.map_append] at all
  obtain ⟨before, seen, rfl, pairs, alone⟩ := forall₂_last all
  refine ⟨before ++ [seen ++ (t.worker.step segmentSize answers).2.toList], ?_, ?_⟩
  · rw [threads, split, ← length, set_last, List.map_append]
    exact List.rel_append pairs (.cons (alone_step alone answers) .nil)
  · rw [history, events, List.flatten_append, List.flatten_append, List.flatten_singleton,
      List.flatten_singleton, List.append_assoc]

/-- One worker at a time, each as if alone. -/
structure Console.InTurn (segmentSize : UInt64) (s : Console) : Prop where
  lone : s.Lone
  serial : s.Serial segmentSize

theorem inTurn_begin : Console.begin.InTurn segmentSize := ⟨lone_begin, serial_begin⟩

theorem inTurn_moves {s next : Console} (turn : s.InTurn segmentSize)
    (threads : next.threads = s.threads) (handle : next.handle = s.handle)
    (history : workerEvents next.history = workerEvents s.history)
    (before : ∀ parameters thread, s.command ≠ .moving parameters thread)
    (after : ∀ parameters thread, next.command ≠ .moving parameters thread) :
    next.InTurn segmentSize :=
  ⟨lone_moves turn.lone threads handle before after,
    serial_moves turn.serial (congrArg (List.map Thread.worker) threads) history⟩

/-- A value set to one that looks the same leaves the look of the list. -/
theorem map_set_same {Value Seen : Type} (look : Value → Seen) {values : List Value} {i : Nat}
    {value next : Value} (here : values[i]? = some value) (same : look next = look value) :
    (values.set i next).map look = values.map look := by
  apply List.ext_getElem?
  intro j
  rw [List.getElem?_map, List.getElem?_map, List.getElem?_set]
  split
  · rename_i place
    rw [← place, here, if_pos (List.getElem?_eq_some_iff.mp here).1, Option.map_some,
      Option.map_some, same]
  · rfl

theorem inTurn_command {s next : Console} (turn : s.InTurn segmentSize)
    {spawnFails : Option Thrown} (step : s.commandStep spawnFails = some next) :
    next.InTurn segmentSize ∨ next.Doomed := by
  cases commandStep_cases step with
  | spawns command =>
      by_cases unheld : s.handle = none
      · exact Or.inl ⟨lone_spawn turn.lone command unheld, serial_spawn turn.serial rfl rfl⟩
      · exact Or.inr ⟨⟨_, _, rfl⟩, Option.isSome_iff_ne_none.mpr unheld⟩
  | overwrites command handle => exact Or.inr ⟨⟨_, _, command⟩, by rw [handle]; rfl⟩
  | moves command handle =>
      exact Or.inl ⟨lone_move turn.lone command, serial_moves turn.serial rfl rfl⟩
  | joins command handle here ended =>
      exact Or.inl
        ⟨lone_join turn.lone handle ended, serial_moves turn.serial (map_set_same Thread.worker here rfl) rfl⟩
  | flags command =>
      rename_i terminate
      cases terminate <;> exact Or.inl (inTurn_moves turn rfl rfl rfl (by simp [command]) (by simp))
  | reports command =>
      refine Or.inl (inTurn_moves turn rfl rfl ?_ (by simp [command]) (by simp))
      rw [workerEvents_append]
      exact List.append_nil _
  | announces command =>
      refine Or.inl (inTurn_moves turn rfl rfl ?_ (by simp [command]) (by simp))
      rw [workerEvents_append]
      exact List.append_nil _
  | refuses command | passes command | clears command | fails command | signalledTwice command
  | signals command | waits command | finds command =>
      exact Or.inl (inTurn_moves turn rfl rfl rfl (by simp [command]) (by simp))

theorem inTurn_work {s next : Console} (turn : s.InTurn segmentSize) {thread : Nat}
    {answers : Answers} (step : s.workStep segmentSize thread answers = some next) :
    next.InTurn segmentSize := by
  obtain ⟨t, worker, event, here, alive, stepped, rfl⟩ := workStep_cases step
  have last := turn.lone.last thread t here alive
  have outcome := Prod.ext_iff.mp stepped
  cases event with
  | none =>
      refine ⟨lone_worked turn.lone here alive rfl rfl rfl, ?_⟩
      refine serial_worked turn.serial here last (by rw [outcome.1]; rfl) ?_
      rw [outcome.2]
      exact (List.append_nil _).symm
  | some event =>
      refine ⟨lone_worked turn.lone here alive (sees_threads _ event) (sees_handle _ event)
        (sees_command _ event), ?_⟩
      refine serial_worked turn.serial here last
        ((sees_threads _ event).trans (by rw [outcome.1]; rfl)) ?_
      rw [outcome.2, Option.elim_some, sees_history, workerEvents_append]
      rfl

/-- The command thread has one statement left, and that ends the process. -/
theorem doomed_command {s next : Console} (doomed : s.Doomed) {spawnFails : Option Thrown}
    (step : s.commandStep spawnFails = some next) :
    next.Doomed ∧ next.terminated = some .handleOverwritten := by
  obtain ⟨⟨parameters, thread, moving⟩, held⟩ := doomed
  cases commandStep_cases step with
  | overwrites command handle => exact ⟨⟨⟨_, _, command⟩, held⟩, rfl⟩
  | moves command handle => simp [handle] at held
  | refuses command | passes command | clears command | fails command | spawns command
  | reports command | flags command | signalledTwice command | signals command | waits command
  | announces command | finds command | joins command =>
      rw [moving] at command
      cases command

theorem doomed_work {s next : Console} (doomed : s.Doomed) {thread : Nat} {answers : Answers}
    (step : s.workStep segmentSize thread answers = some next) : next.Doomed := by
  obtain ⟨t, worker, event, _, _, _, rfl⟩ := workStep_cases step
  cases event with
  | none => exact doomed
  | some event =>
      rw [Option.elim_some, Console.Doomed, sees_command, sees_handle]
      exact doomed

theorem doomed_step {s next : Console} {label : ConsoleLabel} (doomed : s.Doomed)
    (step : s.step segmentSize label = some next) : next.Doomed := by
  unfold Console.step at step
  split at step
  · cases step
  · cases label with
    | calls call =>
        obtain ⟨⟨parameters, thread, moving⟩, _⟩ := doomed
        simp only [moving] at step
        cases step
    | commands spawnFails => exact (doomed_command doomed step).1
    | works thread answers => exact doomed_work doomed step
    | turns turn =>
        obtain ⟨chain, _, rfl⟩ := Option.map_eq_some_iff.mp step
        exact doomed

theorem inTurn_step {s next : Console} {label : ConsoleLabel} (turn : s.InTurn segmentSize)
    (step : s.step segmentSize label = some next) : next.InTurn segmentSize ∨ next.Doomed := by
  unfold Console.step at step
  split at step
  · cases step
  · cases label with
    | calls call =>
        simp only at step
        split at step
        · rename_i returned idle
          cases step
          refine Or.inl ?_
          cases call <;> exact inTurn_moves turn rfl rfl rfl (by simp [idle]) (by simp [Console.begins])
        · cases step
    | commands spawnFails => exact inTurn_command turn step
    | works thread answers => exact Or.inl (inTurn_work turn step)
    | turns turned =>
        obtain ⟨chain, _, rfl⟩ := Option.map_eq_some_iff.mp step
        exact Or.inl ⟨⟨turn.lone.last, turn.lone.free, turn.lone.held, turn.lone.fresh⟩, turn.serial⟩

theorem console_inTurn {labels : List ConsoleLabel} {s : Console}
    (ran : run (Console.step segmentSize) .begin labels = some s) :
    s.InTurn segmentSize ∨ s.Doomed := by
  have keeps (s : Console) (label : ConsoleLabel) (next : Console)
      (kept : s.InTurn segmentSize ∨ s.Doomed) (step : s.step segmentSize label = some next) :
      next.InTurn segmentSize ∨ next.Doomed := by
    rcases kept with turn | doomed
    · exact inTurn_step turn step
    · exact Or.inr (doomed_step doomed step)
  exact run_invariant keeps (Or.inl inTurn_begin) ran

/-- In every run, as long as no handle is about to be overwritten, the workers have run one
after another, each as if alone, and one is alive at most. From where one is, whatever the
threads do, the call never returns, and its next statement ends the process. -/
theorem console_serial (segmentSize : UInt64) (labels : List ConsoleLabel) (s : Console)
    (ran : run (Console.step segmentSize) .begin labels = some s) :
    (¬ s.Doomed → s.Serial segmentSize ∧
      ∀ (i j : Nat) (t u : Thread), s.threads[i]? = some t → s.threads[j]? = some u →
        t.Alive → u.Alive → i = j) ∧
    (s.Doomed → ∀ (later : List ConsoleLabel) (final : Console),
      run (Console.step segmentSize) s later = some final →
        (∀ returned, final.command ≠ .idle returned) ∧
        ∀ spawnFails next, final.commandStep spawnFails = some next →
          next.terminated = some .handleOverwritten) := by
  constructor
  · intro safe
    have turn := (console_inTurn ran).resolve_right safe
    refine ⟨turn.serial, ?_⟩
    intro i j t u first second firstAlive secondAlive
    have one := turn.lone.last i t first firstAlive
    have other := turn.lone.last j u second secondAlive
    omega
  · intro doomed later final behind
    have still : final.Doomed := run_invariant (fun _ _ _ => doomed_step) doomed behind
    refine ⟨?_, fun spawnFails next step => (doomed_command still step).2⟩
    intro returned idle
    obtain ⟨⟨parameters, thread, moving⟩, _⟩ := still
    rw [idle] at moving
    cases moving

/-- Two frames with a join between them, and two of which the second is spawned behind the
first that has ended by itself and not been joined. -/
theorem console_serial_spawned_again :
    (∃ s, run (Console.step 500) .begin joinedBetween = some s ∧ s.threads.length = 2 ∧
      s.Serial 500 ∧
      ∀ (i j : Nat) (t u : Thread), s.threads[i]? = some t → s.threads[j]? = some u →
        t.Alive → u.Alive → i = j) ∧
    ∃ s, run (Console.step 500) .begin (startFrame ++ frameRuns 0 ++ startFrame.take 4) = some s ∧
      ∀ (later : List ConsoleLabel) (final : Console),
        run (Console.step 500) s later = some final →
          (∀ returned, final.command ≠ .idle returned) ∧
          ∀ spawnFails next, final.commandStep spawnFails = some next →
            next.terminated = some .handleOverwritten := by
  constructor
  · have reached : (run (Console.step 500) .begin joinedBetween).map
        (fun s => (s.threads.length, s.command)) = some (2, .idle (some (.start noScans))) := by
      decide +kernel
    obtain ⟨s, ran, seen⟩ := Option.map_eq_some_iff.mp reached
    obtain ⟨length, command⟩ := Prod.mk.inj seen
    refine ⟨s, ran, length, (console_serial 500 _ s ran).1 ?_⟩
    rintro ⟨⟨parameters, thread, moving⟩, _⟩
    rw [command] at moving
    cases moving
  · have reached : (run (Console.step 500) .begin
        (startFrame ++ frameRuns 0 ++ startFrame.take 4)).map (fun s => (s.command, s.handle)) =
          some (.moving noScans 1, some 0) := by decide +kernel
    obtain ⟨s, ran, seen⟩ := Option.map_eq_some_iff.mp reached
    obtain ⟨command, handle⟩ := Prod.mk.inj seen
    exact ⟨s, ran, (console_serial 500 _ s ran).2
      ⟨⟨noScans, 1, command⟩, Option.isSome_iff_exists.mpr ⟨0, handle⟩⟩⟩

end AqMD3.Acquisition
