import AqMD3.CardCalls
import AqMD3.SerialFrames

/-!
A session: `acquire` and `tof width` measure the pusher period on the command thread, and an
`acquire` puts a new publisher in the place of the one there was. Whatever the order of all
steps, the calls into the card come in order, as long as no worker is alive when a
measurement begins.
-/

namespace AqMD3.Acquisition

open QueueStage Transitions

/-- What the command thread is at: a measurement has made so many of its calls. -/
inductive Serving where
  | ready
  | measuring (digitizer : SA220) (made : Nat)

structure CommandSession where
  controller : Option Console
  replaced : List Console
  serving : Serving
  card : List CardCall
  terminated : Bool

def CommandSession.begin : CommandSession := ⟨none, [], .ready, [], false⟩

inductive RequestLabel where
  | controls (label : ConsoleLabel)
  | measures (digitizer : SA220)
  | continues
  | leaves
  | replaces

/-- A step that only the command thread takes. -/
def ConsoleLabel.commanded : ConsoleLabel → Bool
  | .calls _ | .commands _ => true
  | .works _ _ | .turns _ => false

def Command.isIdle : Command → Bool
  | .idle _ => true
  | _ => false

def Entry.cardCall : Entry → Option CardCall
  | .worker event => event.cardCall
  | _ => none

/-- The measurement of a period, by `get_trigger_period_samples(digitizer, 20)`. -/
def SA220.measurement (digitizer : SA220) : Measured UInt64 := digitizer.getTriggerPeriodSamples 20

def Serving.isReady : Serving → Bool
  | .ready => true
  | .measuring _ _ => false

/-- A step of the publisher there is, and the calls it makes to the card. -/
def CommandSession.controlStep (segmentSize : UInt64) (s : CommandSession) (label : ConsoleLabel) :
    Option CommandSession :=
  match s.controller with
  | none => none
  | some c =>
      if label.commanded && !s.serving.isReady then none
      else
        (c.step segmentSize label).map fun next =>
          { s with
            controller := some next
            card := s.card ++ (next.history.drop c.history.length).filterMap Entry.cardCall }

/-- `controller = std::move(p)`, in one step: the source destroys the other members of the old
publisher first, and then the destructor of a handle that is still joinable ends the process. -/
def CommandSession.replace (s : CommandSession) : CommandSession :=
  match s.controller with
  | none => { s with controller := some .begin, serving := .ready }
  | some c =>
      if c.handle.isSome then { s with terminated := true }
      else { s with controller := some .begin, replaced := s.replaced ++ [c], serving := .ready }

def Ending.hasReturned {Value : Type} : Ending Value → Bool
  | .returned _ => true
  | _ => false

def Ending.isWaiting {Value : Type} : Ending Value → Bool
  | .waiting => true
  | _ => false

def CommandSession.halted (s : CommandSession) : Bool :=
  s.terminated || s.controller.any fun c => c.terminated.isSome

def CommandSession.step (segmentSize : UInt64) (s : CommandSession) (label : RequestLabel) :
    Option CommandSession :=
  if s.halted then none
  else
    match label with
    | .controls label => s.controlStep segmentSize label
    | .measures digitizer =>
        if s.serving.isReady && s.controller.all (fun c => c.command.isIdle) then
          some { s with serving := .measuring digitizer 0 }
        else none
    | .continues =>
        match s.serving with
        | .ready => none
        | .measuring digitizer made =>
            digitizer.measurement.calls[made]?.map fun call =>
              { s with
                serving := .measuring digitizer (made + 1)
                card := s.card ++ call.cardCall.toList }
    | .leaves =>
        -- The measurement threw, something behind it did, or this is a `tof width`.
        match s.serving with
        | .ready => none
        | .measuring digitizer made =>
            if digitizer.measurement.calls.length ≤ made && !digitizer.measurement.ending.isWaiting then
              some { s with serving := .ready }
            else none
    | .replaces =>
        match s.serving with
        | .ready => none
        | .measuring digitizer made =>
            if digitizer.measurement.calls.length ≤ made && digitizer.measurement.ending.hasReturned
            then some s.replace
            else none

/-- A publisher whose workers are where the calls so far leave them. -/
structure Console.Matches (c : Console) (begun : Bool) : Prop where
  suits : ∀ t ∈ c.threads, t.Alive → Suits t.worker.statement begun
  resting : (∀ t ∈ c.threads, ¬ t.Alive) → begun = false

theorem matches_over {c : Console} (ended : ∀ t ∈ c.threads, ¬ t.Alive) : c.Matches false :=
  ⟨fun t member alive => absurd alive (ended t member), fun _ => rfl⟩

theorem matches_workers {c next : Console} {begun : Bool} (matching : c.Matches begun)
    (same : next.threads.map Thread.worker = c.threads.map Thread.worker) :
    next.Matches begun := by
  have carried {first second : Console}
      (equal : first.threads.map Thread.worker = second.threads.map Thread.worker) (t : Thread)
      (member : t ∈ first.threads) : ∃ u ∈ second.threads, u.worker = t.worker := by
    have among : t.worker ∈ second.threads.map Thread.worker := by
      rw [← equal]
      exact List.mem_map_of_mem member
    exact List.mem_map.mp among
  constructor
  · intro t member alive
    obtain ⟨u, inside, worker⟩ := carried same t member
    rw [← worker]
    exact matching.suits u inside (by rw [Thread.Alive, worker]; exact alive)
  · intro ended
    refine matching.resting fun u member alive => ?_
    obtain ⟨t, inside, worker⟩ := carried same.symm u member
    exact ended t inside (by rw [Thread.Alive, worker]; exact alive)

theorem drop_history {history added : List Entry} :
    (history ++ added).drop history.length = added := List.drop_left

section Controls

variable {segmentSize : UInt64} {c next : Console} {begun : Bool}

/-- What a step of a publisher asks of the card, and where that leaves its workers. -/
def Console.Asks (c next : Console) (begun : Bool) : Prop :=
  ∃ after, run orderStep begun
      ((next.history.drop c.history.length).filterMap Entry.cardCall) = some after ∧
    next.Matches after

theorem asks_nothing (matching : c.Matches begun)
    (workers : next.threads.map Thread.worker = c.threads.map Thread.worker) (added : List Entry)
    (history : next.history = c.history ++ added) (quiet : added.filterMap Entry.cardCall = []) :
    c.Asks next begun := by
  refine ⟨begun, ?_, matches_workers matching workers⟩
  rw [history, drop_history, quiet]
  rfl

theorem asks_command (turn : c.InTurn segmentSize) (matching : c.Matches begun)
    {spawnFails : Option Thrown} (step : c.commandStep spawnFails = some next)
    (safe : ¬ next.Doomed) : c.Asks next begun := by
  cases commandStep_cases step with
  | spawns command =>
      -- A worker is spawned where none is alive, or over a handle that dooms the process.
      have unheld : c.handle = none := by
        by_contra held
        exact safe ⟨⟨_, _, rfl⟩, Option.isSome_iff_ne_none.mpr held⟩
      have ended := turn.lone.free unheld (by simp [command])
      have idle := matching.resting fun t member alive => alive (ended t member)
      refine ⟨begun, ?_, ?_, fun none => ?_⟩
      · rw [List.drop_length]
        rfl
      · intro t member alive
        rcases List.mem_append.mp member with old | new
        · exact absurd (ended t old) alive
        · rw [List.mem_singleton.mp new]
          exact idle
      · exact absurd (by simp [Thread.Alive, Worker.spawned])
          (none _ (List.mem_append_right _ (List.mem_singleton_self _)))
  | joins command handle here ended =>
      exact asks_nothing matching (map_set_same Thread.worker here rfl) []
        (List.append_nil _).symm rfl
  | reports command => exact asks_nothing matching rfl [.startFailed _] rfl rfl
  | announces command => exact asks_nothing matching rfl [.announced] rfl rfl
  | refuses command | passes command | clears command | fails command | overwrites command
  | moves command | flags command | signalledTwice command | signals command | waits command
  | finds command =>
      exact asks_nothing matching rfl [] (List.append_nil _).symm rfl

theorem asks_work (turn : c.InTurn segmentSize) (matching : c.Matches begun) {thread : Nat}
    {answers : Answers} (step : c.workStep segmentSize thread answers = some next) :
    c.Asks next begun := by
  obtain ⟨t, worker, event, here, alive, stepped, rfl⟩ := workStep_cases step
  have last := turn.lone.last thread t here alive
  obtain ⟨after, ran, suits⟩ := suits_step (matching.suits t (List.mem_of_getElem? here) alive)
    segmentSize { answers with shouldStop := c.shouldStop }
  rw [stepped] at ran suits
  -- The worker is the last one, and every other has ended.
  have others (u : Thread) (member : u ∈ c.threads.set thread { t with worker := worker })
      (running : u.Alive) : u.worker = worker := by
    obtain ⟨i, inside, found⟩ := List.mem_iff_getElem.mp member
    have at_i := List.getElem?_eq_some_iff.mpr ⟨inside, found⟩
    rw [List.getElem?_set] at at_i
    split at at_i
    · split at at_i
      · cases at_i
        rfl
      · cases at_i
    · have behind := turn.lone.last i u at_i running
      omega
  have mine : ({ t with worker := worker } : Thread) ∈
      c.threads.set thread { t with worker := worker } :=
    List.mem_set (List.getElem?_eq_some_iff.mp here).1 _
  have matches_after {console : Console}
      (threads : console.threads = c.threads.set thread { t with worker := worker }) :
      console.Matches after := by
    constructor
    · rw [threads]
      intro u member running
      rw [others u member running]
      exact suits
    · rw [threads]
      intro ended
      have stopped : worker.statement = .ended := by
        by_contra running
        exact ended _ mine running
      rw [stopped] at suits
      exact suits
  cases event with
  | none =>
      refine ⟨after, ?_, matches_after rfl⟩
      rw [Option.elim_none, Console.worked, List.drop_length]
      exact ran
  | some event =>
      refine ⟨after, ?_, matches_after (sees_threads _ event)⟩
      rw [Option.elim_some, sees_history, Console.worked, drop_history]
      exact ran

theorem asks_step (turn : c.InTurn segmentSize) (matching : c.Matches begun)
    {label : ConsoleLabel} (step : c.step segmentSize label = some next) (safe : ¬ next.Doomed) :
    c.Asks next begun := by
  unfold Console.step at step
  split at step
  · cases step
  · cases label with
    | calls call =>
        simp only at step
        split at step
        · cases step
          cases call <;> exact asks_nothing matching rfl [] (List.append_nil _).symm rfl
        · cases step
    | commands spawnFails => exact asks_command turn matching step safe
    | works thread answers => exact asks_work turn matching step
    | turns turned =>
        obtain ⟨chain, _, rfl⟩ := Option.map_eq_some_iff.mp step
        exact asks_nothing matching rfl [] (List.append_nil _).symm rfl

end Controls

/-- What every run of a session keeps: publishers go their turns, and one that was replaced has
no worker left. -/
structure CommandSession.Sound (segmentSize : UInt64) (s : CommandSession) : Prop where
  turn : ∀ c ∈ s.controller, c.InTurn segmentSize ∨ c.Doomed
  replaced : ∀ c ∈ s.replaced, ∀ t ∈ c.threads, ¬ t.Alive
  waits : s.serving.isReady = false → ∀ c ∈ s.controller, c.command.isIdle = true

/-- The calls so far, and whether a begin is open behind them. -/
structure CommandSession.Traced (s : CommandSession) (begun : Bool) : Prop where
  ran : run orderStep false s.card = some begun
  ready : s.serving = .ready →
    (s.controller = none → begun = false) ∧ ∀ c ∈ s.controller, c.Matches begun
  measuring : ∀ digitizer made, s.serving = .measuring digitizer made →
    CallsLeave (digitizer.measurement.calls.take made) begun ∧
      ∀ c ∈ s.controller, ∀ t ∈ c.threads, ¬ t.Alive

def CommandSession.Safe (s : CommandSession) : Prop := ∀ c ∈ s.controller, ¬ c.Doomed

/-- A measurement begins where no worker is alive. -/
def CommandSession.measuresAlone (s : CommandSession) : RequestLabel → Bool
  | .measures _ => s.controller.all fun c => c.threads.all fun t => t.worker.statement = .ended
  | _ => true

section Steps

variable {segmentSize : UInt64} {s next : CommandSession}

/-- Everything a step of a session can do. -/
inductive CommandSession.Moves (segmentSize : UInt64) (s : CommandSession) :
    RequestLabel → CommandSession → Prop
  | controls {label : ConsoleLabel} {c after : Console} (here : s.controller = some c)
      (stepped : c.step segmentSize label = some after)
      (allowed : label.commanded = true → s.serving = .ready) :
      s.Moves segmentSize (.controls label)
        { s with
          controller := some after
          card := s.card ++ (after.history.drop c.history.length).filterMap Entry.cardCall }
  | measures (digitizer : SA220) (ready : s.serving = .ready)
      (idle : ∀ c ∈ s.controller, c.command.isIdle = true) :
      s.Moves segmentSize (.measures digitizer) { s with serving := .measuring digitizer 0 }
  | continues {digitizer : SA220} {made : Nat} {call : DigitizerCall}
      (serving : s.serving = .measuring digitizer made)
      (here : digitizer.measurement.calls[made]? = some call) :
      s.Moves segmentSize .continues
        { s with
          serving := .measuring digitizer (made + 1)
          card := s.card ++ call.cardCall.toList }
  | leaves {digitizer : SA220} {made : Nat} (serving : s.serving = .measuring digitizer made)
      (whole : digitizer.measurement.calls.length ≤ made)
      (left : digitizer.measurement.ending ≠ .waiting) :
      s.Moves segmentSize .leaves { s with serving := .ready }
  | replaces {digitizer : SA220} {made : Nat} (serving : s.serving = .measuring digitizer made)
      (whole : digitizer.measurement.calls.length ≤ made)
      (left : digitizer.measurement.ending ≠ .waiting)
      (unheld : ∀ c ∈ s.controller, c.handle = none) :
      s.Moves segmentSize .replaces
        { s with
          controller := some .begin
          replaced := s.replaced ++ s.controller.toList
          serving := .ready }
  | destroys {digitizer : SA220} {made : Nat} (serving : s.serving = .measuring digitizer made)
      {c : Console} (here : s.controller = some c) (held : c.handle.isSome = true) :
      s.Moves segmentSize .replaces { s with terminated := true }

theorem isReady_iff {serving : Serving} : serving.isReady = true ↔ serving = .ready := by
  cases serving <;> simp [Serving.isReady]

theorem step_moves {label : RequestLabel} (step : s.step segmentSize label = some next) :
    s.Moves segmentSize label next := by
  unfold CommandSession.step at step
  split at step
  · cases step
  cases label with
  | controls label =>
      simp only [CommandSession.controlStep] at step
      split at step
      · cases step
      · rename_i c here
        split at step
        · cases step
        · rename_i allowed
          obtain ⟨after, stepped, rfl⟩ := Option.map_eq_some_iff.mp step
          refine .controls here stepped fun commanded => isReady_iff.mp ?_
          simpa [commanded] using allowed
  | measures digitizer =>
      simp only at step
      split at step <;> cases step
      rename_i allowed
      obtain ⟨ready, idle⟩ := (Bool.and_eq_true _ _).mp allowed
      refine .measures digitizer (isReady_iff.mp ready) fun c here => ?_
      rw [Option.mem_def.mp here] at idle
      exact idle
  | continues =>
      simp only at step
      split at step
      · cases step
      · obtain ⟨call, here, rfl⟩ := Option.map_eq_some_iff.mp step
        exact .continues ‹_› here
  | leaves =>
      simp only at step
      split at step
      · cases step
      · split at step <;> cases step
        rename_i allowed
        obtain ⟨whole, left⟩ := (Bool.and_eq_true _ _).mp allowed
        refine .leaves ‹_› (of_decide_eq_true whole) fun waits => ?_
        rw [waits] at left
        cases left
  | replaces =>
      simp only at step
      split at step
      · cases step
      · rename_i digitizer made serving
        split at step <;> cases step
        rename_i allowed
        obtain ⟨whole, returned⟩ := (Bool.and_eq_true _ _).mp allowed
        have left : digitizer.measurement.ending ≠ .waiting := by
          intro waits
          rw [waits] at returned
          cases returned
        have fresh := @CommandSession.Moves.replaces segmentSize s digitizer made serving
          (of_decide_eq_true whole) left
        unfold CommandSession.replace
        split
        · rename_i none
          simpa [none] using fresh
        · rename_i c here
          split
          · exact .destroys serving here ‹_›
          · rename_i unheld
            rw [here] at fresh
            exact fresh (by simpa using unheld)

theorem command_waits {c after : Console} {label : ConsoleLabel}
    (step : c.step segmentSize label = some after) (other : label.commanded = false) :
    after.command = c.command := by
  unfold Console.step at step
  split at step
  · cases step
  · cases label with
    | calls call => cases other
    | commands spawnFails => cases other
    | works thread answers =>
        obtain ⟨t, worker, event, _, _, _, rfl⟩ := workStep_cases step
        cases event with
        | none => rfl
        | some event => exact sees_command _ event
    | turns turned =>
        obtain ⟨chain, _, rfl⟩ := Option.map_eq_some_iff.mp step
        rfl

theorem asks_resting {c after : Console} {label : ConsoleLabel}
    (step : c.step segmentSize label = some after) (other : label.commanded = false)
    (ended : ∀ t ∈ c.threads, ¬ t.Alive) :
    after.history = c.history ∧ after.threads = c.threads := by
  unfold Console.step at step
  split at step
  · cases step
  · cases label with
    | calls call => cases other
    | commands spawnFails => cases other
    | works thread answers =>
        obtain ⟨t, worker, event, here, alive, _, rfl⟩ := workStep_cases step
        exact absurd alive (ended t (List.mem_of_getElem? here))
    | turns turned =>
        obtain ⟨chain, _, rfl⟩ := Option.map_eq_some_iff.mp step
        exact ⟨rfl, rfl⟩

theorem idle_over {c : Console} (turn : c.InTurn segmentSize ∨ c.Doomed)
    (idle : c.command.isIdle = true) (unheld : c.handle = none) : ∀ t ∈ c.threads, ¬ t.Alive := by
  have unmoved : ∀ parameters thread, c.command ≠ .moving parameters thread := by
    intro parameters thread moving
    rw [moving] at idle
    cases idle
  rcases turn with turn | doomed
  · exact fun t member alive => alive (turn.lone.free unheld unmoved t member)
  · obtain ⟨⟨parameters, thread, moving⟩, _⟩ := doomed
    exact absurd moving (unmoved parameters thread)

theorem session_step {label : RequestLabel} (sound : s.Sound segmentSize)
    (step : s.step segmentSize label = some next) : next.Sound segmentSize := by
  cases step_moves step with
  | controls here stepped allowed =>
      rename_i label c after
      refine ⟨?_, sound.replaced, ?_⟩
      · rintro console ⟨⟩
        rcases sound.turn c here with turn | doomed
        · exact inTurn_step turn stepped
        · exact Or.inr (doomed_step doomed stepped)
      · rintro measuring console ⟨⟩
        have other : label.commanded = false := by
          by_contra commanded
          rw [allowed (by simpa using commanded)] at measuring
          cases measuring
        rw [command_waits stepped other]
        exact sound.waits measuring c here
  | measures digitizer ready idle => exact ⟨sound.turn, sound.replaced, fun _ => idle⟩
  | continues serving here =>
      exact ⟨sound.turn, sound.replaced, fun _ => sound.waits (by rw [serving]; rfl)⟩
  | leaves serving whole left => exact ⟨sound.turn, sound.replaced, by simp [Serving.isReady]⟩
  | replaces serving whole left unheld =>
      refine ⟨?_, ?_, by simp [Serving.isReady]⟩
      · rintro console ⟨⟩
        exact Or.inl inTurn_begin
      · intro console member
        rcases List.mem_append.mp member with old | new
        · exact sound.replaced console old
        · have here := Option.mem_toList.mp new
          exact idle_over (sound.turn console here)
            (sound.waits (by rw [serving]; rfl) console here) (unheld console here)
  | destroys serving here held => exact ⟨sound.turn, sound.replaced, sound.waits⟩

theorem doomed_back {c after : Console} {label : ConsoleLabel}
    (step : c.step segmentSize label = some after) (safe : ¬ after.Doomed) : ¬ c.Doomed :=
  fun doomed => safe (doomed_step doomed step)

theorem traced_control {label : ConsoleLabel} {begun : Bool} (sound : s.Sound segmentSize)
    (traced : s.Traced begun) {c later : Console} (here : s.controller = some c)
    (stepped : c.step segmentSize label = some later)
    (allowed : label.commanded = true → s.serving = .ready) (unharmed : ¬ later.Doomed) :
    ∃ after, CommandSession.Traced
      { s with
        controller := some later
        card := s.card ++ (later.history.drop c.history.length).filterMap Entry.cardCall } after := by
  have turn := (sound.turn c here).resolve_right (doomed_back stepped unharmed)
  cases serving : s.serving with
  | ready =>
      obtain ⟨_, workers⟩ := traced.ready serving
      obtain ⟨after, ran, matching⟩ := asks_step turn (workers c here) stepped unharmed
      refine ⟨after, ?_, ?_, ?_⟩
      · rw [run_append, traced.ran, Option.bind_some]
        exact ran
      · rintro -
        refine ⟨fun none => (by cases none), ?_⟩
        rintro console ⟨⟩
        exact matching
      · intro digitizer made measuring
        cases measuring
  | measuring digitizer made =>
      obtain ⟨ordered, ended⟩ := traced.measuring digitizer made serving
      have other : label.commanded = false := by
        by_contra commanded
        rw [allowed (by simpa using commanded)] at serving
        cases serving
      obtain ⟨history, threads⟩ := asks_resting stepped other (ended c here)
      refine ⟨begun, ?_, ?_, ?_⟩
      · rw [history, List.drop_length, List.filterMap_nil, List.append_nil]
        exact traced.ran
      · intro ready
        cases ready
      · rintro device count ⟨⟩
        refine ⟨ordered, ?_⟩
        rintro console ⟨⟩
        rw [threads]
        exact ended c here

theorem traced_continue {digitizer : SA220} {made : Nat} {begun : Bool}
    (traced : s.Traced begun) (serving : s.serving = .measuring digitizer made)
    {call : DigitizerCall} (here : digitizer.measurement.calls[made]? = some call) :
    ∃ after, CommandSession.Traced
      { s with
        serving := .measuring digitizer (made + 1)
        card := s.card ++ call.cardCall.toList } after := by
  obtain ⟨ordered, ended⟩ := traced.measuring digitizer made serving
  obtain ⟨last, whole, _⟩ := getTriggerPeriodSamples_leaves digitizer 20
  obtain ⟨after, midway⟩ := callsLeave_prefix whole (made + 1)
  have grown : digitizer.measurement.calls.take (made + 1) =
      digitizer.measurement.calls.take made ++ [call] := by
    rw [List.take_add_one, here, Option.toList_some]
  have taken : CallsLeave (digitizer.measurement.calls.take made ++ [call]) after := by
    rw [← grown]
    exact midway
  have one : [call].filterMap DigitizerCall.cardCall = call.cardCall.toList := by
    cases asked : call.cardCall with
    | none => rw [List.filterMap_cons_none asked, List.filterMap_nil, Option.toList_none]
    | some made => rw [List.filterMap_cons_some asked, List.filterMap_nil, Option.toList_some]
  rw [CallsLeave, List.filterMap_append, run_append, ordered, Option.bind_some, one] at taken
  refine ⟨after, ?_, ?_, ?_⟩
  · rw [run_append, traced.ran, Option.bind_some]
    exact taken
  · intro ready
    cases ready
  · rintro device count ⟨⟩
    exact ⟨midway, ended⟩

theorem measured_idle {digitizer : SA220} {made : Nat} {begun : Bool}
    (traced : s.Traced begun) (serving : s.serving = .measuring digitizer made)
    (whole : digitizer.measurement.calls.length ≤ made)
    (left : digitizer.measurement.ending ≠ .waiting) :
    begun = false ∧ ∀ c ∈ s.controller, ∀ t ∈ c.threads, ¬ t.Alive := by
  obtain ⟨ordered, ended⟩ := traced.measuring digitizer made serving
  rw [List.take_of_length_le whole] at ordered
  obtain ⟨last, made_all, idle⟩ := getTriggerPeriodSamples_leaves digitizer 20
  have same : some begun = some last := ordered.symm.trans made_all
  injection same with same
  exact ⟨same.trans (idle left), ended⟩

theorem traced_step {label : RequestLabel} {begun : Bool} (sound : s.Sound segmentSize)
    (traced : s.Traced begun) (alone : s.measuresAlone label = true)
    (step : s.step segmentSize label = some next) (safe : next.Safe) :
    ∃ after, next.Traced after := by
  cases step_moves step with
  | controls here stepped allowed =>
      exact traced_control sound traced here stepped allowed (safe _ rfl)
  | measures digitizer ready idle =>
      have ended : ∀ c ∈ s.controller, ∀ t ∈ c.threads, ¬ t.Alive := by
        intro c here t member alive
        rw [CommandSession.measuresAlone, Option.mem_def.mp here] at alone
        exact alive (of_decide_eq_true (List.all_eq_true.mp alone t member))
      have resting : begun = false := by
        obtain ⟨empty, workers⟩ := traced.ready ready
        cases controller : s.controller with
        | none => exact empty controller
        | some c => exact (workers c controller).resting (ended c controller)
      refine ⟨begun, traced.ran, fun none => (by cases none), ?_⟩
      rintro device made ⟨⟩
      rw [List.take_zero, resting]
      exact ⟨rfl, ended⟩
  | continues serving here => exact traced_continue traced serving here
  | leaves serving whole left =>
      obtain ⟨idle, ended⟩ := measured_idle traced serving whole left
      subst idle
      exact ⟨false, traced.ran, fun _ => ⟨fun _ => rfl, fun c here => matches_over (ended c here)⟩,
        fun device made measuring => by cases measuring⟩
  | replaces serving whole left unheld =>
      obtain ⟨idle, ended⟩ := measured_idle traced serving whole left
      subst idle
      refine ⟨false, traced.ran, fun _ => ⟨fun _ => rfl, ?_⟩, fun device made measuring => ?_⟩
      · rintro console ⟨⟩
        exact matches_over (by simp [Console.begin])
      · cases measuring
  | destroys serving here held => exact ⟨begun, traced.ran, traced.ready, traced.measuring⟩

theorem safe_back {label : RequestLabel} (sound : s.Sound segmentSize)
    (step : s.step segmentSize label = some next) (safe : next.Safe) : s.Safe := by
  cases step_moves step with
  | controls here stepped allowed =>
      intro console member
      rw [here] at member
      cases member
      exact doomed_back stepped (safe _ rfl)
  | replaces serving whole left unheld =>
      rintro c here ⟨⟨parameters, thread, moving⟩, _⟩
      have idle := sound.waits (by rw [serving]; rfl) c here
      rw [moving] at idle
      cases idle
  | measures digitizer ready idle => exact safe
  | continues serving here => exact safe
  | leaves serving whole left => exact safe
  | destroys serving here held => exact safe

end Steps

variable {segmentSize : UInt64}

theorem session_begin : CommandSession.begin.Sound segmentSize := by
  constructor <;> simp [CommandSession.begin]

theorem traced_begin : CommandSession.begin.Traced false := by
  constructor <;> simp [CommandSession.begin, run]

/-- In every run of a session, whatever the order of its steps, no worker of a publisher that
was replaced is alive. -/
theorem replaced_finished (segmentSize : UInt64) (labels : List RequestLabel) (s : CommandSession)
    (ran : run (CommandSession.step segmentSize) .begin labels = some s) :
    ∀ c ∈ s.replaced, ∀ t ∈ c.threads, ¬ t.Alive :=
  (run_invariant (fun _ _ _ => session_step) session_begin ran).replaced

/-- A digitizer that fails every abort, with two triggers to a measurement. -/
def stuckCard : SA220 where
  error _ call := if call = .abortAcquisition then some "abort failed" else none
  calibrationRequired _ := false
  acquired _ := .returned ⟨⟨[], 0, 0, 0, 0, 0⟩, [⟨100, 1, 0, []⟩, ⟨300, 2, 0, []⟩], 0⟩

/-- An `acquire`, a frame that is stopped when it is over, and a `tof width`. -/
def servedRequests : List RequestLabel :=
  .measures stuckCard :: List.replicate 9 .continues ++ [.replaces] ++
    (startFrame ++ frameRuns 0 ++
      (ConsoleLabel.calls (.stop false) :: List.replicate 2 (.commands none))).map .controls ++
    .measures stuckCard :: List.replicate 9 .continues ++ [.leaves]

/-- The same with another `acquire` at its end, which replaces the first one's publisher. -/
theorem replaced_finished_again : ∃ s,
    run (CommandSession.step 500) .begin (servedRequests.dropLast ++ [.replaces]) = some s ∧
      s.replaced.map (fun c => c.threads.length) = [1] ∧
      ∀ c ∈ s.replaced, ∀ t ∈ c.threads, ¬ t.Alive := by
  have reached : (run (CommandSession.step 500) .begin (servedRequests.dropLast ++ [.replaces])).map
      (fun s => s.replaced.map fun c => c.threads.length) = some [1] := by decide +kernel
  obtain ⟨s, ran, seen⟩ := Option.map_eq_some_iff.mp reached
  exact ⟨s, ran, seen, replaced_finished 500 _ s ran⟩

/-- Where no measurement begins over a worker that is alive, and until a handle is about to be
overwritten: all calls come in order, none is left begun when nobody uses the card, nor where a
worker asks whether it acquires. -/
theorem session_ordered (segmentSize : UInt64) (labels : List RequestLabel) (s : CommandSession)
    (meets : Meets (CommandSession.step segmentSize) (fun s label => s.measuresAlone label = true)
      .begin labels)
    (ran : run (CommandSession.step segmentSize) .begin labels = some s) (safe : s.Safe) :
    CallsInOrder s.card ∧
      (s.serving = .ready → (∀ c ∈ s.controller, ∀ t ∈ c.threads, ¬ t.Alive) → ¬ Begun s.card) ∧
      ∀ c ∈ s.controller, ∀ t ∈ c.threads, t.worker.statement = .asking → ¬ Begun s.card := by
  have keeps (s : CommandSession) (label : RequestLabel) (next : CommandSession)
      (kept : s.Sound segmentSize ∧ (s.Safe → ∃ begun, s.Traced begun))
      (alone : s.measuresAlone label = true) (step : s.step segmentSize label = some next) :
      next.Sound segmentSize ∧ (next.Safe → ∃ begun, next.Traced begun) := by
    obtain ⟨sound, traced⟩ := kept
    refine ⟨session_step sound step, fun safe => ?_⟩
    obtain ⟨begun, before⟩ := traced (safe_back sound step safe)
    exact traced_step sound before alone step safe
  obtain ⟨_, traced⟩ := run_keeps keeps ⟨session_begin, fun _ => ⟨false, traced_begin⟩⟩ meets ran
  obtain ⟨begun, trace⟩ := traced safe
  obtain ⟨order, same⟩ := order_run trace.ran
  have closed (none : begun = false) : ¬ Begun s.card := by
    rw [Begun, same, none]
    exact Bool.false_ne_true
  refine ⟨order, ?_, ?_⟩
  · intro ready ended
    obtain ⟨empty, workers⟩ := trace.ready ready
    cases controller : s.controller with
    | none => exact closed (empty controller)
    | some c => exact closed ((workers c controller).resting (ended c controller))
  · intro c here t member asking
    have alive : t.Alive := by simp [Thread.Alive, asking]
    cases serving : s.serving with
    | ready =>
        have suits := ((trace.ready serving).2 c here).suits t member alive
        rw [asking] at suits
        exact closed suits
    | measuring digitizer made =>
        exact absurd alive ((trace.measuring digitizer made serving).2 c here t member)

theorem session_ordered_served : ∃ s,
    run (CommandSession.step 500) .begin servedRequests = some s ∧
    s.card = [.begins, .fetches, .aborts, .begins, .aborts, .begins, .fetches, .aborts] ∧
    CallsInOrder s.card ∧
      (s.serving = .ready → (∀ c ∈ s.controller, ∀ t ∈ c.threads, ¬ t.Alive) → ¬ Begun s.card) ∧
      ∀ c ∈ s.controller, ∀ t ∈ c.threads, t.worker.statement = .asking → ¬ Begun s.card := by
  have reached : (runAllowed (CommandSession.step 500) CommandSession.measuresAlone .begin
      servedRequests).map (fun s => (s.card, s.controller.map Console.handle)) =
        some ([.begins, .fetches, .aborts, .begins, .aborts, .begins, .fetches, .aborts],
          some none) := by decide +kernel
  obtain ⟨s, ran, seen⟩ := Option.map_eq_some_iff.mp reached
  obtain ⟨card, handle⟩ := Prod.mk.inj seen
  obtain ⟨run, meets⟩ := runAllowed_meets ran
  refine ⟨s, run, card, session_ordered 500 servedRequests s meets run ?_⟩
  rintro c here ⟨_, held⟩
  rw [Option.mem_def.mp here, Option.map_some, Option.some.injEq] at handle
  rw [handle] at held
  cases held

end AqMD3.Acquisition
