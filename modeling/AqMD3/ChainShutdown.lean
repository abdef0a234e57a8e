import AqMD3.ChainDelivery
import AqMD3.CommandThread
import AqMD3.FrameTiling

/-!
`stop(true)` over the worker and the chain. It signals completion and waits for the
chain before it joins the worker, so what a worker still notifies comes too late.
-/

namespace AqMD3.Acquisition

open QueueStage Transitions

@[simp] def Entry.record : Entry → Option UimfAcquisitionRecord
  | .worker event => event.record
  | _ => none

def notifiedOf (history : List Entry) : List UimfAcquisitionRecord := history.filterMap Entry.record

theorem notifiedOf_append (front back : List Entry) :
    notifiedOf (front ++ back) = notifiedOf front ++ notifiedOf back := List.filterMap_append

def encodes (record : UimfAcquisitionRecord) : Bool :=
  match record.toFrame with
  | .ok _ => true
  | .error _ => false

theorem encodes_frame {record : UimfAcquisitionRecord} (encoded : encodes record = true) :
    ∃ frame, record.toFrame = .ok frame := by
  unfold encodes at encoded
  split at encoded
  · rename_i frame result
    exact ⟨frame, result⟩
  · cases encoded

/-- Completion is signalled when no worker runs, no frame is started after it, and no
record notified makes `to_frame` throw. -/
def drainsFirst (s : Console) : ConsoleLabel → Bool
  | .commands _ =>
      match s.command with
      | .guarding _ => s.state == .acquiring || !s.chain.completed
      | .signalling => s.chain.completed || s.threads.all fun t => t.worker.statement == .ended
      | _ => true
  | .works thread _ =>
      match s.threads[thread]? with
      | some t =>
          match t.worker.statement with
          | .notifying data => encodes ⟨t.worker.parameters, data, t.worker.scansAcquiredCount⟩
          | _ => true
      | none => true
  | _ => true

/-- Everything notified has been delivered when the wait for the chain returns, and
`finished acquire` is the last a client or a subscriber gets. -/
structure Console.ShutDown (s : Console) : Prop where
  delivered : s.chain.Waited → s.chain.Delivered (notifiedOf s.history)
  waited : .announced ∈ s.history → s.chain.Waited
  silent : ∀ before after, s.history = before ++ .announced :: after →
    notifiedOf after = [] ∧ Entry.worker (.published finished) ∉ after

/-- Where in `stop(true)` the wait lies ahead of `finished acquire`. -/
def Command.unannounced : Command → Bool
  | .waiting | .announcing => true
  | _ => false

/-- A `start` past its guard, which may yet spawn a worker or publish an error. -/
def Command.launches : Command → Bool
  | .clearing _ | .spawning _ | .moving _ _ | .reporting _ _ => true
  | _ => false

structure Console.Drained (s : Console) : Prop where
  sound : s.chain.Sound (notifiedOf s.history)
  encodes : ∀ record ∈ notifiedOf s.history, ∃ frame, record.toFrame = .ok frame
  idle : s.chain.completed = true → ∀ t ∈ s.threads, t.worker.statement = .ended
  launches : s.command.launches = true → s.chain.completed = false
  signalled : s.command.unannounced = true → s.chain.completed = true ∧ .announced ∉ s.history
  ready : s.command = .announcing → s.chain.processing.phase = .completed
  announced : .announced ∈ s.history → s.chain.Waited
  last : ∀ before after, s.history = before ++ .announced :: after → after = []

theorem drained_shutDown {s : Console} (drained : s.Drained) : s.ShutDown where
  delivered := fun waited => delivered_of_completed drained.sound waited.2 drained.encodes
  waited := drained.announced
  silent := by
    rintro before after split
    rw [drained.last before after split]
    exact ⟨rfl, List.not_mem_nil⟩

theorem drained_begin : Console.begin.Drained where
  sound := sound_begin
  encodes := fun _ member => absurd member List.not_mem_nil
  idle := fun completed => by cases completed
  launches := fun launches => by cases launches
  signalled := fun unannounced => by cases unannounced
  ready := fun announcing => by cases announcing
  announced := fun member => absurd member List.not_mem_nil
  last := fun before after split => by simp [Console.begin] at split

theorem last_concat {history : List Entry} (fresh : .announced ∉ history) (entry : Entry)
    (before after : List Entry) (split : history ++ [entry] = before ++ .announced :: after) :
    after = [] := by
  rcases List.eq_nil_or_concat after with none | ⟨front, final, cut⟩
  · exact none
  · rw [cut, List.concat_eq_append, ← List.cons_append, ← List.append_assoc] at split
    have inside : Entry.announced ∈ history := by
      rw [(List.append_inj' split rfl).1]
      simp
    exact absurd inside fresh

theorem unannounced_of_running {s : Console} (drained : s.Drained)
    (running : s.chain.completed = false) : .announced ∉ s.history := by
  intro announced
  have waited := (drained.announced announced).1
  rw [running] at waited
  cases waited

/-- A statement of the command thread that touches neither the threads nor the chain
nor the history. -/
theorem drained_moves {s next : Console} (drained : s.Drained)
    (threads : next.threads = s.threads ∨ s.chain.completed = false) (chain : next.chain = s.chain)
    (history : next.history = s.history)
    (launches : next.command.launches = true → s.chain.completed = false)
    (signalled : next.command.unannounced = true →
      s.chain.completed = true ∧ .announced ∉ s.history)
    (ready : next.command = .announcing → s.chain.processing.phase = .completed) : next.Drained where
  sound := by rw [chain, history]; exact drained.sound
  encodes := by rw [history]; exact drained.encodes
  idle := by
    rw [chain]
    rcases threads with same | running
    · rw [same]
      exact drained.idle
    · rw [running]
      intro completed
      cases completed
  launches := by rw [chain]; exact launches
  signalled := by rw [chain, history]; exact signalled
  ready := by rw [chain]; exact ready
  announced := by rw [chain, history]; exact drained.announced
  last := by rw [history]; exact drained.last

theorem drained_quiet {s next : Console} (drained : s.Drained) (threads : next.threads = s.threads)
    (chain : next.chain = s.chain) (history : next.history = s.history)
    (quiet : next.command.launches = false) (silent : next.command.unannounced = false) :
    next.Drained := by
  apply drained_moves drained (Or.inl threads) chain history
  · intro launches
    rw [quiet] at launches
    cases launches
  · intro unannounced
    rw [silent] at unannounced
    cases unannounced
  · intro announcing
    rw [announcing] at silent
    cases silent

theorem drained_running {s next : Console} (drained : s.Drained) (running : s.chain.completed = false)
    (chain : next.chain = s.chain) (history : next.history = s.history)
    (silent : next.command.unannounced = false) : next.Drained := by
  apply drained_moves drained (Or.inr running) chain history
  · exact fun _ => running
  · intro unannounced
    rw [silent] at unannounced
    cases unannounced
  · intro announcing
    rw [announcing] at silent
    cases silent

theorem drained_publishes {s : Console} (drained : s.Drained) (fresh : .announced ∉ s.history)
    {entry : Entry} (unnotified : entry.record = none) (waited : entry = .announced → s.chain.Waited)
    {command : Command} (quiet : command.launches = false) (silent : command.unannounced = false) :
    Console.Drained { s with history := s.history ++ [entry], command := command } := by
  have same : notifiedOf (s.history ++ [entry]) = notifiedOf s.history := by
    rw [notifiedOf_append, notifiedOf, notifiedOf, List.filterMap_cons_none unnotified,
      List.filterMap_nil, List.append_nil]
  constructor
  case sound =>
    rw [same]
    exact drained.sound
  case encodes =>
    rw [same]
    exact drained.encodes
  case idle => exact drained.idle
  case launches => exact fun launches => absurd (launches.symm.trans quiet) (by decide)
  case signalled => exact fun unannounced => absurd (unannounced.symm.trans silent) (by decide)
  case ready =>
    rintro rfl
    cases silent
  case announced =>
    intro member
    rcases List.mem_append.mp member with old | new
    · exact absurd old fresh
    · exact waited (List.mem_singleton.mp new).symm
  case last => exact last_concat fresh entry

theorem drained_signals {s : Console} (drained : s.Drained) (running : s.chain.completed = false)
    (ended : ∀ t ∈ s.threads, t.worker.statement = .ended) :
    Console.Drained { s with chain := { s.chain with completed := true }, command := .waiting } := by
  have fresh := unannounced_of_running drained running
  constructor
  case sound => exact sound_complete drained.sound
  case encodes => exact drained.encodes
  case idle => exact fun _ => ended
  case launches => exact fun launches => by cases launches
  case signalled => exact fun _ => ⟨rfl, fresh⟩
  case ready => exact fun announcing => by cases announcing
  case announced => exact fun member => absurd member fresh
  case last => exact drained.last

theorem drained_joins {s : Console} (drained : s.Drained) {thread : Nat} {t : Thread}
    (ended : t.worker.statement = .ended) (terminate : Bool) :
    Console.Drained { s with
      threads := s.threads.set thread { t with joined := true }
      handle := none
      command := .idle (some (.stop terminate)) } where
  sound := drained.sound
  encodes := drained.encodes
  idle := fun completed u member => by
    rcases List.mem_or_eq_of_mem_set member with old | new
    · exact drained.idle completed u old
    · rw [new]
      exact ended
  launches := fun launches => by cases launches
  signalled := fun unannounced => by cases unannounced
  ready := fun announcing => by cases announcing
  announced := drained.announced
  last := drained.last

theorem drained_command {s next : Console} (drained : s.Drained) {spawnFails : Option Thrown}
    (allowed : drainsFirst s (.commands spawnFails) = true)
    (step : s.commandStep spawnFails = some next) : next.Drained := by
  cases commandStep_cases step with
  | refuses command acquiring => exact drained_quiet drained rfl rfl rfl rfl rfl
  | passes command stopped =>
      -- The guard let the call through, so the condition leaves only a chain that runs.
      have running : s.chain.completed = false := by
        simpa [drainsFirst, command, stopped] using allowed
      exact drained_running drained running rfl rfl rfl
  | clears command =>
      exact drained_running drained (drained.launches (by rw [command]; rfl)) rfl rfl rfl
  | fails command thrown =>
      exact drained_running drained (drained.launches (by rw [command]; rfl)) rfl rfl rfl
  | spawns command =>
      exact drained_running drained (drained.launches (by rw [command]; rfl)) rfl rfl rfl
  | overwrites command handle =>
      have running := drained.launches (by rw [command]; rfl)
      exact drained_running drained running rfl rfl (by rw [command]; rfl)
  | moves command handle =>
      exact drained_running drained (drained.launches (by rw [command]; rfl)) rfl rfl rfl
  | reports command =>
      have fresh := unannounced_of_running drained (drained.launches (by rw [command]; rfl))
      exact drained_publishes drained fresh rfl (fun same => by cases same) rfl rfl
  | flags command =>
      rename_i terminate
      cases terminate with
      | false => exact drained_quiet drained rfl rfl rfl rfl rfl
      | true => exact drained_quiet drained rfl rfl rfl rfl rfl
  | signalledTwice command completed => exact drained_quiet drained rfl rfl rfl rfl rfl
  | signals command running =>
      apply drained_signals drained running
      simpa [drainsFirst, command, running] using allowed
  | waits command completed =>
      have signalled := drained.signalled (by rw [command]; rfl)
      refine drained_moves drained (Or.inl rfl) rfl rfl ?_ ?_ ?_
      · exact fun launches => by cases launches
      · exact fun _ => signalled
      · exact fun _ => completed
  | announces command =>
      obtain ⟨signalled, fresh⟩ := drained.signalled (by rw [command]; rfl)
      exact drained_publishes drained fresh rfl (fun _ => ⟨signalled, drained.ready command⟩) rfl rfl
  | finds command handle => exact drained_quiet drained rfl rfl rfl rfl rfl
  | joins command handle here ended => exact drained_joins drained ended _

theorem drained_event {s : Console} (drained : s.Drained) (running : s.chain.completed = false)
    (event : Event) (encoded : ∀ record, event = .notified record → encodes record = true)
    (threads : List Thread) (terminated : Option Termination) :
    (Console.sees { s with threads := threads, terminated := terminated } event).Drained := by
  have fresh := unannounced_of_running drained running
  have grown : notifiedOf (s.history ++ [.worker event]) =
      notifiedOf s.history ++ event.record.toList := by
    rw [notifiedOf_append, notifiedOf, notifiedOf, filterMap_cons_toList]
    simp
  constructor
  case sound =>
    rw [sees_history, grown]
    cases event with
    | notified record => exact sound_notify drained.sound record running
    | _ =>
        rw [Event.record, Option.toList_none, List.append_nil]
        · exact drained.sound
        · simp
  case encodes =>
    rw [sees_history, grown]
    intro record member
    rcases List.mem_append.mp member with old | new
    · exact drained.encodes record old
    · cases event with
      | notified notifiedRecord =>
          rw [List.mem_singleton.mp new]
          exact encodes_frame (encoded notifiedRecord rfl)
      | _ => cases new
  case idle =>
    intro completed
    rw [sees_completed, running] at completed
    cases completed
  case launches => simp [running]
  case signalled =>
    intro unannounced
    rw [sees_command] at unannounced
    exact absurd ((drained.signalled unannounced).1.symm.trans running) (by decide)
  case ready =>
    rw [sees_command, sees_phase]
    exact drained.ready
  case announced =>
    rw [sees_history]
    exact fun member => absurd member (by simp [fresh])
  case last =>
    rw [sees_history]
    exact last_concat fresh _

theorem drained_work {segmentSize : UInt64} {s next : Console} (drained : s.Drained) {thread : Nat}
    {answers : Answers} (allowed : drainsFirst s (.works thread answers) = true)
    (step : s.workStep segmentSize thread answers = some next) : next.Drained := by
  obtain ⟨t, worker, event, here, alive, stepped, rfl⟩ := workStep_cases step
  -- A worker that takes a step has not ended, so completion has not been signalled.
  have running : s.chain.completed = false := by
    rw [← Bool.not_eq_true]
    intro completed
    exact alive (drained.idle completed t (List.mem_of_getElem? here))
  cases event with
  | none =>
      refine drained_moves drained (Or.inr running) rfl rfl ?_ ?_ ?_
      · exact fun _ => running
      · exact drained.signalled
      · exact drained.ready
  | some event =>
      apply drained_event drained running event
      rintro record rfl
      obtain ⟨data, statement, same⟩ := step_notified (congrArg Prod.snd stepped)
      rw [same]
      simpa [drainsFirst, here, statement] using allowed

/-- Once the `ProcessSubject` has completed, no turn takes it further. -/
theorem turn_waited {c next : Chain} {notified : List UimfAcquisitionRecord}
    (sound : c.Sound notified) (completed : c.processing.phase = .completed) {turn : Turn}
    (step : c.turn turn = some next) : next.processing.phase = .completed := by
  cases turn with
  | processing =>
      simp only [Chain.turn, Chain.turnProcessing] at step
      split at step
      case h_1 sink frame rest pending =>
        have drains := sound.handling (by simp [pending])
        rw [completed] at drains
        cases drains
      case h_2 =>
        rw [completed] at step
        cases step
  | zmq =>
      simp only [Chain.turn] at step
      split at step <;> cases step
      exact completed
  | writer =>
      simp only [Chain.turn] at step
      split at step <;> cases step
      exact completed

theorem drained_turn {s : Console} {chain : Chain} (drained : s.Drained) {turn : Turn}
    (step : s.chain.turn turn = some chain) : Console.Drained { s with chain := chain } := by
  have same := turn_completed step
  exact {
    sound := sound_turn drained.sound step
    encodes := drained.encodes
    idle := fun completed => drained.idle (same ▸ completed)
    launches := fun launches => same.trans (drained.launches launches)
    signalled := fun unannounced =>
      ⟨same.trans (drained.signalled unannounced).1, (drained.signalled unannounced).2⟩
    ready := fun announcing => turn_waited drained.sound (drained.ready announcing) step
    announced := fun member =>
      ⟨same.trans (drained.announced member).1,
        turn_waited drained.sound (drained.announced member).2 step⟩
    last := drained.last }

theorem drained_step {segmentSize : UInt64} {s next : Console} {label : ConsoleLabel}
    (drained : s.Drained) (allowed : drainsFirst s label = true)
    (step : s.step segmentSize label = some next) : next.Drained := by
  unfold Console.step at step
  split at step
  · cases step
  · cases label with
    | calls call =>
        simp only at step
        split at step
        · cases step
          cases call <;>
            (refine drained_moves drained (Or.inl rfl) rfl rfl ?_ ?_ ?_ <;>
              simp [Console.begins, Command.launches, Command.unannounced])
        · cases step
    | commands spawnFails => exact drained_command drained allowed step
    | works thread answers => exact drained_work drained allowed step
    | turns turn =>
        obtain ⟨chain, moved, same⟩ := Option.map_eq_some_iff.mp step
        rw [← same]
        exact drained_turn drained moved

/-- In a run that signals completion only over workers that have ended, starts nothing
after it and notifies no record that `to_frame` throws on, nothing is lost at shutdown
and nothing follows `finished acquire`. -/
theorem chain_shuts_down (segmentSize : UInt64) (labels : List ConsoleLabel) (s : Console)
    (meets : Meets (Console.step segmentSize) (fun s label => drainsFirst s label = true) .begin labels)
    (ran : run (Console.step segmentSize) .begin labels = some s) : s.ShutDown := by
  apply drained_shutDown
  exact run_keeps (fun _ _ _ => drained_step) drained_begin meets ran

def servingDigitizer : Answers := ⟨false, .ok false, .ok (), .ok (stamped 1), .ok ()⟩

def startScan : List ConsoleLabel :=
  .calls (.start oneScan) :: List.replicate 4 (.commands none)

def works (count : Nat) : List ConsoleLabel := List.replicate count (.works 0 servingDigitizer)

/-- The chain's three workers from the signal to the end, the writer with nothing to do. -/
def chainEnds (processing zmq : Nat) : List ConsoleLabel :=
  List.replicate processing (.turns .processing) ++ List.replicate zmq (.turns .zmq) ++
    List.replicate 4 (.turns .writer) ++ List.replicate 3 (.turns .processing)

/-- One record, then `stop(false)`, then `stop(true)` over the joined worker. -/
def stoppedTwice : List ConsoleLabel :=
  startScan ++ works 6 ++ (.calls (.stop false) :: [.commands none]) ++ works 4 ++
    [.commands none] ++ (.calls (.stop true) :: List.replicate 2 (.commands none)) ++
    chainEnds 11 10 ++ List.replicate 3 (.commands none)

theorem chain_shuts_down_stopped_twice :
    ∃ s, run (Console.step 500) .begin stoppedTwice = some s ∧ s.ShutDown := by
  obtain ⟨s, allowed⟩ := Option.isSome_iff_exists.mp
    (by decide +kernel : (runAllowed (Console.step 500) drainsFirst .begin stoppedTwice).isSome = true)
  obtain ⟨ran, meets⟩ := runAllowed_meets allowed
  exact ⟨s, ran, chain_shuts_down 500 stoppedTwice s meets ran⟩

/-- `stop(true)` while the worker is in `acquire`: the chain ends over its empty queues,
`finished acquire` is published, and only then does `acquire` return. -/
def stoppedInAcquire : List ConsoleLabel :=
  startScan ++ works 4 ++ (.calls (.stop true) :: List.replicate 2 (.commands none)) ++
    chainEnds 4 4 ++ List.replicate 2 (.commands none) ++ works 2

/-- The record notified after `finished acquire`, which no worker of the chain is left
to take. -/
theorem chain_shuts_down_in_acquire :
    ¬ ∀ (labels : List ConsoleLabel) (s : Console),
      run (Console.step 500) .begin labels = some s → s.ShutDown := by
  intro claimed
  have late : (run (Console.step 500) .begin stoppedInAcquire).map
      (fun s => s.history.drop 3) =
        some [.announced, .worker (.acquired 1 (.ok (stamped 1))),
          .worker (.notified ⟨oneScan, (stamped 1), 0⟩)] := rfl
  obtain ⟨s, ran, history⟩ := Option.map_eq_some_iff.mp late
  have split : s.history = s.history.take 3 ++ .announced ::
      [.worker (.acquired 1 (.ok (stamped 1))), .worker (.notified ⟨oneScan, (stamped 1), 0⟩)] := by
    rw [← history, List.take_append_drop]
  have silent := ((claimed stoppedInAcquire s ran).silent _ _ split).1
  cases silent

end AqMD3.Acquisition
