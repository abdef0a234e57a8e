import AqMD3.ChainShutdown

/-!
The order of what is on its way through the chain, in every state of every run: also where
records are notified behind the completion signal, and where the process has been ended.
-/

namespace AqMD3.Acquisition

open QueueStage Transitions

/-- What holds of a chain whatever is notified, also behind its completion: the records and
the frames are where they are in their order. -/
structure Chain.Carries (notified : List UimfAcquisitionRecord) (c : Chain) : Prop where
  received : c.processing.received = notified
  routed : ∀ sink, (c.sink sink).received ++ forSink sink c.pending =
    forSink sink (c.processing.seen.flatMap updates)

theorem carries_begin : Chain.Carries [] .begin where
  received := rfl
  routed := fun sink => by cases sink <;> rfl

variable {c : Chain} {notified : List UimfAcquisitionRecord}

theorem carries_notify (carries : c.Carries notified) (record : UimfAcquisitionRecord) :
    (c.notify .both record).Carries (notified ++ [record]) where
  received := by
    rw [← carries.received]
    exact received_update _ _
  routed := carries.routed

/-- A step of the worker that handles no record. -/
theorem carries_loop (carries : c.Carries notified)
    (handled : (c.processing.step c.completed).seen = c.processing.seen) :
    Chain.Carries notified { c with processing := c.processing.step c.completed } where
  received := (received_step _ _).trans carries.received
  routed := by
    rw [handled]
    exact carries.routed

theorem carries_updates (carries : c.Carries notified) {sink : Sink} {frame : UimfFrame}
    {rest : List (Sink × UimfFrame)} (pending : c.pending = (sink, frame) :: rest) :
    Chain.Carries notified { c.update frame sink with pending := rest } where
  received := by
    rw [update_processing]
    exact carries.received
  routed := by
    intro other
    have routed := carries.routed other
    rw [pending] at routed
    change ((c.update frame sink).sink other).received ++ forSink other rest =
      forSink other ((c.update frame sink).processing.seen.flatMap updates)
    rw [update_processing, update_sink, ← routed]
    by_cases same : other = sink
    · simp [same, received_update, forSink]
    · simp [same, Ne.symm same, forSink]

theorem carries_handles (carries : c.Carries notified) (pending : c.pending = [])
    (drains : c.processing.phase = .drains) {record : UimfAcquisitionRecord}
    {rest : List UimfAcquisitionRecord} (items : c.processing.items = record :: rest) :
    Chain.Carries notified
      { c with processing := c.processing.step c.completed, pending := updates record } where
  received := (received_step _ _).trans carries.received
  routed := by
    intro sink
    have popped : (c.processing.step c.completed).seen = c.processing.seen ++ [record] := by
      simp only [QueueWorker.step, drains, items]
    have routed := carries.routed sink
    rw [pending] at routed
    rw [popped, List.flatMap_append, forSink_append, ← routed]
    simp [Chain.sink, forSink]

theorem carries_turnProcessing (carries : c.Carries notified) {next : Chain}
    (step : c.turnProcessing = some next) : next.Carries notified := by
  unfold Chain.turnProcessing at step
  split at step
  case h_1 sink frame rest pending =>
    cases step
    exact carries_updates carries pending
  case h_2 pending =>
    split at step
    case h_1 => cases step
    case h_2 completing =>
      split at step
      case h_1 =>
        cases step
        exact ⟨carries.received, carries.routed⟩
      case h_2 =>
        split at step <;> cases step
        exact ⟨carries.received, carries.routed⟩
      case h_3 =>
        cases step
        exact carries_loop carries (by simp only [QueueWorker.step, completing])
    case h_3 drains =>
      split at step
      case h_1 items =>
        cases step
        exact carries_loop carries (by simp only [QueueWorker.step, drains, items])
      case h_2 record rest items =>
        split at step <;> cases step
        exact carries_handles carries pending drains items
    case h_4 undrained =>
      cases step
      apply carries_loop carries
      cases phase : c.processing.phase with
      | drains => exact absurd phase undrained
      | _ => simp only [QueueWorker.step, phase]

theorem carries_turn (carries : c.Carries notified) {turn : Turn} {next : Chain}
    (step : c.turn turn = some next) : next.Carries notified := by
  cases turn with
  | processing => exact carries_turnProcessing carries step
  | zmq =>
      simp only [Chain.turn] at step
      split at step <;> cases step
      refine ⟨carries.received, ?_⟩
      rintro (_ | _)
      · rw [Chain.sink, received_step]
        exact carries.routed .zmq
      · exact carries.routed .writer
  | writer =>
      simp only [Chain.turn] at step
      split at step <;> cases step
      refine ⟨carries.received, ?_⟩
      rintro (_ | _)
      · exact carries.routed .zmq
      · rw [Chain.sink, received_step]
        exact carries.routed .writer

/-- A sink has handled the first of the frames made for it, none of them twice. -/
theorem carries_seen (carries : c.Carries notified) (sink : Sink) :
    (c.sink sink).seen <+: forSink sink (notified.flatMap updates) := by
  have routed := carries.routed sink
  have handled : forSink sink (c.processing.seen.flatMap updates) <+:
      forSink sink (notified.flatMap updates) := by
    rw [← carries.received, QueueWorker.received, List.append_assoc, List.flatMap_append,
      forSink_append]
    exact List.prefix_append _ _
  refine List.IsPrefix.trans ?_ handled
  rw [← routed, QueueWorker.received, List.append_assoc, List.append_assoc]
  exact List.prefix_append _ _

variable {segmentSize : UInt64}

theorem carries_still {s next : Console} (carries : s.chain.Carries (notifiedOf s.history))
    (processing : next.chain.processing = s.chain.processing)
    (pending : next.chain.pending = s.chain.pending)
    (sinks : ∀ sink, next.chain.sink sink = s.chain.sink sink)
    (history : notifiedOf next.history = notifiedOf s.history) :
    next.chain.Carries (notifiedOf next.history) where
  received := by
    rw [history, processing]
    exact carries.received
  routed := by
    intro sink
    rw [processing, pending, sinks]
    exact carries.routed sink

theorem carries_step {s next : Console} {label : ConsoleLabel}
    (carries : s.chain.Carries (notifiedOf s.history))
    (step : s.step segmentSize label = some next) :
    next.chain.Carries (notifiedOf next.history) := by
  unfold Console.step at step
  split at step
  · cases step
  · cases label with
    | calls call =>
        simp only at step
        split at step
        · cases step
          cases call <;> exact carries
        · cases step
    | commands spawnFails =>
        have sinks (chain : Chain) (same : chain = { s.chain with completed := true })
            (sink : Sink) : chain.sink sink = s.chain.sink sink := by
          rw [same]
          cases sink <;> rfl
        cases commandStep_cases step with
        | signals command running =>
            exact carries_still carries rfl rfl (sinks _ rfl) rfl
        | reports command | announces command =>
            refine carries_still carries rfl rfl (fun _ => rfl) ?_
            rw [notifiedOf_append]
            exact List.append_nil _
        | refuses command | passes command | clears command | fails command | spawns command
        | overwrites command | moves command | flags command | signalledTwice command
        | waits command | finds command | joins command => exact carries
    | works thread answers =>
        obtain ⟨t, worker, event, _, _, _, rfl⟩ := workStep_cases step
        cases event with
        | none => exact carries
        | some event =>
            rw [Option.elim_some, sees_history, notifiedOf_append]
            cases event with
            | notified record => exact carries_notify carries record
            | _ =>
                rw [show notifiedOf [Entry.worker _] = [] from rfl, List.append_nil]
                exact carries
    | turns turn =>
        obtain ⟨chain, turned, rfl⟩ := Option.map_eq_some_iff.mp step
        exact carries_turn carries turned

theorem console_carries {labels : List ConsoleLabel} {s : Console}
    (ran : run (Console.step segmentSize) .begin labels = some s) :
    s.chain.Carries (notifiedOf s.history) := by
  have keeps (s : Console) (label : ConsoleLabel) (next : Console)
      (carries : s.chain.Carries (notifiedOf s.history))
      (step : s.step segmentSize label = some next) :
      next.chain.Carries (notifiedOf next.history) := carries_step carries step
  have start : Console.begin.chain.Carries (notifiedOf Console.begin.history) := carries_begin
  exact run_invariant keeps start ran

end AqMD3.Acquisition
