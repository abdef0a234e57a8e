import AqMD3.FrameStatuses
import AqMD3.SerialFrames

/-!
The status topic over whole runs of the console. What the workers publish comes frame after
frame in the order the frames were started, and a frame's part is over before the next one
says anything.
-/

namespace AqMD3.Acquisition

open QueueStage Transitions

/-- What is heard of a worker: at most one error of its frame, and `finished` once it ends. -/
def FrameHeard (w : Worker) (heard : List String) : Prop :=
  ∃ errors : List String, errors.length ≤ 1 ∧
    (∀ text ∈ errors, ∃ thrown, text = errorStatus w.parameters.frameNumber thrown) ∧
    heard = if w.statement = .ended then errors ++ [finished] else errors

/-- What a frame has published where it stands; an error that is about to be is its first. -/
structure Telling (f : Frame) : Prop where
  told : ∃ errors : List String, errors.length ≤ (if f.worker.hasErrored then 1 else 0) ∧
    (∀ text ∈ errors, ∃ thrown, text = errorStatus f.worker.parameters.frameNumber thrown) ∧
    statuses f.events = if f.worker.statement = .ended then errors ++ [finished] else errors
  acquiring : f.worker.statement = .acquiring → f.worker.hasErrored = false
  reporting : ∀ text, f.worker.statement = .reporting text → f.worker.hasErrored = false ∧
    ∃ thrown, text = errorStatus f.worker.parameters.frameNumber thrown

variable {b : Behaviour} {segmentSize : UInt64} {parameters : UimfFrameParameters}

theorem telling_spawned (parameters : UimfFrameParameters) : Telling (.spawned parameters) where
  told := ⟨[], by simp, by simp, by simp [Frame.spawned, Worker.spawned]⟩
  acquiring := by simp [Frame.spawned, Worker.spawned]
  reporting := by simp [Frame.spawned, Worker.spawned]

theorem telling_quiet {f : Frame} (telling : Telling f) (next : Worker) (acquires : Nat)
    (event : Option Event) (silent : ∀ e, event = some e → e.status = none)
    (same : next.parameters = f.worker.parameters)
    (errored : next.hasErrored = f.worker.hasErrored)
    (before : f.worker.statement ≠ .ended) (after : next.statement ≠ .ended)
    (asks : next.statement = .acquiring → f.worker.hasErrored = false)
    (reports : ∀ text, next.statement = .reporting text → f.worker.hasErrored = false ∧
      ∃ thrown, text = errorStatus f.worker.parameters.frameNumber thrown) :
    Telling ⟨next, acquires, f.events ++ event.toList⟩ where
  told := by
    obtain ⟨errors, few, named, heard⟩ := telling.told
    refine ⟨errors, by rw [errored]; exact few, by rw [same]; exact named, ?_⟩
    rw [if_neg before] at heard
    rw [if_neg after, statuses_append, heard]
    cases event with
    | none => exact List.append_nil _
    | some e =>
        rw [Option.toList_some, statuses_cons, silent e rfl]
        exact List.append_nil _
  acquiring := by rw [errored]; exact asks
  reporting := by rw [errored, same]; exact reports

theorem telling_report {f : Frame} (telling : Telling f) {text : String}
    (reporting : f.worker.statement = .reporting text) :
    Telling ⟨{ f.worker with statement := .testing, hasErrored := true }, f.acquires,
      f.events ++ [.published text]⟩ where
  told := by
    obtain ⟨errors, few, named, heard⟩ := telling.told
    obtain ⟨clean, thrown, same⟩ := telling.reporting text reporting
    simp only [clean, Bool.false_eq_true, if_false, Nat.le_zero, List.length_eq_zero_iff] at few
    simp only [few, reporting, reduceCtorEq, if_false] at heard
    refine ⟨[text], le_rfl, ?_, ?_⟩
    · intro other member
      exact ⟨thrown, (List.mem_singleton.mp member).trans same⟩
    · simp [heard]
  acquiring := by simp
  reporting := by simp

theorem telling_finish {f : Frame} (telling : Telling f)
    (finishing : f.worker.statement = .finishing) :
    Telling ⟨f.worker.goto .ended, f.acquires, f.events ++ [.published finished]⟩ where
  told := by
    obtain ⟨errors, few, named, heard⟩ := telling.told
    refine ⟨errors, few, named, ?_⟩
    simp only [finishing, reduceCtorEq, if_false] at heard
    simp [heard]
  acquiring := by simp
  reporting := by simp

theorem telling_step {f : Frame} (telling : Telling f) : Telling (f.step b segmentSize) := by
  have quiet := telling_quiet telling
  cases statement : f.worker.statement with
  | entering =>
      simpa [Frame.step, Worker.step, statement] using
        quiet (f.worker.goto .asking) f.acquires (some (.stored .acquiring)) (by simp) rfl rfl
          (by simp [statement]) (by simp) (by simp) (by simp)
  | asking =>
      rcases asked : b.getIsAcquiring with thrown | _ | _
      · simpa [Frame.step, Worker.step, statement, Behaviour.answers, asked] using
          quiet (f.worker.goto (.escaped thrown)) f.acquires (some (.asked (.error thrown)))
            (by simp) rfl rfl (by simp [statement]) (by simp) (by simp) (by simp)
      · simpa [Frame.step, Worker.step, statement, Behaviour.answers, asked] using
          quiet (f.worker.goto .starting) f.acquires (some (.asked (.ok false))) (by simp) rfl rfl
            (by simp [statement]) (by simp) (by simp) (by simp)
      · simpa [Frame.step, Worker.step, statement, Behaviour.answers, asked] using
          quiet (f.worker.goto .stopping) f.acquires (some (.asked (.ok true))) (by simp) rfl rfl
            (by simp [statement]) (by simp) (by simp) (by simp)
  | starting =>
      cases started : b.start with
      | error thrown =>
          simpa [Frame.step, Worker.step, statement, Behaviour.answers, started] using
            quiet (f.worker.goto (.escaped thrown)) f.acquires (some (.started (.error thrown)))
              (by simp) rfl rfl (by simp [statement]) (by simp) (by simp) (by simp)
      | ok _ =>
          simpa [Frame.step, Worker.step, statement, Behaviour.answers, started] using
            quiet (f.worker.goto .testing) f.acquires (some (.started (.ok ()))) (by simp) rfl rfl
              (by simp [statement]) (by simp) (by simp) (by simp)
  | testing =>
      by_cases short : f.worker.scansAcquiredCount < f.worker.parameters.frameLength
      · cases clean : f.worker.hasErrored with
        | true =>
            simpa [Frame.step, Worker.step, statement, short, clean] using
              quiet (f.worker.goto .stopping) f.acquires none (by simp) rfl rfl
                (by simp [statement]) (by simp) (by simp) (by simp)
        | false =>
            cases stop : b.shouldStop f.acquires with
            | true =>
                simpa [Frame.step, Worker.step, statement, short, clean, Behaviour.answers, stop]
                  using quiet (f.worker.goto .stopping) f.acquires (some .sawStop) (by simp) rfl rfl
                    (by simp [statement]) (by simp) (by simp) (by simp)
            | false =>
                simpa [Frame.step, Worker.step, statement, short, clean, Behaviour.answers, stop]
                  using quiet (f.worker.goto .acquiring) f.acquires none (by simp) rfl rfl
                    (by simp [statement]) (by simp) (fun _ => clean) (by simp)
      · simpa [Frame.step, Worker.step, statement, short] using
          quiet (f.worker.goto .stopping) f.acquires none (by simp) rfl rfl (by simp [statement])
            (by simp) (by simp) (by simp)
  | acquiring =>
      have clean := telling.acquiring statement
      cases answer : b.acquire f.acquires with
      | error thrown =>
          simpa [Frame.step, Worker.step, statement, Behaviour.answers, answer] using
            quiet (f.worker.goto (.reporting (errorStatus f.worker.parameters.frameNumber thrown)))
              (f.acquires + 1) (some (.acquired (f.worker.toAcquireCount segmentSize) (.error thrown)))
              (by simp) rfl rfl (by simp [statement]) (by simp) (by simp)
              (fun text same => ⟨clean, thrown, by injection same with same; exact same.symm⟩)
      | ok data =>
          simpa [Frame.step, Worker.step, statement, Behaviour.answers, answer] using
            quiet (f.worker.goto (.notifying data)) (f.acquires + 1)
              (some (.acquired (f.worker.toAcquireCount segmentSize) (.ok data)))
              (by simp) rfl rfl (by simp [statement]) (by simp) (by simp) (by simp)
  | notifying data =>
      simpa [Frame.step, Worker.step, statement] using
        quiet { f.worker with
            statement := .testing
            scansAcquiredCount := f.worker.scansAcquiredCount + UInt64.ofNat data.stamps.length }
          f.acquires (some (.notified ⟨f.worker.parameters, data, f.worker.scansAcquiredCount⟩))
          (by simp) rfl rfl (by simp [statement]) (by simp) (by simp) (by simp)
  | reporting text =>
      simpa [Frame.step, Worker.step, statement] using telling_report telling statement
  | stopping =>
      simpa [Frame.step, Worker.step, statement] using
        quiet (f.worker.goto .aborting) f.acquires (some (.stored .stopped)) (by simp) rfl rfl
          (by simp [statement]) (by simp) (by simp) (by simp)
  | aborting =>
      cases stop : b.stop with
      | error thrown =>
          simpa [Frame.step, Worker.step, statement, Behaviour.answers, stop] using
            quiet (f.worker.goto (.escaped thrown)) f.acquires (some (.aborted (.error thrown)))
              (by simp) rfl rfl (by simp [statement]) (by simp) (by simp) (by simp)
      | ok _ =>
          simpa [Frame.step, Worker.step, statement, Behaviour.answers, stop] using
            quiet (f.worker.goto .finishing) f.acquires (some (.aborted (.ok ()))) (by simp) rfl rfl
              (by simp [statement]) (by simp) (by simp) (by simp)
  | finishing =>
      simpa [Frame.step, Worker.step, statement] using telling_finish telling statement
  | ended =>
      rw [frame_step_over (Or.inl statement)]
      exact telling
  | escaped thrown =>
      rw [frame_step_over (Or.inr ⟨thrown, statement⟩)]
      exact telling

theorem after_telling (steps : Nat) : Telling (Frame.after b segmentSize parameters steps) := by
  induction steps with
  | zero => exact telling_spawned parameters
  | succ steps ih => exact telling_step ih

theorem alone_heard {w : Worker} {events : List Event} (alone : Alone segmentSize w events) :
    FrameHeard w (statuses events) := by
  obtain ⟨b, steps, reached, seen⟩ := alone
  obtain ⟨errors, few, named, heard⟩ := (@after_telling b segmentSize w.parameters steps).told
  rw [reached] at few named heard
  rw [seen] at heard
  refine ⟨errors, few.trans ?_, named, heard⟩
  split
  · exact le_rfl
  · exact Nat.zero_le 1

theorem finished_unlike (frameNumber : UInt32) (thrown : Thrown) :
    finished ≠ errorStatus frameNumber thrown := by
  intro same
  obtain ⟨rest, error⟩ := errorStatus_error frameNumber thrown
  have first := congrArg (fun text => text.toList.head?) (same.trans error)
  rw [String.toList_append] at first
  have other : ("error".toList ++ rest.toList).head? = some 'e' := rfl
  exact absurd (first.trans other) (by decide)

theorem heard_finished {w : Worker} {heard : List String} (part : FrameHeard w heard) :
    heard.count finished = if w.statement = .ended then 1 else 0 := by
  obtain ⟨errors, _, named, rfl⟩ := part
  have none : errors.count finished = 0 := by
    rw [List.count_eq_zero]
    intro member
    obtain ⟨thrown, same⟩ := named finished member
    exact finished_unlike _ thrown same
  split
  · rw [List.count_append, none, List.count_singleton_self]
  · exact none

theorem heard_counts {workers : List Worker} {heard : List (List String)}
    (parts : List.Forall₂ FrameHeard workers heard) :
    heard.flatten.count finished = workers.countP fun w => w.statement = .ended := by
  induction parts with
  | nil => rfl
  | cons part rest ih =>
      rw [List.flatten_cons, List.count_append, ih, heard_finished part, List.countP_cons,
        Nat.add_comm]
      simp only [decide_eq_true_eq]

/-- In every run in which no handle is about to be overwritten, what the workers have published
is what is heard of each frame, in the order the frames were started; all but the last are over,
and a client has heard `finished` as often as frames have ended. -/
theorem statuses_framed (segmentSize : UInt64) (labels : List ConsoleLabel) (s : Console)
    (ran : run (Console.step segmentSize) .begin labels = some s) (safe : ¬ s.Doomed) :
    (∃ heard : List (List String),
      List.Forall₂ FrameHeard (s.threads.map Thread.worker) heard ∧
        statuses (workerEvents s.history) = heard.flatten) ∧
    (∀ (i : Nat) (t : Thread), s.threads[i]? = some t → i + 1 < s.threads.length →
      t.worker.statement = .ended) ∧
    (statuses (workerEvents s.history)).count finished =
      s.threads.countP fun t => t.worker.statement = .ended := by
  have turn := (console_inTurn ran).resolve_right safe
  obtain ⟨frames, all, events⟩ := turn.serial
  have parts : List.Forall₂ FrameHeard (s.threads.map Thread.worker) (frames.map statuses) := by
    rw [List.forall₂_map_right_iff]
    exact all.imp fun _ _ => alone_heard
  have told : statuses (workerEvents s.history) = (frames.map statuses).flatten := by
    rw [events, statuses, List.filterMap_flatten]
    rfl
  refine ⟨⟨frames.map statuses, parts, told⟩, ?_, ?_⟩
  · intro i t here more
    by_contra alive
    have last := turn.lone.last i t here alive
    omega
  · rw [told, heard_counts parts, List.countP_map]
    rfl

/-- Two frames of no scans, the first joined before the second is started. -/
theorem statuses_framed_joined_between :
    ∃ s, run (Console.step 500) .begin joinedBetween = some s ∧
      (∃ heard : List (List String),
        List.Forall₂ FrameHeard (s.threads.map Thread.worker) heard ∧
          statuses (workerEvents s.history) = heard.flatten) ∧
      (∀ (i : Nat) (t : Thread), s.threads[i]? = some t → i + 1 < s.threads.length →
        t.worker.statement = .ended) ∧
      (statuses (workerEvents s.history)).count finished =
        s.threads.countP fun t => t.worker.statement = .ended := by
  have reached : (run (Console.step 500) .begin joinedBetween).map Console.command =
      some (.idle (some (.start noScans))) := by decide +kernel
  obtain ⟨s, ran, idle⟩ := Option.map_eq_some_iff.mp reached
  refine ⟨s, ran, statuses_framed 500 joinedBetween s ran ?_⟩
  rintro ⟨⟨parameters, thread, moving⟩, _⟩
  rw [idle] at moving
  cases moving

end AqMD3.Acquisition
