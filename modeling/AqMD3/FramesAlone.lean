import AqMD3.AcquirePublisherWorker
import Mathlib.Data.Prod.Lex
import Mathlib.Logic.Function.Basic

/-!
A worker of the console against a frame run alone. Its statements ask each question of the
streaming context at most once, so the answers it was given, whoever else took steps in
between, are those of one behaviour.
-/

namespace AqMD3.Acquisition

/-- How far a frame is: whether its loop is behind it, and where in the loop it stands. -/
def Frame.place (f : Frame) : Nat ×ₗ Nat :=
  match f.worker.statement with
  | .entering => toLex (0, 0)
  | .asking => toLex (0, 1)
  | .starting => toLex (0, 2)
  | .testing => toLex (0, 3 + 3 * f.acquires)
  | .acquiring => toLex (0, 4 + 3 * f.acquires)
  -- The call that is dealt with here is counted already.
  | .notifying _ | .reporting _ => toLex (0, 2 + 3 * f.acquires)
  | .stopping => toLex (1, 0)
  | .aborting => toLex (2, 0)
  | .finishing => toLex (3, 0)
  | .ended | .escaped _ => toLex (4, 0)

theorem place_step (b : Behaviour) (segmentSize : UInt64) {f : Frame} (running : ¬ f.worker.Over) :
    f.place < (f.step b segmentSize).place := by
  cases statement : f.worker.statement with
  | entering => simp [Frame.place, Frame.step, Worker.step, statement, Prod.Lex.toLex_lt_toLex]
  | asking =>
      rcases asked : b.getIsAcquiring with _ | _ | _ <;>
        simp [Frame.place, Frame.step, Worker.step, statement, Behaviour.answers, asked,
          Prod.Lex.toLex_lt_toLex]
  | starting =>
      cases started : b.start <;>
        simp [Frame.place, Frame.step, Worker.step, statement, Behaviour.answers, started,
          Prod.Lex.toLex_lt_toLex]
      omega
  | testing =>
      by_cases short : f.worker.scansAcquiredCount < f.worker.parameters.frameLength
      · by_cases clean : f.worker.hasErrored = true
        · simp [Frame.place, Frame.step, Worker.step, statement, short, clean,
            Prod.Lex.toLex_lt_toLex]
        · cases stop : b.shouldStop f.acquires <;>
            simp [Frame.place, Frame.step, Worker.step, statement, short, clean,
              Behaviour.answers, stop, Prod.Lex.toLex_lt_toLex]
      · simp [Frame.place, Frame.step, Worker.step, statement, short, Prod.Lex.toLex_lt_toLex]
  | acquiring =>
      cases answer : b.acquire f.acquires <;>
        simp [Frame.place, Frame.step, Worker.step, statement, Behaviour.answers, answer,
          Prod.Lex.toLex_lt_toLex] <;> omega
  | notifying data =>
      simp [Frame.place, Frame.step, Worker.step, statement, Prod.Lex.toLex_lt_toLex]
  | reporting text =>
      simp [Frame.place, Frame.step, Worker.step, statement, Prod.Lex.toLex_lt_toLex]
  | stopping => simp [Frame.place, Frame.step, Worker.step, statement, Prod.Lex.toLex_lt_toLex]
  | aborting =>
      cases stop : b.stop <;>
        simp [Frame.place, Frame.step, Worker.step, statement, Behaviour.answers, stop,
          Prod.Lex.toLex_lt_toLex]
  | finishing => simp [Frame.place, Frame.step, Worker.step, statement, Prod.Lex.toLex_lt_toLex]
  | ended => exact absurd (Or.inl statement) running
  | escaped thrown => exact absurd (Or.inr ⟨thrown, statement⟩) running

variable {b : Behaviour} {segmentSize : UInt64} {parameters : UimfFrameParameters}

theorem place_increases (steps : Nat)
    (running : ¬ (Frame.after b segmentSize parameters steps).worker.Over) (earlier : Nat)
    (before : earlier < steps) :
    (Frame.after b segmentSize parameters earlier).place <
      (Frame.after b segmentSize parameters steps).place := by
  induction steps with
  | zero => exact absurd before (Nat.not_lt_zero earlier)
  | succ steps ih =>
      have ran : ¬ (Frame.after b segmentSize parameters steps).worker.Over := by
        intro done
        rw [Frame.after, frame_step_over done] at running
        exact running done
      have next := place_step b segmentSize ran
      rcases Nat.lt_succ_iff_lt_or_eq.mp before with sooner | rfl
      · exact lt_trans (ih ran sooner) next
      · exact next

/-- The behaviour that answers a frame's next question so, and all others as before. -/
def Behaviour.answering (b : Behaviour) (f : Frame) (answers : Answers) : Behaviour :=
  match f.worker.statement with
  | .asking => { b with getIsAcquiring := answers.getIsAcquiring }
  | .starting => { b with start := answers.start }
  | .testing => { b with shouldStop := Function.update b.shouldStop f.acquires answers.shouldStop }
  | .acquiring => { b with acquire := Function.update b.acquire f.acquires answers.acquire }
  | .aborting => { b with stop := answers.stop }
  | _ => b

theorem answering_now (b : Behaviour) (segmentSize : UInt64) (f : Frame) (answers : Answers) :
    f.worker.step segmentSize ((b.answering f answers).answers f.acquires) =
      f.worker.step segmentSize answers := by
  cases statement : f.worker.statement <;>
    simp [Worker.step, Behaviour.answering, Behaviour.answers, statement]

theorem answering_before (b : Behaviour) (segmentSize : UInt64) {g f : Frame} (answers : Answers)
    (earlier : g.place < f.place) :
    g.step (b.answering f answers) segmentSize = g.step b segmentSize := by
  have elsewhere : g.worker.statement = f.worker.statement → g.acquires ≠ f.acquires := by
    intro statement acquires
    have same : g.place = f.place := by rw [Frame.place, Frame.place, statement, acquires]
    exact lt_irrefl _ (same ▸ earlier)
  cases statement : g.worker.statement with
  | asking =>
      have unasked : (b.answering f answers).getIsAcquiring = b.getIsAcquiring := by
        unfold Behaviour.answering
        split
        case h_1 asking => simp [Frame.place, statement, asking] at earlier
        all_goals rfl
      simp [Frame.step, Worker.step, statement, Behaviour.answers, unasked]
  | starting =>
      have unstarted : (b.answering f answers).start = b.start := by
        unfold Behaviour.answering
        split
        case h_2 starting => simp [Frame.place, statement, starting] at earlier
        all_goals rfl
      simp [Frame.step, Worker.step, statement, Behaviour.answers, unstarted]
  | testing =>
      have untested : (b.answering f answers).shouldStop g.acquires = b.shouldStop g.acquires := by
        unfold Behaviour.answering
        split
        case h_3 testing =>
          exact Function.update_of_ne (elsewhere (statement.trans testing.symm)) _ _
        all_goals rfl
      cases stop : b.shouldStop g.acquires <;>
        simp [Frame.step, Worker.step, statement, Behaviour.answers, untested.trans stop, stop]
  | acquiring =>
      have uncalled : (b.answering f answers).acquire g.acquires = b.acquire g.acquires := by
        unfold Behaviour.answering
        split
        case h_4 acquiring =>
          exact Function.update_of_ne (elsewhere (statement.trans acquiring.symm)) _ _
        all_goals rfl
      simp [Frame.step, Worker.step, statement, Behaviour.answers, uncalled]
  | aborting =>
      have unstopped : (b.answering f answers).stop = b.stop := by
        unfold Behaviour.answering
        split
        case h_5 aborting => simp [Frame.place, statement, aborting] at earlier
        all_goals rfl
      simp [Frame.step, Worker.step, statement, Behaviour.answers, unstopped]
  | _ => simp [Frame.step, Worker.step, statement]

theorem answering_after (answers : Answers) (steps : Nat)
    (running : ¬ (Frame.after b segmentSize parameters steps).worker.Over) (earlier : Nat)
    (before : earlier ≤ steps) :
    Frame.after (b.answering (Frame.after b segmentSize parameters steps) answers) segmentSize
      parameters earlier = Frame.after b segmentSize parameters earlier := by
  induction earlier with
  | zero => rfl
  | succ earlier ih =>
      rw [Frame.after, Frame.after, ih (Nat.le_of_succ_le before)]
      exact answering_before b segmentSize answers (place_increases steps running earlier before)

/-- The worker is where some frame run alone is, and the events are all it has seen. -/
def Alone (segmentSize : UInt64) (w : Worker) (events : List Event) : Prop :=
  ∃ b steps, (Frame.after b segmentSize w.parameters steps).worker = w ∧
    (Frame.after b segmentSize w.parameters steps).events = events

def silentContext : Behaviour where
  getIsAcquiring := .ok false
  start := .ok ()
  acquire _ := .error (.exception "")
  stop := .ok ()
  shouldStop _ := false

theorem alone_spawned (segmentSize : UInt64) (parameters : UimfFrameParameters) :
    Alone segmentSize (.spawned parameters) [] := ⟨silentContext, 0, rfl, rfl⟩

theorem alone_step {w : Worker} {events : List Event} (alone : Alone segmentSize w events)
    (answers : Answers) :
    Alone segmentSize (w.step segmentSize answers).1
      (events ++ (w.step segmentSize answers).2.toList) := by
  by_cases done : w.Over
  · rw [step_over done, Option.toList_none, List.append_nil]
    exact alone
  obtain ⟨b, steps, reached, seen⟩ := alone
  have before := answering_after answers steps (by rw [reached]; exact done) steps le_rfl
  refine ⟨b.answering (Frame.after b segmentSize w.parameters steps) answers, steps + 1, ?_, ?_⟩
  · rw [step_parameters, Frame.after, before, Frame.step, answering_now, reached]
  · rw [step_parameters, Frame.after, before, Frame.step, answering_now, reached, seen]

end AqMD3.Acquisition
