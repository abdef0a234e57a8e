import AqMD3.ChainShutdown
import AqMD3.SerialFrames

/-!
The numbers of the scans over whole runs of the console. A frame's records follow each other
by the counter of its worker, whatever else is notified in between; frames are told apart by
the file and the frame number they were asked for.
-/

namespace AqMD3.Acquisition

open QueueStage Transitions

/-- A frame that is written to a file. -/
def UimfFrameParameters.Named (parameters : UimfFrameParameters) : Prop :=
  parameters.fileName.isEmpty = false

/-- No two frames of one file have the same number. -/
def Distinct (frames : List UimfFrameParameters) : Prop :=
  frames.Pairwise fun earlier later => earlier.Named →
    ¬ (earlier.fileName = later.fileName ∧ earlier.frameNumber = later.frameNumber)

/-- The scans of the records of a frame. -/
def scansOf (parameters : UimfFrameParameters) (records : List UimfAcquisitionRecord) : Nat :=
  ((records.filter fun record => record.parameters = parameters).map fun record =>
    record.acquiredData.stamps.length).sum

theorem scansOf_append (parameters : UimfFrameParameters) (front back : List UimfAcquisitionRecord) :
    scansOf parameters (front ++ back) = scansOf parameters front + scansOf parameters back := by
  rw [scansOf, List.filter_append, List.map_append, List.sum_append]
  rfl

theorem scansOf_same (record : UimfAcquisitionRecord) :
    scansOf record.parameters [record] = record.acquiredData.stamps.length := by
  simp [scansOf]

theorem scansOf_other {parameters : UimfFrameParameters} {record : UimfAcquisitionRecord}
    (other : record.parameters ≠ parameters) : scansOf parameters [record] = 0 := by
  simp [scansOf, other]

theorem scansOf_none {parameters : UimfFrameParameters} {records : List UimfAcquisitionRecord}
    (none : ∀ record ∈ records, record.parameters ≠ parameters) : scansOf parameters records = 0 := by
  have empty : (records.filter fun record => record.parameters = parameters) = [] := by
    rw [List.filter_eq_nil_iff]
    intro record member
    simpa using none record member
  rw [scansOf, empty]
  rfl

/-- The one record is of an earlier part of the frame that both belong to. -/
def EarlierPart (earlier later : UimfAcquisitionRecord) : Prop :=
  earlier.parameters.Named → earlier.parameters = later.parameters →
    earlier.startScanIndex.toNat + earlier.acquiredData.stamps.length ≤ later.startScanIndex.toNat

/-- The workers' counters against the records handed on so far. -/
structure Numbered (workers : List Worker) (records : List UimfAcquisitionRecord) : Prop where
  counted : ∀ w ∈ workers, w.parameters.Named →
    w.scansAcquiredCount.toNat = scansOf w.parameters records
  owned : ∀ record ∈ records, record.parameters ∈ workers.map Worker.parameters
  within : ∀ record ∈ records, record.parameters.Named →
    record.startScanIndex.toNat + record.acquiredData.stamps.length ≤
      scansOf record.parameters records
  ordered : records.Pairwise EarlierPart

theorem numbered_begin : Numbered [] [] where
  counted := fun _ member => absurd member List.not_mem_nil
  owned := fun _ member => absurd member List.not_mem_nil
  within := fun _ member => absurd member List.not_mem_nil
  ordered := List.Pairwise.nil

variable {workers : List Worker} {records : List UimfAcquisitionRecord}

theorem numbered_spawn (numbered : Numbered workers records) (parameters : UimfFrameParameters)
    (distinct : Distinct ((workers ++ [Worker.spawned parameters]).map Worker.parameters)) :
    Numbered (workers ++ [Worker.spawned parameters]) records where
  counted := by
    intro w member named
    rcases List.mem_append.mp member with old | new
    · exact numbered.counted w old named
    · rw [List.mem_singleton.mp new] at named ⊢
      -- A record of the new frame would be one of an earlier frame of its file and number.
      refine (scansOf_none fun record notified same => ?_).symm
      rw [List.map_append, Distinct, List.pairwise_append] at distinct
      have earlier := numbered.owned record notified
      rw [same] at earlier
      exact distinct.2.2 _ earlier parameters (List.mem_singleton_self _) named ⟨rfl, rfl⟩
  owned := by
    intro record member
    rw [List.map_append]
    exact List.mem_append_left _ (numbered.owned record member)
  within := numbered.within
  ordered := numbered.ordered

theorem numbered_still (numbered : Numbered workers records) {i : Nat} {w next : Worker}
    (here : workers[i]? = some w) (same : next.parameters = w.parameters)
    (count : next.scansAcquiredCount = w.scansAcquiredCount) :
    Numbered (workers.set i next) records where
  counted := by
    intro other member named
    rcases List.mem_or_eq_of_mem_set member with old | rfl
    · exact numbered.counted other old named
    · rw [count, same]
      exact numbered.counted w (List.mem_of_getElem? here) (same ▸ named)
  owned := by
    rw [map_set_same Worker.parameters here same]
    exact numbered.owned
  within := numbered.within
  ordered := numbered.ordered

theorem distinct_place {frames : List UimfFrameParameters} (distinct : Distinct frames) {i j : Nat}
    {parameters : UimfFrameParameters} (named : parameters.Named)
    (here : frames[i]? = some parameters) (there : frames[j]? = some parameters) : i = j := by
  obtain ⟨inside, first⟩ := List.getElem?_eq_some_iff.mp here
  obtain ⟨within, second⟩ := List.getElem?_eq_some_iff.mp there
  have pairs := List.pairwise_iff_getElem.mp distinct
  rcases Nat.lt_trichotomy i j with before | same | behind
  · exact absurd ⟨by rw [first, second], by rw [first, second]⟩
      (pairs i j inside within before (by rw [first]; exact named))
  · exact same
  · exact absurd ⟨by rw [first, second], by rw [first, second]⟩
      (pairs j i within inside behind (by rw [second]; exact named))

theorem distinct_same {frames : List UimfFrameParameters} (distinct : Distinct frames)
    {first second : UimfFrameParameters} (named : first.Named) (one : first ∈ frames)
    (two : second ∈ frames) (file : first.fileName = second.fileName)
    (number : first.frameNumber = second.frameNumber) : first = second := by
  obtain ⟨i, inside, rfl⟩ := List.mem_iff_getElem.mp one
  obtain ⟨j, within, rfl⟩ := List.mem_iff_getElem.mp two
  have pairs := List.pairwise_iff_getElem.mp distinct
  rcases Nat.lt_trichotomy i j with before | same | behind
  · exact absurd ⟨file, number⟩ (pairs i j inside within before named)
  · simp only [same]
  · have other : frames[j].Named := by
      rw [UimfFrameParameters.Named, ← file]
      exact named
    exact absurd ⟨file.symm, number.symm⟩ (pairs j i within inside behind other)

theorem numbered_notify (numbered : Numbered workers records) {i : Nat} {w next : Worker}
    {data : AcquiredData} (here : workers[i]? = some w) (same : next.parameters = w.parameters)
    (count : next.scansAcquiredCount = w.scansAcquiredCount + UInt64.ofNat data.stamps.length)
    (distinct : Distinct (workers.map Worker.parameters))
    (few : w.parameters.Named →
      scansOf w.parameters (records ++ [⟨w.parameters, data, w.scansAcquiredCount⟩]) < 2 ^ 64) :
    Numbered (workers.set i next) (records ++ [⟨w.parameters, data, w.scansAcquiredCount⟩]) := by
  have member := List.mem_of_getElem? here
  have total : scansOf w.parameters (records ++ [⟨w.parameters, data, w.scansAcquiredCount⟩]) =
      scansOf w.parameters records + data.stamps.length := by
    rw [scansOf_append, scansOf_same ⟨w.parameters, data, w.scansAcquiredCount⟩]
  constructor
  case counted =>
    intro other among named
    obtain ⟨j, within, at_j⟩ := List.mem_iff_getElem.mp among
    have place : (workers.set i next)[j]? = some other :=
      List.getElem?_eq_some_iff.mpr ⟨within, at_j⟩
    rw [List.getElem?_set] at place
    split at place
    · rename_i moved
      split at place
      · cases place
        have own : w.parameters.Named := same ▸ named
        have before := numbered.counted w member own
        have bound := few own
        have length : (UInt64.ofNat data.stamps.length).toNat = data.stamps.length :=
          UInt64.toNat_ofNat_of_lt' (show data.stamps.length < 2 ^ 64 by omega)
        rw [same, total, count, FixedWidth.uint64_add_exact _ _ (by omega), length, before]
      · cases place
    · rename_i unmoved
      -- Another worker of the same named frame there is not.
      have elsewhere : w.parameters ≠ other.parameters := by
        intro equal
        refine unmoved (distinct_place distinct named ?_ ?_)
        · rw [List.getElem?_map, here, ← equal]
          rfl
        · rw [List.getElem?_map, place]
          rfl
      rw [scansOf_append, scansOf_other elsewhere]
      exact numbered.counted other (List.mem_of_getElem? place) named
  case owned =>
    intro record among
    rw [map_set_same Worker.parameters here same]
    rcases List.mem_append.mp among with old | new
    · exact numbered.owned record old
    · rw [List.mem_singleton.mp new]
      exact List.mem_map_of_mem member
  case within =>
    intro record among named
    rcases List.mem_append.mp among with old | new
    · rw [scansOf_append]
      exact Nat.le_add_right_of_le (numbered.within record old named)
    · rw [List.mem_singleton.mp new] at named ⊢
      rw [total, numbered.counted w member named]
  case ordered =>
    rw [List.pairwise_append]
    refine ⟨numbered.ordered, List.pairwise_singleton _ _, ?_⟩
    rintro earlier old later new named equal
    rw [List.mem_singleton.mp new] at equal ⊢
    have bound := numbered.within earlier old named
    rw [equal] at bound named
    rw [numbered.counted w member named]
    exact bound

/-- The frames a console has started workers for, in order. -/
def Console.frames (s : Console) : List UimfFrameParameters :=
  (s.threads.map Thread.worker).map Worker.parameters

/-- No frame for a file has more scans than an int counts. -/
def Console.Few (s : Console) : Prop :=
  ∀ parameters ∈ s.frames, parameters.Named →
    scansOf parameters (notifiedOf s.history) ≤ 2 ^ 31

/-- The numbering, as far as the frames are told apart and their scans can be counted. -/
def Console.Numbers (s : Console) : Prop :=
  Distinct s.frames → s.Few → Numbered (s.threads.map Thread.worker) (notifiedOf s.history)

variable {segmentSize : UInt64}

theorem few_before {s next : Console} (frames : s.frames <+: next.frames)
    (notified : notifiedOf s.history <+: notifiedOf next.history) (few : next.Few) : s.Few := by
  intro parameters member named
  obtain ⟨back, grown⟩ := notified
  have bound := few parameters (frames.subset member) named
  rw [← grown, scansOf_append] at bound
  omega

theorem numbers_still {s next : Console} (numbers : s.Numbers)
    (workers : next.threads.map Thread.worker = s.threads.map Thread.worker)
    (history : notifiedOf next.history = notifiedOf s.history) : next.Numbers := by
  rw [Console.Numbers, Console.Few, Console.frames, workers, history]
  exact numbers

theorem numbers_spawn {s next : Console} (numbers : s.Numbers) {parameters : UimfFrameParameters}
    (threads : next.threads = s.threads ++ [⟨.spawned parameters, false⟩])
    (history : next.history = s.history) : next.Numbers := by
  intro distinct few
  have workers : next.threads.map Thread.worker =
      s.threads.map Thread.worker ++ [Worker.spawned parameters] := by
    rw [threads, List.map_append]
    rfl
  have grown : s.frames <+: next.frames := by
    rw [Console.frames, Console.frames, workers, List.map_append]
    exact List.prefix_append _ _
  rw [workers, history]
  refine numbered_spawn (numbers (distinct.sublist grown.sublist)
    (few_before grown (history ▸ List.prefix_refl _) few)) parameters ?_
  rw [← workers]
  exact distinct

theorem numbers_command {s next : Console} (numbers : s.Numbers) {spawnFails : Option Thrown}
    (step : s.commandStep spawnFails = some next) : next.Numbers := by
  cases commandStep_cases step with
  | spawns command => exact numbers_spawn numbers rfl rfl
  | joins command handle here ended =>
      exact numbers_still numbers (map_set_same Thread.worker here rfl) rfl
  | reports command | announces command =>
      refine numbers_still numbers rfl ?_
      rw [notifiedOf_append]
      exact List.append_nil _
  | refuses command | passes command | clears command | fails command | overwrites command
  | moves command | flags command | signalledTwice command | signals command | waits command
  | finds command => exact numbers_still numbers rfl rfl

theorem step_counts {answers : Answers} {w next : Worker} {event : Option Event}
    (step : w.step segmentSize answers = (next, event)) :
    (∃ data, event = some (.notified ⟨w.parameters, data, w.scansAcquiredCount⟩) ∧
      next.scansAcquiredCount = w.scansAcquiredCount + UInt64.ofNat data.stamps.length) ∨
    ((∀ record, event ≠ some (.notified record)) ∧
      next.scansAcquiredCount = w.scansAcquiredCount) := by
  cases statement : w.statement with
  | notifying data =>
      simp only [Worker.step, statement, Prod.mk.injEq] at step
      obtain ⟨rfl, rfl⟩ := step
      exact Or.inl ⟨data, rfl, rfl⟩
  | _ =>
      right
      simp only [Worker.step, statement] at step
      (repeat' split at step) <;> (cases step; simp)

theorem numbers_work {s next : Console} (numbers : s.Numbers) {thread : Nat} {answers : Answers}
    (step : s.workStep segmentSize thread answers = some next) : next.Numbers := by
  obtain ⟨t, worker, event, here, _, stepped, rfl⟩ := workStep_cases step
  have same : worker.parameters = t.worker.parameters := by
    have kept := step_parameters segmentSize { answers with shouldStop := s.shouldStop } t.worker
    rw [stepped] at kept
    exact kept
  have place : (s.threads.map Thread.worker)[thread]? = some t.worker := by
    rw [List.getElem?_map, here]
    rfl
  have workers : (s.threads.set thread { t with worker := worker }).map Thread.worker =
      (s.threads.map Thread.worker).set thread worker := List.map_set
  rcases step_counts stepped with ⟨data, rfl, count⟩ | ⟨silent, count⟩
  · rw [Option.elim_some]
    intro distinct few
    rw [Console.frames, sees_threads, Console.worked, workers,
      map_set_same Worker.parameters place same] at distinct
    rw [sees_threads, sees_history, notifiedOf_append, Console.worked, workers]
    rw [Console.Few, Console.frames, sees_threads, sees_history, notifiedOf_append, Console.worked,
      workers, map_set_same Worker.parameters place same] at few
    have before : s.Few := by
      intro parameters member named
      have bound := few parameters member named
      rw [scansOf_append] at bound
      exact Nat.le_of_add_right_le bound
    refine numbered_notify (numbers distinct before) place same count distinct fun named => ?_
    exact Nat.lt_of_le_of_lt
      (few t.worker.parameters (List.mem_map_of_mem (List.mem_of_getElem? place)) named) (by decide)
  · have kept (next : Console)
        (threads : next.threads = s.threads.set thread { t with worker := worker })
        (history : notifiedOf next.history = notifiedOf s.history) : next.Numbers := by
      intro distinct few
      rw [Console.Few, Console.frames, threads, workers, map_set_same Worker.parameters place same,
        history] at few
      rw [Console.frames, threads, workers, map_set_same Worker.parameters place same] at distinct
      rw [threads, workers, history]
      exact numbered_still (numbers distinct few) place same count
    cases event with
    | none => exact kept _ rfl rfl
    | some event =>
        refine kept _ (sees_threads _ event) ?_
        rw [Option.elim_some, sees_history, notifiedOf_append]
        cases event with
        | notified record => exact absurd rfl (silent record)
        | _ => exact List.append_nil _

theorem numbers_step {s next : Console} {label : ConsoleLabel} (numbers : s.Numbers)
    (step : s.step segmentSize label = some next) : next.Numbers := by
  unfold Console.step at step
  split at step
  · cases step
  · cases label with
    | calls call =>
        simp only at step
        split at step
        · cases step
          cases call <;> exact numbers_still numbers rfl rfl
        · cases step
    | commands spawnFails => exact numbers_command numbers step
    | works thread answers => exact numbers_work numbers step
    | turns turn =>
        obtain ⟨chain, _, rfl⟩ := Option.map_eq_some_iff.mp step
        exact numbers_still numbers rfl rfl

/-- After every run: each frame's records count on from each other. -/
theorem console_numbered {labels : List ConsoleLabel} {s : Console}
    (ran : run (Console.step segmentSize) .begin labels = some s) (distinct : Distinct s.frames)
    (few : s.Few) : Numbered (s.threads.map Thread.worker) (notifiedOf s.history) := by
  have start : Console.begin.Numbers := fun _ _ => numbered_begin
  exact run_invariant (fun _ _ _ => numbers_step) start ran distinct few

end AqMD3.Acquisition
