import Mathlib.Data.Nat.Find
import AqMD3.AcquirePublisherWorker

/-!
What a client hears of a frame. The calls the loop makes are caught; the three the
worker makes outside it are not.
-/

namespace AqMD3.Acquisition

@[simp] def Event.status : Event → Option String
  | .published text => some text
  | _ => none

def statuses (events : List Event) : List String := events.filterMap Event.status

@[simp] theorem statuses_nil : statuses [] = [] := rfl

@[simp] theorem statuses_cons (event : Event) (rest : List Event) :
    statuses (event :: rest) = event.status.toList ++ statuses rest :=
  filterMap_cons_toList Event.status event rest

@[simp] theorem statuses_append (front back : List Event) :
    statuses (front ++ back) = statuses front ++ statuses back := List.filterMap_append

/-- The worker's thread function returns, and a client hears one `finished`, last, and
at most one error before it. -/
def Announces (b : Behaviour) (segmentSize : UInt64) (parameters : UimfFrameParameters) : Prop :=
  (∀ steps thrown,
    (Frame.after b segmentSize parameters steps).worker.statement ≠ .escaped thrown) ∧
  ∃ steps errors,
    (Frame.after b segmentSize parameters steps).worker.statement = .ended ∧
    statuses (Frame.after b segmentSize parameters steps).events = errors ++ [finished] ∧
    errors.length ≤ 1 ∧ ∀ text ∈ errors, ∃ rest, text = "error" ++ rest

def stampsOf : Except Thrown AcquiredData → UInt64
  | .ok data => UInt64.ofNat data.stamps.length
  | .error _ => 0

def threw {Value : Type} : Except Thrown Value → Bool
  | .ok _ => false
  | .error _ => true

/-- The stamps that the first calls of `acquire` return. -/
def Behaviour.returned (b : Behaviour) : Nat → UInt64
  | 0 => 0
  | i + 1 => b.returned i + stampsOf (b.acquire i)

def Behaviour.threwBefore (b : Behaviour) (i : Nat) : Prop := ∃ j < i, threw (b.acquire j) = true

/-- The loop's test number `i` ends the loop. -/
def Behaviour.Leaves (b : Behaviour) (frameLength : UInt64) (i : Nat) : Prop :=
  frameLength ≤ b.returned i ∨ b.threwBefore i ∨ b.shouldStop i = true

/-- The calls outside the loop return, and the loop ends. -/
def Behaviour.Returns (b : Behaviour) (frameLength : UInt64) : Prop :=
  (¬ ∃ thrown, b.getIsAcquiring = .error thrown) ∧
  (b.getIsAcquiring = .ok false → b.start = .ok () ∧ ∃ i, b.Leaves frameLength i) ∧
  b.stop = .ok ()

/-- The worker at test number `i` of its loop. -/
structure AtTest (b : Behaviour) (parameters : UimfFrameParameters) (i : Nat) (f : Frame) : Prop where
  statement : f.worker.statement = .testing
  same : f.worker.parameters = parameters
  count : f.worker.scansAcquiredCount = b.returned i
  errored : f.worker.hasErrored = true ↔ b.threwBefore i
  acquires : f.acquires = i
  quiet : f.worker.hasErrored = false → statuses f.events = []
  told : f.worker.hasErrored = true →
    ∃ thrown, statuses f.events = [errorStatus parameters.frameNumber thrown]

variable {b : Behaviour} {segmentSize : UInt64} {parameters : UimfFrameParameters}

theorem threwBefore_succ (b : Behaviour) (i : Nat) :
    b.threwBefore (i + 1) ↔ b.threwBefore i ∨ threw (b.acquire i) = true := by
  constructor
  · rintro ⟨j, inside, thrown⟩
    rcases Nat.lt_succ_iff_lt_or_eq.mp inside with before | rfl
    · exact Or.inl ⟨j, before, thrown⟩
    · exact Or.inr thrown
  · rintro (⟨j, inside, thrown⟩ | thrown)
    · exact ⟨j, Nat.lt_succ_of_lt inside, thrown⟩
    · exact ⟨i, Nat.lt_succ_self i, thrown⟩

theorem first_exit {frameLength : UInt64} (leaves : ∃ i, b.Leaves frameLength i) :
    ∃ i, b.Leaves frameLength i ∧ ∀ j < i, ¬ b.Leaves frameLength j := by
  classical
  exact ⟨Nat.find leaves, Nat.find_spec leaves, fun j inside => Nat.find_min leaves inside⟩

theorem atTest_stays (segmentSize : UInt64) {i : Nat} {f : Frame} (here : AtTest b parameters i f)
    (stays : ¬ b.Leaves parameters.frameLength i) :
    f.worker.hasErrored = false ∧
      f.step b segmentSize = { f with worker := f.worker.goto .acquiring } := by
  simp only [Behaviour.Leaves, not_or, UInt64.not_le] at stays
  obtain ⟨short, unharmed, running⟩ := stays
  have clean : f.worker.hasErrored = false := by
    rw [← Bool.not_eq_true, here.errored]
    exact unharmed
  refine ⟨clean, ?_⟩
  simp [Frame.step, Worker.step, here.statement, here.count, here.same, short, clean,
    here.acquires, Behaviour.answers, running]

/-- A pass: the test goes through, `acquire` is called, and its end is dealt with. -/
theorem atTest_next {i : Nat} {f : Frame} (here : AtTest b parameters i f)
    (stays : ¬ b.Leaves parameters.frameLength i) :
    AtTest b parameters (i + 1)
      (((f.step b segmentSize).step b segmentSize).step b segmentSize) := by
  -- The loop goes on past an error only to its test, so nothing has thrown before this pass.
  obtain ⟨clean, tested⟩ := atTest_stays segmentSize here stays
  have unharmed : ¬ b.threwBefore i := by
    rw [← here.errored, clean]
    exact Bool.false_ne_true
  rw [tested]
  cases answer : b.acquire i with
  | ok data =>
      constructor
      case quiet =>
        intro _
        simp [Frame.step, Worker.step, Worker.goto, here.acquires, Behaviour.answers, answer,
          here.quiet clean]
      case told =>
        simp [Frame.step, Worker.step, Worker.goto, here.acquires, Behaviour.answers, answer, clean]
      case errored =>
        rw [threwBefore_succ]
        simp [Frame.step, Worker.step, Worker.goto, here.acquires, Behaviour.answers, answer, clean,
          unharmed, threw]
      all_goals
        simp [Frame.step, Worker.step, Worker.goto, here.acquires, Behaviour.answers, answer,
          here.same, here.count, Behaviour.returned, stampsOf]
  | error thrown =>
      constructor
      case quiet =>
        simp [Frame.step, Worker.step, Worker.goto, here.acquires, Behaviour.answers, answer]
      case told =>
        intro _
        refine ⟨thrown, ?_⟩
        simp [Frame.step, Worker.step, Worker.goto, here.acquires, Behaviour.answers, answer,
          here.quiet clean, here.same]
      case errored =>
        rw [threwBefore_succ]
        simp [Frame.step, Worker.step, Worker.goto, here.acquires, Behaviour.answers, answer, threw]
      all_goals
        simp [Frame.step, Worker.step, Worker.goto, here.acquires, Behaviour.answers, answer,
          here.same, here.count, Behaviour.returned, stampsOf]

/-- Up to the first test that ends it, every pass of the loop comes back to its test. -/
theorem after_tests (segmentSize : UInt64) (idle : b.getIsAcquiring = .ok false) (started : b.start = .ok ()) (i : Nat)
    (stays : ∀ j < i, ¬ b.Leaves parameters.frameLength j) :
    AtTest b parameters i (Frame.after b segmentSize parameters (3 + 3 * i)) := by
  induction i with
  | zero =>
      constructor <;>
        simp [Frame.after, Frame.spawned, Worker.spawned, Frame.step, Worker.step, Worker.goto,
          Behaviour.answers, idle, started, Behaviour.returned, Behaviour.threwBefore]
  | succ i ih =>
      have steps : 3 + 3 * (i + 1) = 3 + 3 * i + 3 := by omega
      rw [steps]
      exact atTest_next (ih fun j inside => stays j (Nat.lt_succ_of_lt inside))
        (stays i (Nat.lt_succ_self i))

theorem atTest_leaves (segmentSize : UInt64) {i : Nat} {f : Frame} (here : AtTest b parameters i f)
    (leaves : b.Leaves parameters.frameLength i) :
    (f.step b segmentSize).worker.statement = .stopping ∧
      statuses (f.step b segmentSize).events = statuses f.events := by
  by_cases short : f.worker.scansAcquiredCount < f.worker.parameters.frameLength
  · by_cases clean : f.worker.hasErrored = true
    · simp [Frame.step, Worker.step, Worker.goto, here.statement, short, clean]
    · -- Neither the count nor an error ends the loop, so the stop flag does.
      have running : b.shouldStop i = true := by
        rcases leaves with full | thrown | flagged
        · rw [here.count, here.same] at short
          exact absurd full (UInt64.not_le.mpr short)
        · exact absurd (here.errored.mpr thrown) clean
        · exact flagged
      simp [Frame.step, Worker.step, Worker.goto, here.statement, short, clean, here.acquires,
        Behaviour.answers, running]
  · simp [Frame.step, Worker.step, Worker.goto, here.statement, short]

theorem atTest_told {i : Nat} {f : Frame} (here : AtTest b parameters i f) :
    (statuses f.events).length ≤ 1 ∧
      ∀ text ∈ statuses f.events, ∃ rest, text = "error" ++ rest := by
  cases errored : f.worker.hasErrored with
  | false => simp [here.quiet errored]
  | true =>
      obtain ⟨thrown, told⟩ := here.told errored
      rw [told]
      refine ⟨Nat.le_refl 1, ?_⟩
      rintro text member
      rw [List.mem_singleton.mp member]
      exact errorStatus_error parameters.frameNumber thrown

theorem stopping_ends (segmentSize : UInt64) {f : Frame} (stopping : f.worker.statement = .stopping)
    (returns : b.stop = .ok ()) :
    (((f.step b segmentSize).step b segmentSize).step b segmentSize).worker.statement = .ended ∧
      statuses (((f.step b segmentSize).step b segmentSize).step b segmentSize).events =
        statuses f.events ++ [finished] := by
  simp [Frame.step, Worker.step, Worker.goto, stopping, Behaviour.answers, returns]

theorem stopping_escapes (segmentSize : UInt64) {f : Frame} (stopping : f.worker.statement = .stopping)
    {thrown : Thrown} (throws : b.stop = .error thrown) :
    ((f.step b segmentSize).step b segmentSize).worker.statement = .escaped thrown := by
  simp [Frame.step, Worker.step, Worker.goto, stopping, Behaviour.answers, throws]

/-- Every way into the end of the frame passes `state = State::STOPPED`. -/
theorem announces_of_stopping (steps : Nat) (errors : List String)
    (stopping : (Frame.after b segmentSize parameters steps).worker.statement = .stopping)
    (told : statuses (Frame.after b segmentSize parameters steps).events = errors)
    (few : errors.length ≤ 1) (named : ∀ text ∈ errors, ∃ rest, text = "error" ++ rest)
    (returns : b.stop = .ok ()) : Announces b segmentSize parameters := by
  obtain ⟨ended, heard⟩ := stopping_ends segmentSize stopping returns
  exact ⟨ended_not_escaped (steps + 3) ended, steps + 3, errors, ended,
    by rw [← told]; exact heard, few, named⟩

theorem returns_of_announces (announces : Announces b segmentSize parameters) :
    b.Returns parameters.frameLength := by
  obtain ⟨inside, steps, errors, ended, _⟩ := announces
  -- A `stop` that throws, once reached, escapes the worker.
  have stops (at_ : Nat)
      (stopping : (Frame.after b segmentSize parameters at_).worker.statement = .stopping) :
      b.stop = .ok () := by
    cases stop : b.stop with
    | ok _ => rfl
    | error thrown => exact absurd (stopping_escapes segmentSize stopping stop) (inside (at_ + 2) thrown)
  cases asked : b.getIsAcquiring with
  | error thrown =>
      refine absurd ?_ (inside 2 thrown)
      simp [Frame.after, Frame.spawned, Worker.spawned, Frame.step, Worker.step, Worker.goto,
        Behaviour.answers, asked]
  | ok acquiring =>
      cases acquiring with
      | true =>
          refine ⟨by simp [asked], by simp [asked], stops 2 ?_⟩
          simp [Frame.after, Frame.spawned, Worker.spawned, Frame.step, Worker.step, Worker.goto,
            Behaviour.answers, asked]
      | false =>
          cases started : b.start with
          | error thrown =>
              refine absurd ?_ (inside 3 thrown)
              simp [Frame.after, Frame.spawned, Worker.spawned, Frame.step, Worker.step,
                Worker.goto, Behaviour.answers, asked, started]
          | ok _ =>
              -- A loop that never ends is at its test arbitrarily late, past the worker's end.
              have leaves : ∃ i, b.Leaves parameters.frameLength i := by
                apply Classical.byContradiction
                intro never
                have here := after_tests segmentSize asked started steps
                  fun j _ here => never ⟨j, here⟩
                have late : 3 + 3 * steps = steps + (3 + 2 * steps) := by omega
                have testing := here.statement
                rw [late, after_over (Or.inl ended), ended] at testing
                cases testing
              obtain ⟨i, exit, first⟩ := first_exit leaves
              have here := after_tests segmentSize asked started i first
              obtain ⟨stopping, _⟩ := atTest_leaves segmentSize here exit
              exact ⟨by simp [asked], fun _ => ⟨started, leaves⟩, stops (3 + 3 * i + 1) stopping⟩

/-- A frame ends with one `finished`, after at most one error, in exactly the frames
whose `get_is_acquiring`, `start` and `stop` return and whose loop ends. -/
theorem announces_iff (b : Behaviour) (segmentSize : UInt64) (parameters : UimfFrameParameters) :
    Announces b segmentSize parameters ↔ b.Returns parameters.frameLength := by
  constructor
  · exact returns_of_announces
  · rintro ⟨asks, loops, returns⟩
    cases asked : b.getIsAcquiring with
    | error thrown => exact absurd ⟨thrown, asked⟩ asks
    | ok acquiring =>
        cases acquiring with
        | true =>
            apply announces_of_stopping 2 [] _ _ (Nat.zero_le 1)
              (fun _ member => absurd member List.not_mem_nil) returns
            all_goals
              simp [Frame.after, Frame.spawned, Worker.spawned, Frame.step, Worker.step,
                Worker.goto, Behaviour.answers, asked]
        | false =>
            obtain ⟨started, leaves⟩ := loops asked
            obtain ⟨i, exit, first⟩ := first_exit leaves
            have here := after_tests segmentSize asked started i first
            obtain ⟨stopping, told⟩ := atTest_leaves segmentSize here exit
            obtain ⟨few, named⟩ := atTest_told here
            exact announces_of_stopping (3 + 3 * i + 1) _ stopping told few named returns

/-- A frame of one scan whose `acquire` fails, and then `abort_acquisition` too. -/
def abortFails : Behaviour where
  getIsAcquiring := .ok false
  start := .ok ()
  acquire := fun _ => .error (.exception "Error during call to digitizer. timeout")
  stop := .error (.exception "Error during call to digitizer. abort failed")
  shouldStop := fun _ => false

def oneScan : UimfFrameParameters := ⟨0, 0, 1, 1, 1, 0, ""⟩

theorem announces_abort_fails : ¬ Announces abortFails 500 oneScan := by
  rintro ⟨inside, _⟩
  exact inside 9 (.exception "Error during call to digitizer. abort failed") rfl

end AqMD3.Acquisition
