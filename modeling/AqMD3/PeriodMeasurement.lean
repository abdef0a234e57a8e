import AqMD3.Bracketing
import AqMD3.TriggerPeriod

/-!
The calls that `get_trigger_period_samples` makes to the digitizer, any of which may fail
each time it is made. `StopOnLeaving` is the `stop` at the end of every path that leaves;
it swallows what that `stop` throws.
-/

namespace AqMD3.Acquisition

open Bracketing

inductive SetupCall where
  | configureStreamingMode
  | configureAcquisitionMode
  | configureDataReduction
  | applySetup
  | getCalibrationRequired
  | selfCalibrate
  deriving DecidableEq

/-- `acquire` stands for the stream fetches of one `acquire`. -/
inductive DigitizerCall where
  | configureRecordSize (recordSize : UInt64)
  | setup (call : SetupCall)
  | beginAcquisition
  | abortAcquisition
  | acquire (triggersToRead : UInt64)
  deriving DecidableEq

/-- What a digitizer answers to a call, given all the calls made before. -/
structure SA220 where
  error : List DigitizerCall → DigitizerCall → Option String
  calibrationRequired : List DigitizerCall → Bool
  acquired : List DigitizerCall → Ending AcquiredData

/-- How some statements end, and all the calls made up to there. -/
structure Measured (Value : Type) where
  ending : Ending Value
  calls : List DigitizerCall

/-- What follows a statement that returned. -/
def Measured.andThen {Value Result : Type} (measured : Measured Value)
    (next : Value → List DigitizerCall → Measured Result) : Measured Result :=
  match measured.ending with
  | .returned value => next value measured.calls
  | .threw thrown => ⟨.threw thrown, measured.calls⟩
  | .waiting => ⟨.waiting, measured.calls⟩

namespace SA220

variable (digitizer : SA220)

/-- `check_and_throw_on_error` around one call. -/
def checked (call : DigitizerCall) (calls : List DigitizerCall) : Measured Unit :=
  match digitizer.error calls call with
  | some text => ⟨.threw (.exception ("Error during call to digitizer. " ++ text)), calls ++ [call]⟩
  | none => ⟨.returned (), calls ++ [call]⟩

def configureCst (calls : List DigitizerCall) : Measured Unit :=
  (digitizer.checked (.setup .configureStreamingMode) calls).andThen fun () calls =>
  (digitizer.checked (.setup .configureAcquisitionMode) calls).andThen fun () calls =>
  (digitizer.checked (.setup .configureDataReduction) calls).andThen fun () calls =>
  (digitizer.checked (.setup .applySetup) calls).andThen fun () calls =>
  (digitizer.checked (.setup .getCalibrationRequired) calls).andThen fun () asked =>
  if digitizer.calibrationRequired calls then digitizer.checked (.setup .selfCalibrate) asked
  else ⟨.returned (), asked⟩

def start (calls : List DigitizerCall) : Measured Unit := digitizer.checked .beginAcquisition calls

def stop (calls : List DigitizerCall) : Measured Unit := digitizer.checked .abortAcquisition calls

def acquire (triggers : UInt64) (calls : List DigitizerCall) : Measured AcquiredData :=
  ⟨digitizer.acquired calls, calls ++ [.acquire triggers]⟩

/-- The catch clause of the first attempt. -/
def retried (triggers : UInt64) (calls : List DigitizerCall) : Measured AcquiredData :=
  (digitizer.stop calls).andThen fun () calls =>
  (digitizer.start calls).andThen fun () calls => digitizer.acquire triggers calls

def attempted (triggers : UInt64) (calls : List DigitizerCall) : Measured AcquiredData :=
  (digitizer.start calls).andThen fun () calls =>
    let first := digitizer.acquire triggers calls
    match first.ending with
    | .threw (.frameDamaged _) | .threw (.exception _) => digitizer.retried triggers first.calls
    | _ => first

/-- The guard's destructor, on every way out. -/
def stopOnLeaving {Value : Type} (measured : Measured Value) : Measured Value :=
  match measured.ending with
  | .waiting => measured
  | ending => ⟨ending, (digitizer.stop measured.calls).calls⟩

end SA220

def periodOf (result : AcquiredData) : Ending UInt64 :=
  if short : result.stamps.length < 2 then .threw (.exception (tooFewTimestamps result))
  else .returned (medianDifference result short)

def SA220.getTriggerPeriodSamples (digitizer : SA220) (triggers : UInt64) : Measured UInt64 :=
  (digitizer.checked (.configureRecordSize 1024) []).andThen fun () calls =>
  (digitizer.configureCst calls).andThen fun () calls =>
    digitizer.stopOnLeaving ((digitizer.attempted triggers calls).andThen fun result calls =>
      ⟨periodOf result, calls⟩)

theorem measured_ending (digitizer : SA220) (triggers : UInt64) (calls : List DigitizerCall)
    (started : (digitizer.start calls).ending = .returned ()) :
    (digitizer.stopOnLeaving ((digitizer.attempted triggers calls).andThen fun result calls =>
        ⟨periodOf result, calls⟩)).ending =
      Acquisition.getTriggerPeriodSamples (digitizer.acquired (digitizer.start calls).calls)
        (digitizer.retried triggers ((digitizer.start calls).calls ++ [.acquire triggers])).ending := by
  have guarded (measured : Measured UInt64) :
      (digitizer.stopOnLeaving measured).ending = measured.ending := by
    unfold SA220.stopOnLeaving
    cases ending : measured.ending with
    | waiting => exact ending
    | returned value => rfl
    | threw thrown => rfl
  have attempts : (digitizer.attempted triggers calls).ending =
      acquiredStamps (digitizer.acquired (digitizer.start calls).calls)
        (digitizer.retried triggers ((digitizer.start calls).calls ++ [.acquire triggers])).ending := by
    simp only [SA220.attempted, Measured.andThen, started, SA220.acquire, acquiredStamps]
    cases digitizer.acquired (digitizer.start calls).calls with
    | returned result => rfl
    | waiting => rfl
    | threw thrown =>
        cases thrown with
        | frameDamaged what => rfl
        | exception what => rfl
        | unknown what => rfl
  rw [guarded, Measured.andThen, Acquisition.getTriggerPeriodSamples, ← attempts]
  cases (digitizer.attempted triggers calls).ending with
  | returned result => rfl
  | threw thrown => rfl
  | waiting => rfl

def DigitizerCall.begins : DigitizerCall → Bool
  | .beginAcquisition => true
  | _ => false

def DigitizerCall.aborts : DigitizerCall → Bool
  | .abortAcquisition => true
  | _ => false

def DigitizerCall.acquires : DigitizerCall → Bool
  | .acquire _ => true
  | _ => false

/-- The calls of a measurement that leave no acquisition running. -/
structure Stopped (measured : Measured UInt64) : Prop where
  last : measured.ending ≠ .waiting → .beginAcquisition ∈ measured.calls →
    (measured.calls.filter fun call => call.begins || call.aborts).getLast? = some .abortAcquisition
  separated : ∀ before between behind,
    measured.calls = before ++ .beginAcquisition :: (between ++ .beginAcquisition :: behind) →
      .abortAcquisition ∈ between
  attempts : measured.calls.countP DigitizerCall.acquires ≤ 2

theorem checked_calls (digitizer : SA220) (call : DigitizerCall) (calls : List DigitizerCall) :
    (digitizer.checked call calls).calls = calls ++ [call] := by
  unfold SA220.checked
  split
  · rfl
  · rfl

theorem andThen_calls {Value Result : Type} {Holds : List DigitizerCall → Prop}
    {measured : Measured Value} {next : Value → List DigitizerCall → Measured Result}
    (here : Holds measured.calls) (later : ∀ value, Holds (next value measured.calls).calls) :
    Holds (measured.andThen next).calls := by
  unfold Measured.andThen
  cases measured.ending with
  | returned value => exact later value
  | threw thrown => exact here
  | waiting => exact here

/-- Calls that begin nothing twice, with so many acquires at most. -/
structure Attempts (count : Nat) (calls : List DigitizerCall) : Prop where
  separated : Separated DigitizerCall.begins DigitizerCall.aborts calls
  attempts : calls.countP DigitizerCall.acquires ≤ count

/-- Such calls that leave nothing running. -/
structure Idle (count : Nat) (calls : List DigitizerCall) : Prop extends Attempts count calls where
  closed : openAfter DigitizerCall.begins DigitizerCall.aborts calls = false

section Calls

variable {count : Nat} {calls : List DigitizerCall}

theorem idle_nil : Idle 0 [] := ⟨⟨separated_nil, Nat.le_refl 0⟩, rfl⟩

theorem attempts_begin (idle : Idle count calls) :
    Attempts count (calls ++ [.beginAcquisition]) where
  separated := separated_open idle.separated idle.closed _
  attempts := by
    rw [List.countP_append]
    exact idle.attempts

theorem attempts_abort (attempts : Attempts count calls) :
    Idle count (calls ++ [.abortAcquisition]) where
  separated := separated_other attempts.separated rfl
  attempts := by
    rw [List.countP_append]
    exact attempts.attempts
  closed := openAfter_append calls _

theorem attempts_acquire (attempts : Attempts count calls) (triggers : UInt64) :
    Attempts (count + 1) (calls ++ [.acquire triggers]) where
  separated := separated_other attempts.separated rfl
  attempts := by
    rw [List.countP_append]
    exact Nat.add_le_add_right attempts.attempts 1

theorem idle_other (idle : Idle count calls) {call : DigitizerCall} (begins : call.begins = false)
    (aborts : call.aborts = false) (acquires : call.acquires = false) :
    Idle count (calls ++ [call]) where
  separated := separated_other idle.separated begins
  attempts := by
    rw [List.countP_append, List.countP_singleton, acquires]
    exact idle.attempts
  closed := by
    rw [openAfter_append, begins, aborts]
    exact idle.closed

variable (digitizer : SA220)

theorem configureCst_idle (idle : Idle count calls) : Idle count (digitizer.configureCst calls).calls := by
  have setup (call : SetupCall) (front : List DigitizerCall) (before : Idle count front) :
      Idle count (digitizer.checked (.setup call) front).calls := by
    rw [checked_calls]
    exact idle_other before rfl rfl rfl
  have mode := setup .configureStreamingMode calls idle
  apply andThen_calls mode
  intro _
  have acquisition := setup .configureAcquisitionMode _ mode
  apply andThen_calls acquisition
  intro _
  have reduction := setup .configureDataReduction _ acquisition
  apply andThen_calls reduction
  intro _
  have applied := setup .applySetup _ reduction
  apply andThen_calls applied
  intro _
  have required := setup .getCalibrationRequired _ applied
  apply andThen_calls required
  intro _
  split
  · exact setup .selfCalibrate _ required
  · exact required

theorem retried_attempts (attempts : Attempts count calls) (triggers : UInt64) :
    Attempts (count + 1) (digitizer.retried triggers calls).calls := by
  have more {trace : List DigitizerCall} (fewer : Attempts count trace) : Attempts (count + 1) trace :=
    ⟨fewer.separated, Nat.le_succ_of_le fewer.attempts⟩
  have stopped : Idle count (digitizer.stop calls).calls := by
    rw [SA220.stop, checked_calls]
    exact attempts_abort attempts
  apply andThen_calls (more stopped.toAttempts)
  intro _
  have started : Attempts count (digitizer.start (digitizer.stop calls).calls).calls := by
    rw [SA220.start, checked_calls]
    exact attempts_begin stopped
  apply andThen_calls (more started)
  intro _
  exact attempts_acquire started triggers

theorem attempted_attempts (idle : Idle count calls) (triggers : UInt64) :
    Attempts (count + 2) (digitizer.attempted triggers calls).calls := by
  have more {fewer : Nat} {trace : List DigitizerCall} (order : fewer ≤ count + 2)
      (attempts : Attempts fewer trace) : Attempts (count + 2) trace :=
    ⟨attempts.separated, Nat.le_trans attempts.attempts order⟩
  have started : Attempts count (digitizer.start calls).calls := by
    rw [SA220.start, checked_calls]
    exact attempts_begin idle
  apply andThen_calls (more (by omega) started)
  intro _
  have first := attempts_acquire started triggers
  have again := retried_attempts digitizer first triggers
  simp only
  split
  · exact again
  · exact again
  · exact more (by omega) first

/-- However it is left, nothing is running. -/
def LeavesIdle {Value : Type} (count : Nat) (measured : Measured Value) : Prop :=
  Attempts count measured.calls ∧ (measured.ending ≠ .waiting → Idle count measured.calls)

theorem andThen_idle {Value Result : Type} {measured : Measured Value}
    {next : Value → List DigitizerCall → Measured Result} (here : Idle count measured.calls)
    (later : ∀ value, LeavesIdle count (next value measured.calls)) :
    LeavesIdle count (measured.andThen next) := by
  unfold Measured.andThen
  cases measured.ending with
  | returned value => exact later value
  | threw thrown => exact ⟨here.toAttempts, fun _ => here⟩
  | waiting => exact ⟨here.toAttempts, fun _ => here⟩

theorem stopOnLeaving_idle {Value : Type} {measured : Measured Value}
    (attempts : Attempts count measured.calls) :
    LeavesIdle count (digitizer.stopOnLeaving measured) := by
  have stopped : Idle count (digitizer.stop measured.calls).calls := by
    rw [SA220.stop, checked_calls]
    exact attempts_abort attempts
  unfold SA220.stopOnLeaving
  cases ending : measured.ending with
  | waiting => exact ⟨attempts, fun left => absurd ending left⟩
  | returned value => exact ⟨stopped.toAttempts, fun _ => stopped⟩
  | threw thrown => exact ⟨stopped.toAttempts, fun _ => stopped⟩

theorem getTriggerPeriodSamples_idle (triggers : UInt64) :
    LeavesIdle 2 (digitizer.getTriggerPeriodSamples triggers) := by
  have more {trace : List DigitizerCall} (idle : Idle 0 trace) : Idle 2 trace :=
    ⟨⟨idle.separated, Nat.le_trans idle.attempts (by omega)⟩, idle.closed⟩
  have sized : Idle 0 (digitizer.checked (.configureRecordSize 1024) []).calls := by
    rw [checked_calls]
    exact idle_other idle_nil rfl rfl rfl
  apply andThen_idle (more sized)
  intro _
  have configured := configureCst_idle digitizer sized
  apply andThen_idle (more configured)
  intro _
  apply stopOnLeaving_idle
  have attempts := attempted_attempts digitizer configured triggers
  exact andThen_calls attempts fun _ => attempts

end Calls

/-- For every digitizer, whichever of its calls fail. -/
theorem trigger_period_stops (digitizer : SA220) (triggers : UInt64) :
    Stopped (digitizer.getTriggerPeriodSamples triggers) := by
  obtain ⟨attempts, leaves⟩ := getTriggerPeriodSamples_idle digitizer triggers
  constructor
  case attempts => exact attempts.attempts
  case separated =>
    intro before between behind split
    obtain ⟨call, member, aborts⟩ := attempts.separated before _ between _ behind split rfl rfl
    cases call with
    | abortAcquisition => exact member
    | _ => cases aborts
  case last =>
    intro left begun
    have control : DigitizerCall.beginAcquisition ∈
        (digitizer.getTriggerPeriodSamples triggers).calls.filter
          fun call => call.begins || call.aborts := List.mem_filter.mpr ⟨begun, rfl⟩
    obtain ⟨call, found⟩ := Option.isSome_iff_exists.mp
      (List.getLast?_isSome.mpr (List.ne_nil_of_mem control))
    have aborts := closed_last (leaves left).closed call found
    rw [found]
    cases call with
    | abortAcquisition => rfl
    | _ => cases aborts

/-- Every acquire times out, and no abort succeeds. -/
def wedged : SA220 where
  error _ call := if call = .abortAcquisition then some "busy" else none
  calibrationRequired _ := false
  acquired _ := .threw (.exception "timeout")

-- The stop behind the first attempt throws, so there is no second one, and the guard stops again.
example : (wedged.getTriggerPeriodSamples 20).calls.filter (fun call => call.begins || call.aborts) =
    [.beginAcquisition, .abortAcquisition, .abortAcquisition] := by decide

end AqMD3.Acquisition
