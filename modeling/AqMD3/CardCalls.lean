import AqMD3.AcquirePublisherWorker
import AqMD3.PeriodMeasurement
import AqMD3.Transitions

/-!
The order of the console's begin, fetch and abort calls into the card, whatever becomes of
them there: what the card does with a call, or with one that fails, is not modelled. The period
measurement and the worker of a frame begin nothing twice, fetch what is begun and abort it.
-/

namespace AqMD3.Acquisition

open Transitions Bracketing

inductive CardCall where
  | begins
  | fetches
  | aborts
  deriving DecidableEq

def CardCall.opens (call : CardCall) : Bool := call = .begins

def CardCall.closes (call : CardCall) : Bool := call = .aborts

/-- A begin call was made, and no abort call behind it. -/
def Begun (calls : List CardCall) : Prop := openAfter CardCall.opens CardCall.closes calls = true

structure CallsInOrder (calls : List CardCall) : Prop where
  begins : Separated CardCall.opens CardCall.closes calls
  fetches : ∀ before after, calls = before ++ .fetches :: after → Begun before

/-- The same order as a machine: what the next call may be, and whether a begin stands open. -/
def orderStep (begun : Bool) : CardCall → Option Bool
  | .begins => if begun then none else some true
  | .fetches => if begun then some true else none
  | .aborts => some false

theorem order_run {calls : List CardCall} {begun : Bool}
    (ran : run orderStep false calls = some begun) :
    CallsInOrder calls ∧ openAfter CardCall.opens CardCall.closes calls = begun := by
  induction calls using List.reverseRecOn generalizing begun with
  | nil =>
      cases ran
      exact ⟨⟨separated_nil, by simp⟩, rfl⟩
  | append_singleton front last ih =>
      rw [run_append] at ran
      obtain ⟨midway, before, step⟩ := Option.bind_eq_some_iff.mp ran
      obtain ⟨order, same⟩ := ih before
      -- A fetch among the calls is the last of them, or was there.
      have fetched (allowed : last = .fetches → Begun front) :
          ∀ earlier after, front ++ [last] = earlier ++ .fetches :: after → Begun earlier := by
        intro earlier after split
        rcases List.eq_nil_or_concat after with rfl | ⟨rest, final, rfl⟩
        · obtain ⟨equal, call⟩ := List.append_inj' split rfl
          rw [← equal]
          exact allowed (List.singleton_inj.mp call)
        · have whole : front ++ [last] = (earlier ++ .fetches :: rest) ++ [final] := by
            simpa using split
          exact order.fetches earlier rest (List.append_inj' whole rfl).1
      cases last with
      | begins =>
          cases midway with
          | true => cases step
          | false =>
              cases step
              exact ⟨⟨separated_open order.begins same _, fetched (by simp)⟩, by
                rw [openAfter_append]; rfl⟩
      | fetches =>
          cases midway with
          | false => cases step
          | true =>
              cases step
              exact ⟨⟨separated_other order.begins rfl, fetched fun _ => same⟩, by
                rw [openAfter_append]; exact same⟩
      | aborts =>
          cases step
          exact ⟨⟨separated_other order.begins rfl, fetched (by simp)⟩, by
            rw [openAfter_append]; rfl⟩

def DigitizerCall.cardCall : DigitizerCall → Option CardCall
  | .beginAcquisition => some .begins
  | .acquire _ => some .fetches
  | .abortAcquisition => some .aborts
  | _ => none

def Event.cardCall : Event → Option CardCall
  | .started _ => some .begins
  | .acquired _ _ => some .fetches
  | .aborted _ => some .aborts
  | _ => none

/-- The calls come in order, and leave a begin open or not. -/
def CallsLeave (calls : List DigitizerCall) (begun : Bool) : Prop :=
  run orderStep false (calls.filterMap DigitizerCall.cardCall) = some begun

theorem callsLeave_call {calls : List DigitizerCall} {begun next : Bool} {call : DigitizerCall}
    {made : CardCall} (ordered : CallsLeave calls begun) (asks : call.cardCall = some made)
    (allowed : orderStep begun made = some next) : CallsLeave (calls ++ [call]) next := by
  rw [CallsLeave, List.filterMap_append, run_append, ordered, Option.bind_some,
    List.filterMap_cons_some asks, List.filterMap_nil, run, allowed]
  rfl

theorem callsLeave_other {calls : List DigitizerCall} {begun : Bool} {call : DigitizerCall}
    (ordered : CallsLeave calls begun) (other : call.cardCall = none) :
    CallsLeave (calls ++ [call]) begun := by
  rw [CallsLeave, List.filterMap_append, List.filterMap_cons_none other, List.filterMap_nil,
    List.append_nil]
  exact ordered

/-- However a measurement is left, no begin is open. -/
def LeavesClosed {Value : Type} (measured : Measured Value) : Prop :=
  ∃ begun, CallsLeave measured.calls begun ∧ (measured.ending ≠ .waiting → begun = false)

theorem andThen_leaves {Value Result : Type} {measured : Measured Value}
    {next : Value → List DigitizerCall → Measured Result} (here : CallsLeave measured.calls false)
    (later : ∀ value, LeavesClosed (next value measured.calls)) :
    LeavesClosed (measured.andThen next) := by
  unfold Measured.andThen
  cases measured.ending with
  | returned value => exact later value
  | threw thrown => exact ⟨false, here, fun _ => rfl⟩
  | waiting => exact ⟨false, here, fun _ => rfl⟩

section Measurement

variable (digitizer : SA220) {calls : List DigitizerCall}

theorem configureCst_leaves (ordered : CallsLeave calls false) :
    CallsLeave (digitizer.configureCst calls).calls false := by
  have setup {calls : List DigitizerCall} (call : SetupCall) (ordered : CallsLeave calls false) :
      CallsLeave (digitizer.checked (.setup call) calls).calls false := by
    rw [checked_calls]
    exact callsLeave_other ordered rfl
  have mode := setup .configureStreamingMode ordered
  refine @andThen_calls _ _ (CallsLeave · false) _ _ mode fun _ => ?_
  have acquisition := setup .configureAcquisitionMode mode
  refine @andThen_calls _ _ (CallsLeave · false) _ _ acquisition fun _ => ?_
  have reduction := setup .configureDataReduction acquisition
  refine @andThen_calls _ _ (CallsLeave · false) _ _ reduction fun _ => ?_
  have applied := setup .applySetup reduction
  refine @andThen_calls _ _ (CallsLeave · false) _ _ applied fun _ => ?_
  have required := setup .getCalibrationRequired applied
  refine @andThen_calls _ _ (CallsLeave · false) _ _ required fun _ => ?_
  split
  · exact setup .selfCalibrate required
  · exact required

theorem start_leaves (ordered : CallsLeave calls false) :
    CallsLeave (digitizer.start calls).calls true := by
  rw [SA220.start, checked_calls]
  exact callsLeave_call ordered rfl rfl

theorem stop_leaves {begun : Bool} (ordered : CallsLeave calls begun) :
    CallsLeave (digitizer.stop calls).calls false := by
  rw [SA220.stop, checked_calls]
  exact callsLeave_call ordered rfl rfl

theorem acquire_leaves (ordered : CallsLeave calls true) (triggers : UInt64) :
    CallsLeave (digitizer.acquire triggers calls).calls true := callsLeave_call ordered rfl rfl

theorem retried_leaves (ordered : CallsLeave calls true) (triggers : UInt64) :
    ∃ begun, CallsLeave (digitizer.retried triggers calls).calls begun := by
  have stopped := stop_leaves digitizer ordered
  refine @andThen_calls _ _ (fun made => ∃ begun, CallsLeave made begun) _ _
    ⟨false, stopped⟩ fun _ => ?_
  have started := start_leaves digitizer stopped
  refine @andThen_calls _ _ (fun made => ∃ begun, CallsLeave made begun) _ _
    ⟨true, started⟩ fun _ => ?_
  exact ⟨true, acquire_leaves digitizer started triggers⟩

theorem attempted_leaves (ordered : CallsLeave calls false) (triggers : UInt64) :
    ∃ begun, CallsLeave (digitizer.attempted triggers calls).calls begun := by
  have started := start_leaves digitizer ordered
  refine @andThen_calls _ _ (fun made => ∃ begun, CallsLeave made begun) _ _
    ⟨true, started⟩ fun _ => ?_
  have first := acquire_leaves digitizer started triggers
  have again := retried_leaves digitizer first triggers
  simp only
  split
  · exact again
  · exact again
  · exact ⟨true, first⟩

/-- The guard aborts whatever the two attempts have left running. -/
theorem getTriggerPeriodSamples_leaves (triggers : UInt64) :
    LeavesClosed (digitizer.getTriggerPeriodSamples triggers) := by
  have none : CallsLeave [] false := rfl
  have sized : CallsLeave (digitizer.checked (.configureRecordSize 1024) []).calls false := by
    rw [checked_calls]
    exact callsLeave_other none rfl
  refine andThen_leaves sized fun _ => ?_
  have configured := configureCst_leaves digitizer sized
  refine andThen_leaves configured fun _ => ?_
  obtain ⟨begun, attempted⟩ := attempted_leaves digitizer configured triggers
  have body : CallsLeave ((digitizer.attempted triggers
      (digitizer.configureCst (digitizer.checked (.configureRecordSize 1024) []).calls).calls).andThen
        fun result calls => ⟨periodOf result, calls⟩).calls begun :=
    @andThen_calls _ _ (CallsLeave · begun) _ _ attempted fun _ => attempted
  unfold SA220.stopOnLeaving
  split
  · rename_i waits
    exact ⟨begun, body, fun left => absurd waits left⟩
  · exact ⟨false, stop_leaves digitizer body, fun _ => rfl⟩

end Measurement

/-- The calls made so far of a measurement. -/
theorem callsLeave_prefix {calls : List DigitizerCall} {begun : Bool}
    (ordered : CallsLeave calls begun) (made : Nat) :
    ∃ midway, CallsLeave (calls.take made) midway := by
  rw [← List.take_append_drop made calls, CallsLeave, List.filterMap_append, run_append] at ordered
  obtain ⟨midway, ran, _⟩ := Option.bind_eq_some_iff.mp ordered
  exact ⟨midway, ran⟩

/-- Whether a begin is open while a worker is at a statement. -/
def Suits : Statement → Bool → Prop
  | .entering, begun | .asking, begun | .starting, begun => begun = false
  | .testing, begun | .acquiring, begun => begun = true
  | .notifying _, begun | .reporting _, begun => begun = true
  | .stopping, _ | .aborting, _ | .escaped _, _ => True
  | .finishing, begun | .ended, begun => begun = false

/-- A worker's step makes at most one call, and one that is in order. -/
theorem suits_step {w : Worker} {begun : Bool} (suits : Suits w.statement begun)
    (segmentSize : UInt64) (answers : Answers) :
    ∃ next, run orderStep begun
        ((w.step segmentSize answers).2.toList.filterMap Event.cardCall) = some next ∧
      Suits (w.step segmentSize answers).1.statement next := by
  cases statement : w.statement with
  | entering | notifying data | reporting text | stopping | finishing | ended | escaped thrown =>
      rw [statement] at suits
      refine ⟨begun, ?_, ?_⟩ <;>
        simp_all [Worker.step, Suits, List.filterMap_cons, Event.cardCall, run]
  | asking =>
      rw [statement] at suits
      refine ⟨begun, ?_, ?_⟩ <;>
        rcases asked : answers.getIsAcquiring with _ | _ | _ <;>
        simp_all [Worker.step, Suits, List.filterMap_cons, Event.cardCall, run]
  | testing =>
      rw [statement] at suits
      refine ⟨begun, ?_, ?_⟩ <;> simp only [Worker.step, statement] <;>
        (repeat' split) <;> simp_all [Suits, List.filterMap_cons, Event.cardCall, run]
  | starting =>
      rw [statement] at suits
      have closed : begun = false := suits
      refine ⟨true, ?_, ?_⟩ <;> cases started : answers.start <;>
        simp [Worker.step, statement, started, Suits, Event.cardCall, run, orderStep, closed]
  | acquiring =>
      rw [statement] at suits
      have opened : begun = true := suits
      refine ⟨true, ?_, ?_⟩ <;> cases answer : answers.acquire <;>
        simp [Worker.step, statement, answer, Suits, Event.cardCall, run, orderStep, opened]
  | aborting =>
      refine ⟨false, ?_, ?_⟩ <;> cases stop : answers.stop <;>
        simp [Worker.step, statement, stop, Suits, Event.cardCall, run, orderStep]

end AqMD3.Acquisition
