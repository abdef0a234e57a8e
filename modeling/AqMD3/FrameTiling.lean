import AqMD3.FrameStatuses

/-!
The records of one frame against the scans it asked for: the loop's counter follows
what `acquire` returned, and the last request takes what is left.
-/

namespace AqMD3.Acquisition

/-- The intervals, each a start and a length, cover what lies between `low` and `high`
in order, with no gap and no overlap. -/
def Tiles (low high : Nat) : List (Nat × Nat) → Prop
  | [] => low = high
  | (start, length) :: rest => start = low ∧ Tiles (low + length) high rest

theorem tiles_concat {low middle : Nat} {intervals : List (Nat × Nat)}
    (tiles : Tiles low middle intervals) (length : Nat) :
    Tiles low (middle + length) (intervals ++ [(middle, length)]) := by
  induction intervals generalizing low with
  | nil =>
      cases tiles
      exact ⟨rfl, rfl⟩
  | cons interval rest ih => exact ⟨tiles.1, ih tiles.2⟩

@[simp] def Event.record : Event → Option UimfAcquisitionRecord
  | .notified record => some record
  | _ => none

@[simp] def Event.acquire : Event → Option (UInt64 × Except Thrown AcquiredData)
  | .acquired toAcquireCount answer => some (toAcquireCount, answer)
  | _ => none

def records (events : List Event) : List UimfAcquisitionRecord := events.filterMap Event.record

/-- The calls of `acquire`: the triggers asked for, and how the call ended. -/
def acquires (events : List Event) : List (UInt64 × Except Thrown AcquiredData) :=
  events.filterMap Event.acquire

def interval (record : UimfAcquisitionRecord) : Nat × Nat :=
  (record.startScanIndex.toNat, record.acquiredData.stamps.length)

/-- A successful `acquire(n)` returned exactly n stamps. -/
def Exact (events : List Event) : Prop :=
  ∀ call ∈ acquires events, ∀ data, call.2 = .ok data → data.stamps.length = call.1.toNat

@[simp] theorem records_append (front back : List Event) :
    records (front ++ back) = records front ++ records back := List.filterMap_append

@[simp] theorem acquires_append (front back : List Event) :
    acquires (front ++ back) = acquires front ++ acquires back := List.filterMap_append

@[simp] theorem records_cons (event : Event) (rest : List Event) :
    records (event :: rest) = event.record.toList ++ records rest :=
  filterMap_cons_toList Event.record event rest

@[simp] theorem acquires_cons (event : Event) (rest : List Event) :
    acquires (event :: rest) = event.acquire.toList ++ acquires rest :=
  filterMap_cons_toList Event.acquire event rest

@[simp] theorem records_none : records [] = [] := rfl

@[simp] theorem acquires_none : acquires [] = [] := rfl

theorem exact_shorter {front events : List Event} (exact_ : Exact events)
    (grown : front <+: events) : Exact front := by
  obtain ⟨back, rfl⟩ := grown
  intro call member
  exact exact_ call (by rw [acquires_append]; exact List.mem_append_left _ member)

/-- No call of `acquire` threw, unless it was the last. -/
def LastThrew (events : List Event) : Prop :=
  ∀ call ∈ (acquires events).dropLast, threw call.2 = false

def NoneThrew (events : List Event) : Prop := ∀ call ∈ acquires events, threw call.2 = false

theorem lastThrew_of_none {events : List Event} (none : NoneThrew events) : LastThrew events :=
  fun call member => none call (List.dropLast_subset _ member)

/-- The scans the records hold so far, and what the statement reached says about them. -/
structure Tiled (segmentSize : UInt64) (parameters : UimfFrameParameters) (f : Frame) : Prop where
  same : f.worker.parameters = parameters
  tiles : Tiles 0 f.worker.scansAcquiredCount.toNat ((records f.events).map interval)
  within : f.worker.scansAcquiredCount ≤ parameters.frameLength
  asks : ∀ call ∈ acquires f.events, 1 ≤ call.1.toNat ∧ call.1 ≤ segmentSize
  acquiring : f.worker.statement = .acquiring →
    f.worker.scansAcquiredCount < parameters.frameLength ∧ f.worker.hasErrored = false
  notifying : ∀ data, f.worker.statement = .notifying data →
    f.worker.scansAcquiredCount.toNat + data.stamps.length ≤ parameters.frameLength.toNat
  last : LastThrew f.events
  clean : f.worker.hasErrored = false → (∀ text, f.worker.statement ≠ .reporting text) →
    NoneThrew f.events

variable {b : Behaviour} {segmentSize : UInt64} {parameters : UimfFrameParameters}

/-- The subtraction does not wrap, so a request takes what is left or one segment. -/
theorem toAcquireCount_exact (segmentSize : UInt64) {w : Worker} (short : w.scansAcquiredCount < w.parameters.frameLength) :
    (w.toAcquireCount segmentSize).toNat =
      min (w.parameters.frameLength.toNat - w.scansAcquiredCount.toNat) segmentSize.toNat := by
  have difference : (w.parameters.frameLength - w.scansAcquiredCount).toNat =
      w.parameters.frameLength.toNat - w.scansAcquiredCount.toNat :=
    UInt64.toNat_sub_of_le _ _ (UInt64.le_of_lt short)
  unfold Worker.toAcquireCount
  split
  · rename_i less
    rw [UInt64.lt_iff_toNat_lt] at less
    omega
  · rename_i less
    rw [UInt64.lt_iff_toNat_lt] at less
    omega

theorem tiled_spawned : Tiled segmentSize parameters (.spawned parameters) where
  same := rfl
  tiles := rfl
  within := by
    rw [UInt64.le_iff_toNat_le]
    exact Nat.zero_le _
  asks := fun _ member => absurd member List.not_mem_nil
  acquiring := by simp [Frame.spawned, Worker.spawned]
  notifying := by simp [Frame.spawned, Worker.spawned]
  last := fun _ member => absurd member List.not_mem_nil
  clean := fun _ _ _ member => absurd member List.not_mem_nil

/-- A step that neither asks for triggers nor hands a record on. -/
theorem tiled_quiet {f : Frame} (event : Option Event) (statement : Statement)
    (tiled : Tiled segmentSize parameters f)
    (silent : ∀ e, event = some e → e.record = none ∧ e.acquire = none)
    (leaves : ∀ text, f.worker.statement ≠ .reporting text) (idle : statement ≠ .acquiring)
    (plain : ∀ data, statement ≠ .notifying data) :
    Tiled segmentSize parameters ⟨f.worker.goto statement, f.acquires, f.events ++ event.toList⟩ := by
  have kept : records (f.events ++ event.toList) = records f.events ∧
      acquires (f.events ++ event.toList) = acquires f.events := by
    cases event with
    | none => simp
    | some e =>
        obtain ⟨unrecorded, unasked⟩ := silent e rfl
        rw [Option.toList_some, records_append, records_cons, unrecorded, acquires_append,
          acquires_cons, unasked]
        simp
  constructor
  case tiles => simpa only [kept.1, goto_scansAcquiredCount] using tiled.tiles
  case asks => simpa only [kept.2] using tiled.asks
  case acquiring => exact fun reached => absurd reached idle
  case notifying => exact fun data reached => absurd reached (plain data)
  case last => simpa only [LastThrew, kept.2] using tiled.last
  case clean =>
    intro clean _
    simpa only [NoneThrew, kept.2] using tiled.clean clean leaves
  case same => exact tiled.same
  case within => exact tiled.within

theorem tiled_testing {f : Frame} (tiled : Tiled segmentSize parameters f)
    (testing : f.worker.statement = .testing) :
    Tiled segmentSize parameters (f.step b segmentSize) := by
  have leaves : ∀ text, f.worker.statement ≠ .reporting text := by simp [testing]
  by_cases short : f.worker.scansAcquiredCount < f.worker.parameters.frameLength
  · by_cases clean : f.worker.hasErrored = true
    · simpa [Frame.step, Worker.step, testing, short, clean] using
        tiled_quiet none .stopping tiled
          (by simp) leaves (by simp) (by simp)
    · by_cases stop : b.shouldStop f.acquires = true
      · simpa [Frame.step, Worker.step, testing, short, clean, Behaviour.answers, stop] using
          tiled_quiet (some .sawStop) .stopping tiled
            (by simp) leaves (by simp) (by simp)
      · rw [Bool.not_eq_true] at clean
        have step : f.step b segmentSize = { f with worker := f.worker.goto .acquiring } := by
          simp [Frame.step, Worker.step, testing, short, clean, Behaviour.answers, stop]
        rw [step]
        constructor
        case acquiring =>
          intro _
          rw [tiled.same] at short
          exact ⟨short, clean⟩
        case notifying => simp [Worker.goto]
        case clean => exact fun clean _ => tiled.clean clean leaves
        case same => exact tiled.same
        case tiles => exact tiled.tiles
        case within => exact tiled.within
        case asks => exact tiled.asks
        case last => exact tiled.last
  · simpa [Frame.step, Worker.step, testing, short] using
      tiled_quiet none .stopping tiled
        (by simp) leaves (by simp) (by simp)

section Asks

variable {f : Frame} (tiled : Tiled segmentSize parameters f)
  (asked : 1 ≤ (f.worker.toAcquireCount segmentSize).toNat ∧
    f.worker.toAcquireCount segmentSize ≤ segmentSize)
  (unharmed : NoneThrew f.events)
include tiled asked unharmed

theorem tiled_returned {data : AcquiredData}
    (room : f.worker.scansAcquiredCount.toNat + data.stamps.length ≤ parameters.frameLength.toNat) :
    Tiled segmentSize parameters ⟨f.worker.goto (.notifying data), f.acquires + 1,
      f.events ++ [.acquired (f.worker.toAcquireCount segmentSize) (.ok data)]⟩ := by
  have calls : acquires (f.events ++ [.acquired (f.worker.toAcquireCount segmentSize) (.ok data)]) =
      acquires f.events ++ [(f.worker.toAcquireCount segmentSize, .ok data)] := acquires_append _ _
  have none : NoneThrew (f.events ++
      [.acquired (f.worker.toAcquireCount segmentSize) (.ok data)]) := by
    rw [NoneThrew, calls]
    exact List.forall_mem_append.mpr ⟨unharmed, List.forall_mem_singleton.mpr rfl⟩
  constructor
  case tiles => simpa using tiled.tiles
  case asks =>
    rw [calls]
    exact List.forall_mem_append.mpr ⟨tiled.asks, List.forall_mem_singleton.mpr asked⟩
  case acquiring => simp [Worker.goto]
  case notifying =>
    intro other reached
    cases reached
    exact room
  case last => exact lastThrew_of_none none
  case clean => exact fun _ _ => none
  case same => exact tiled.same
  case within => exact tiled.within

theorem tiled_threw (thrown : Thrown) (text : String) :
    Tiled segmentSize parameters ⟨f.worker.goto (.reporting text), f.acquires + 1,
      f.events ++ [.acquired (f.worker.toAcquireCount segmentSize) (.error thrown)]⟩ := by
  have calls : acquires (f.events ++
      [.acquired (f.worker.toAcquireCount segmentSize) (.error thrown)]) =
      acquires f.events ++ [(f.worker.toAcquireCount segmentSize, .error thrown)] :=
    acquires_append _ _
  constructor
  case tiles => simpa using tiled.tiles
  case asks =>
    rw [calls]
    exact List.forall_mem_append.mpr ⟨tiled.asks, List.forall_mem_singleton.mpr asked⟩
  case acquiring => simp [Worker.goto]
  case notifying => simp [Worker.goto]
  case last =>
    -- The calls before this one all returned.
    rw [LastThrew, calls, List.dropLast_concat]
    exact unharmed
  case clean => exact fun _ unreported => absurd rfl (unreported _)
  case same => exact tiled.same
  case within => exact tiled.within

end Asks

theorem tiled_acquiring {f : Frame} (tiled : Tiled segmentSize parameters f)
    (positive : 1 ≤ segmentSize) (exact_ : Exact (f.step b segmentSize).events)
    (acquiring : f.worker.statement = .acquiring) :
    Tiled segmentSize parameters (f.step b segmentSize) := by
  obtain ⟨short, clean⟩ := tiled.acquiring acquiring
  have unharmed := tiled.clean clean (by simp [acquiring])
  have requested := toAcquireCount_exact segmentSize (tiled.same ▸ short)
  rw [tiled.same] at requested
  rw [UInt64.le_iff_toNat_le, UInt64.toNat_one] at positive
  rw [UInt64.lt_iff_toNat_lt] at short
  have asked : 1 ≤ (f.worker.toAcquireCount segmentSize).toNat ∧
      f.worker.toAcquireCount segmentSize ≤ segmentSize := by
    rw [UInt64.le_iff_toNat_le]
    omega
  cases answer : b.acquire f.acquires with
  | ok data =>
      have step : f.step b segmentSize =
          ⟨f.worker.goto (.notifying data), f.acquires + 1,
            f.events ++ [.acquired (f.worker.toAcquireCount segmentSize) (.ok data)]⟩ := by
        simp [Frame.step, Worker.step, acquiring, Behaviour.answers, answer]
      rw [step] at exact_ ⊢
      have returned : data.stamps.length = (f.worker.toAcquireCount segmentSize).toNat :=
        exact_ (f.worker.toAcquireCount segmentSize, .ok data) (by simp) data rfl
      exact tiled_returned tiled asked unharmed (by omega)
  | error thrown =>
      have step : f.step b segmentSize =
          ⟨f.worker.goto (.reporting (errorStatus f.worker.parameters.frameNumber thrown)),
            f.acquires + 1,
            f.events ++ [.acquired (f.worker.toAcquireCount segmentSize) (.error thrown)]⟩ := by
        simp [Frame.step, Worker.step, acquiring, Behaviour.answers, answer]
      rw [step]
      exact tiled_threw tiled asked unharmed thrown _

theorem tiled_notifying {f : Frame} (tiled : Tiled segmentSize parameters f) {data : AcquiredData}
    (notifying : f.worker.statement = .notifying data) :
    Tiled segmentSize parameters (f.step b segmentSize) := by
  have room := tiled.notifying data notifying
  have limit := parameters.frameLength.toNat_lt
  have count : (f.worker.scansAcquiredCount + UInt64.ofNat data.stamps.length).toNat =
      f.worker.scansAcquiredCount.toNat + data.stamps.length := by
    rw [UInt64.toNat_add, UInt64.toNat_ofNat']
    omega
  have step : f.step b segmentSize =
      ⟨{ f.worker with
          statement := .testing
          scansAcquiredCount := f.worker.scansAcquiredCount + UInt64.ofNat data.stamps.length },
        f.acquires,
        f.events ++ [.notified ⟨f.worker.parameters, data, f.worker.scansAcquiredCount⟩]⟩ := by
    simp [Frame.step, Worker.step, notifying]
  rw [step]
  constructor
  case tiles =>
    rw [count, records_append, List.map_append]
    exact tiles_concat tiled.tiles data.stamps.length
  case within =>
    rw [UInt64.le_iff_toNat_le, count]
    exact room
  case asks => simpa using tiled.asks
  case acquiring => simp
  case notifying => simp
  case last => simpa [LastThrew] using tiled.last
  case clean =>
    intro clean _
    simpa [NoneThrew] using tiled.clean clean (by simp [notifying])
  case same => exact tiled.same

/-- Behind a report the frame is errored, and its calls need no longer add up. -/
theorem tiled_reporting {f : Frame} (tiled : Tiled segmentSize parameters f) {text : String}
    (statement : f.worker.statement = .reporting text) :
    Tiled segmentSize parameters (f.step b segmentSize) := by
  have step : f.step b segmentSize =
      ⟨{ f.worker with statement := .testing, hasErrored := true }, f.acquires,
        f.events ++ [.published text]⟩ := by
    simp [Frame.step, Worker.step, statement]
  rw [step]
  constructor
  case tiles => simpa using tiled.tiles
  case asks => simpa using tiled.asks
  case last => simpa [LastThrew] using tiled.last
  case acquiring => simp
  case notifying => simp
  case clean => simp
  case same => exact tiled.same
  case within => exact tiled.within

theorem tiled_step {f : Frame} (tiled : Tiled segmentSize parameters f) (positive : 1 ≤ segmentSize)
    (exact_ : Exact (f.step b segmentSize).events) :
    Tiled segmentSize parameters (f.step b segmentSize) := by
  cases statement : f.worker.statement with
  | testing => exact tiled_testing tiled statement
  | acquiring => exact tiled_acquiring tiled positive exact_ statement
  | notifying data => exact tiled_notifying tiled statement
  | ended => rwa [frame_step_over (Or.inl statement)]
  | escaped thrown => rwa [frame_step_over (Or.inr ⟨thrown, statement⟩)]
  | reporting text => exact tiled_reporting tiled statement
  | entering =>
      simpa [Frame.step, Worker.step, statement] using
        tiled_quiet (some (.stored .acquiring)) .asking tiled (by simp) (by simp [statement]) (by simp) (by simp)
  | asking =>
      have quiet := fun next answer => tiled_quiet (some (.asked answer))
        next tiled (by simp) (by simp [statement])
      cases asked : b.getIsAcquiring with
      | error thrown =>
          simpa [Frame.step, Worker.step, statement, Behaviour.answers, asked] using
            quiet (.escaped thrown) (.error thrown) (by simp) (by simp)
      | ok acquiring =>
          cases acquiring with
          | true =>
              simpa [Frame.step, Worker.step, statement, Behaviour.answers, asked] using
                quiet .stopping (.ok true) (by simp) (by simp)
          | false =>
              simpa [Frame.step, Worker.step, statement, Behaviour.answers, asked] using
                quiet .starting (.ok false) (by simp) (by simp)
  | starting =>
      have quiet := fun next answer => tiled_quiet (some (.started answer))
        next tiled (by simp) (by simp [statement])
      cases started : b.start with
      | error thrown =>
          simpa [Frame.step, Worker.step, statement, Behaviour.answers, started] using
            quiet (.escaped thrown) (.error thrown) (by simp) (by simp)
      | ok _ =>
          simpa [Frame.step, Worker.step, statement, Behaviour.answers, started] using
            quiet .testing (.ok ()) (by simp) (by simp)
  | stopping =>
      simpa [Frame.step, Worker.step, statement] using
        tiled_quiet (some (.stored .stopped)) .aborting tiled (by simp) (by simp [statement]) (by simp) (by simp)
  | aborting =>
      have quiet := fun next answer => tiled_quiet (some (.aborted answer))
        next tiled (by simp) (by simp [statement])
      cases stop : b.stop with
      | error thrown =>
          simpa [Frame.step, Worker.step, statement, Behaviour.answers, stop] using
            quiet (.escaped thrown) (.error thrown) (by simp) (by simp)
      | ok _ =>
          simpa [Frame.step, Worker.step, statement, Behaviour.answers, stop] using
            quiet .finishing (.ok ()) (by simp) (by simp)
  | finishing =>
      simpa [Frame.step, Worker.step, statement] using
        tiled_quiet (some (.published finished)) .ended tiled (by simp) (by simp [statement]) (by simp) (by simp)

theorem after_tiled (positive : 1 ≤ segmentSize) (steps : Nat)
    (exact_ : Exact (Frame.after b segmentSize parameters steps).events) :
    Tiled segmentSize parameters (Frame.after b segmentSize parameters steps) := by
  induction steps with
  | zero => exact tiled_spawned
  | succ steps ih =>
      exact tiled_step (ih (exact_shorter exact_ (events_grow steps 1))) positive exact_

/-- Why a frame that has left its loop did. -/
def Cause (parameters : UimfFrameParameters) (f : Frame) : Prop :=
  Event.asked (.ok true) ∈ f.events ∨ Event.sawStop ∈ f.events ∨ ¬ NoneThrew f.events ∨
    parameters.frameLength ≤ f.worker.scansAcquiredCount

structure Explained (parameters : UimfFrameParameters) (f : Frame) : Prop where
  same : f.worker.parameters = parameters
  errored : f.worker.hasErrored = true → ¬ NoneThrew f.events
  reporting : ∀ text, f.worker.statement = .reporting text → ¬ NoneThrew f.events
  left : f.worker.statement = .stopping ∨ f.worker.statement = .aborting ∨
    f.worker.statement = .finishing ∨ f.worker.statement = .ended → Cause parameters f

theorem noneThrew_shorter {front events : List Event} (none : NoneThrew events)
    (grown : front <+: events) : NoneThrew front := by
  obtain ⟨back, rfl⟩ := grown
  intro call member
  exact none call (by rw [acquires_append]; exact List.mem_append_left _ member)

theorem cause_grows {f next : Frame} (cause : Cause parameters f) (grown : f.events <+: next.events)
    (counts : f.worker.scansAcquiredCount = next.worker.scansAcquiredCount) :
    Cause parameters next := by
  rcases cause with busy | stopped | thrown | full
  · exact Or.inl (grown.subset busy)
  · exact Or.inr (Or.inl (grown.subset stopped))
  · exact Or.inr (Or.inr (Or.inl fun none => thrown (noneThrew_shorter none grown)))
  · exact Or.inr (Or.inr (Or.inr (counts ▸ full)))

theorem step_grows (f : Frame) : f.events <+: (f.step b segmentSize).events :=
  List.prefix_append _ _

theorem explained_spawned : Explained parameters (.spawned parameters) := by
  constructor <;> simp [Frame.spawned, Worker.spawned]

theorem explained_testing {f : Frame} (explained : Explained parameters f)
    (testing : f.worker.statement = .testing) : Explained parameters (f.step b segmentSize) := by
  have errored := explained.errored
  have same := explained.same
  by_cases short : f.worker.scansAcquiredCount < f.worker.parameters.frameLength
  · by_cases clean : f.worker.hasErrored = true
    · have step : f.step b segmentSize = { f with worker := f.worker.goto .stopping } := by
        simp [Frame.step, Worker.step, testing, short, clean]
      rw [step]
      refine ⟨same, errored, by simp, fun _ => Or.inr (Or.inr (Or.inl (errored clean)))⟩
    · by_cases stop : b.shouldStop f.acquires = true
      · have step : f.step b segmentSize =
            { f with worker := f.worker.goto .stopping, events := f.events ++ [.sawStop] } := by
          simp [Frame.step, Worker.step, testing, short, clean, Behaviour.answers, stop]
        rw [step]
        refine ⟨same, fun harmed => absurd harmed clean, by simp, fun _ => Or.inr (Or.inl ?_)⟩
        simp
      · have step : f.step b segmentSize = { f with worker := f.worker.goto .acquiring } := by
          simp [Frame.step, Worker.step, testing, short, clean, Behaviour.answers, stop]
        rw [step]
        exact ⟨same, errored, by simp, by simp⟩
  · have step : f.step b segmentSize = { f with worker := f.worker.goto .stopping } := by
      simp [Frame.step, Worker.step, testing, short]
    rw [step]
    rw [UInt64.not_lt, same] at short
    exact ⟨same, errored, by simp, fun _ => Or.inr (Or.inr (Or.inr short))⟩

/-- Past the loop nothing is acquired, so the cause stays. -/
theorem explained_leaving {f : Frame} (explained : Explained parameters f) (statement : Statement)
    (moved : (f.step b segmentSize).worker = f.worker.goto statement)
    (left : f.worker.statement = .stopping ∨ f.worker.statement = .aborting ∨
      f.worker.statement = .finishing ∨ f.worker.statement = .ended)
    (unreported : ∀ text, statement ≠ .reporting text) :
    Explained parameters (f.step b segmentSize) where
  same := by rw [moved]; exact explained.same
  errored := by
    rw [moved]
    exact fun harmed none => explained.errored harmed (noneThrew_shorter none (step_grows f))
  reporting := by
    rw [moved]
    exact fun text reached => absurd reached (unreported text)
  left := fun _ => cause_grows (explained.left left) (step_grows f) (by rw [moved]; rfl)

/-- A call reports only what it threw. -/
theorem explained_acquiring {f : Frame} (explained : Explained parameters f)
    (statement : f.worker.statement = .acquiring) : Explained parameters (f.step b segmentSize) where
  same := (step_parameters _ _ _).trans explained.same
  errored := by
    intro harmed none
    refine explained.errored ?_ (noneThrew_shorter none (step_grows f))
    rcases answer : b.acquire f.acquires with thrown | data <;>
      simpa [Frame.step, Worker.step, statement, Behaviour.answers, answer] using harmed
  reporting := by
    rcases answer : b.acquire f.acquires with thrown | data
    · rintro text _ none
      have call := none (f.worker.toAcquireCount segmentSize, .error thrown)
        (by simp [Frame.step, Worker.step, statement, Behaviour.answers, answer])
      cases call
    · simp [Frame.step, Worker.step, statement, Behaviour.answers, answer]
  left := by
    rcases answer : b.acquire f.acquires with thrown | data <;>
      simp [Frame.step, Worker.step, statement, Behaviour.answers, answer]

theorem explained_step {f : Frame} (explained : Explained parameters f) :
    Explained parameters (f.step b segmentSize) := by
  have errored (harmed : f.worker.hasErrored = true) :
      ¬ NoneThrew (f.step b segmentSize).events :=
    fun none => explained.errored harmed (noneThrew_shorter none (step_grows f))
  cases statement : f.worker.statement with
  | testing => exact explained_testing explained statement
  | ended => rwa [frame_step_over (Or.inl statement)]
  | escaped thrown => rwa [frame_step_over (Or.inr ⟨thrown, statement⟩)]
  | stopping =>
      exact explained_leaving explained .aborting
        (by simp [Frame.step, Worker.step, statement]) (Or.inl statement) (by simp)
  | finishing =>
      exact explained_leaving explained .ended
        (by simp [Frame.step, Worker.step, statement]) (Or.inr (Or.inr (Or.inl statement))) (by simp)
  | aborting =>
      cases stop : b.stop with
      | error thrown =>
          exact explained_leaving explained (.escaped thrown)
            (by simp [Frame.step, Worker.step, statement, Behaviour.answers, stop])
            (Or.inr (Or.inl statement)) (by simp)
      | ok _ =>
          exact explained_leaving explained .finishing
            (by simp [Frame.step, Worker.step, statement, Behaviour.answers, stop])
            (Or.inr (Or.inl statement)) (by simp)
  | entering =>
      refine ⟨(step_parameters _ _ _).trans explained.same, fun harmed => errored ?_, ?_, ?_⟩
      · simpa [Frame.step, Worker.step, statement] using harmed
      all_goals simp [Frame.step, Worker.step, statement]
  | asking =>
      refine ⟨(step_parameters _ _ _).trans explained.same, fun harmed => errored ?_, ?_, ?_⟩
      · rcases asked : b.getIsAcquiring with thrown | busy | busy <;>
          simpa [Frame.step, Worker.step, statement, Behaviour.answers, asked] using harmed
      · rcases asked : b.getIsAcquiring with thrown | busy | busy <;>
          simp [Frame.step, Worker.step, statement, Behaviour.answers, asked]
      · rcases asked : b.getIsAcquiring with thrown | busy | busy <;>
          simp [Frame.step, Worker.step, statement, Behaviour.answers, asked, Cause]
  | starting =>
      refine ⟨(step_parameters _ _ _).trans explained.same, fun harmed => errored ?_, ?_, ?_⟩
      · rcases started : b.start with thrown | _ <;>
          simpa [Frame.step, Worker.step, statement, Behaviour.answers, started] using harmed
      all_goals
        rcases started : b.start with thrown | _ <;>
          simp [Frame.step, Worker.step, statement, Behaviour.answers, started]
  | acquiring => exact explained_acquiring explained statement
  | notifying data =>
      refine ⟨(step_parameters _ _ _).trans explained.same, fun harmed => errored ?_, ?_, ?_⟩
      · simpa [Frame.step, Worker.step, statement] using harmed
      all_goals simp [Frame.step, Worker.step, statement]
  | reporting text =>
      refine ⟨(step_parameters _ _ _).trans explained.same, fun _ none => ?_, ?_, ?_⟩
      · exact explained.reporting text statement (noneThrew_shorter none (step_grows f))
      all_goals simp [Frame.step, Worker.step, statement]

theorem after_explained (steps : Nat) :
    Explained parameters (Frame.after b segmentSize parameters steps) := by
  induction steps with
  | zero => exact explained_spawned
  | succ steps ih => exact explained_step ih

/-- What the frame's records and requests come to at any point of it. -/
structure Covers (segmentSize : UInt64) (parameters : UimfFrameParameters) (f : Frame) (k : Nat) :
    Prop where
  tiles : Tiles 0 k ((records f.events).map interval)
  within : k ≤ parameters.frameLength.toNat
  asks : ∀ call ∈ acquires f.events, 1 ≤ call.1.toNat ∧ call.1 ≤ segmentSize
  subtracts : f.worker.statement = .acquiring →
    f.worker.scansAcquiredCount ≤ f.worker.parameters.frameLength
  last : ∀ before call later, acquires f.events = before ++ call :: later →
    threw call.2 = true → later = []
  whole : f.worker.statement = .ended → Event.asked (.ok true) ∉ f.events →
    Event.sawStop ∉ f.events → NoneThrew f.events → k = parameters.frameLength.toNat

theorem lastThrew_last {events : List Event} (last : LastThrew events)
    (before : List (UInt64 × Except Thrown AcquiredData)) (call : UInt64 × Except Thrown AcquiredData)
    (later : List (UInt64 × Except Thrown AcquiredData))
    (split : acquires events = before ++ call :: later) (thrown : threw call.2 = true) :
    later = [] := by
  rcases List.eq_nil_or_concat later with none | ⟨front, final, cut⟩
  · exact none
  · rw [List.concat_eq_append] at cut
    have inside : call ∈ (acquires events).dropLast := by
      have joined : acquires events = (before ++ call :: front) ++ [final] := by
        rw [split, cut, List.append_assoc, List.cons_append]
      rw [joined, List.dropLast_concat]
      exact List.mem_append_right _ List.mem_cons_self
    rw [last call inside] at thrown
    cases thrown

theorem after_covers (positive : 1 ≤ segmentSize) (steps : Nat)
    (exact_ : Exact (Frame.after b segmentSize parameters steps).events) :
    Covers segmentSize parameters (Frame.after b segmentSize parameters steps)
      (Frame.after b segmentSize parameters steps).worker.scansAcquiredCount.toNat := by
  have tiled := after_tiled positive steps exact_
  have within := tiled.within
  refine ⟨tiled.tiles, UInt64.le_iff_toNat_le.mp within, tiled.asks, ?_, lastThrew_last tiled.last,
    ?_⟩
  · rintro _
    rw [tiled.same]
    exact within
  · rintro ended idle running none
    rcases (after_explained steps).left (Or.inr (Or.inr (Or.inr ended))) with
      busy | stopped | thrown | full
    · exact absurd busy idle
    · exact absurd stopped running
    · exact absurd none thrown
    · exact congrArg UInt64.toNat (UInt64.le_antisymm within full)

theorem atTest_acquires (segmentSize : UInt64) {i : Nat} {f : Frame}
    (here : AtTest b parameters i f) (stays : ¬ b.Leaves parameters.frameLength i)
    {data : AcquiredData} (answer : b.acquire i = .ok data) :
    (f.step b segmentSize).step b segmentSize =
      ⟨f.worker.goto (.notifying data), i + 1,
        f.events ++ [.acquired (f.worker.toAcquireCount segmentSize) (.ok data)]⟩ := by
  obtain ⟨_, tested⟩ := atTest_stays segmentSize here stays
  rw [tested]
  simp only [Frame.step, Worker.step, goto_statement, goto_toAcquireCount, here.acquires,
    Behaviour.answers, answer, if_true, Option.toList_some]
  rfl

/-- While nothing ends the loop, each of its passes acquires at least one scan. -/
theorem returned_grows (idle : b.getIsAcquiring = .ok false) (started : b.start = .ok ())
    (answered : ∀ i, ∃ data, b.acquire i = .ok data) (positive : 1 ≤ segmentSize)
    (exact_ : ∀ steps, Exact (Frame.after b segmentSize parameters steps).events) (i : Nat)
    (stays : ∀ j < i, ¬ b.Leaves parameters.frameLength j) : i ≤ (b.returned i).toNat := by
  induction i with
  | zero => exact Nat.zero_le _
  | succ i ih =>
      have before := ih fun j inside => stays j (Nat.lt_succ_of_lt inside)
      have here := after_tests segmentSize idle started i fun j inside =>
        stays j (Nat.lt_succ_of_lt inside)
      obtain ⟨data, answer⟩ := answered i
      have called := atTest_acquires segmentSize here (stays i (Nat.lt_succ_self i)) answer
      have tiled := after_tiled positive (3 + 3 * i + 2) (exact_ (3 + 3 * i + 2))
      have returned := exact_ (3 + 3 * i + 2)
      rw [Frame.after, Frame.after, called] at tiled returned
      have room := tiled.notifying data rfl
      have made : ((Frame.after b segmentSize parameters (3 + 3 * i)).worker.toAcquireCount
          segmentSize, Except.ok data) ∈ acquires
            ((Frame.after b segmentSize parameters (3 + 3 * i)).events ++
              [.acquired ((Frame.after b segmentSize parameters (3 + 3 * i)).worker.toAcquireCount
                segmentSize) (.ok data)]) := by simp
      have asked := (tiled.asks _ made).1
      have length := returned _ made data rfl
      have limit := parameters.frameLength.toNat_lt
      rw [goto_scansAcquiredCount, here.count] at room
      rw [Behaviour.returned, answer, stampsOf, UInt64.toNat_add, UInt64.toNat_ofNat']
      simp only at asked length
      omega

theorem loop_ends (idle : b.getIsAcquiring = .ok false) (started : b.start = .ok ())
    (answered : ∀ i, ∃ data, b.acquire i = .ok data) (positive : 1 ≤ segmentSize)
    (exact_ : ∀ steps, Exact (Frame.after b segmentSize parameters steps).events) :
    ∃ i, b.Leaves parameters.frameLength i := by
  apply Classical.byContradiction
  intro never
  have grown := returned_grows idle started answered positive exact_ parameters.frameLength.toNat
    fun j _ leaves => never ⟨j, leaves⟩
  exact never ⟨_, Or.inl (UInt64.le_iff_toNat_le.mpr grown)⟩

/-- At every point the records tile `[0, k)` with `k` at most the frame length, and a
frame that nothing cuts short ends with `k` equal to it. -/
theorem records_tile (b : Behaviour) (segmentSize : UInt64) (parameters : UimfFrameParameters)
    (positive : 1 ≤ segmentSize)
    (exact_ : ∀ steps, Exact (Frame.after b segmentSize parameters steps).events) :
    (∀ steps, ∃ k, Covers segmentSize parameters (Frame.after b segmentSize parameters steps) k) ∧
    (b.getIsAcquiring = .ok false → b.start = .ok () → b.stop = .ok () →
      (∀ i, ∃ data, b.acquire i = .ok data) →
      ∃ steps, (Frame.after b segmentSize parameters steps).worker.statement = .ended) := by
  constructor
  · intro steps
    exact ⟨_, after_covers positive steps (exact_ steps)⟩
  · intro idle started returns answered
    have ends := loop_ends idle started answered positive exact_
    obtain ⟨_, steps, _, ended, _⟩ := (announces_iff b segmentSize parameters).mpr
      ⟨by simp [idle], fun _ => ⟨started, ends⟩, returns⟩
    exact ⟨steps, ended⟩

/-- A frame that has ended asks for nothing more. -/
theorem exact_of_ended (steps : Nat)
    (ended : (Frame.after b segmentSize parameters steps).worker.statement = .ended)
    (exact_ : Exact (Frame.after b segmentSize parameters steps).events) (other : Nat) :
    Exact (Frame.after b segmentSize parameters other).events := by
  rcases Nat.le_total steps other with before | before
  · obtain ⟨more, rfl⟩ := Nat.exists_eq_add_of_le before
    rwa [after_over (Or.inl ended)]
  · obtain ⟨more, rfl⟩ := Nat.exists_eq_add_of_le before
    exact exact_shorter exact_ (events_grow other more)

def stamped (count : Nat) : AcquiredData :=
  ⟨.ofSize 0, List.replicate count ⟨0, 0, 0, []⟩, 0⟩

/-- Segments of two over a frame of three scans: requests for two and for one. -/
def twoThenOne : Behaviour where
  getIsAcquiring := .ok false
  start := .ok ()
  acquire := fun i => .ok (stamped (2 - i))
  stop := .ok ()
  shouldStop := fun _ => false

def threeScans : UimfFrameParameters := { oneScan with frameLength := 3 }

theorem twoThenOne_exact (steps : Nat) :
    Exact (Frame.after twoThenOne 2 threeScans steps).events := by
  apply exact_of_ended 14 rfl
  rintro call member data returned
  have calls : acquires (Frame.after twoThenOne 2 threeScans 14).events =
      [(2, .ok (stamped 2)), (1, .ok (stamped 1))] := rfl
  rw [calls] at member
  rcases List.mem_cons.mp member with first | rest
  · cases first
    cases returned
    rfl
  · cases List.mem_singleton.mp rest
    cases returned
    rfl

theorem records_tile_three_scans :
    (∀ steps, ∃ k, Covers 2 threeScans (Frame.after twoThenOne 2 threeScans steps) k) ∧
    (twoThenOne.getIsAcquiring = .ok false → twoThenOne.start = .ok () →
      twoThenOne.stop = .ok () → (∀ i, ∃ data, twoThenOne.acquire i = .ok data) →
      ∃ steps, (Frame.after twoThenOne 2 threeScans steps).worker.statement = .ended) :=
  records_tile twoThenOne 2 threeScans (by decide) twoThenOne_exact

/-- The digitizer is acquiring already when the frame begins. -/
def busy : Behaviour := { twoThenOne with getIsAcquiring := .ok true }

/-- Nothing stopped the frame and nothing threw, and it acquired none of its scans. -/
theorem records_tile_busy :
    ¬ ∀ (b : Behaviour) (segmentSize : UInt64) (parameters : UimfFrameParameters),
      1 ≤ segmentSize →
      (∀ steps, Exact (Frame.after b segmentSize parameters steps).events) →
      ∀ steps, (Frame.after b segmentSize parameters steps).worker.statement = .ended →
        Event.sawStop ∉ (Frame.after b segmentSize parameters steps).events →
        NoneThrew (Frame.after b segmentSize parameters steps).events →
        Tiles 0 parameters.frameLength.toNat
          ((records (Frame.after b segmentSize parameters steps).events).map interval) := by
  intro claimed
  have silent : acquires (Frame.after busy 2 threeScans 5).events = [] := rfl
  have tiles := claimed busy 2 threeScans (by decide)
    (exact_of_ended 5 rfl fun call member => by
      rw [silent] at member
      cases member)
    5 rfl (by simp [Frame.after, Frame.spawned, Worker.spawned, Frame.step, Worker.step,
      Behaviour.answers, busy, twoThenOne])
    (fun call member => by
      rw [silent] at member
      cases member)
  cases tiles

end AqMD3.Acquisition
