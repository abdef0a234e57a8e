import AqMD3.ZmqAcquiredDataSubscriber

/-!
When a frame stays inside `data_vector`. A skip is tested where it lands and a
value is stored untested, so what matters is which values no refused skip
precedes.
-/

namespace AqMD3.Acquisition

theorem checkAlignment_statuses (floor : Int32) (frame : UimfFrame) :
    ∀ send ∈ checkAlignment floor frame, send.subject = statusSubject := by
  intro send member
  simp only [checkAlignment] at member
  split at member
  · cases member
  · rw [List.mem_singleton.mp member]
    rfl

theorem encodeError_status (frame : UimfFrame) (thrown : Thrown) :
    ∃ text, ZmqAcquiredDataSubscriber.encodeError frame thrown = publishError text := by
  cases thrown with
  | frameDamaged what => exact ⟨_, rfl⟩
  | exception what => exact ⟨_, rfl⟩
  | unknown what => exact ⟨_, rfl⟩

/-- The statuses of the alignment check, then one more and no data message. -/
def RefusedOnce (alignment sends : List Send) : Prop :=
  (∀ send ∈ sends, send.subject ≠ dataSubject) ∧ ∃ text, sends = alignment ++ [publishError text]

theorem refusedOnce_status (floor : Int32) (frame : UimfFrame) (text : String) :
    RefusedOnce (checkAlignment floor frame)
      (checkAlignment floor frame ++ [publishError text]) := by
  refine ⟨fun send member => ?_, text, rfl⟩
  rcases List.mem_append.mp member with aligned | last
  · rw [checkAlignment_statuses floor frame send aligned]
    decide
  · rw [List.mem_singleton.mp last]
    exact (by decide : statusSubject ≠ dataSubject)

/-- Every write is inside the vector, and a frame with a value past it is refused. -/
structure Contained (z : ZmqAcquiredDataSubscriber) (frame : UimfFrame) (n : Notified) : Prop where
  inside : ∀ index ∈ n.writes, index < z.dataVector.length
  refused : (∃ bin, .store bin ∈ frameSteps frame.data ∧ z.dataVector.length ≤ bin) →
    RefusedOnce (checkAlignment z.firstSampleFloor frame) n.sends

/-- A value that no refused skip precedes has a bin whose int is an index of the
vector, and a frame with no refused skip has no bin past it. -/
structure Guarded (sampleCount : Nat) (steps : List BinStep) : Prop where
  inside : ∀ bin, .store bin ∈ stepsMade sampleCount steps → indexOf bin < sampleCount
  within : (∀ step ∈ steps, refusedAt sampleCount step = false) →
    ∀ bin, .store bin ∈ steps → bin < sampleCount

theorem mem_storeIndexes (steps : List BinStep) (index : Nat) :
    index ∈ storeIndexes steps ↔ ∃ bin, .store bin ∈ steps ∧ indexOf bin = index := by
  rw [storeIndexes, List.mem_filterMap]
  constructor
  · rintro ⟨step, member, found⟩
    cases step with
    | store bin => exact ⟨bin, member, Option.some.inj found⟩
    | land bin => cases found
  · rintro ⟨bin, member, same⟩
    exact ⟨.store bin, member, congrArg some same⟩

theorem stepsMade_all (sampleCount : Nat) (steps : List BinStep)
    (passed : ∀ step ∈ steps, refusedAt sampleCount step = false) :
    stepsMade sampleCount steps = steps :=
  List.takeWhile_eq_self_iff.mpr fun step member => by simp [passed step member]

section Contained

variable (z : ZmqAcquiredDataSubscriber) (frame : UimfFrame)

/-- The sum of a frame on a vector set to zero. -/
def summing : Summing := ⟨0, List.replicate z.dataVector.length (0 : Int32), []⟩

theorem contained_refused_iff {scan : EncodedResult} {what : String} {last : Summing}
    (ending : sumFrame (summing z) frame.data = .refused scan what last) :
    (∀ encode, Contained z frame (z.onNotify encode frame)) ↔
      Guarded z.dataVector.length (frameSteps frame.data) := by
  have sum := sumFrame_steps frame.data (summing z)
  rw [summing, List.length_replicate, ← summing, ending] at sum
  obtain ⟨⟨step, member, refused⟩, writes⟩ := sum
  have notified (encode : Message → Except Thrown (List UInt8)) : z.onNotify encode frame =
      { subscriber := { z with dataVector := last.data }
        sends := checkAlignment z.firstSampleFloor frame ++
          [publishError (what ++ whereOf frame scan)]
        writes := last.writes } := by
    rw [summing] at ending
    simp only [ZmqAcquiredDataSubscriber.onNotify, ending]
  constructor
  · intro contained
    -- The sum is written before anything is serialised, so any outcome of that will do.
    have inside := (contained fun _ => .ok []).inside
    rw [notified] at inside
    refine ⟨fun bin made => inside _ ?_, fun passed => ?_⟩
    · simp only [writes, summing, List.nil_append]
      exact (mem_storeIndexes _ _).mpr ⟨bin, made, rfl⟩
    · rw [passed step member] at refused
      cases refused
  · intro guarded encode
    rw [notified]
    refine ⟨fun index wrote => ?_, fun _ => refusedOnce_status _ _ _⟩
    simp only [writes, summing, List.nil_append] at wrote
    obtain ⟨bin, made, rfl⟩ := (mem_storeIndexes _ _).mp wrote
    exact guarded.inside bin made

theorem contained_summed_iff {last : Summing} (ending : sumFrame (summing z) frame.data = .summed last) :
    (∀ encode, Contained z frame (z.onNotify encode frame)) ↔
      Guarded z.dataVector.length (frameSteps frame.data) := by
  have sum := sumFrame_steps frame.data (summing z)
  rw [summing, List.length_replicate, ← summing, ending] at sum
  obtain ⟨passed, writes⟩ := sum
  rw [summing] at ending
  have wrote (encode : Message → Except Thrown (List UInt8)) :
      (z.onNotify encode frame).writes = storeIndexes (frameSteps frame.data) := by
    simp only [ZmqAcquiredDataSubscriber.onNotify, ending]
    split <;> simp [writes, summing]
  constructor
  · intro contained
    refine ⟨fun bin made => (contained fun _ => .ok []).inside _ ?_, fun _ bin stored => ?_⟩
    · rw [wrote]
      rw [stepsMade_all _ _ passed] at made
      exact (mem_storeIndexes _ _).mpr ⟨bin, made, rfl⟩
    · by_contra past
      -- Nothing refused it, so its bytes go out, which a containing subscriber does not do.
      have silent := ((contained fun _ => .ok []).refused ⟨bin, stored, Nat.not_lt.mp past⟩).1
      refine silent ⟨dataSubject, .bytes [], 100⟩ ?_ rfl
      simp [ZmqAcquiredDataSubscriber.onNotify, ending]
  · intro guarded encode
    refine ⟨fun index member => ?_, fun past => ?_⟩
    · rw [wrote] at member
      obtain ⟨bin, stored, rfl⟩ := (mem_storeIndexes _ _).mp member
      exact guarded.inside bin (by rwa [stepsMade_all _ _ passed])
    · obtain ⟨bin, stored, outside⟩ := past
      exact absurd (guarded.within passed bin stored) (Nat.not_lt.mpr outside)

end Contained

/-- Whatever serialising does: a frame is contained exactly when it is guarded. -/
theorem contained_iff (z : ZmqAcquiredDataSubscriber) (frame : UimfFrame) :
    (∀ encode, Contained z frame (z.onNotify encode frame)) ↔
      Guarded z.dataVector.length (frameSteps frame.data) := by
  cases ending : sumFrame (summing z) frame.data with
  | refused scan what last => exact contained_refused_iff z frame ending
  | summed last => exact contained_summed_iff z frame ending

/-- One bin, and a scan that stores two values in a row: the second is written
behind the vector and the frame is published. -/
theorem contained_run_past_end :
    ¬ ∀ (encode : Message → Except Thrown (List UInt8)) (sampleCount : UInt32) (floor : Int32)
        (frame : UimfFrame), Contained (.create sampleCount floor) frame
          ((ZmqAcquiredDataSubscriber.create sampleCount floor).onNotify encode frame) := by
  intro contained
  have inside := (contained (fun _ => .ok []) 1 0
    ⟨⟨0, 0, 0, 1, 1, 0, ""⟩, [⟨0, 2, [5, 6], 11, 6, 1, 0⟩]⟩).inside
  exact absurd (inside 1 (by decide +kernel)) (by decide +kernel)

end AqMD3.Acquisition
