import AqMD3.OrderStatistic
import AqMD3.Zs1Context

/-!
`get_trigger_period_samples`: the median of the differences between consecutive trigger
timestamps, from the first attempt at acquiring them or from the one retry. What `acquire`
ends in is given; `std::nth_element` is the element of its rank in the sorted list.
-/

namespace AqMD3.Acquisition

open OrderStatistic

/-- The second attempt is made where the first throws a `std::exception`. -/
def acquiredStamps (first second : Ending AcquiredData) : Ending AcquiredData :=
  match first with
  | .threw (.unknown what) => .threw (.unknown what)
  | .threw _ => second
  | ending => ending

def timestampDifferences : List UInt64 → List UInt64
  | first :: second :: rest => (second - first) :: timestampDifferences (second :: rest)
  | _ => []

theorem timestampDifferences_length (timestamps : List UInt64) :
    (timestampDifferences timestamps).length = timestamps.length - 1 := by
  induction timestamps with
  | nil => rfl
  | cons first rest ih =>
      cases rest with
      | nil => rfl
      | cons second rest =>
          rw [timestampDifferences, List.length_cons, ih]
          rfl

def AcquiredData.timestamps (result : AcquiredData) : List UInt64 :=
  result.stamps.map TriggerData.timestamp

def tooFewTimestamps (result : AcquiredData) : String :=
  toString result.stamps.length ++
    " trigger timestamps is not enough to measure a period; two is the minimum"

theorem middle_inside {result : AcquiredData} (enough : ¬ result.stamps.length < 2) :
    (timestampDifferences result.timestamps).length / 2 <
      (timestampDifferences result.timestamps).length := by
  rw [timestampDifferences_length, AcquiredData.timestamps, List.length_map]
  omega

def medianDifference (result : AcquiredData) (enough : ¬ result.stamps.length < 2) : UInt64 :=
  ranked (timestampDifferences result.timestamps)
    ((timestampDifferences result.timestamps).length / 2) (middle_inside enough)

def getTriggerPeriodSamples (first second : Ending AcquiredData) : Ending UInt64 :=
  match acquiredStamps first second with
  | .returned result =>
      if short : result.stamps.length < 2 then .threw (.exception (tooFewTimestamps result))
      else .returned (medianDifference result short)
  | .threw thrown => .threw thrown
  | .waiting => .waiting

/-- Timestamps that are the same at every unmarked place have the same differences where
neither end is marked. -/
theorem differences_unaffected (marks : Nat → Bool) (truth timestamps : List UInt64)
    (same : truth.length = timestamps.length)
    (kept : ∀ place, marks place = false → truth[place]? = timestamps[place]?) :
    unmarked (fun place => marks place || marks (place + 1)) (timestampDifferences truth) =
      unmarked (fun place => marks place || marks (place + 1))
        (timestampDifferences timestamps) := by
  induction truth generalizing marks timestamps with
  | nil => rw [List.length_eq_zero_iff.mp same.symm]
  | cons first rest ih =>
      cases timestamps with
      | nil => cases same
      | cons received later =>
          have tail := ih (fun place => marks (place + 1)) later (Nat.succ.inj same)
            (fun place unmarkedHere => by simpa using kept (place + 1) unmarkedHere)
          cases rest with
          | nil => rw [List.length_eq_zero_iff.mp (Nat.succ.inj same).symm]; rfl
          | cons second rest =>
              cases later with
              | nil => cases Nat.succ.inj same
              | cons next later =>
                  rw [timestampDifferences, timestampDifferences, unmarked, unmarked]
                  split
                  · exact tail
                  · rename_i clean
                    -- Both ends of the first difference are as they were.
                    obtain ⟨here, behind⟩ := Bool.or_eq_false_iff.mp (eq_false_of_ne_true clean)
                    have sameFirst : first = received := Option.some.inj (kept 0 here)
                    have sameSecond : second = next := Option.some.inj (kept 1 behind)
                    rw [sameFirst, sameSecond]
                    rw [sameSecond] at tail
                    exact congrArg _ tail

/-- A period is kept by a majority: of the differences, whatever the others are, and of
what the timestamps were, when fewer than one in four differences are corrupted. -/
structure RidesOut (period : UInt64) (timestamps : List UInt64) : Prop where
  differences : ∀ marks : Nat → Bool,
    2 * markedBelow marks (timestamps.length - 1) < timestamps.length - 1 →
      Between period (unmarked marks (timestampDifferences timestamps))
  corrupted : ∀ (truth : List UInt64) (marks : Nat → Bool), truth.length = timestamps.length →
    (∀ place, marks place = false → truth[place]? = timestamps[place]?) →
    4 * markedBelow marks timestamps.length < timestamps.length - 1 →
      Between period (unmarked (fun place => marks place || marks (place + 1))
        (timestampDifferences truth))

/-- For every list of two timestamps or more, from whichever attempt it comes. -/
theorem trigger_period_rides_out (first second : Ending AcquiredData) (result : AcquiredData)
    (acquired : acquiredStamps first second = .returned result) (enough : 2 ≤ result.stamps.length) :
    ∃ period, getTriggerPeriodSamples first second = .returned period ∧
      RidesOut period result.timestamps := by
  have long : ¬ result.stamps.length < 2 := Nat.not_lt.mpr enough
  have count := timestampDifferences_length result.timestamps
  refine ⟨medianDifference result long, ?_, ?_⟩
  · rw [getTriggerPeriodSamples, acquired]
    exact dif_neg long
  · constructor
    · intro marks majority
      rw [← count] at majority
      exact median_between marks (middle_inside long) majority
    · intro truth marks same kept few
      -- Each corrupted timestamp takes the differences on both of its sides with it.
      rw [differences_unaffected marks truth result.timestamps same kept]
      apply median_between _ (middle_inside long)
      rw [count]
      have spoiled := markedBelow_neighbours marks (result.timestamps.length - 1)
      rw [Nat.sub_add_cancel (by rw [AcquiredData.timestamps, List.length_map]; omega)] at spoiled
      omega

def stampedAt (timestamps : List UInt64) : AcquiredData :=
  ⟨.ofTriggers 20 1024, timestamps.map (fun timestamp => ⟨timestamp, 0, 0, []⟩), 1024⟩

theorem trigger_period_rides_out_retried :
    ∃ period, getTriggerPeriodSamples (.threw (.exception "timeout"))
        (.returned (stampedAt [5, 105, 206, 300, 9])) = .returned period ∧
      RidesOut period (stampedAt [5, 105, 206, 300, 9]).timestamps :=
  trigger_period_rides_out (.threw (.exception "timeout"))
    (.returned (stampedAt [5, 105, 206, 300, 9])) (stampedAt [5, 105, 206, 300, 9]) rfl (by decide)

-- The counter goes back at the end, and the wrapped difference is ridden out.
example : getTriggerPeriodSamples (.returned (stampedAt [5, 105, 206, 300, 9])) .waiting =
    .returned 101 := by decide +kernel

end AqMD3.Acquisition
