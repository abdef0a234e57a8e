import Mathlib.Order.Lattice
import Mathlib.Order.Defs.LinearOrder
import Mathlib.Data.List.Basic

/-!
A running maximum with the place of its first occurrence: the scan keeps a sample
that is larger than every one before it, so what it ends with is the first of the
largest ones.
-/

namespace AqMD3.RunningPeak

variable {Place Value : Type} [LinearOrder Value]

def improve (best sample : Place × Value) : Place × Value :=
  if best.2 < sample.2 then sample else best

theorem improve_value (samples : List (Place × Value)) (best : Place × Value) :
    (samples.foldl improve best).2 = (samples.map Prod.snd).foldl max best.2 := by
  induction samples generalizing best with
  | nil => rfl
  | cons sample rest ih =>
      rw [List.foldl_cons, ih, List.map_cons, List.foldl_cons]
      congr 1
      unfold improve
      split
      · rename_i larger
        exact (max_eq_right (le_of_lt larger)).symm
      · rename_i smaller
        exact (max_eq_left (not_lt.mp smaller)).symm

theorem improve_grows (samples : List (Place × Value)) (best : Place × Value) :
    best.2 ≤ (samples.foldl improve best).2 := by
  induction samples generalizing best with
  | nil => exact le_refl _
  | cons sample rest ih =>
      apply le_trans _ (ih (improve best sample))
      unfold improve
      split
      · rename_i larger
        exact le_of_lt larger
      · exact le_refl _

/-- No sample is larger than what the scan ends with. -/
theorem improve_largest (samples : List (Place × Value)) (best : Place × Value) :
    ∀ sample ∈ samples, sample.2 ≤ (samples.foldl improve best).2 := by
  induction samples generalizing best with
  | nil => exact fun sample member => absurd member List.not_mem_nil
  | cons first rest ih =>
      intro sample member
      rcases List.mem_cons.mp member with same | later
      · rw [same, List.foldl_cons]
        apply le_trans _ (improve_grows rest (improve best first))
        unfold improve
        split
        · exact le_refl _
        · rename_i smaller
          exact not_lt.mp smaller
      · exact ih (improve best first) sample later

/-- A scan that does not raise the maximum keeps its place. -/
theorem improve_stays (samples : List (Place × Value)) (best : Place × Value)
    (same : (samples.foldl improve best).2 = best.2) : samples.foldl improve best = best := by
  induction samples generalizing best with
  | nil => rfl
  | cons sample rest ih =>
      rw [List.foldl_cons] at same ⊢
      by_cases larger : best.2 < sample.2
      · have raised : improve best sample = sample := if_pos larger
        rw [raised] at same
        have grows := improve_grows rest sample
        rw [same] at grows
        exact absurd larger (not_lt.mpr grows)
      · have kept : improve best sample = best := if_neg larger
        rw [kept] at same ⊢
        exact ih best same

/-- A maximum that was raised is the first sample with its value. -/
theorem improve_first (samples : List (Place × Value)) (best : Place × Value)
    (raised : best.2 < (samples.foldl improve best).2) :
    samples.find? (fun sample => sample.2 = (samples.foldl improve best).2) =
      some (samples.foldl improve best) := by
  induction samples generalizing best with
  | nil => exact absurd raised (lt_irrefl _)
  | cons sample rest ih =>
      rw [List.foldl_cons] at raised ⊢
      by_cases larger : best.2 < sample.2
      · have taken : improve best sample = sample := if_pos larger
        rw [taken] at raised ⊢
        by_cases final : sample.2 = (rest.foldl improve sample).2
        · rw [List.find?_cons_of_pos (by simpa using final), improve_stays rest sample final.symm]
        · rw [List.find?_cons_of_neg (by simpa using final)]
          exact ih sample (lt_of_le_of_ne (improve_grows rest sample) final)
      · have kept : improve best sample = best := if_neg larger
        rw [kept] at raised ⊢
        have other : ¬ sample.2 = (rest.foldl improve best).2 := by
          intro same
          rw [← same] at raised
          exact larger raised
        rw [List.find?_cons_of_neg (by simpa using other)]
        exact ih best raised

theorem improve_commutes (move : Place → Place) (samples : List (Place × Value))
    (best : Place × Value) :
    (samples.map fun sample => (move sample.1, sample.2)).foldl improve (move best.1, best.2) =
      (move (samples.foldl improve best).1, (samples.foldl improve best).2) := by
  induction samples generalizing best with
  | nil => rfl
  | cons sample rest ih =>
      have step : improve (move best.1, best.2) (move sample.1, sample.2) =
          (move (improve best sample).1, (improve best sample).2) := by
        simp only [improve]
        split <;> rfl
      rw [List.map_cons, List.foldl_cons, List.foldl_cons, step, ih]

/-- Moving all samples moves the maximum, unless none of them raises it. -/
theorem improve_moved (move : Place → Place) (samples : List (Place × Value))
    (best : Place × Value) :
    (samples.map fun sample => (move sample.1, sample.2)).foldl improve best =
      if best.2 < (samples.foldl improve best).2 then
        (move (samples.foldl improve best).1, (samples.foldl improve best).2)
      else best := by
  induction samples generalizing best with
  | nil => simp
  | cons sample rest ih =>
      rw [List.map_cons, List.foldl_cons, List.foldl_cons]
      by_cases larger : best.2 < sample.2
      · have taken : improve best sample = sample := if_pos larger
        have moved : improve best (move sample.1, sample.2) = (move sample.1, sample.2) :=
          if_pos larger
        rw [taken, moved, improve_commutes, if_pos (lt_of_lt_of_le larger (improve_grows rest sample))]
      · have kept : improve best sample = best := if_neg larger
        have still : improve best (move sample.1, sample.2) = best := if_neg larger
        rw [kept, still, ih]

end AqMD3.RunningPeak
