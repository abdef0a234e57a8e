import Mathlib.Algebra.Group.Int.Defs
import Mathlib.Algebra.Group.Nat.Defs
import Mathlib.Data.List.Basic

/-!
The loop `for (int i = start; i < bound; i++)` with a 32-bit counter and a wider
bound. The counter wraps as the hardware's does, so a loop whose bound no int
reaches visits every int and does not end.
-/

namespace AqMD3.CountedLoop

inductive Visits (start : Int32) (bound : Int) : Int32 → Prop
  | first (enters : start.toInt < bound) : Visits start bound start
  | next (i : Int32) (visited : Visits start bound i) (again : (i + 1).toInt < bound) :
      Visits start bound (i + 1)

def indices (start : Int32) (bound : Int) : List Int32 :=
  (List.range (bound - start.toInt).toNat).map fun k => start + Int32.ofNat k

/-- The counters of a loop in order, or `none` for one that does not end. -/
def forInt (start : Int32) (bound : Int) : Option (List Int32) :=
  if start.toInt < bound ∧ 2 ^ 31 ≤ bound then none else some (indices start bound)

def Ends (start : Int32) (bound : Int) : Prop := start.toInt < bound → bound < 2 ^ 31

theorem forInt_ends (start : Int32) (bound : Int) (ends : Ends start bound) :
    forInt start bound = some (indices start bound) := by
  rw [forInt, if_neg]
  intro ⟨enters, past⟩
  exact Int.not_le.mpr (ends enters) past

theorem forInt_endless (start : Int32) (bound : Int) (endless : ¬ Ends start bound) :
    forInt start bound = none := by
  rw [forInt, if_pos]
  simp only [Ends, not_forall, Int.not_lt] at endless
  exact ⟨endless.1, endless.2⟩

theorem counter_exact (start : Int32) (bound : Int) (fits : bound < 2 ^ 31) (k : Nat)
    (inside : start.toInt + k < bound) : (start + Int32.ofNat k).toInt = start.toInt + k := by
  have low := start.le_toInt
  rw [Int32.toInt_add, Int32.toInt_ofNat', Int.bmod_def, Int.bmod_def]
  simp only [Int32.size]
  omega

theorem visits_counter (start : Int32) (bound : Int) (fits : bound < 2 ^ 31) (k : Nat)
    (inside : start.toInt + k < bound) : Visits start bound (start + Int32.ofNat k) := by
  induction k with
  | zero => simpa using Visits.first (by simpa using inside)
  | succ k ih =>
      have step : start + Int32.ofNat (k + 1) = start + Int32.ofNat k + 1 := by
        rw [Int32.ofNat_add, ← Int32.add_assoc]
        rfl
      rw [step]
      refine Visits.next _ (ih (by omega)) ?_
      rw [← step, counter_exact start bound fits (k + 1) inside]
      exact inside

/-- A loop that ends visits the ints from its start up to its bound. -/
theorem visits_iff (start : Int32) (bound : Int) (fits : bound < 2 ^ 31) (i : Int32) :
    Visits start bound i ↔ start.toInt ≤ i.toInt ∧ i.toInt < bound := by
  constructor
  · intro visited
    induction visited with
    | first enters => exact ⟨Int.le_refl _, enters⟩
    | next i _ again ih =>
        refine ⟨?_, again⟩
        rw [Int32.toInt_add, Int32.toInt_one, Int.bmod_def]
        have low := start.le_toInt
        omega
  · intro ⟨low, high⟩
    have place : i = start + Int32.ofNat (i.toInt - start.toInt).toNat := by
      apply Int32.toInt_inj.mp
      rw [counter_exact start bound fits _ (by omega)]
      omega
    rw [place]
    exact visits_counter start bound fits _ (by omega)

theorem mem_indices (start : Int32) (bound : Int) (fits : bound < 2 ^ 31) (i : Int32) :
    i ∈ indices start bound ↔ Visits start bound i := by
  rw [visits_iff start bound fits, indices, List.mem_map]
  constructor
  · intro ⟨k, member, same⟩
    rw [List.mem_range] at member
    rw [← same, counter_exact start bound fits k (by omega)]
    omega
  · intro ⟨low, high⟩
    refine ⟨(i.toInt - start.toInt).toNat, List.mem_range.mpr (by omega), ?_⟩
    apply Int32.toInt_inj.mp
    rw [counter_exact start bound fits _ (by omega)]
    omega

theorem visits_none (start : Int32) (bound : Int) (outside : ¬ start.toInt < bound) (i : Int32) :
    ¬ Visits start bound i := by
  intro visited
  induction visited with
  | first enters => exact outside enters
  | next _ _ _ ih => exact ih

/-- A loop whose bound no int reaches visits every int. -/
theorem visits_endless (start : Int32) (bound : Int) (endless : ¬ Ends start bound) (i : Int32) :
    Visits start bound i := by
  simp only [Ends, not_forall, Int.not_lt] at endless
  obtain ⟨enters, past⟩ := endless
  have always : ∀ k : Nat, Visits start bound (start + Int32.ofNat k) := by
    intro k
    induction k with
    | zero => simpa using Visits.first enters
    | succ k ih =>
        have step : start + Int32.ofNat (k + 1) = start + Int32.ofNat k + 1 := by
          rw [Int32.ofNat_add, ← Int32.add_assoc]
          rfl
        rw [step]
        have high := (start + Int32.ofNat k + 1).toInt_lt
        exact Visits.next _ ih (by omega)
  have difference : Int32.ofNat (i - start).toUInt32.toNat = i - start := by
    apply Int32.toBitVec_inj.mp
    exact (BitVec.ofNat_toNat 32 (i - start).toBitVec).trans (BitVec.setWidth_eq _)
  have place : i = start + Int32.ofNat (i - start).toUInt32.toNat := by
    rw [difference, Int32.add_comm, Int32.sub_add_cancel]
  rw [place]
  exact always _

end AqMD3.CountedLoop
