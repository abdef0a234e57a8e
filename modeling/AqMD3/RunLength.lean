import Mathlib.Data.List.Basic

/-!
Run-length encoded spectra: a negative number skips that many bins, a number
from 0 on is stored in the next bin. Some readers drop a literal 0 behind one
particular run length; over an encoding that never holds this run length they
read what all others read.
-/

namespace AqMD3.RunLength

def expandFrom : Nat → List Int → List (Nat × Int)
  | _, [] => []
  | bin, v :: rest =>
      if v < 0 then expandFrom (bin + v.natAbs) rest else (bin, v) :: expandFrom (bin + 1) rest

/-- A reader that ignores a literal 0 directly behind a run length of `marker`;
`behind` says that one has just been read. -/
def expandIgnoring (marker : Int) : Bool → Nat → List Int → List (Nat × Int)
  | _, _, [] => []
  | behind, bin, v :: rest =>
      if v < 0 then expandIgnoring marker (v = marker) (bin + v.natAbs) rest
      else if behind && v = 0 then expandIgnoring marker false bin rest
      else (bin, v) :: expandIgnoring marker false (bin + 1) rest

/-- The bins a piece of an encoding covers. -/
def span : List Int → Nat
  | [] => 0
  | v :: rest => (if v < 0 then v.natAbs else 1) + span rest

theorem expandFrom_append (first second : List Int) (bin : Nat) :
    expandFrom bin (first ++ second) =
      expandFrom bin first ++ expandFrom (bin + span first) second := by
  induction first generalizing bin with
  | nil => rfl
  | cons v rest ih =>
      by_cases skip : v < 0
      · simp [expandFrom, span, skip, ih, Nat.add_assoc]
      · simp [expandFrom, span, skip, ih, Nat.add_assoc]

theorem span_append (first second : List Int) : span (first ++ second) = span first + span second := by
  induction first with
  | nil => simp [span]
  | cons v rest ih => simp [span, ih, Nat.add_assoc]

theorem expandFrom_range (value : Nat → Int) (stored : ∀ index, 0 ≤ value index)
    (offset first count : Nat) :
    expandFrom (offset + first) ((List.range' first count).map value) =
      (List.range' first count).map fun index => (offset + index, value index) := by
  induction count generalizing first with
  | zero => rfl
  | succ count ih =>
      have here : ¬ value first < 0 := Int.not_lt.mpr (stored first)
      rw [List.range'_succ, List.map_cons, List.map_cons, expandFrom, if_neg here, Nat.add_assoc, ih]

theorem span_values (values : List Int) (stored : ∀ v ∈ values, 0 ≤ v) :
    span values = values.length := by
  induction values with
  | nil => rfl
  | cons v rest ih =>
      have here : ¬ v < 0 := Int.not_lt.mpr (stored v List.mem_cons_self)
      rw [span, if_neg here, ih (fun value member => stored value (List.mem_cons_of_mem v member)),
        List.length_cons, Nat.add_comm]

theorem expandFrom_skips (skips : List Int) (negative : ∀ v ∈ skips, v < 0) (bin : Nat) :
    expandFrom bin skips = [] := by
  induction skips generalizing bin with
  | nil => rfl
  | cons v rest ih =>
      rw [expandFrom, if_pos (negative v List.mem_cons_self)]
      exact ih (fun value member => negative value (List.mem_cons_of_mem v member)) _

theorem expandFrom_stored (encoding : List Int) (bin : Nat) :
    ∀ place ∈ expandFrom bin encoding, bin ≤ place.1 ∧ place.2 ∈ encoding ∧ 0 ≤ place.2 := by
  induction encoding generalizing bin with
  | nil => exact fun place member => absurd member List.not_mem_nil
  | cons v rest ih =>
      intro place member
      by_cases skip : v < 0
      · rw [expandFrom, if_pos skip] at member
        obtain ⟨behind, inside, stored⟩ := ih _ place member
        exact ⟨Nat.le_trans (Nat.le_add_right _ _) behind, List.mem_cons_of_mem v inside, stored⟩
      · rw [expandFrom, if_neg skip] at member
        rcases List.mem_cons.mp member with here | later
        · rw [here]
          exact ⟨Nat.le_refl bin, List.mem_cons_self, Int.not_lt.mp skip⟩
        · obtain ⟨behind, inside, stored⟩ := ih _ place later
          exact ⟨Nat.le_of_succ_le behind, List.mem_cons_of_mem v inside, stored⟩

theorem expandFrom_once (encoding : List Int) (bin : Nat) :
    (expandFrom bin encoding).Pairwise fun before after => before.1 < after.1 := by
  induction encoding generalizing bin with
  | nil => exact List.Pairwise.nil
  | cons v rest ih =>
      by_cases skip : v < 0
      · rw [expandFrom, if_pos skip]
        exact ih _
      · rw [expandFrom, if_neg skip]
        exact List.pairwise_cons.mpr
          ⟨fun place member => (expandFrom_stored rest (bin + 1) place member).1, ih _⟩

theorem expandIgnoring_plain (marker : Int) (encoding : List Int) (absent : marker ∉ encoding)
    (bin : Nat) : expandIgnoring marker false bin encoding = expandFrom bin encoding := by
  induction encoding generalizing bin with
  | nil => rfl
  | cons v rest ih =>
      have other : ¬ v = marker := fun same => absent (same ▸ List.mem_cons_self)
      have tail := ih (fun member => absent (List.mem_cons_of_mem v member))
      by_cases skip : v < 0
      · simp [expandIgnoring, expandFrom, skip, other, tail]
      · simp [expandIgnoring, expandFrom, skip, tail]

end AqMD3.RunLength
