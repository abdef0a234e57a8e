import Mathlib.Algebra.Ring.Int.Defs
import Mathlib.Data.List.Basic

/-!
Runs of values with a gap in front of each. Where the values lie depends on how a gap
is counted; two ways of counting differ, at a value, by what they differ by in the
gaps up to the piece the value is first found in.
-/

namespace AqMD3.GapPieces

structure Piece where
  gap : Int
  values : List Int
  deriving DecidableEq

/-- Values in consecutive bins. -/
def placeFrom : Int → List Int → List (Int × Int)
  | _, [] => []
  | bin, v :: rest => (bin, v) :: placeFrom (bin + 1) rest

/-- All values with their bins, each gap counted by `gapOf`. -/
def placesFrom (gapOf : Int → Int) : Int → List Piece → List (Int × Int)
  | _, [] => []
  | bin, p :: rest =>
      placeFrom (bin + gapOf p.gap) p.values ++
        placesFrom gapOf (bin + gapOf p.gap + p.values.length) rest

/-- The pieces up to the first one that holds the value. -/
def upTo (value : Int) : List Piece → List Piece
  | [] => []
  | p :: rest => if value ∈ p.values then [p] else p :: upTo value rest

theorem placeFrom_values (values : List Int) (bin : Int) :
    (placeFrom bin values).map Prod.snd = values := by
  induction values generalizing bin with
  | nil => rfl
  | cons v rest ih => simp [placeFrom, ih]

theorem placesFrom_values (gapOf : Int → Int) (pieces : List Piece) (bin : Int) :
    (placesFrom gapOf bin pieces).map Prod.snd = pieces.flatMap Piece.values := by
  induction pieces generalizing bin with
  | nil => rfl
  | cons p rest ih => simp [placesFrom, placeFrom_values, ih]

theorem placesFrom_append (gapOf : Int → Int) (first : List Piece) (bin : Int) :
    ∃ past, ∀ second, placesFrom gapOf bin (first ++ second) =
      placesFrom gapOf bin first ++ placesFrom gapOf past second := by
  induction first generalizing bin with
  | nil => exact ⟨bin, fun second => rfl⟩
  | cons p rest ih =>
      obtain ⟨past, tail⟩ := ih (bin + gapOf p.gap + p.values.length)
      refine ⟨past, fun second => ?_⟩
      simp only [List.cons_append, placesFrom, tail, List.append_assoc]

theorem placeFrom_moved (distance bin : Int) (values : List Int) :
    placeFrom (bin + distance) values =
      (placeFrom bin values).map fun place => (place.1 + distance, place.2) := by
  induction values generalizing bin with
  | nil => rfl
  | cons v rest ih =>
      rw [placeFrom, placeFrom, List.map_cons, ← ih, Int.add_right_comm]

/-- From another bin on, everything is moved by the distance. -/
theorem placesFrom_moved (gapOf : Int → Int) (distance bin : Int) (pieces : List Piece) :
    placesFrom gapOf (bin + distance) pieces =
      (placesFrom gapOf bin pieces).map fun place => (place.1 + distance, place.2) := by
  induction pieces generalizing bin with
  | nil => rfl
  | cons p rest ih =>
      rw [placesFrom, placesFrom, List.map_append, ← placeFrom_moved, ← ih]
      congr 2 <;> omega

theorem placeFrom_find (value : Int) (values : List Int) (a b : Int) :
    (placeFrom a values).find? (fun place => place.2 = value) =
      ((placeFrom b values).find? fun place => place.2 = value).map
        fun place => (place.1 + (a - b), place.2) := by
  induction values generalizing a b with
  | nil => rfl
  | cons v rest ih =>
      by_cases here : v = value
      · simp only [placeFrom, here, decide_true, List.find?_cons_of_pos, Option.map_some,
          Option.some.injEq, Prod.mk.injEq, and_true]
        omega
      · have skipped (bin : Int) : (placeFrom bin (v :: rest)).find? (fun place => place.2 = value) =
            (placeFrom (bin + 1) rest).find? fun place => place.2 = value :=
          List.find?_cons_of_neg (by simpa using here)
        rw [skipped, skipped, ih (a + 1) (b + 1), show a + 1 - (b + 1) = a - b by omega]

theorem placeFrom_none (value : Int) (values : List Int) (absent : value ∉ values) (bin : Int) :
    (placeFrom bin values).find? (fun place => place.2 = value) = none := by
  rw [List.find?_eq_none]
  intro place member same
  apply absent
  rw [← placeFrom_values values bin]
  exact List.mem_map.mpr ⟨place, member, by simpa using same⟩

theorem placeFrom_some (value : Int) (values : List Int) (present : value ∈ values) (bin : Int) :
    ∃ place, (placeFrom bin values).find? (fun place => place.2 = value) = some place := by
  apply Option.isSome_iff_exists.mp
  rw [List.find?_isSome]
  rw [← placeFrom_values values bin] at present
  obtain ⟨place, member, same⟩ := List.mem_map.mp present
  exact ⟨place, member, by simpa using same⟩

/-- How far two ways of counting are apart where a value is first found. -/
theorem placesFrom_find (first second : Int → Int) (value : Int) (pieces : List Piece) (a b : Int) :
    (placesFrom first a pieces).find? (fun place => place.2 = value) =
      ((placesFrom second b pieces).find? fun place => place.2 = value).map fun place =>
        (place.1 + (a - b) +
          ((upTo value pieces).map fun p => first p.gap - second p.gap).sum, place.2) := by
  induction pieces generalizing a b with
  | nil => rfl
  | cons p rest ih =>
      simp only [placesFrom, List.find?_append, upTo]
      by_cases here : value ∈ p.values
      · rw [if_pos here]
        obtain ⟨place, found⟩ := placeFrom_some value p.values here (b + second p.gap)
        rw [placeFrom_find value p.values (a + first p.gap) (b + second p.gap), found]
        simp only [Option.map_some, Option.some_or, List.map_cons, List.map_nil, List.sum_cons,
          List.sum_nil, Option.some.injEq, Prod.mk.injEq, and_true]
        omega
      · rw [if_neg here, placeFrom_none value p.values here, placeFrom_none value p.values here,
          Option.none_or, Option.none_or,
          ih (a + first p.gap + p.values.length) (b + second p.gap + p.values.length)]
        congr 1
        funext place
        simp only [List.map_cons, List.sum_cons, Prod.mk.injEq, and_true]
        omega

theorem drift_nonpos (pieces : List Piece) :
    (pieces.map fun p => p.gap - max p.gap 0).sum ≤ 0 := by
  induction pieces with
  | nil => exact Int.le_refl _
  | cons p rest ih =>
      rw [List.map_cons, List.sum_cons]
      omega

/-- Gaps counted as they are, and gaps below zero counted as none: these agree exactly
where no gap is below zero. -/
theorem drift_zero (pieces : List Piece) :
    (pieces.map fun p => p.gap - max p.gap 0).sum = 0 ↔ ∀ p ∈ pieces, 0 ≤ p.gap := by
  induction pieces with
  | nil => simp
  | cons p rest ih =>
      have tail := drift_nonpos rest
      rw [List.map_cons, List.sum_cons, List.forall_mem_cons, ← ih]
      omega

end AqMD3.GapPieces
