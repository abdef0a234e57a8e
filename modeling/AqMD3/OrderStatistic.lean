import Mathlib.Data.List.Sort

/-!
The element of a rank in a list, and what it can be when part of the list is arbitrary.
An element of the remaining ones is at or below it when no more are arbitrary than its
rank, and one is at or above it when the rank is below their number.
-/

namespace AqMD3.OrderStatistic

/-- The items at unmarked places, in order. -/
def unmarked {Item : Type} (marks : Nat → Bool) : List Item → List Item
  | [] => []
  | item :: rest =>
      if marks 0 then unmarked (fun place => marks (place + 1)) rest
      else item :: unmarked (fun place => marks (place + 1)) rest

/-- How many of the first places are marked. -/
def markedBelow (marks : Nat → Bool) (count : Nat) : Nat := (List.range count).countP marks

theorem markedBelow_succ (marks : Nat → Bool) (count : Nat) :
    markedBelow marks (count + 1) =
      markedBelow (fun place => marks (place + 1)) count + (marks 0).toNat := by
  rw [markedBelow, List.range_succ_eq_map, List.countP_cons, List.countP_map]
  cases marks 0 <;> rfl

theorem markedBelow_le_succ (marks : Nat → Bool) (count : Nat) :
    markedBelow marks count ≤ markedBelow marks (count + 1) := by
  rw [markedBelow, markedBelow, List.range_succ]
  exact (List.sublist_append_left _ _).countP_le

theorem markedBelow_or (left right : Nat → Bool) (count : Nat) :
    markedBelow (fun place => left place || right place) count ≤
      markedBelow left count + markedBelow right count := by
  induction count generalizing left right with
  | zero => exact Nat.zero_le _
  | succ count ih =>
      have tail := ih (fun place => left (place + 1)) (fun place => right (place + 1))
      rw [markedBelow_succ, markedBelow_succ, markedBelow_succ]
      cases left 0 <;> cases right 0 <;> simp only [Bool.toNat, cond, Bool.or_true, Bool.or_false] <;>
        omega

/-- A mark spoils two neighbours at most. -/
theorem markedBelow_neighbours (marks : Nat → Bool) (count : Nat) :
    markedBelow (fun place => marks place || marks (place + 1)) count ≤
      2 * markedBelow marks (count + 1) := by
  have both := markedBelow_or marks (fun place => marks (place + 1)) count
  have here := markedBelow_le_succ marks count
  have next := markedBelow_succ marks count
  omega

section Places

variable {Item : Type}

theorem unmarked_sublist (marks : Nat → Bool) (items : List Item) :
    (unmarked marks items).Sublist items := by
  induction items generalizing marks with
  | nil => exact List.Sublist.slnil
  | cons item rest ih =>
      rw [unmarked]
      split
      · exact (ih _).cons item
      · exact (ih _).cons_cons item

theorem unmarked_length (marks : Nat → Bool) (items : List Item) :
    (unmarked marks items).length + markedBelow marks items.length = items.length := by
  induction items generalizing marks with
  | nil => rfl
  | cons item rest ih =>
      have tail := ih (fun place => marks (place + 1))
      rw [unmarked, List.length_cons, markedBelow_succ]
      cases marks 0 with
      | false =>
          simp only [Bool.false_eq_true, ↓reduceIte, List.length_cons, Bool.toNat_false]
          omega
      | true =>
          simp only [↓reduceIte, Bool.toNat_true]
          omega

/-- A test that fails up to a place counts later items only. -/
theorem countP_behind (items : List Item) (count : Nat) (test : Item → Bool)
    (fails : ∀ place (inside : place < items.length), place < count →
      test (items.get ⟨place, inside⟩) = false) :
    items.countP test ≤ items.length - count := by
  have zero : (items.take count).countP test = 0 := by
    rw [List.countP_eq_zero]
    intro item member holds
    obtain ⟨place, inside, rfl⟩ := List.mem_take_iff_getElem.mp member
    have failed := fails place (by omega) (by omega)
    rw [List.get_eq_getElem] at failed
    exact absurd holds (by simp [failed])
  calc items.countP test
      = (items.take count).countP test + (items.drop count).countP test := by
        rw [← List.countP_append, List.take_append_drop]
    _ ≤ items.length - count := by
        rw [zero, Nat.zero_add, ← List.length_drop]
        exact List.countP_le_length

theorem countP_before (items : List Item) (count : Nat) (test : Item → Bool)
    (fails : ∀ place (inside : place < items.length), count ≤ place →
      test (items.get ⟨place, inside⟩) = false) :
    items.countP test ≤ count := by
  have zero : (items.drop count).countP test = 0 := by
    rw [List.countP_eq_zero]
    intro item member holds
    obtain ⟨place, inside, rfl⟩ := List.mem_drop_iff_getElem.mp member
    have failed := fails (count + place) (by omega) (by omega)
    rw [List.get_eq_getElem] at failed
    exact absurd holds (by simp [failed])
  calc items.countP test
      = (items.take count).countP test + (items.drop count).countP test := by
        rw [← List.countP_append, List.take_append_drop]
    _ ≤ count := by
        rw [zero, Nat.add_zero]
        exact Nat.le_trans List.countP_le_length (List.length_take_le _ _)

end Places

theorem sorted_get {Item : Type} [LE Item] [Std.IsLinearPreorder Item] {items : List Item}
    (sorted : items.Pairwise (· ≤ ·)) {first second : Nat} (firstInside : first < items.length)
    (secondInside : second < items.length) (order : first ≤ second) :
    items.get ⟨first, firstInside⟩ ≤ items.get ⟨second, secondInside⟩ := by
  rcases Nat.lt_or_eq_of_le order with before | same
  · exact List.pairwise_iff_getElem.mp sorted first second firstInside secondInside before
  · subst same
    exact Std.le_refl _

section Ranked

variable {Item : Type} [LE Item] [DecidableLE Item] [Std.IsLinearPreorder Item]

/-- The item at a rank of the sorted list. -/
def ranked (items : List Item) (rank : Nat) (inside : rank < items.length) : Item :=
  (items.insertionSort (· ≤ ·)).get
    ⟨rank, Nat.lt_of_lt_of_eq inside (List.length_insertionSort _ _).symm⟩

/-- Some item is at or below, and some item at or above. -/
structure Between (item : Item) (others : List Item) : Prop where
  least : ∃ low ∈ others, low ≤ item
  greatest : ∃ high ∈ others, item ≤ high

variable {items : List Item} {rank : Nat} (inside : rank < items.length)
include inside

theorem above_count :
    items.countP (fun item => !decide (item ≤ ranked items rank inside)) ≤
      items.length - (rank + 1) := by
  have sorted := List.pairwise_insertionSort (· ≤ ·) items
  have length := List.length_insertionSort (· ≤ ·) items
  rw [← (List.perm_insertionSort (· ≤ ·) items).countP_eq, ← length]
  apply countP_behind
  intro place within early
  have order := sorted_get sorted within (by omega : rank < _) (by omega : place ≤ rank)
  simp only [Bool.not_eq_false', decide_eq_true_eq]
  exact order

theorem below_count :
    items.countP (fun item => !decide (ranked items rank inside ≤ item)) ≤ rank := by
  have sorted := List.pairwise_insertionSort (· ≤ ·) items
  have length := List.length_insertionSort (· ≤ ·) items
  rw [← (List.perm_insertionSort (· ≤ ·) items).countP_eq]
  apply countP_before
  intro place within late
  have order := sorted_get sorted (by omega : rank < _) within late
  simp only [Bool.not_eq_false', decide_eq_true_eq]
  exact order

/-- The others reach down to the rank when no more than the rank are missing. -/
theorem exists_le_ranked {others : List Item} (part : others.Sublist items)
    (few : items.length ≤ others.length + rank) :
    ∃ low ∈ others, low ≤ ranked items rank inside := by
  by_contra all
  have counted : others.countP (fun item => !decide (item ≤ ranked items rank inside)) =
      others.length := by
    rw [List.countP_eq_length]
    intro item member
    simpa using fun low => all ⟨item, member, low⟩
  have most := part.countP_le (p := fun item => !decide (item ≤ ranked items rank inside))
  have above := above_count inside
  omega

theorem exists_ge_ranked {others : List Item} (part : others.Sublist items)
    (many : rank < others.length) : ∃ high ∈ others, ranked items rank inside ≤ high := by
  by_contra all
  have counted : others.countP (fun item => !decide (ranked items rank inside ≤ item)) =
      others.length := by
    rw [List.countP_eq_length]
    intro item member
    simpa using fun high => all ⟨item, member, high⟩
  have most := part.countP_le (p := fun item => !decide (ranked items rank inside ≤ item))
  have below := below_count inside
  omega

omit inside in
/-- The middle rank is between the others as long as these are more than half. -/
theorem median_between (marks : Nat → Bool) (inside : items.length / 2 < items.length)
    (majority : 2 * markedBelow marks items.length < items.length) :
    Between (ranked items (items.length / 2) inside) (unmarked marks items) := by
  have part := unmarked_sublist marks items
  have length := unmarked_length marks items
  constructor
  · exact exists_le_ranked inside part (by omega)
  · exact exists_ge_ranked inside part (by omega)

end Ranked

end AqMD3.OrderStatistic
