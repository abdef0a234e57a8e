import Mathlib.Algebra.GroupWithZero.Nat
import Mathlib.Data.List.Basic

/-!
A flat memory as a list of cells: `overwrite` stores a block at an index and
`window` reads one back. A block that runs past the last cell is cut off there,
so a store never changes the size of the memory.
-/

namespace AqMD3.Overwrite

variable {Cell : Type}

def overwrite (cells : List Cell) (base : Nat) (block : List Cell) : List Cell :=
  cells.take base ++ block.take (cells.length - base) ++ cells.drop (base + block.length)

def window (cells : List Cell) (base count : Nat) : List Cell :=
  (cells.drop base).take count

@[simp] theorem overwrite_length (cells : List Cell) (base : Nat) (block : List Cell) :
    (overwrite cells base block).length = cells.length := by
  simp only [overwrite, List.length_append, List.length_take, List.length_drop]
  omega

theorem window_length (cells : List Cell) (base count : Nat)
    (inside : base + count ≤ cells.length) : (window cells base count).length = count := by
  simp only [window, List.length_take, List.length_drop]
  omega

theorem window_append (cells : List Cell) (base first second : Nat) :
    window cells base (first + second) =
      window cells base first ++ window cells (base + first) second := by
  simp only [window, List.take_add, List.drop_drop]

theorem window_drop (cells : List Cell) (base count skip : Nat) :
    (window cells base count).drop skip = window cells (base + skip) (count - skip) := by
  simp only [window, List.drop_take, List.drop_drop]

theorem window_getElem? (cells : List Cell) (base count index : Nat) (inside : index < count) :
    (window cells base count)[index]? = cells[base + index]? := by
  simp only [window, List.getElem?_take, inside, ↓reduceIte, List.getElem?_drop]

theorem overwrite_untouched (cells : List Cell) (base : Nat) (block : List Cell) (index : Nat)
    (outside : index < base ∨ base + block.length ≤ index) :
    (overwrite cells base block)[index]? = cells[index]? := by
  by_cases inside : index < cells.length
  · rcases outside with before | after
    · rw [overwrite, List.append_assoc, List.getElem?_append_left (by simp; omega)]
      simp [before]
    · have front : (cells.take base ++ block.take (cells.length - base)).length =
          base + block.length := by
        simp only [List.length_append, List.length_take]
        omega
      rw [overwrite, List.getElem?_append_right (by omega), front, List.getElem?_drop]
      congr 1
      omega
  · rw [List.getElem?_eq_none (by simp; omega), List.getElem?_eq_none (by omega)]

/-- A stored block that fits is read back unchanged. -/
theorem window_overwrite (cells : List Cell) (base : Nat) (block : List Cell)
    (fits : base + block.length ≤ cells.length) :
    window (overwrite cells base block) base block.length = block := by
  have front : (cells.take base).length = base := by
    simp only [List.length_take]
    omega
  rw [window, overwrite, List.append_assoc, List.drop_append_of_le_length (by omega),
    List.drop_of_length_le (by omega), List.nil_append, List.take_append_of_le_length (by simp; omega)]
  simp only [List.take_take]
  exact List.take_of_length_le (by omega)

theorem window_overwrite_before (cells : List Cell) (base : Nat) (block : List Cell)
    (low count : Nat) (before : low + count ≤ base) :
    window (overwrite cells base block) low count = window cells low count := by
  apply List.ext_getElem?
  intro index
  by_cases inside : index < count
  · rw [window_getElem? _ _ _ _ inside, window_getElem? _ _ _ _ inside]
    exact overwrite_untouched cells base block (low + index) (Or.inl (by omega))
  · simp only [window, List.getElem?_take, inside, ↓reduceIte]

@[simp] theorem overwrite_nil (cells : List Cell) (base : Nat) : overwrite cells base [] = cells := by
  simp [overwrite]

/-- Blocks stored one after another, each behind a gap of its own. -/
def place (cells : List Cell) (base : Nat) : List (Nat × List Cell) → List Cell
  | [] => cells
  | (gap, block) :: rest =>
      place (overwrite cells (base + gap) block) (base + gap + block.length) rest

@[simp] theorem place_length (cells : List Cell) (base : Nat) (parts : List (Nat × List Cell)) :
    (place cells base parts).length = cells.length := by
  induction parts generalizing cells base with
  | nil => rfl
  | cons part rest ih =>
      obtain ⟨gap, block⟩ := part
      rw [place, ih, overwrite_length]

theorem place_before (cells : List Cell) (base : Nat) (parts : List (Nat × List Cell))
    (index : Nat) (before : index < base) : (place cells base parts)[index]? = cells[index]? := by
  induction parts generalizing cells base with
  | nil => rfl
  | cons part rest ih =>
      obtain ⟨gap, block⟩ := part
      rw [place, ih _ _ (by omega), overwrite_untouched _ _ _ _ (Or.inl (by omega))]

/-- Without gaps the blocks follow whatever lay in front of them. -/
theorem place_contiguous (cells : List Cell) (low base : Nat) (parts : List (Nat × List Cell))
    (order : low ≤ base) (gapless : ∀ part ∈ parts, part.1 = 0)
    (fits : base + (parts.flatMap Prod.snd).length ≤ cells.length) :
    window (place cells base parts) low (base - low + (parts.flatMap Prod.snd).length) =
      window cells low (base - low) ++ parts.flatMap Prod.snd := by
  induction parts generalizing cells base with
  | nil => simp [place]
  | cons part rest ih =>
      obtain ⟨gap, block⟩ := part
      have none : gap = 0 := gapless (gap, block) List.mem_cons_self
      subst none
      simp only [List.flatMap_cons, List.length_append] at fits ⊢
      have stored := ih (overwrite cells base block) (base + block.length) (by omega)
        (fun part member => gapless part (List.mem_cons_of_mem _ member))
        (by rw [overwrite_length]; omega)
      have split : base + block.length - low = base - low + block.length := by omega
      rw [split, Nat.add_assoc, window_append _ _ (base - low) block.length,
        show low + (base - low) = base by omega,
        window_overwrite_before _ _ _ _ _ (by omega),
        window_overwrite _ _ _ (by omega)] at stored
      rw [place, Nat.add_zero, stored, List.append_assoc]

def gaps (parts : List (Nat × List Cell)) : Nat := (parts.map Prod.fst).sum

def stored (parts : List (Nat × List Cell)) : List Cell := parts.flatMap Prod.snd

/-- A gap behind cells already stored keeps what it held before. `acquired` of
these cells lie in front of `base`. -/
theorem place_leaves_gap (cells : List Cell) (old : Cell) (acquired base : Nat)
    (parts : List (Nat × List Cell)) (positive : 0 < acquired)
    (blank : ∀ index, base ≤ index → index < cells.length → cells[index]? = some old)
    (gap : ∃ part ∈ parts, part.1 ≠ 0)
    (fits : base + gaps parts + (stored parts).length ≤ cells.length) :
    ∃ index, base + gaps parts ≤ index + acquired ∧
      index < base + gaps parts + (stored parts).length ∧
      (place cells base parts)[index]? = some old := by
  induction parts generalizing cells acquired base with
  | nil => simp at gap
  | cons part rest ih =>
      obtain ⟨first, block⟩ := part
      simp only [gaps, stored, List.map_cons, List.sum_cons, List.flatMap_cons,
        List.length_append] at ih fits ⊢
      -- The last gap is one nothing is stored over.
      by_cases later : ∃ part ∈ rest, part.1 ≠ 0
      · obtain ⟨index, low, high, kept⟩ := ih (overwrite cells (base + first) block)
          (acquired + block.length) (base + first + block.length) (by omega)
          (fun index low high => by
            rw [overwrite_untouched _ _ _ _ (Or.inr low)]
            rw [overwrite_length] at high
            exact blank index (by omega) high)
          later (by rw [overwrite_length]; omega)
        exact ⟨index, by omega, by omega, kept⟩
      · have here : first ≠ 0 := by
          obtain ⟨part, member, nonzero⟩ := gap
          rcases List.mem_cons.mp member with same | old
          · rw [same] at nonzero
            exact nonzero
          · exact absurd ⟨part, old, nonzero⟩ later
        have none : (rest.map Prod.fst).sum = 0 := by
          rw [List.sum_eq_zero_iff_forall_eq_nat]
          intro value member
          obtain ⟨part, inside, rfl⟩ := List.mem_map.mp member
          by_contra nonzero
          exact later ⟨part, inside, nonzero⟩
        refine ⟨base + first - 1, by omega, by omega, ?_⟩
        rw [place, place_before _ _ _ _ (by omega), overwrite_untouched _ _ _ _ (Or.inl (by omega))]
        exact blank _ (by omega) (by omega)

end AqMD3.Overwrite
