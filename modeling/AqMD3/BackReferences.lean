import Mathlib.Data.List.Basic

/-!
A memory as the cell at every index. `write` changes one of them and `block` reads a
range; a range an index lies outside of does not see what is stored there.
-/

namespace AqMD3.CellMemory

variable {Cell : Type}

abbrev Memory (Cell : Type) := Nat → Cell

def write (memory : Memory Cell) (index : Nat) (cell : Cell) : Memory Cell :=
  fun key => if key = index then cell else memory key

def block (memory : Memory Cell) (base count : Nat) : List Cell :=
  (List.range count).map fun offset => memory (base + offset)

def SameOn (base count : Nat) (before after : Memory Cell) : Prop :=
  ∀ index, base ≤ index → index < base + count → after index = before index

@[simp] theorem write_here (memory : Memory Cell) (index : Nat) (cell : Cell) :
    write memory index cell index = cell := if_pos rfl

theorem write_elsewhere (memory : Memory Cell) (index : Nat) (cell : Cell) (key : Nat)
    (other : key ≠ index) : write memory index cell key = memory key := if_neg other

@[simp] theorem block_length (memory : Memory Cell) (base count : Nat) :
    (block memory base count).length = count := by
  rw [block, List.length_map, List.length_range]

@[simp] theorem block_zero (memory : Memory Cell) (base : Nat) : block memory base 0 = [] := rfl

theorem block_succ (memory : Memory Cell) (base count : Nat) :
    block memory base (count + 1) = block memory base count ++ [memory (base + count)] := by
  rw [block, List.range_succ, List.map_append, ← block]
  rfl

theorem block_add (memory : Memory Cell) (base first second : Nat) :
    block memory base (first + second) =
      block memory base first ++ block memory (base + first) second := by
  induction second with
  | zero => rw [Nat.add_zero, block_zero, List.append_nil]
  | succ second ih =>
      rw [← Nat.add_assoc, block_succ, ih, block_succ, List.append_assoc, Nat.add_assoc]

theorem block_getElem? (memory : Memory Cell) (base count offset : Nat) (inside : offset < count) :
    (block memory base count)[offset]? = some (memory (base + offset)) := by
  rw [block, List.getElem?_map, List.getElem?_range inside]
  rfl

theorem block_same (base count : Nat) (before after : Memory Cell)
    (same : SameOn base count before after) : block after base count = block before base count := by
  apply List.map_congr_left
  intro offset member
  exact same (base + offset) (Nat.le_add_right _ _)
    (Nat.add_lt_add_left (List.mem_range.mp member) base)

theorem block_write_outside (memory : Memory Cell) (base count index : Nat) (cell : Cell)
    (outside : index < base ∨ base + count ≤ index) :
    block (write memory index cell) base count = block memory base count := by
  apply block_same
  intro key low high
  exact write_elsewhere memory index cell key (by omega)

/-- A cell stored right behind a range extends it. -/
theorem block_write_next (memory : Memory Cell) (base count : Nat) (cell : Cell) :
    block (write memory (base + count) cell) base (count + 1) =
      block memory base count ++ [cell] := by
  rw [block_succ, write_here, block_write_outside _ _ _ _ _ (Or.inr (Nat.le_refl _))]

/-- The memory that holds a list from its first cell on, and behind it what another holds. -/
def ofList (cells : List Cell) (behind : Memory Cell) : Memory Cell :=
  fun index => cells.getD index (behind index)

theorem block_ofList (cells : List Cell) (behind : Memory Cell) :
    block (ofList cells behind) 0 cells.length = cells := by
  apply List.ext_getElem?
  intro index
  by_cases inside : index < cells.length
  · rw [block_getElem? _ _ _ _ inside, Nat.zero_add, List.getElem?_eq_getElem inside, ofList,
      List.getD_eq_getElem?_getD, List.getElem?_eq_getElem inside, Option.getD_some]
  · rw [List.getElem?_eq_none (by rw [block_length]; omega), List.getElem?_eq_none (by omega)]

end AqMD3.CellMemory

/-!
Streams of runs and of copies of what was there before. A copy may reach into what it is
itself about to add, so it is made one symbol after another.
-/

namespace AqMD3.BackReferences

open CellMemory

variable {Symbol : Type}

inductive Token (Symbol : Type) where
  | literal (run : List Symbol)
  | copy (distance length : Nat)
  deriving DecidableEq

def copyBack (distance : Nat) : Nat → List Symbol → List Symbol
  | 0, out => out
  | length + 1, out => copyBack distance length (out ++ out[out.length - distance]?.toList)

def Token.apply (out : List Symbol) : Token Symbol → Option (List Symbol)
  | .literal run => some (out ++ run)
  | .copy distance length =>
      if 0 < distance ∧ distance ≤ out.length then some (copyBack distance length out) else none

/-- What a stream adds to the symbols in front of it, unless a copy reaches before the first. -/
def expand : List Symbol → List (Token Symbol) → Option (List Symbol)
  | out, [] => some out
  | out, token :: rest => (token.apply out).bind fun grown => expand grown rest

@[simp] theorem expand_nil (out : List Symbol) : expand out [] = some out := rfl

theorem expand_append (out : List Symbol) (first second : List (Token Symbol)) :
    expand out (first ++ second) = (expand out first).bind fun grown => expand grown second := by
  induction first generalizing out with
  | nil => rfl
  | cons token rest ih =>
      rw [List.cons_append, expand, expand]
      cases token.apply out with
      | none => rfl
      | some grown => exact ih grown

theorem expand_snoc (out grown : List Symbol) (tokens : List (Token Symbol)) (token : Token Symbol)
    (before : expand out tokens = some grown) :
    expand out (tokens ++ [token]) = token.apply grown := by
  rw [expand_append, before, Option.bind_some, expand]
  cases token.apply grown with
  | none => rfl
  | some last => rfl

theorem copyBack_length (distance length : Nat) (out : List Symbol) (positive : 0 < distance)
    (reach : distance ≤ out.length) :
    (copyBack distance length out).length = out.length + length := by
  induction length generalizing out with
  | zero => rfl
  | succ length ih =>
      obtain ⟨symbol, found⟩ : ∃ symbol, out[out.length - distance]? = some symbol :=
        ⟨_, List.getElem?_eq_getElem (by omega)⟩
      rw [copyBack, found, Option.toList_some, ih _ (by rw [List.length_append]; omega),
        List.length_append, List.length_singleton]
      omega

theorem copyBack_extends (distance length : Nat) (out : List Symbol) :
    out <+: copyBack distance length out := by
  induction length generalizing out with
  | zero => exact List.prefix_refl out
  | succ length ih => exact (List.prefix_append out _).trans (ih _)

theorem copyBack_add (distance first second : Nat) (out : List Symbol) :
    copyBack distance (first + second) out =
      copyBack distance second (copyBack distance first out) := by
  induction first generalizing out with
  | zero => rw [Nat.zero_add, copyBack]
  | succ first ih => rw [Nat.add_right_comm, copyBack, copyBack, ih]

/-- A copy that ends before it reaches what it adds is a block of what was there. -/
theorem copyBack_disjoint (distance length : Nat) (out : List Symbol) (apart : length ≤ distance)
    (reach : distance ≤ out.length) :
    copyBack distance length out = out ++ (out.drop (out.length - distance)).take length := by
  induction length with
  | zero => rw [copyBack, List.take_zero, List.append_nil]
  | succ length ih =>
      have found : out.length - distance + length < out.length := by omega
      have dropped : ((out.drop (out.length - distance)).take length).length = length := by
        rw [List.length_take, List.length_drop]
        omega
      have next : (out ++ (out.drop (out.length - distance)).take length)[out.length + length -
          distance]? = out[out.length - distance + length]? := by
        rw [List.getElem?_append_left (by omega), show out.length + length - distance =
          out.length - distance + length by omega]
      rw [copyBack_add, ih (by omega), copyBack, copyBack, List.length_append, dropped, next,
        List.append_assoc, List.take_add_one, List.getElem?_drop]

/-- Where a memory repeats itself at a distance, a copy over that distance goes on reading it. -/
theorem copyBack_block (memory : Memory Symbol) (distance start length : Nat)
    (positive : 0 < distance) (reach : distance ≤ start)
    (repeated : ∀ offset, offset < length →
      memory (start + offset) = memory (start + offset - distance)) :
    copyBack distance length (block memory 0 start) = block memory 0 (start + length) := by
  induction length generalizing start with
  | zero => rfl
  | succ length ih =>
      have found : (block memory 0 start)[start - distance]? = some (memory start) := by
        have here := repeated 0 (Nat.succ_pos length)
        rw [Nat.add_zero] at here
        rw [block_getElem? _ _ _ _ (by omega), Nat.zero_add, here]
      have grown : block memory 0 start ++ [memory start] = block memory 0 (start + 1) := by
        rw [block_succ, Nat.zero_add]
      rw [copyBack, block_length, found, Option.toList_some, grown, ih (start + 1) (by omega)]
      · rw [Nat.add_assoc, Nat.add_comm 1 length]
      · intro offset inside
        have later := repeated (offset + 1) (Nat.succ_lt_succ inside)
        rw [show start + 1 + offset = start + (offset + 1) by omega]
        exact later

theorem apply_extends (out grown : List Symbol) (token : Token Symbol)
    (applied : token.apply out = some grown) : out <+: grown := by
  cases token with
  | literal run =>
      rw [Token.apply, Option.some.injEq] at applied
      rw [← applied]
      exact List.prefix_append out run
  | copy distance length =>
      rw [Token.apply] at applied
      split at applied
      · rw [Option.some.injEq] at applied
        rw [← applied]
        exact copyBack_extends distance length out
      · cases applied

theorem expand_extends (out whole : List Symbol) (tokens : List (Token Symbol))
    (expands : expand out tokens = some whole) : out <+: whole := by
  induction tokens generalizing out with
  | nil =>
      rw [expand, Option.some.injEq] at expands
      exact expands ▸ List.prefix_rfl
  | cons token rest ih =>
      rw [expand] at expands
      cases applied : token.apply out with
      | none => rw [applied] at expands; cases expands
      | some grown =>
          rw [applied, Option.bind_some] at expands
          exact (apply_extends out grown token applied).trans (ih grown expands)

end AqMD3.BackReferences
