import Mathlib.Data.List.Basic

/-!
Text cut into pieces as `std::getline` cuts it, and a map filled from lines that each
give a key and a value, where the first line of a key wins.
-/

namespace AqMD3.KeyedLines

section Pieces

variable {Symbol : Type} [DecidableEq Symbol]

/-- The pieces between delimiters. A delimiter at the very end begins no piece. -/
def pieces (delim : Symbol) (text : List Symbol) : List (List Symbol) :=
  let parts := text.splitOn delim
  if parts.getLast? = some [] then parts.dropLast else parts

variable {delim : Symbol} {text first second : List Symbol}

theorem splitOn_head (delim : Symbol) (text : List Symbol) :
    ∃ rest, text.splitOn delim = text.takeWhile (fun symbol => symbol ≠ delim) :: rest := by
  induction text with
  | nil => exact ⟨[], rfl⟩
  | cons symbol text ih =>
      obtain ⟨rest, parts⟩ := ih
      rw [List.splitOn_cons_eq_if_modifyHead]
      by_cases here : symbol = delim
      · rw [if_pos (beq_iff_eq.mpr here), List.takeWhile_cons_of_neg (by simp [here])]
        exact ⟨_, rfl⟩
      · rw [if_neg (by simp [here]), List.takeWhile_cons_of_pos (by simp [here]), parts]
        exact ⟨_, rfl⟩

theorem pieces_head {rest : List (List Symbol)} (cut : pieces delim text = first :: rest) :
    text.takeWhile (fun symbol => symbol ≠ delim) = first := by
  obtain ⟨others, parts⟩ := splitOn_head delim text
  rw [pieces, parts] at cut
  split at cut
  · cases others with
    | nil => simp at cut
    | cons other others =>
        rw [List.dropLast_cons_cons] at cut
        exact (List.cons.inj cut).1
  · exact (List.cons.inj cut).1

theorem pieces_pair (outside : delim ∉ first) (inside : delim ∉ second) (present : second ≠ []) :
    pieces delim (first ++ delim :: second) = [first, second] := by
  rw [pieces, List.splitOn_append_cons_self_of_not_mem outside, List.splitOn_eq_singleton inside]
  simp [present]

end Pieces

section Entries

variable {Key Value Line : Type} [BEq Key] [LawfulBEq Key]

/-- `std::map::insert`: a key that is there keeps its value. -/
def insert (entries : List (Key × Value)) (entry : Key × Value) : List (Key × Value) :=
  if (entries.lookup entry.1).isSome then entries else entries ++ [entry]

theorem lookup_insert (entries : List (Key × Value)) (entry : Key × Value) (key : Key) :
    (insert entries entry).lookup key = (entries.lookup key).or ([entry].lookup key) := by
  unfold insert
  split
  · rename_i present
    by_cases same : key = entry.1
    · rw [same, Option.or_of_isSome present]
    · have other : [entry].lookup key = none := by
        simp [same]
      rw [other, Option.or_none]
  · exact List.lookup_append

theorem lookup_inserted (added entries : List (Key × Value)) (key : Key) :
    (added.foldl insert entries).lookup key = (entries.lookup key).or (added.lookup key) := by
  induction added generalizing entries with
  | nil => rw [List.foldl_nil, List.lookup_nil, Option.or_none]
  | cons entry rest ih =>
      rw [List.foldl_cons, ih, lookup_insert, Option.or_assoc, ← List.lookup_append]
      rfl

variable {key : Key} {names : Line → Bool} {read : Line → Option (Key × Value)}
  (named : ∀ line value, read line = some (key, value) → names line = true)
include named

theorem lookup_unnamed {lines : List Line} (unnamed : lines.find? names = none) :
    (lines.filterMap read).lookup key = none := by
  rw [List.lookup_eq_none_iff]
  intro entry member
  obtain ⟨line, inside, found⟩ := List.mem_filterMap.mp member
  rw [bne_iff_ne]
  intro same
  have reads : read line = some (key, entry.2) := by rw [found, same]
  exact List.find?_eq_none.mp unnamed line inside (named line entry.2 reads)

/-- The first line that names a key, when it can be read, gives the key its value. -/
theorem lookup_first {lines : List Line} {line : Line} {value : Value}
    (first : lines.find? names = some line) (reads : read line = some (key, value)) :
    (lines.filterMap read).lookup key = some value := by
  obtain ⟨_, front, behind, rfl, unnamed⟩ := List.find?_eq_some_iff_append.mp first
  have before : (front.filterMap read).lookup key = none := by
    apply lookup_unnamed named
    rw [List.find?_eq_none]
    intro other member
    simpa using unnamed other member
  rw [List.filterMap_append, List.lookup_append, before, Option.none_or,
    List.filterMap_cons_some reads, List.lookup_cons_self]

end Entries

end AqMD3.KeyedLines
