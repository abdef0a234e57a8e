import Mathlib.Data.List.ModifyLast
import Mathlib.Data.List.TakeWhile

/-!
A stream cut into segments: every marked item opens a segment, and the parts of
the items after it belong to that segment until the next marked item. Items
before the first mark belong to no segment.
-/

namespace AqMD3.Segments

@[simp] theorem modifyLast_nil {Value : Type} (change : Value → Value) :
    ([] : List Value).modifyLast change = [] := rfl

variable {Item Part : Type} (mark : Item → Bool) (parts : Item → List Part)

def segments : List Item → List (Item × List Part)
  | [] => []
  | item :: rest =>
      if mark item then
        (item, (rest.takeWhile fun next => !mark next).flatMap parts) :: segments rest
      else segments rest

theorem segments_length (items : List Item) :
    (segments mark parts items).length = items.countP mark := by
  induction items with
  | nil => rfl
  | cons item rest ih =>
      by_cases marked : mark item = true
      · simp [segments, marked, ih]
      · simp [segments, marked, ih]

theorem segments_parts (items : List Item) (segment : Item × List Part)
    (member : segment ∈ segments mark parts items) :
    ∀ part ∈ segment.2, ∃ item ∈ items, part ∈ parts item := by
  induction items with
  | nil => cases member
  | cons item rest ih =>
      have later (inside : segment ∈ segments mark parts rest) :
          ∀ part ∈ segment.2, ∃ item' ∈ item :: rest, part ∈ parts item' := by
        intro part here
        obtain ⟨source, old, found⟩ := ih inside part here
        exact ⟨source, List.mem_cons_of_mem item old, found⟩
      unfold segments at member
      split at member
      · rcases List.mem_cons.mp member with first | inside
        · intro part here
          rw [first] at here
          obtain ⟨source, taken, found⟩ := List.mem_flatMap.mp here
          exact ⟨source, List.mem_cons_of_mem item ((List.takeWhile_prefix _).subset taken), found⟩
        · exact later inside
      · exact later member

theorem segments_unmarked (items : List Item) (none : ∀ item ∈ items, mark item = false) :
    segments mark parts items = [] := by
  apply List.eq_nil_of_length_eq_zero
  rw [segments_length, List.countP_eq_zero]
  intro item member
  simp [none item member]

theorem takeWhile_before_mark (items rest : List Item) (head : Item)
    (marked : mark head = true) :
    (items ++ head :: rest).takeWhile (fun next => !mark next) =
      items.takeWhile fun next => !mark next := by
  induction items with
  | nil => simp [marked]
  | cons item tail ih =>
      by_cases here : mark item = true
      · simp [here]
      · simpa [here] using ih

/-- Cutting a stream in front of a marked item cuts no segment in two. -/
theorem segments_append_mark (items rest : List Item) (head : Item)
    (marked : mark head = true) :
    segments mark parts (items ++ head :: rest) =
      segments mark parts items ++ segments mark parts (head :: rest) := by
  induction items with
  | nil => rfl
  | cons item tail ih =>
      by_cases here : mark item = true
      · simp [segments, here, ih, takeWhile_before_mark mark tail rest head marked]
      · simp only [List.cons_append, segments, here, Bool.false_eq_true, ↓reduceIte]
        exact ih

theorem segments_concat_mark (items : List Item) (item : Item) (marked : mark item = true) :
    segments mark parts (items ++ [item]) = segments mark parts items ++ [(item, [])] := by
  rw [segments_append_mark mark parts items [] item marked]
  simp [segments, marked]

/-- An unmarked item extends the last segment only, and is dropped when there is none. -/
theorem segments_concat_part (items : List Item) (item : Item) (unmarked : mark item = false) :
    segments mark parts (items ++ [item]) =
      (segments mark parts items).modifyLast fun segment => (segment.1, segment.2 ++ parts item) := by
  induction items with
  | nil => simp [segments, unmarked]
  | cons first rest ih =>
      by_cases marked : mark first = true
      · simp only [List.cons_append, segments, marked, ↓reduceIte, ih]
        -- The last segment is the first one where nothing behind it is marked.
        by_cases last : ∀ next ∈ rest, mark next = false
        · have whole : (rest ++ [item]).takeWhile (fun next => !mark next) = rest ++ [item] :=
            List.takeWhile_eq_self_iff.mpr (by
              intro next member
              rcases List.mem_append.mp member with old | new
              · simp [last next old]
              · simp [List.mem_singleton.mp new, unmarked])
          have before : rest.takeWhile (fun next => !mark next) = rest :=
            List.takeWhile_eq_self_iff.mpr (fun next member => by simp [last next member])
          rw [segments_unmarked mark parts rest last, whole, before, List.flatMap_append,
            List.flatMap_singleton]
          have single := List.modifyLast_concat
            (fun segment : Item × List Part => (segment.1, segment.2 ++ parts item))
            (first, rest.flatMap parts) []
          simpa using single.symm
        · have later : segments mark parts rest ≠ [] := by
            intro empty
            have count := congrArg List.length empty
            rw [segments_length, List.length_nil, List.countP_eq_zero] at count
            exact last (fun next member => by simpa using count next member)
          have same : (rest ++ [item]).takeWhile (fun next => !mark next) =
              rest.takeWhile fun next => !mark next := by
            rw [List.takeWhile_append]
            have short : ¬ (rest.takeWhile fun next => !mark next).length = rest.length := by
              intro full
              have all := List.takeWhile_eq_self_iff.mp
                ((List.takeWhile_prefix fun next => !mark next).eq_of_length full)
              exact last (fun next member => by simpa using all next member)
            rw [if_neg short]
          rw [same]
          exact (List.modifyLast_append_of_right_ne_nil _ [_] _ later).symm
      · simp only [List.cons_append, segments, marked, Bool.false_eq_true, ↓reduceIte]
        exact ih

end AqMD3.Segments
