import Mathlib.Data.List.Induction

/-!
Calls that open and close something, in the order they are made. A trace that opens
nothing twice is extended by an opening call where it is closed, and by any other call
at all; a closing call at its end closes it.
-/

namespace AqMD3.Bracketing

variable {Call : Type} (opens closes : Call → Bool)

/-- Whether the last call that opens or closes opens. -/
def openAfter : List Call → Bool :=
  List.foldl (fun isOpen call => if opens call then true else if closes call then false else isOpen) false

/-- Between two calls that open there is one that closes. -/
def Separated (calls : List Call) : Prop :=
  ∀ before first between second behind,
    calls = before ++ first :: (between ++ second :: behind) →
      opens first = true → opens second = true → ∃ call ∈ between, closes call = true

variable {opens closes}

theorem openAfter_append (calls : List Call) (call : Call) :
    openAfter opens closes (calls ++ [call]) =
      if opens call then true else if closes call then false else openAfter opens closes calls := by
  rw [openAfter, List.foldl_append]
  rfl

theorem openAfter_unclosed (before between : List Call) {first : Call} (opening : opens first = true)
    (unclosed : ∀ call ∈ between, closes call = false) :
    openAfter opens closes (before ++ first :: between) = true := by
  induction between using List.reverseRecOn with
  | nil => rw [openAfter_append, if_pos opening]
  | append_singleton between last ih =>
      have front := ih fun call member => unclosed call (List.mem_append_left _ member)
      have unclosing := unclosed last (List.mem_append_right _ (List.mem_singleton_self last))
      rw [← List.cons_append, ← List.append_assoc, openAfter_append, front, unclosing]
      simp

theorem closed_last {calls : List Call} (closed : openAfter opens closes calls = false) :
    ∀ last ∈ (calls.filter fun call => opens call || closes call).getLast?, closes last = true := by
  induction calls using List.reverseRecOn with
  | nil => exact fun last member => absurd member (Option.not_mem_none last)
  | append_singleton front final ih =>
      rw [openAfter_append] at closed
      intro last member
      by_cases opening : opens final = true
      · rw [if_pos opening] at closed
        cases closed
      · rw [if_neg opening] at closed
        by_cases closing : closes final = true
        · rw [List.filter_append, List.filter_cons_of_pos (by rw [closing, Bool.or_true]),
            List.filter_nil, List.getLast?_concat] at member
          rwa [← Option.some.inj member]
        · rw [if_neg closing] at closed
          rw [List.filter_append, List.filter_cons_of_neg (by simp [opening, closing]),
            List.filter_nil, List.append_nil] at member
          exact ih closed last member

theorem separated_nil : Separated opens closes [] := by
  intro before first between second behind split
  simp at split

theorem split_last {calls before between behind : List Call} {last first second : Call}
    (split : calls ++ [last] = before ++ first :: (between ++ second :: behind)) :
    last = second ∧ calls = before ++ first :: between ∨
      ∃ rest, calls = before ++ first :: (between ++ second :: rest) := by
  rcases List.eq_nil_or_concat behind with rfl | ⟨rest, final, rfl⟩
  · left
    have whole : calls ++ [last] = (before ++ first :: between) ++ [second] := by simpa using split
    obtain ⟨front, same⟩ := List.append_inj' whole rfl
    exact ⟨List.singleton_inj.mp same, front⟩
  · right
    have whole : calls ++ [last] = (before ++ first :: (between ++ second :: rest)) ++ [final] := by
      simpa using split
    exact ⟨rest, (List.append_inj' whole rfl).1⟩

theorem separated_open {calls : List Call} (separated : Separated opens closes calls)
    (closed : openAfter opens closes calls = false) (last : Call) :
    Separated opens closes (calls ++ [last]) := by
  intro before first between second behind split opening again
  rcases split_last split with ⟨_, front⟩ | ⟨rest, front⟩
  · by_contra unclosed
    have left := openAfter_unclosed before between opening fun call member => by
      rw [← Bool.not_eq_true]
      exact fun closing => unclosed ⟨call, member, closing⟩
    rw [← front, closed] at left
    cases left
  · exact separated before first between second rest front opening again

theorem separated_other {calls : List Call} (separated : Separated opens closes calls) {last : Call}
    (other : opens last = false) : Separated opens closes (calls ++ [last]) := by
  intro before first between second behind split opening again
  rcases split_last split with ⟨same, _⟩ | ⟨rest, front⟩
  · rw [← same, other] at again
    cases again
  · exact separated before first between second rest front opening again

end AqMD3.Bracketing
