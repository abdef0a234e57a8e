import Mathlib.Data.List.Basic

/-!
Runs of a system of threads that take their steps one at a time. A label says
which thread steps and what it is answered; `none` is a thread that cannot step.
A run is any list of labels, so a statement about every run is one about every
order of the steps.
-/

namespace AqMD3.Transitions

variable {State Label : Type} (step : State → Label → Option State)

def run : State → List Label → Option State
  | s, [] => some s
  | s, label :: rest => (step s label).bind fun next => run next rest

/-- Every step of the run starts in a state that allows its label. -/
def Meets (allows : State → Label → Prop) : State → List Label → Prop
  | _, [] => True
  | s, label :: rest => allows s label ∧ ∀ next, step s label = some next → Meets allows next rest

variable {step}

theorem run_cons {s final : State} {label : Label} {rest : List Label} :
    run step s (label :: rest) = some final ↔
      ∃ next, step s label = some next ∧ run step next rest = some final :=
  Option.bind_eq_some_iff

theorem run_append (s : State) (front back : List Label) :
    run step s (front ++ back) = (run step s front).bind fun next => run step next back := by
  induction front generalizing s with
  | nil => rfl
  | cons label rest ih =>
      rw [List.cons_append, run, run, Option.bind_assoc]
      congr 1
      funext next
      exact ih next

/-- What each allowed step keeps holds after a run of allowed steps. -/
theorem run_keeps {allows : State → Label → Prop} {Kept : State → Prop}
    (keeps : ∀ s label next, Kept s → allows s label → step s label = some next → Kept next)
    {s final : State} {labels : List Label} (start : Kept s)
    (meets : Meets step allows s labels) (ran : run step s labels = some final) : Kept final := by
  induction labels generalizing s with
  | nil =>
      cases ran
      exact start
  | cons label rest ih =>
      obtain ⟨next, first, later⟩ := run_cons.mp ran
      exact ih (keeps s label next start meets.1 first) (meets.2 next first) later

theorem meets_of_forall {allows : State → Label → Prop} (always : ∀ s label, allows s label)
    (s : State) (labels : List Label) : Meets step allows s labels := by
  induction labels generalizing s with
  | nil => trivial
  | cons label rest ih => exact ⟨always s label, fun next _ => ih next⟩

/-- What every step keeps holds after every run. -/
theorem run_invariant {Kept : State → Prop}
    (keeps : ∀ s label next, Kept s → step s label = some next → Kept next)
    {s final : State} {labels : List Label} (start : Kept s)
    (ran : run step s labels = some final) : Kept final := by
  have free : Meets step (fun _ _ => True) s labels := meets_of_forall (fun _ _ => trivial) s labels
  exact run_keeps (fun s label next kept _ first => keeps s label next kept first) start free ran

/-- Some run leads from the one state to the other. -/
def Reaches (step : State → Label → Option State) (s final : State) : Prop :=
  ∃ labels, run step s labels = some final

theorem reaches_refl (s : State) : Reaches step s s := ⟨[], rfl⟩

theorem reaches_step {s next final : State} {label : Label} (first : step s label = some next)
    (later : Reaches step next final) : Reaches step s final := by
  obtain ⟨labels, ran⟩ := later
  exact ⟨label :: labels, run_cons.mpr ⟨next, first, ran⟩⟩

/-- What is reached behind a step is reached. -/
theorem reaches_behind {P : State → Prop} {s next : State} {label : Label}
    (first : step s label = some next) (later : ∃ final, Reaches step next final ∧ P final) :
    ∃ final, Reaches step s final ∧ P final := by
  obtain ⟨final, reached, holds⟩ := later
  exact ⟨final, reaches_step first reached, holds⟩

theorem reaches_trans {s middle final : State} (first : Reaches step s middle)
    (later : Reaches step middle final) : Reaches step s final := by
  obtain ⟨labels, ran⟩ := first
  induction labels generalizing s with
  | nil =>
      cases ran
      exact later
  | cons label rest ih =>
      obtain ⟨next, taken, behind⟩ := run_cons.mp ran
      exact reaches_step taken (ih behind)

/-- Every state of the run has the property, the last one as well. -/
def Throughout (step : State → Label → Option State) (Holds : State → Prop) :
    State → List Label → Prop
  | s, [] => Holds s
  | s, label :: rest => Holds s ∧ ∀ next, step s label = some next → Throughout step Holds next rest

theorem throughout_start {Holds : State → Prop} {s : State} {labels : List Label}
    (all : Throughout step Holds s labels) : Holds s := by
  cases labels with
  | nil => exact all
  | cons label rest => exact all.1

theorem throughout_final {Holds : State → Prop} {s final : State} {labels : List Label}
    (all : Throughout step Holds s labels) (ran : run step s labels = some final) : Holds final := by
  induction labels generalizing s with
  | nil =>
      cases ran
      exact all
  | cons label rest ih =>
      obtain ⟨next, first, later⟩ := run_cons.mp ran
      exact ih (all.2 next first) later

/-- A property that the allowed steps keep and every other step breaks holds throughout
exactly the runs that are allowed; `Kept` is what every step keeps. -/
theorem throughout_iff_meets {Kept Holds : State → Prop} {allows : State → Label → Prop}
    (stays : ∀ s label next, Kept s → step s label = some next → Kept next)
    (keeps : ∀ s label next, Kept s → Holds s → allows s label → step s label = some next →
      Holds next)
    (breaks : ∀ s label, Kept s → Holds s → ¬ allows s label →
      ∃ next, step s label = some next ∧ ¬ Holds next)
    {s : State} (labels : List Label) (kept : Kept s) (start : Holds s) :
    Throughout step Holds s labels ↔ Meets step allows s labels := by
  induction labels generalizing s with
  | nil => exact ⟨fun _ => trivial, fun _ => start⟩
  | cons label rest ih =>
      constructor
      · rintro ⟨_, later⟩
        have allowed : allows s label := by
          by_contra refused
          obtain ⟨next, first, broken⟩ := breaks s label kept start refused
          exact broken (throughout_start (later next first))
        exact ⟨allowed, fun next first =>
          (ih (stays s label next kept first) (keeps s label next kept start allowed first)).mp
            (later next first)⟩
      · rintro ⟨allowed, later⟩
        exact ⟨start, fun next first =>
          (ih (stays s label next kept first) (keeps s label next kept start allowed first)).mpr
            (later next first)⟩

/-- The run, or `none` as soon as a step is not allowed. -/
def runAllowed (step : State → Label → Option State) (allows : State → Label → Bool) :
    State → List Label → Option State
  | s, [] => some s
  | s, label :: rest =>
      if allows s label then (step s label).bind fun next => runAllowed step allows next rest
      else none

theorem runAllowed_meets {allows : State → Label → Bool} {s final : State} {labels : List Label}
    (ran : runAllowed step allows s labels = some final) :
    run step s labels = some final ∧ Meets step (fun s label => allows s label = true) s labels := by
  induction labels generalizing s with
  | nil => exact ⟨ran, trivial⟩
  | cons label rest ih =>
      simp only [runAllowed] at ran
      split at ran
      · rename_i allowed
        obtain ⟨next, first, later⟩ := Option.bind_eq_some_iff.mp ran
        refine ⟨run_cons.mpr ⟨next, first, (ih later).1⟩, allowed, ?_⟩
        intro other reached
        rw [first] at reached
        cases reached
        exact (ih later).2
      · cases ran

end AqMD3.Transitions
