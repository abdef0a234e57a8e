import Mathlib.Data.List.Perm.Basic

/-!
Reference-counted objects that an owner keeps one reference to each, next to the
handles it has given out. A handle is copied, released and used by whoever holds it,
in any order; a copy keeps the origin of the handle it was made of. The counts are
stored beside the objects, and what they count is the invariant.
-/

namespace AqMD3.SharedCounts

structure Object (Value : Type) where
  value : Value
  useCount : Nat
  deriving DecidableEq

structure Handle where
  object : Nat
  origin : Nat
  deriving DecidableEq

structure Shared (Value : Type) where
  objects : List (Object Value)
  handles : List Handle
  deriving DecidableEq

variable {Value : Type}

namespace Shared

def onCount (s : Shared Value) (index : Nat) (change : Nat → Nat) : Shared Value :=
  { s with objects := s.objects.modify index fun o => { o with useCount := change o.useCount } }

def onValue (s : Shared Value) (index : Nat) (change : Value → Value) : Shared Value :=
  { s with objects := s.objects.modify index fun o => { o with value := change o.value } }

/-- A new object, which only the owner refers to. -/
def push (s : Shared Value) (value : Value) : Shared Value :=
  { s with objects := s.objects ++ [⟨value, 1⟩] }

def give (s : Shared Value) (index origin : Nat) : Shared Value :=
  { s.onCount index (· + 1) with handles := s.handles ++ [⟨index, origin⟩] }

def copy (s : Shared Value) (handle : Nat) : Option (Shared Value) :=
  s.handles[handle]?.map fun h => s.give h.object h.origin

def release (s : Shared Value) (handle : Nat) : Option (Shared Value) :=
  s.handles[handle]?.map fun h =>
    { s.onCount h.object (· - 1) with handles := s.handles.eraseIdx handle }

def use (s : Shared Value) (handle : Nat) (change : Value → Value) : Option (Shared Value) :=
  s.handles[handle]?.map fun h => s.onValue h.object change

def references (s : Shared Value) (index : Nat) : Nat := s.handles.countP fun h => h.object = index

def Free (s : Shared Value) (index : Nat) : Prop := ∀ h ∈ s.handles, h.object ≠ index

/-- Every count is the owner's reference and those of the handles. -/
structure Counted (s : Shared Value) : Prop where
  counts : ∀ index o, s.objects[index]? = some o → o.useCount = 1 + s.references index
  inside : ∀ h ∈ s.handles, h.object < s.objects.length

/-- The handles to one object all come from one origin. -/
def Disjoint (s : Shared Value) : Prop :=
  ∀ h ∈ s.handles, ∀ h' ∈ s.handles, h.object = h'.object → h.origin = h'.origin

theorem free_iff (s : Shared Value) (index : Nat) : s.Free index ↔ s.references index = 0 := by
  rw [references, List.countP_eq_zero]
  simp [Free]

theorem counted_free {s : Shared Value} (counted : s.Counted) {index : Nat} {o : Object Value}
    (found : s.objects[index]? = some o) : o.useCount = 1 ↔ s.Free index := by
  rw [free_iff, counted.counts index o found]
  omega

@[simp] theorem onValue_handles (s : Shared Value) (index : Nat) (change : Value → Value) :
    (s.onValue index change).handles = s.handles := rfl

@[simp] theorem onValue_length (s : Shared Value) (index : Nat) (change : Value → Value) :
    (s.onValue index change).objects.length = s.objects.length := List.length_modify ..

@[simp] theorem push_handles (s : Shared Value) (value : Value) :
    (s.push value).handles = s.handles := rfl

@[simp] theorem push_length (s : Shared Value) (value : Value) :
    (s.push value).objects.length = s.objects.length + 1 := by simp [push]

@[simp] theorem give_handles (s : Shared Value) (index origin : Nat) :
    (s.give index origin).handles = s.handles ++ [⟨index, origin⟩] := rfl

@[simp] theorem give_length (s : Shared Value) (index origin : Nat) :
    (s.give index origin).objects.length = s.objects.length := List.length_modify ..

theorem give_value (s : Shared Value) (index origin other : Nat) :
    ((s.give index origin).objects[other]?).map Object.value = s.objects[other]?.map Object.value := by
  simp only [give, onCount, List.getElem?_modify]
  split
  · cases s.objects[other]? <;> rfl
  · cases s.objects[other]? <;> rfl

/-- An object's value changes under the name of that object only. -/
theorem onValue_other (s : Shared Value) {index other : Nat} (different : index ≠ other)
    (change : Value → Value) : (s.onValue index change).objects[other]? = s.objects[other]? := by
  simp only [onValue, List.getElem?_modify, if_neg different]
  cases s.objects[other]? <;> rfl

theorem counted_onValue {s : Shared Value} (counted : s.Counted) (index : Nat)
    (change : Value → Value) : (s.onValue index change).Counted where
  counts := by
    intro other o found
    simp only [onValue, List.getElem?_modify] at found
    obtain ⟨before, present, same⟩ := Option.map_eq_some_iff.mp found
    rw [← same]
    have count := counted.counts other before present
    split
    · exact count
    · exact count
  inside := by
    intro h member
    rw [onValue_length]
    exact counted.inside h member

theorem counted_push {s : Shared Value} (counted : s.Counted) (value : Value) :
    (s.push value).Counted where
  counts := by
    intro index o found
    simp only [push] at found
    rcases Nat.lt_or_ge index s.objects.length with old | new
    · rw [List.getElem?_append_left old] at found
      exact counted.counts index o found
    · rw [List.getElem?_append_right new, List.getElem?_singleton] at found
      split at found
      · cases found
        have free : s.Free index := by
          intro h member same
          have := counted.inside h member
          omega
        have none := (free_iff s index).mp free
        change 1 = 1 + s.references index
        omega
      · cases found
  inside := by
    intro h member
    rw [push_length]
    exact Nat.lt_succ_of_lt (counted.inside h member)

theorem references_append (s : Shared Value) (objects : List (Object Value)) (given : Handle)
    (index : Nat) :
    references ⟨objects, s.handles ++ [given]⟩ index =
      s.references index + if given.object = index then 1 else 0 := by
  simp [references, List.countP_append, List.countP_singleton]

theorem counted_give {s : Shared Value} (counted : s.Counted) {index : Nat}
    (present : index < s.objects.length) (origin : Nat) : (s.give index origin).Counted where
  counts := by
    intro other o found
    simp only [give, onCount, List.getElem?_modify] at found
    obtain ⟨before, here, same⟩ := Option.map_eq_some_iff.mp found
    have count := counted.counts other before here
    rw [← same, give, references_append]
    split
    · simp [count, Nat.add_assoc]
    · simp [count]
  inside := by
    intro h member
    rw [give_length]
    rcases List.mem_append.mp member with old | new
    · exact counted.inside h old
    · rw [List.mem_singleton.mp new]
      exact present

theorem references_eraseIdx (s : Shared Value) (objects : List (Object Value)) {handle : Nat}
    {released : Handle} (found : s.handles[handle]? = some released) (index : Nat) :
    references ⟨objects, s.handles.eraseIdx handle⟩ index +
      (if released.object = index then 1 else 0) = s.references index := by
  obtain ⟨inside, same⟩ := List.getElem?_eq_some_iff.mp found
  have perm := List.getElem_cons_eraseIdx_perm inside
  have count := perm.countP_eq fun h : Handle => h.object = index
  rw [List.countP_cons, same] at count
  simp only [references, ← count, decide_eq_true_eq]

theorem counted_copy {s next : Shared Value} (counted : s.Counted) {handle : Nat}
    (copied : s.copy handle = some next) : next.Counted := by
  obtain ⟨h, found, rfl⟩ := Option.map_eq_some_iff.mp copied
  exact counted_give counted (counted.inside h (List.mem_of_getElem? found)) h.origin

theorem counted_release {s next : Shared Value} (counted : s.Counted) {handle : Nat}
    (released : s.release handle = some next) : next.Counted := by
  obtain ⟨h, found, rfl⟩ := Option.map_eq_some_iff.mp released
  constructor
  · intro index o present
    simp only [onCount, List.getElem?_modify] at present
    obtain ⟨before, here, same⟩ := Option.map_eq_some_iff.mp present
    have count := counted.counts index before here
    have left := references_eraseIdx s (s.onCount h.object (· - 1)).objects found index
    rw [← same]
    split
    · rename_i mine
      rw [if_pos mine] at left
      simp only [count]
      omega
    · rename_i other
      rw [if_neg other] at left
      simp only [count]
      omega
  · intro other member
    have inside := counted.inside other (List.mem_of_mem_eraseIdx member)
    simpa [onCount] using inside

theorem counted_use {s next : Shared Value} (counted : s.Counted) {handle : Nat}
    {change : Value → Value} (used : s.use handle change = some next) : next.Counted := by
  obtain ⟨h, _, rfl⟩ := Option.map_eq_some_iff.mp used
  exact counted_onValue counted h.object change

/-- What copies, releases and uses of handles leave as it is: an object without a
handle, and the number of objects. -/
theorem copy_keeps {s next : Shared Value} {handle : Nat} (copied : s.copy handle = some next)
    {index : Nat} (free : s.Free index) :
    next.Free index ∧ next.objects[index]?.map Object.value = s.objects[index]?.map Object.value := by
  obtain ⟨h, found, rfl⟩ := Option.map_eq_some_iff.mp copied
  refine ⟨?_, give_value s h.object h.origin index⟩
  intro other member
  rcases List.mem_append.mp member with old | new
  · exact free other old
  · rw [List.mem_singleton.mp new]
    exact free h (List.mem_of_getElem? found)

theorem release_keeps {s next : Shared Value} {handle : Nat} (released : s.release handle = some next)
    {index : Nat} (free : s.Free index) :
    next.Free index ∧ next.objects[index]?.map Object.value = s.objects[index]?.map Object.value := by
  obtain ⟨h, found, rfl⟩ := Option.map_eq_some_iff.mp released
  have other : h.object ≠ index := free h (List.mem_of_getElem? found)
  refine ⟨fun h' member => free h' (List.mem_of_mem_eraseIdx member), ?_⟩
  simp only [onCount, List.getElem?_modify, if_neg other]
  cases s.objects[index]? <;> rfl

theorem use_keeps {s next : Shared Value} {handle : Nat} {change : Value → Value}
    (used : s.use handle change = some next) {index : Nat} (free : s.Free index) :
    next.Free index ∧ next.objects[index]?.map Object.value = s.objects[index]?.map Object.value := by
  obtain ⟨h, found, rfl⟩ := Option.map_eq_some_iff.mp used
  refine ⟨free, ?_⟩
  rw [onValue_other s (free h (List.mem_of_getElem? found)) change]

theorem disjoint_copy {s next : Shared Value} (disjoint : s.Disjoint) {handle : Nat}
    (copied : s.copy handle = some next) : next.Disjoint := by
  obtain ⟨h, found, rfl⟩ := Option.map_eq_some_iff.mp copied
  have origin : ∀ other ∈ (s.give h.object h.origin).handles, other ∈ s.handles := by
    intro other member
    rcases List.mem_append.mp member with old | new
    · exact old
    · rw [List.mem_singleton.mp new]
      exact List.mem_of_getElem? found
  exact fun first member second member' =>
    disjoint first (origin first member) second (origin second member')

theorem disjoint_release {s next : Shared Value} (disjoint : s.Disjoint) {handle : Nat}
    (released : s.release handle = some next) : next.Disjoint := by
  obtain ⟨h, _, rfl⟩ := Option.map_eq_some_iff.mp released
  exact fun first member second member' =>
    disjoint first (List.mem_of_mem_eraseIdx member) second (List.mem_of_mem_eraseIdx member')

/-- A free object may be given to any origin. -/
theorem disjoint_give {s : Shared Value} (disjoint : s.Disjoint) {index : Nat}
    (free : s.Free index) (origin : Nat) : (s.give index origin).Disjoint := by
  intro first member second member' same
  rcases List.mem_append.mp member with old | new
  · rcases List.mem_append.mp member' with old' | new'
    · exact disjoint first old second old' same
    · rw [List.mem_singleton.mp new'] at same
      exact absurd same (free first old)
  · rcases List.mem_append.mp member' with old' | new'
    · rw [List.mem_singleton.mp new] at same
      exact absurd same.symm (free second old')
    · rw [List.mem_singleton.mp new, List.mem_singleton.mp new']

/-- Every object's value has the property. -/
def Each (Holds : Value → Prop) (s : Shared Value) : Prop :=
  ∀ (index : Nat) (o : Object Value), s.objects[index]? = some o → Holds o.value

section Each

variable {Holds : Value → Prop} {s next : Shared Value}

theorem each_onCount (each : s.Each Holds) (index : Nat) (change : Nat → Nat) :
    (s.onCount index change).Each Holds := by
  intro other o found
  simp only [onCount, List.getElem?_modify] at found
  obtain ⟨before, present, same⟩ := Option.map_eq_some_iff.mp found
  have kept := each other before present
  rw [← same]
  split
  · exact kept
  · exact kept

theorem each_onValue (each : s.Each Holds) (index : Nat) {change : Value → Value}
    (keeps : ∀ value, Holds value → Holds (change value)) :
    (s.onValue index change).Each Holds := by
  intro other o found
  simp only [onValue, List.getElem?_modify] at found
  obtain ⟨before, present, same⟩ := Option.map_eq_some_iff.mp found
  have kept := each other before present
  rw [← same]
  split
  · exact keeps before.value kept
  · exact kept

theorem each_push (each : s.Each Holds) {value : Value} (new : Holds value) :
    (s.push value).Each Holds := by
  intro index o found
  rcases List.mem_append.mp (List.mem_of_getElem? found) with old | last
  · obtain ⟨place, present⟩ := List.getElem?_of_mem old
    exact each place o present
  · rw [List.mem_singleton.mp last]
    exact new

theorem each_give (each : s.Each Holds) (index origin : Nat) : (s.give index origin).Each Holds :=
  each_onCount each index (· + 1)

theorem each_copy (each : s.Each Holds) {handle : Nat} (copied : s.copy handle = some next) :
    next.Each Holds := by
  obtain ⟨h, _, rfl⟩ := Option.map_eq_some_iff.mp copied
  exact each_give each h.object h.origin

theorem each_release (each : s.Each Holds) {handle : Nat} (released : s.release handle = some next) :
    next.Each Holds := by
  obtain ⟨h, _, rfl⟩ := Option.map_eq_some_iff.mp released
  exact each_onCount each h.object (· - 1)

theorem each_use (each : s.Each Holds) {handle : Nat} {change : Value → Value}
    (keeps : ∀ value, Holds value → Holds (change value))
    (used : s.use handle change = some next) : next.Each Holds := by
  obtain ⟨h, _, rfl⟩ := Option.map_eq_some_iff.mp used
  exact each_onValue each h.object keeps

end Each

end Shared
end AqMD3.SharedCounts
