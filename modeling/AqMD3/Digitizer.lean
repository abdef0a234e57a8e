import Mathlib.Data.List.Basic

/-!
What the streaming contexts see of the card: one `stream_fetch_data` at a time,
answered by the driver with a block of elements and two counts. The driver is
not in the repository; a `FetchReply` is any answer it can give. An exception is
kept as the catch clauses of the acquisition worker tell it apart.
-/

namespace AqMD3.Acquisition

/-- `FrameDamaged` is a `std::runtime_error` with a clause of its own; `unknown`
is a throw of something that is no `std::exception`, as `describe_unknown` names it. -/
inductive Thrown where
  | frameDamaged (what : String)
  | exception (what : String)
  | unknown (what : String)
  deriving DecidableEq

inductive Channel where
  | markers
  | samples
  deriving DecidableEq

/-- `error` is the text of an `Error` status; a warning proceeds as a success
does. The elements are stored `first` past the pointer handed over, and `now` is
the clock read after the fetch. -/
structure FetchReply where
  error : Option String
  available : Int
  first : Nat
  elements : List Int32
  now : Int
  deriving DecidableEq

structure FetchCall where
  channel : Channel
  elementsToFetch : Int
  bufferSize : Int
  reply : FetchReply
  deriving DecidableEq

/-- A fetch the driver serves: whole hunks, no more than asked for, placed where
they fit the space it was told of. -/
structure FetchCall.Served (call : FetchCall) : Prop where
  succeeded : call.reply.error = none
  hunks : 16 ∣ call.reply.elements.length
  request : (call.reply.elements.length : Int) ≤ call.elementsToFetch
  space : (call.reply.first + call.reply.elements.length : Int) ≤ call.bufferSize

instance (call : FetchCall) : Decidable call.Served :=
  decidable_of_iff
    (call.reply.error = none ∧ 16 ∣ call.reply.elements.length ∧
      (call.reply.elements.length : Int) ≤ call.elementsToFetch ∧
      (call.reply.first + call.reply.elements.length : Int) ≤ call.bufferSize)
    ⟨fun ⟨succeeded, hunks, request, space⟩ => ⟨succeeded, hunks, request, space⟩,
      fun served => ⟨served.succeeded, served.hunks, served.request, served.space⟩⟩

def Aligned (elementsToFetch : Int) : Prop :=
  ¬ (elementsToFetch ≤ 0 ∨ elementsToFetch.tmod 16 ≠ 0)

instance (elementsToFetch : Int) : Decidable (Aligned elementsToFetch) :=
  inferInstanceAs (Decidable (¬ _))

def refusal (stream : String) (elementsToFetch : Int) : String :=
  "refusing to fetch " ++ toString elementsToFetch ++ " elements from " ++ stream ++
    ": nbrElementsToFetch must be a strict positive multiple of 16"

def checkFetchAlignment (stream : String) (elementsToFetch : Int) : Except Thrown Unit :=
  if Aligned elementsToFetch then .ok ()
  else .error (.exception (refusal stream elementsToFetch))

theorem aligned_iff (elementsToFetch : Int) :
    Aligned elementsToFetch ↔ 0 < elementsToFetch ∧ (16 : Int) ∣ elementsToFetch := by
  rw [Aligned, not_or, Int.not_le, ne_eq, Classical.not_not, Int.dvd_iff_tmod_eq_zero]

end AqMD3.Acquisition
