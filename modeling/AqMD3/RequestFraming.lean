import Mathlib.Data.List.Forall2
import AqMD3.Server

/-!
`Server::receive` over a queue of whole messages. The first two frames are read by
position, so a message of two frames makes the call read on into the next one.
-/

namespace AqMD3.Acquisition

def arrived (clients : List ClientMessage) : List WireFrame := clients.flatMap ClientMessage.frames

/-- Calls of `receive`, one after another, each from where the last one stopped. -/
def receiveCalls : Nat → List WireFrame → Option (List ReceivedRequest × List WireFrame)
  | 0, queue => some ([], queue)
  | calls + 1, queue =>
      match receive queue with
      | none => none
      | some (request, left) =>
          (receiveCalls calls left).map fun (requests, rest) => (request :: requests, rest)

def MadeOf (m : ClientMessage) (request : ReceivedRequest) : Prop :=
  request.senderId = m.identity ∧ request.payload.Sublist m.further

/-- Call number `n` takes message number `n`, all of it and nothing else. -/
def InStep (clients : List ClientMessage) : Prop :=
  ∀ calls ≤ clients.length, ∃ requests,
    receiveCalls calls (arrived clients) = some (requests, arrived (clients.drop calls)) ∧
      List.Forall₂ MadeOf (clients.take calls) requests

theorem receivePayload_message (content : String) (contents : List String)
    (later : List WireFrame) :
    receivePayload (markMore (content :: contents) ++ later) = some (content :: contents, later) := by
  induction contents generalizing content with
  | nil => rfl
  | cons next rest ih =>
      simp only [markMore, List.cons_append, receivePayload, ↓reduceIte]
      rw [ih next]
      rfl

theorem receivePayload_reads (queue : List WireFrame) (payload : List String)
    (left : List WireFrame) (read : receivePayload queue = some (payload, left)) :
    left.length < queue.length := by
  induction queue generalizing payload with
  | nil => cases read
  | cons message rest ih =>
      simp only [receivePayload] at read
      split at read
      · obtain ⟨⟨tail, behind⟩, reached, same⟩ := Option.map_eq_some_iff.mp read
        cases same
        exact Nat.lt_succ_of_lt (ih tail reached)
      · cases read
        exact Nat.lt_succ_self _

theorem receive_delimited (m : ClientMessage) (delimited : 2 ≤ m.further.length)
    (later : List WireFrame) :
    receive (m.frames ++ later) = some (⟨m.identity, m.further.tail⟩, later) := by
  obtain ⟨identity, further, nonempty⟩ := m
  match further with
  | [] => exact absurd rfl nonempty
  | [_] => exact absurd delimited (by simp)
  | delimiter :: content :: contents =>
      simp only [ClientMessage.frames, markMore, List.cons_append, receive, List.tail_cons]
      rw [receivePayload_message]
      rfl

theorem receive_short (m : ClientMessage) (short : ¬ 2 ≤ m.further.length)
    (later left : List WireFrame) (request : ReceivedRequest)
    (read : receive (m.frames ++ later) = some (request, left)) : left.length < later.length := by
  obtain ⟨identity, further, nonempty⟩ := m
  match further with
  | [] => exact absurd rfl nonempty
  | [only] =>
      simp only [ClientMessage.frames, markMore, List.cons_append, List.nil_append, receive] at read
      obtain ⟨⟨payload, behind⟩, reached, same⟩ := Option.map_eq_some_iff.mp read
      cases same
      exact receivePayload_reads later payload _ reached
  | _ :: _ :: _ => exact absurd (by simp) short

theorem receiveCalls_append (first second : Nat) (queue : List WireFrame) :
    receiveCalls (first + second) queue =
      (receiveCalls first queue).bind fun (requests, left) =>
        (receiveCalls second left).map fun (more, rest) => (requests ++ more, rest) := by
  induction first generalizing queue with
  | zero => simp [receiveCalls]
  | succ first ih =>
      rw [Nat.succ_add]
      simp only [receiveCalls]
      cases receive queue with
      | none => rfl
      | some read =>
          simp only [ih]
          cases receiveCalls first read.2 with
          | none => rfl
          | some reached =>
              cases tail : receiveCalls second reached.2 with
              | none => simp [tail]
              | some _ => simp [tail]

theorem receiveCalls_delimited (clients : List ClientMessage)
    (delimited : ∀ m ∈ clients, 2 ≤ m.further.length) (calls : Nat)
    (within : calls ≤ clients.length) :
    receiveCalls calls (arrived clients) =
      some ((clients.take calls).map fun m => ⟨m.identity, m.further.tail⟩,
        arrived (clients.drop calls)) := by
  induction calls generalizing clients with
  | zero => rfl
  | succ calls ih =>
      cases clients with
      | nil => exact absurd within (Nat.not_succ_le_zero calls)
      | cons m rest =>
          have read := receive_delimited m (delimited m List.mem_cons_self) (arrived rest)
          have tail := ih rest (fun other member => delimited other (List.mem_cons_of_mem m member))
            (Nat.le_of_succ_le_succ within)
          have queue : arrived (m :: rest) = m.frames ++ arrived rest := List.flatMap_cons
          simp only [queue, receiveCalls, read, tail]
          rfl

/-- The reader stays in step exactly with queues in which every message has a second
frame behind its identity. -/
theorem receive_in_step_iff (clients : List ClientMessage) :
    InStep clients ↔ ∀ m ∈ clients, 2 ≤ m.further.length := by
  constructor
  · intro inStep m member
    by_contra short
    -- The calls up to the short message are in step, and the next one takes too much.
    obtain ⟨served, later, rfl⟩ := List.append_of_mem member
    obtain ⟨before, reached, _⟩ := inStep served.length (by simp)
    obtain ⟨after, read, _⟩ := inStep (served.length + 1) (by simp)
    rw [receiveCalls_append, reached, List.drop_left] at read
    have queue : arrived (m :: later) = m.frames ++ arrived later := List.flatMap_cons
    have rest : (served ++ m :: later).drop (served.length + 1) = later := by
      rw [← List.drop_drop, List.drop_left]
      rfl
    rw [rest] at read
    simp only [Option.bind_some, receiveCalls, queue] at read
    cases call : receive (m.frames ++ arrived later) with
    | none => simp [call] at read
    | some got =>
        obtain ⟨request, left⟩ := got
        have moved := receive_short m short (arrived later) left request call
        simp only [call, Option.map_some, Option.some.injEq, Prod.mk.injEq] at read
        rw [read.2] at moved
        exact Nat.lt_irrefl _ moved
  · intro delimited calls within
    refine ⟨_, receiveCalls_delimited clients delimited calls within, ?_⟩
    rw [List.forall₂_map_right_iff]
    apply List.forall₂_same.mpr
    intro m _
    exact ⟨rfl, List.tail_sublist m.further⟩

/-- A client without a delimiter takes the next client's command for its own. -/
theorem receive_out_of_step :
    ¬ ∀ clients : List ClientMessage, InStep clients := by
  intro always
  have inStep := always
    [⟨"A", ["init"], by simp⟩, ⟨"B", ["", "info"], by simp⟩]
  obtain ⟨requests, read, _⟩ := inStep 1 (by simp)
  have wrong : receiveCalls 1
      (arrived [⟨"A", ["init"], by simp⟩, ⟨"B", ["", "info"], by simp⟩]) =
      some ([⟨"A", ["B", "", "info"]⟩], []) := by decide
  rw [wrong] at read
  simp [arrived, ClientMessage.frames, markMore] at read

end AqMD3.Acquisition
