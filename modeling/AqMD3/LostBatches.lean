import AqMD3.RefusedFrames
import AqMD3.Server

/-!
What of a batch reaches the publisher's socket. `on_notify` sends once, or twice when
the batch is misaligned, and reads nothing back: a send whose lock was not obtained in
time returns what any other returns.
-/

namespace AqMD3.Acquisition

/-- The sends of one batch, the lock of send number `i` obtained or not. -/
def publishAll (locks : Nat → Bool) : Nat → List Send → List Send → List Send
  | _, published, [] => published
  | i, published, message :: rest =>
      publishAll locks (i + 1) (publisherSend (locks i) published message).2 rest

def ZmqAcquiredDataSubscriber.publishes (encode : Message → Except Thrown (List UInt8))
    (locks : Nat → Bool) (z : ZmqAcquiredDataSubscriber) (frame : UimfFrame) : List Send :=
  publishAll locks 0 [] (z.onNotify encode frame).sends

def IsData (encode : Message → Except Thrown (List UInt8)) (frame : UimfFrame) (message : Send) :
    Prop :=
  ∃ msg content, msg.tic = (frame.data.map fun er => er.tic.toUInt64.toUInt32) ∧
    msg.timeStamps = frame.data.map EncodedResult.timestamp ∧
    encode msg = .ok content ∧ message = ⟨dataSubject, .bytes content, 100⟩

def IsError (message : Send) : Prop :=
  message.subject = statusSubject ∧ ∃ what, message.payload = .text ("error data: " ++ what)

/-- A client learns of the batch. -/
def Told (encode : Message → Except Thrown (List UInt8)) (frame : UimfFrame)
    (published : List Send) : Prop :=
  ∃ message ∈ published, IsData encode frame message ∨ IsError message

theorem publishAll_mem (locks : Nat → Bool) (i : Nat) (published sends : List Send)
    (message : Send) :
    message ∈ publishAll locks i published sends ↔
      message ∈ published ∨ ∃ j, sends[j]? = some message ∧ locks (i + j) = true := by
  induction sends generalizing i published with
  | nil => simp [publishAll]
  | cons first rest ih =>
      rw [publishAll, ih]
      -- The first send goes out exactly when the lock is obtained for it.
      have here : message ∈ (publisherSend (locks i) published first).2 ↔
          message ∈ published ∨ (first = message ∧ locks i = true) := by
        cases lock : locks i with
        | false => simp [publisherSend]
        | true => simp [publisherSend, eq_comm]
      rw [here, or_assoc]
      apply or_congr_right
      constructor
      · rintro (⟨same, obtained⟩ | ⟨j, found, obtained⟩)
        · exact ⟨0, congrArg some same, obtained⟩
        · refine ⟨j + 1, found, ?_⟩
          rw [Nat.add_comm j 1, ← Nat.add_assoc]
          exact obtained
      · rintro ⟨j, found, obtained⟩
        cases j with
        | zero => exact Or.inl ⟨Option.some.inj found, obtained⟩
        | succ j =>
            refine Or.inr ⟨j, found, ?_⟩
            rw [Nat.add_assoc, Nat.add_comm 1 j]
            exact obtained

theorem publishError_isError (what : String) : IsError (publishError what) :=
  ⟨rfl, oneLine what, rfl⟩

theorem checkAlignment_cases (floor : Int32) (frame : UimfFrame) :
    checkAlignment floor frame = [] ∨ ∃ what, checkAlignment floor frame = [publishError what] := by
  simp only [checkAlignment]
  split
  · exact Or.inl rfl
  · exact Or.inr ⟨_, rfl⟩

/-- The alignment status if there is one, then the data message or one error. -/
theorem onNotify_sends (encode : Message → Except Thrown (List UInt8))
    (z : ZmqAcquiredDataSubscriber) (frame : UimfFrame) :
    ∃ last, (z.onNotify encode frame).sends = checkAlignment z.firstSampleFloor frame ++ [last] ∧
      (IsData encode frame last ∨ IsError last) := by
  simp only [ZmqAcquiredDataSubscriber.onNotify]
  split
  · exact ⟨_, rfl, Or.inr (publishError_isError _)⟩
  · split
    · rename_i content encoded
      exact ⟨_, rfl, Or.inl ⟨_, content, rfl, rfl, encoded, rfl⟩⟩
    · rename_i thrown _
      obtain ⟨text, same⟩ := encodeError_status frame thrown
      rw [same]
      exact ⟨_, rfl, Or.inr (publishError_isError text)⟩

/-- A batch is told of exactly when a lock tried for it is obtained: the first one, or
the second one where the misaligned batch has two sends. -/
theorem batch_told_iff (encode : Message → Except Thrown (List UInt8)) (locks : Nat → Bool)
    (z : ZmqAcquiredDataSubscriber) (frame : UimfFrame) :
    Told encode frame (z.publishes encode locks frame) ↔
      locks 0 = true ∨ (checkAlignment z.firstSampleFloor frame ≠ [] ∧ locks 1 = true) := by
  obtain ⟨last, sends, tells⟩ := onNotify_sends encode z frame
  simp only [Told, ZmqAcquiredDataSubscriber.publishes, publishAll_mem, List.not_mem_nil, false_or,
    Nat.zero_add, sends]
  rcases checkAlignment_cases z.firstSampleFloor frame with aligned | ⟨what, misaligned⟩
  · rw [aligned]
    constructor
    · rintro ⟨message, ⟨j, found, obtained⟩, _⟩
      cases j with
      | zero => exact Or.inl obtained
      | succ j => simp at found
    · rintro (obtained | ⟨present, _⟩)
      · exact ⟨last, ⟨0, rfl, obtained⟩, tells⟩
      · exact absurd rfl present
  · rw [misaligned]
    constructor
    · rintro ⟨message, ⟨j, found, obtained⟩, _⟩
      match j with
      | 0 => exact Or.inl obtained
      | 1 => exact Or.inr ⟨List.cons_ne_nil _ _, obtained⟩
      | j + 2 => simp at found
    · rintro (obtained | ⟨_, obtained⟩)
      · exact ⟨publishError what, ⟨0, rfl, obtained⟩, Or.inr (publishError_isError what)⟩
      · exact ⟨last, ⟨1, rfl, obtained⟩, tells⟩

/-- The status of a damaged frame holds the lock: the batch is gone and nobody is told. -/
theorem batch_lost :
    ¬ ∀ (encode : Message → Except Thrown (List UInt8)) (locks : Nat → Bool)
        (z : ZmqAcquiredDataSubscriber) (frame : UimfFrame),
      Told encode frame (z.publishes encode locks frame) := by
  intro told
  obtain ⟨message, published, _⟩ := told (fun _ => .ok [1]) (fun _ => false) (.create 4 0)
    ⟨⟨0, 4, 1, 1, 1, 0, "frame"⟩, [⟨0, 1, [-1, 7], 7, 7, 1, 100⟩]⟩
  have nothing : (ZmqAcquiredDataSubscriber.create 4 0).publishes (fun _ => .ok [1]) (fun _ => false)
      ⟨⟨0, 4, 1, 1, 1, 0, "frame"⟩, [⟨0, 1, [-1, 7], 7, 7, 1, 100⟩]⟩ = [] := by decide +kernel
  rw [nothing] at published
  cases published

end AqMD3.Acquisition
