import AqMD3.CommandHandler

/-!
The `acquire frame` command: its second frame is uncompressed, parsed and copied into the
parameters of a frame. Both decoders are parameters here; they say by a Bool whether the bytes
decoded and leave in their output what they have got so far. `RequestMessage` has the parser
of the message.
-/

namespace AqMD3.Acquisition

/-- The fields of `UimfRequestMessage` that a frame is made from. -/
structure UimfRequestMessage where
  startTrigger : UInt64
  nbrSamples : UInt64
  frameLength : UInt64
  nbrAccumulations : UInt64
  frameNumber : UInt32
  offsetBins : UInt32
  fileName : String
  deriving DecidableEq

/-- `UIMFHelpers::uimf_message_to_parameters`. -/
def uimfMessageToParameters (message : UimfRequestMessage) : UimfFrameParameters :=
  ⟨message.startTrigger, message.nbrSamples, message.nbrAccumulations, message.frameLength,
    message.frameNumber, message.offsetBins, message.fileName⟩

/-- A decoder into a fresh output, and what bytes mean to it. The output of bytes that mean
nothing is whatever the decoder left there. -/
structure Decoder (Output : Type) where
  decode : String → Bool × Output
  meaning : String → Option Output
  refuses : ∀ bytes, meaning bytes = none → (decode bytes).1 = false
  decodes : ∀ bytes output, meaning bytes = some output → decode bytes = (true, output)

structure FrameWork where
  starts : List UimfFrameParameters
  ended : Except Thrown Unit

section Command

variable (snappy : Decoder String) (proto : Decoder UimfRequestMessage)
  (controller : Option (UimfFrameParameters → Except Thrown Unit))

/-- The work of the command on a payload of two. Before the first `acquire` there is no
controller, and a call through the null pointer is not defined. -/
def acquireFrame (payload : String) : Option FrameWork :=
  -- the Bools are discarded
  let uimfReqMsg := (snappy.decode payload).2
  let uimf := (proto.decode uimfReqMsg).2
  let uimfFrameParams := uimfMessageToParameters uimf
  controller.map fun start => ⟨[uimfFrameParams], start uimfFrameParams⟩

def Server.handleAcquireFrame (s : Server) (describe : InstrumentInfo → String)
    (calls : Nat → Calls) (client payload : String) (work : FrameWork) : Server :=
  s.handleRequest describe (fun i => { calls i with startFrame := work.ended })
    ⟨client, ["acquire frame", payload]⟩

def FrameWork.reply (payload : String) (work : FrameWork) : String :=
  match work.ended with
  | .ok () => ack
  | .error thrown => Server.errorReply thrown ["acquire frame", payload]

theorem handleAcquireFrame_sent (s : Server) (describe : InstrumentInfo → String)
    (calls : Nat → Calls) (client payload : String) (work : FrameWork) :
    (s.handleAcquireFrame describe calls client payload work).sent =
      s.sent ++ markMore [client, "", work.reply payload] := by
  have branch : branches.lookup "acquire frame" = some .acquireFrame := by decide
  unfold Server.handleAcquireFrame Server.handleRequest FrameWork.reply
  rw [if_neg (by simp)]
  simp only [Server.handleCommands, Server.handleCommand, branch, Server.acknowledge,
    Server.answer, List.length_cons, List.length_nil, Nat.reduceAdd, if_true]
  cases work.ended with
  | ok => rw [Server.settle, Server.respondMore, Server.respond_sent]
  | error thrown =>
      simp only [Server.settle, Bool.false_eq_true, if_false]
      rw [Server.respond_sent]

structure CarriesFields (parameters : UimfFrameParameters) (message : UimfRequestMessage) :
    Prop where
  startTrigger : parameters.startTrigger = message.startTrigger
  nbrSamples : parameters.nbrSamples = message.nbrSamples
  nbrAccumulations : parameters.nbrAccumulations = message.nbrAccumulations
  frameLength : parameters.frameLength = message.frameLength
  frameNumber : parameters.frameNumber = message.frameNumber
  offsetBins : parameters.offsetBins = message.offsetBins
  fileName : parameters.fileName = message.fileName

theorem uimfMessageToParameters_carries (message : UimfRequestMessage) :
    CarriesFields (uimfMessageToParameters message) message :=
  ⟨rfl, rfl, rfl, rfl, rfl, rfl, rfl⟩

def SecondFrameDecodes (payload : String) (message : UimfRequestMessage) : Prop :=
  ∃ bytes, snappy.meaning payload = some bytes ∧ proto.meaning bytes = some message

def FrameAnswered (describe : InstrumentInfo → String) (calls : Nat → Calls) (s : Server)
    (client payload : String) : Prop :=
  match acquireFrame snappy proto controller payload with
  | none => False
  | some work =>
      (∃ message parameters, SecondFrameDecodes snappy proto payload message ∧
        work.starts = [parameters] ∧ CarriesFields parameters message) ∨
      (work.starts = [] ∧ ∃ text,
        (s.handleAcquireFrame describe calls client payload work).sent =
          s.sent ++ markMore [client, "", "error " ++ text])

theorem acquireFrame_decodes {payload : String} {message : UimfRequestMessage}
    (decoded : SecondFrameDecodes snappy proto payload message) :
    acquireFrame snappy proto controller payload =
      controller.map fun start =>
        ⟨[uimfMessageToParameters message], start (uimfMessageToParameters message)⟩ := by
  obtain ⟨bytes, compressed, parsed⟩ := decoded
  rw [acquireFrame, snappy.decodes payload bytes compressed, proto.decodes bytes message parsed]

/-- Bytes that do not decode start a frame too, with what the decoders left behind. -/
theorem acquireFrame_answered_iff (describe : InstrumentInfo → String) (calls : Nat → Calls)
    (s : Server) (client payload : String) :
    FrameAnswered snappy proto controller describe calls s client payload ↔
      controller.isSome ∧ ∃ message, SecondFrameDecodes snappy proto payload message := by
  constructor
  · intro answered
    unfold FrameAnswered at answered
    cases present : controller with
    | none =>
        rw [acquireFrame, present] at answered
        exact answered.elim
    | some start =>
        rw [acquireFrame, present] at answered
        obtain ⟨message, _, decoded, _⟩ | ⟨nothing, _⟩ := answered
        · exact ⟨rfl, message, decoded⟩
        · cases nothing
  · rintro ⟨present, message, decoded⟩
    obtain ⟨start, rfl⟩ := Option.isSome_iff_exists.mp present
    rw [FrameAnswered, acquireFrame_decodes snappy proto _ decoded]
    exact Or.inl ⟨message, _, decoded, rfl, uimfMessageToParameters_carries message⟩

theorem acquireFrame_acknowledged {start : UimfFrameParameters → Except Thrown Unit}
    (returns : ∀ parameters, start parameters = .ok ()) (describe : InstrumentInfo → String)
    (calls : Nat → Calls) (s : Server) (client payload : String) :
    ∃ work parameters, acquireFrame snappy proto (some start) payload = some work ∧
      work.starts = [parameters] ∧
      (s.handleAcquireFrame describe calls client payload work).sent =
        s.sent ++ markMore [client, "", ack] := by
  let parameters := uimfMessageToParameters (proto.decode (snappy.decode payload).2).2
  refine ⟨⟨[parameters], start parameters⟩, parameters, rfl, rfl, ?_⟩
  rw [handleAcquireFrame_sent, FrameWork.reply, returns]

end Command

def listed {Output : Type} (fresh : Output) (outputs : List (String × Output)) :
    Decoder Output where
  decode bytes := ((outputs.lookup bytes).isSome, (outputs.lookup bytes).getD fresh)
  meaning bytes := outputs.lookup bytes
  refuses bytes unknown := by simp [unknown]
  decodes bytes output known := by simp [known]

def emptyMessage : UimfRequestMessage := ⟨0, 0, 0, 0, 0, 0, ""⟩

def nothingCalled : Calls :=
  ⟨0, .ok ⟨"", "", ""⟩, .ok (), .ok (), .ok (), .ok (), .ok ("", ""), .ok ("", ""), .ok (), .ok (),
    .ok (), .ok ()⟩

/-- An empty second frame has no length in front, and the zero bytes left parse. -/
theorem emptyFrame_started :
    ¬FrameAnswered (listed "" [("compressed", "")]) (listed emptyMessage [("", emptyMessage)])
      (some fun _ => .ok ()) (fun _ => "") (fun _ => nothingCalled) ⟨false, []⟩ "client" "" := by
  intro answered
  obtain ⟨message, _, ⟨bytes, compressed, _⟩, _⟩ | ⟨nothing, _⟩ := answered
  · have unknown : (listed "" [("compressed", "")]).meaning "" = none := by decide
    rw [unknown] at compressed
    cases compressed
  · cases nothing

end AqMD3.Acquisition
