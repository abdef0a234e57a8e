import AqMD3.Server

/-!
The command handler that `main` registers, and `Server::run` around one request. What
the calls into the card, the parsers and the acquisition return or throw is given from
outside, anew for every command; the text of `info` holds constants of the build and is
a parameter.
-/

namespace AqMD3.Acquisition

inductive Branch where
  | numInstruments
  | info
  | firmware
  | serial
  | init
  | horizontal
  | vertical
  | trigClass
  | trigSource
  | mode
  | configDigitizer
  | postSamples
  | preSamples
  | setupArray
  | acquireFrame
  | acquire
  | tofWidth
  | stop
  | invert
  | resetTimestamps
  | enableIoPort
  | disableIoPort
  deriving DecidableEq

def branches : List (String × Branch) :=
  [("num instruments", .numInstruments), ("info", .info), ("firmware", .firmware),
    ("serial", .serial), ("init", .init), ("horizontal", .horizontal), ("vertical", .vertical),
    ("trig class", .trigClass), ("trig source", .trigSource), ("mode", .mode),
    ("config digitizer", .configDigitizer), ("post samples", .postSamples),
    ("pre samples", .preSamples), ("setup array", .setupArray), ("acquire frame", .acquireFrame),
    ("acquire", .acquire), ("tof width", .tofWidth), ("stop", .stop), ("invert", .invert),
    ("reset timestamps", .resetTimestamps), ("enable io port", .enableIoPort),
    ("disable io port", .disableIoPort)]

structure InstrumentInfo where
  instrumentModel : String
  serialNumber : String
  firmwareRevision : String
  deriving DecidableEq

/-- How the calls that one command makes end. A pair is the serialised
`TofWidthMessage` and the hash of it. -/
structure Calls where
  findInstruments : UInt32
  getInfo : Except Thrown InstrumentInfo
  setTriggerParameters : Except Thrown Unit
  setSamplingRate : Except Thrown Unit
  setChannelParameters : Except Thrown Unit
  startFrame : Except Thrown Unit
  startAcquire : Except Thrown (String × String)
  measureTofWidth : Except Thrown (String × String)
  stopController : Except Thrown Unit
  setDataInversion : Except Thrown Unit
  enableIoPort : Except Thrown Unit
  disableIoPort : Except Thrown Unit

/-- How one turn of the loop over the payload leaves it. -/
inductive Flow where
  | goesOn (s : Server)
  | returned (s : Server)
  | threw (thrown : Thrown) (s : Server)

def ack : String := "ack"

namespace Server

/-- Work whose result is the text of a reply, and what the handler does behind it. -/
def answer {Value : Type} (s : Server) (client : String) (work : Except Thrown Value)
    (frames : Value → List String) (next : Server → Flow) : Flow :=
  match work with
  | .error thrown => .threw thrown s
  | .ok value => next (s.respondMore client (frames value))

/-- Work that is only done for a payload of two. -/
def acknowledge (s : Server) (client : String) (size : Nat) (work : Except Thrown Unit) : Flow :=
  s.answer client (if size = 2 then work else .ok ()) (fun () => [ack]) .returned

-- The first three that reply fall through to the end of the loop's body.
def handleCommand (describe : InstrumentInfo → String) (client : String) (size : Nat)
    (calls : Calls) (s : Server) (command : String) : Flow :=
  match branches.lookup command with
  | some .numInstruments => .returned (s.respond client (toString calls.findInstruments))
  | some .info => s.answer client calls.getInfo (fun info => [describe info]) .goesOn
  | some .firmware => s.answer client calls.getInfo (fun info => [info.firmwareRevision]) .goesOn
  | some .serial => s.answer client calls.getInfo (fun info => [info.serialNumber]) .goesOn
  | some .init => s.answer client calls.setTriggerParameters (fun () => [ack]) .goesOn
  | some .horizontal => s.acknowledge client size calls.setSamplingRate
  | some .vertical => s.acknowledge client size calls.setChannelParameters
  | some .trigClass => .goesOn s
  | some .trigSource => .goesOn s
  | some .mode => .goesOn s
  | some .configDigitizer => .goesOn s
  | some .postSamples => .goesOn s
  | some .preSamples => .goesOn s
  | some .setupArray => .returned (s.respond client ack)
  | some .acquireFrame => s.acknowledge client size calls.startFrame
  | some .acquire => s.answer client calls.startAcquire (fun sent => [sent.1, sent.2]) .returned
  | some .tofWidth => s.answer client calls.measureTofWidth (fun sent => [sent.1, sent.2]) .returned
  | some .stop =>
      if size ≠ 2 then .returned s
      else
        match calls.stopController with
        | .error _ => .returned (s.respond client ack)
        | .ok () => .returned (s.respond client ack)
  | some .invert => s.acknowledge client size calls.setDataInversion
  | some .resetTimestamps => .returned s
  | some .enableIoPort => s.acknowledge client size calls.enableIoPort
  | some .disableIoPort => s.acknowledge client size calls.disableIoPort
  | none => .goesOn s

/-- The loop over the payload, from one of its positions on. -/
def handleCommands (describe : InstrumentInfo → String) (client : String) (size : Nat)
    (calls : Nat → Calls) : Nat → List String → Server → Flow
  | _, [], s => .returned s
  | i, command :: rest, s =>
      match handleCommand describe client size (calls i) s command with
      | .goesOn next => handleCommands describe client size calls (i + 1) rest next
      | .returned last => .returned last
      | .threw thrown last => .threw thrown last

def errorReply (thrown : Thrown) (payload : List String) : String :=
  match thrown with
  | .frameDamaged what | .exception what => "error " ++ oneLine what
  | .unknown _ => "error unknown error handling command " ++ payload.headD ""

/-- The catch clauses of `run`. -/
def settle (request : ReceivedRequest) : Flow → Server
  | .goesOn s => s
  | .returned s => s
  | .threw thrown s =>
      if s.respondedToRequest then s
      else s.respond request.senderId (errorReply thrown request.payload)

/-- One turn of `run`, from the request received on. -/
def handleRequest (describe : InstrumentInfo → String) (calls : Nat → Calls) (s : Server)
    (request : ReceivedRequest) : Server :=
  if request.payload.length ≤ 0 then s
  else
    settle request (handleCommands describe request.senderId request.payload.length calls 0
      request.payload { s with respondedToRequest := false })

end Server
end AqMD3.Acquisition
