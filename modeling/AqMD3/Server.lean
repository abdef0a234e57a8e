import AqMD3.ZmqAcquiredDataSubscriber

/-!
`Server`: what crosses its two sockets. ZeroMQ is not in the repository; it delivers
the frames of whole messages in order, marks every frame but a message's last with
`RCVMORE`, and lets a `recv` that finds no frame wait for one. The bytes of a frame
are the characters of a String.
-/

namespace AqMD3.Acquisition

structure WireFrame where
  content : String
  more : Bool
  deriving DecidableEq

/-- The frames of one message. -/
def markMore : List String → List WireFrame
  | [] => []
  | [last] => [⟨last, false⟩]
  | content :: next :: rest => ⟨content, true⟩ :: markMore (next :: rest)

/-- The messages that a sequence of frames completes. -/
def messages : List WireFrame → List (List String)
  | [] => []
  | frame :: rest =>
      if frame.more then
        match messages rest with
        | [] => []
        | message :: later => (frame.content :: message) :: later
      else [frame.content] :: messages rest

theorem messages_markMore (content : String) (contents : List String) (rest : List WireFrame) :
    messages (markMore (content :: contents) ++ rest) = (content :: contents) :: messages rest := by
  induction contents generalizing content with
  | nil => rfl
  | cons next later ih =>
      simp only [markMore, List.cons_append, messages, ↓reduceIte]
      rw [ih next]

/-- A client's message as the command socket hands it over: its identity in front. -/
structure ClientMessage where
  identity : String
  further : List String
  nonempty : further ≠ []
  deriving DecidableEq

def ClientMessage.frames (m : ClientMessage) : List WireFrame := markMore (m.identity :: m.further)

structure ReceivedRequest where
  senderId : String
  payload : List String
  deriving DecidableEq

/-- The payload loop: one `recv`, and another while the frame read says more. -/
def receivePayload : List WireFrame → Option (List String × List WireFrame)
  | [] => none
  | message :: rest =>
      if message.more then
        (receivePayload rest).map fun (payload, left) => (message.content :: payload, left)
      else some ([message.content], rest)

/-- The request read and the frames behind it; `none` is a call that still waits. -/
def receive : List WireFrame → Option (ReceivedRequest × List WireFrame)
  | client :: _ :: rest =>
      (receivePayload rest).map fun (payload, left) => (⟨client.content, payload⟩, left)
  | _ => none

/-- What the command thread keeps of the request in hand, and what it has sent. -/
structure Server where
  respondedToRequest : Bool
  sent : List WireFrame
  deriving DecidableEq

namespace Server

def send (s : Server) (message : String) : Server := { s with sent := s.sent ++ [⟨message, false⟩] }

def sendMore (s : Server) (message : String) : Server :=
  { s with sent := s.sent ++ [⟨message, true⟩] }

def respond (s : Server) (client response : String) : Server :=
  ((({ s with respondedToRequest := true }.sendMore client).sendMore "").send response)

def respondMore (s : Server) (client : String) (responses : List String) : Server :=
  match responses with
  | [] => s
  | [response] => s.respond client response
  | first :: second :: rest =>
      let addressed := ({ s with respondedToRequest := true }.sendMore client).sendMore ""
      (((first :: second :: rest).dropLast).foldl sendMore addressed).send
        ((second :: rest).getLast (List.cons_ne_nil second rest))

theorem sendMore_all (responses : List String) (s : Server) :
    responses.foldl sendMore s =
      { s with sent := s.sent ++ responses.map fun response => ⟨response, true⟩ } := by
  induction responses generalizing s with
  | nil => simp
  | cons response rest ih => simp [ih, sendMore]

theorem markMore_dropLast (contents : List String) (present : contents ≠ []) :
    (contents.dropLast.map fun content => (⟨content, true⟩ : WireFrame)) ++
      [⟨contents.getLast present, false⟩] = markMore contents := by
  induction contents with
  | nil => exact absurd rfl present
  | cons content rest ih =>
      cases rest with
      | nil => rfl
      | cons next later =>
          have tail := ih (List.cons_ne_nil next later)
          simp only [List.dropLast_cons_cons, List.map_cons, List.cons_append, markMore,
            List.getLast_cons_cons, ← tail]

/-- A reply is one message to the client, whatever its number of frames. -/
theorem respondMore_sent (s : Server) (client : String) (responses : List String)
    (present : responses ≠ []) :
    s.respondMore client responses =
      { respondedToRequest := true, sent := s.sent ++ markMore (client :: "" :: responses) } := by
  match responses with
  | [] => exact absurd rfl present
  | [response] => simp [respondMore, respond, send, sendMore, markMore]
  | first :: second :: rest =>
      have body := markMore_dropLast (first :: second :: rest) (List.cons_ne_nil _ _)
      rw [List.getLast_cons_cons] at body
      simp only [respondMore, sendMore_all, send, sendMore, List.append_assoc]
      rw [body]
      simp [markMore]

theorem respond_sent (s : Server) (client response : String) :
    s.respond client response =
      { respondedToRequest := true, sent := s.sent ++ markMore [client, "", response] } := by
  simp [respond, send, sendMore, markMore]

end Server

/-- `Publisher::send`: the value returned, and what reached the socket. The timed lock
decides about the latter only. -/
def publisherSend (acquired : Bool) (published : List Send) (message : Send) : Bool × List Send :=
  let r := true
  if acquired then (r, published ++ [message]) else (r, published)

end AqMD3.Acquisition
