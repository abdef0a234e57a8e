import AqMD3.CommandHandler

/-!
How many replies a request gets. A command passes, answers and goes on, answers and
returns, returns without a word, or throws; what these make of a payload decides.
-/

namespace AqMD3.Acquisition

inductive Effect where
  | passes
  | answers
  | answersAndReturns
  | returns
  | throws
  deriving DecidableEq

/-- A command whose work throws, or else does as it does. -/
def Effect.unless {Value : Type} (work : Except Thrown Value) (effect : Effect) : Effect :=
  match work with
  | .error _ => .throws
  | .ok _ => effect

def Effect.acknowledges (size : Nat) (work : Except Thrown Unit) : Effect :=
  if size = 2 then .unless work .answersAndReturns else .answersAndReturns

def effectOf (size : Nat) (calls : Calls) (command : String) : Effect :=
  match branches.lookup command with
  | some .numInstruments | some .setupArray => .answersAndReturns
  | some .info | some .firmware | some .serial => .unless calls.getInfo .answers
  | some .init => .unless calls.setTriggerParameters .answers
  | some .horizontal => .acknowledges size calls.setSamplingRate
  | some .vertical => .acknowledges size calls.setChannelParameters
  | some .acquireFrame => .acknowledges size calls.startFrame
  | some .invert => .acknowledges size calls.setDataInversion
  | some .enableIoPort => .acknowledges size calls.enableIoPort
  | some .disableIoPort => .acknowledges size calls.disableIoPort
  | some .acquire => .unless calls.startAcquire .answersAndReturns
  | some .tofWidth => .unless calls.measureTofWidth .answersAndReturns
  | some .stop => if size = 2 then .answersAndReturns else .returns
  | some .resetTimestamps => .returns
  | some .trigClass | some .trigSource | some .mode | some .configDigitizer | some .postSamples
  | some .preSamples | none => .passes

def effectsFrom (size : Nat) (calls : Nat → Calls) : Nat → List String → List Effect
  | _, [] => []
  | i, command :: rest => effectOf size (calls i) command :: effectsFrom size calls (i + 1) rest

/-- Passing commands up to the end, a silent return or a throw. -/
def endsQuietly : List Effect → Bool
  | [] => true
  | .passes :: rest => endsQuietly rest
  | .returns :: _ => true
  | .throws :: _ => true
  | .answers :: _ => false
  | .answersAndReturns :: _ => false

/-- Passing commands, then one that answers and returns, one that throws, or one that
answers and goes on to a quiet end. -/
def answersOnce : List Effect → Bool
  | [] => false
  | .passes :: rest => answersOnce rest
  | .returns :: _ => false
  | .throws :: _ => true
  | .answers :: rest => endsQuietly rest
  | .answersAndReturns :: _ => true

/-- One reply, of one or more frames, to the sender of the request. -/
def RepliesOnce (request : ReceivedRequest) (before after : Server) : Prop :=
  ∃ frames, frames ≠ [] ∧
    after.sent = before.sent ++ markMore (request.senderId :: "" :: frames)

def repliesTo (client : String) (replies : List (List String)) : List WireFrame :=
  replies.flatMap fun frames => markMore (client :: "" :: frames)

/-- A number of replies to the client, and the flag that says there was one. -/
def Replied (client : String) (count : Nat) (before after : Server) : Prop :=
  ∃ replies : List (List String), replies.length = count ∧ (∀ frames ∈ replies, frames ≠ []) ∧
    after = ⟨before.respondedToRequest || 0 < count, before.sent ++ repliesTo client replies⟩

theorem replied_nothing (client : String) (s : Server) : Replied client 0 s s :=
  ⟨[], rfl, fun _ member => absurd member List.not_mem_nil, by simp [repliesTo]⟩

theorem replied_respondMore (client : String) (s : Server) (frames : List String)
    (present : frames ≠ []) : Replied client 1 s (s.respondMore client frames) := by
  refine ⟨[frames], rfl, ?_, ?_⟩
  · intro reply member
    rw [List.mem_singleton.mp member]
    exact present
  · simp [Server.respondMore_sent s client frames present, repliesTo]

theorem replied_respond (client : String) (s : Server) (response : String) :
    Replied client 1 s (s.respond client response) :=
  replied_respondMore client s [response] (List.cons_ne_nil response [])

theorem replied_trans {client : String} {first second : Nat} {before middle after : Server}
    (one : Replied client first before middle) (two : Replied client second middle after) :
    Replied client (first + second) before after := by
  obtain ⟨replies, count, present, rfl⟩ := one
  obtain ⟨more, count', present', rfl⟩ := two
  refine ⟨replies ++ more, by simp [count, count'], ?_, ?_⟩
  · intro frames member
    rcases List.mem_append.mp member with early | late
    · exact present frames early
    · exact present' frames late
  · have either : decide (0 < first + second) = (decide (0 < first) || decide (0 < second)) := by
      rw [← Bool.decide_or, decide_eq_decide]
      omega
    simp only [repliesTo, List.flatMap_append, List.append_assoc, either, Bool.or_assoc]

theorem replied_responded {client : String} {count : Nat} {before after : Server}
    (replied : Replied client count before after) (some : 0 < count) :
    after.respondedToRequest = true := by
  obtain ⟨_, _, _, rfl⟩ := replied
  simp [some]

theorem messages_replies (client : String) (replies : List (List String)) :
    messages (repliesTo client replies) = replies.map fun frames => client :: "" :: frames := by
  induction replies with
  | nil => rfl
  | cons frames rest ih => simp [repliesTo, messages_markMore, ← ih]

/-- The replies of a request can be counted in what was sent. -/
theorem repliesOnce_iff {request : ReceivedRequest} {count : Nat} {before after : Server}
    (replied : Replied request.senderId count before after) :
    RepliesOnce request before after ↔ count = 1 := by
  obtain ⟨replies, rfl, present, rfl⟩ := replied
  constructor
  · rintro ⟨frames, _, sent⟩
    have same := congrArg messages (List.append_cancel_left sent)
    have one := messages_replies request.senderId [frames]
    simp only [repliesTo, List.flatMap_cons, List.flatMap_nil, List.append_nil] at one
    rw [messages_replies, one] at same
    simpa using congrArg List.length same
  · intro single
    obtain ⟨frames, rfl⟩ := List.length_eq_one_iff.mp single
    exact ⟨frames, present frames (List.mem_singleton_self frames), by simp [repliesTo]⟩

/-- What one command's branch does, by its effect. -/
def Performs (client : String) (s : Server) : Effect → Flow → Prop
  | .passes, flow => flow = .goesOn s
  | .answers, flow => ∃ next, flow = .goesOn next ∧ Replied client 1 s next
  | .answersAndReturns, flow => ∃ next, flow = .returned next ∧ Replied client 1 s next
  | .returns, flow => flow = .returned s
  | .throws, flow => ∃ thrown, flow = .threw thrown s

theorem answer_goesOn {Value : Type} (client : String) (s : Server) (work : Except Thrown Value)
    (frames : Value → List String) (present : ∀ value, frames value ≠ []) :
    Performs client s (.unless work .answers) (s.answer client work frames .goesOn) := by
  cases work with
  | error thrown => exact ⟨thrown, rfl⟩
  | ok value => exact ⟨_, rfl, replied_respondMore client s _ (present value)⟩

theorem answer_returned {Value : Type} (client : String) (s : Server) (work : Except Thrown Value)
    (frames : Value → List String) (present : ∀ value, frames value ≠ []) :
    Performs client s (.unless work .answersAndReturns)
      (s.answer client work frames .returned) := by
  cases work with
  | error thrown => exact ⟨thrown, rfl⟩
  | ok value => exact ⟨_, rfl, replied_respondMore client s _ (present value)⟩

theorem acknowledge_performs (client : String) (size : Nat) (s : Server)
    (work : Except Thrown Unit) :
    Performs client s (.acknowledges size work) (s.acknowledge client size work) := by
  unfold Effect.acknowledges Server.acknowledge
  split
  · exact answer_returned client s work _ fun _ => List.cons_ne_nil _ _
  · exact answer_returned client s (.ok ()) _ fun _ => List.cons_ne_nil _ _

theorem handleCommand_performs (describe : InstrumentInfo → String) (client : String) (size : Nat)
    (calls : Calls) (s : Server) (command : String) :
    Performs client s (effectOf size calls command)
      (s.handleCommand describe client size calls command) := by
  have texts (text : String) : [text] ≠ [] := List.cons_ne_nil text []
  unfold effectOf Server.handleCommand
  cases branches.lookup command with
  | none => rfl
  | some branch =>
      cases branch with
      | numInstruments => exact ⟨_, rfl, replied_respond client s _⟩
      | setupArray => exact ⟨_, rfl, replied_respond client s _⟩
      | info => exact answer_goesOn client s _ _ fun _ => texts _
      | firmware => exact answer_goesOn client s _ _ fun _ => texts _
      | serial => exact answer_goesOn client s _ _ fun _ => texts _
      | init => exact answer_goesOn client s _ _ fun _ => texts _
      | acquire => exact answer_returned client s _ _ fun _ => List.cons_ne_nil _ _
      | tofWidth => exact answer_returned client s _ _ fun _ => List.cons_ne_nil _ _
      | stop =>
          by_cases two : size = 2
          · simp only [two, ne_eq, not_true_eq_false, ↓reduceIte]
            cases calls.stopController with
            | error thrown => exact ⟨_, rfl, replied_respond client s _⟩
            | ok _ => exact ⟨_, rfl, replied_respond client s _⟩
          · simp only [two, ne_eq, not_false_eq_true, ↓reduceIte]
            rfl
      | horizontal => exact acknowledge_performs client size s _
      | vertical => exact acknowledge_performs client size s _
      | acquireFrame => exact acknowledge_performs client size s _
      | invert => exact acknowledge_performs client size s _
      | enableIoPort => exact acknowledge_performs client size s _
      | disableIoPort => exact acknowledge_performs client size s _
      | _ => rfl

/-- The replies of a payload, the one of `run` included, when there was one before or
not. -/
def repliesOf : Bool → List Effect → Nat
  | _, [] => 0
  | responded, .passes :: rest => repliesOf responded rest
  | _, .answers :: rest => 1 + repliesOf true rest
  | _, .answersAndReturns :: _ => 1
  | _, .returns :: _ => 0
  | responded, .throws :: _ => if responded then 0 else 1

/-- From any position of the payload on, the catch clauses of `run` included. -/
theorem handleCommands_replied (describe : InstrumentInfo → String) (request : ReceivedRequest)
    (size : Nat) (calls : Nat → Calls) (commands : List String) (i : Nat) (s : Server) :
    Replied request.senderId
      (repliesOf s.respondedToRequest (effectsFrom size calls i commands)) s
      (Server.settle request
        (Server.handleCommands describe request.senderId size calls i commands s)) := by
  induction commands generalizing i s with
  | nil => exact replied_nothing request.senderId s
  | cons command rest ih =>
      have here := handleCommand_performs describe request.senderId size (calls i) s command
      simp only [effectsFrom, Server.handleCommands]
      cases effect : effectOf size (calls i) command with
      | passes =>
          rw [effect] at here
          rw [show Server.handleCommand _ _ _ _ _ _ = _ from here]
          exact ih (i + 1) s
      | answers =>
          rw [effect] at here
          obtain ⟨next, flow, replied⟩ := here
          rw [flow]
          -- From here on the request has had a reply, which the catch clause asks.
          have tail := ih (i + 1) next
          rw [replied_responded replied Nat.one_pos] at tail
          exact replied_trans replied tail
      | answersAndReturns =>
          rw [effect] at here
          obtain ⟨next, flow, replied⟩ := here
          rw [flow]
          exact replied
      | returns =>
          rw [effect] at here
          rw [show Server.handleCommand _ _ _ _ _ _ = _ from here]
          exact replied_nothing request.senderId s
      | throws =>
          rw [effect] at here
          obtain ⟨thrown, flow⟩ := here
          rw [flow]
          -- The catch clause of `run` replies where nothing did before.
          simp only [repliesOf, Server.settle]
          split
          · exact replied_nothing request.senderId s
          · exact replied_respond request.senderId s _

theorem repliesOf_quiet (effects : List Effect) :
    repliesOf true effects = 0 ↔ endsQuietly effects = true := by
  induction effects with
  | nil => simp [repliesOf, endsQuietly]
  | cons effect rest ih =>
      cases effect with
      | passes => simpa [repliesOf, endsQuietly] using ih
      | _ => simp [repliesOf, endsQuietly]

theorem repliesOf_once (effects : List Effect) :
    repliesOf false effects = 1 ↔ answersOnce effects = true := by
  induction effects with
  | nil => simp [repliesOf, answersOnce]
  | cons effect rest ih =>
      cases effect with
      | passes => simpa [repliesOf, answersOnce] using ih
      | answers => simp [repliesOf, answersOnce, repliesOf_quiet]
      | _ => simp [repliesOf, answersOnce]

/-- Exactly one reply, for every payload and however the calls end: exactly when one
command answers, or none does and one throws. -/
theorem request_replied_iff (describe : InstrumentInfo → String) (calls : Nat → Calls) (s : Server)
    (request : ReceivedRequest) :
    RepliesOnce request s (s.handleRequest describe calls request) ↔
      answersOnce (effectsFrom request.payload.length calls 0 request.payload) = true := by
  have replied := handleCommands_replied describe request request.payload.length calls
    request.payload 0 { s with respondedToRequest := false }
  rw [← repliesOf_once, Server.handleRequest]
  split
  · rename_i empty
    have none : request.payload = [] := List.length_eq_zero_iff.mp (Nat.le_zero.mp empty)
    simp [none, RepliesOnce, effectsFrom, repliesOf, markMore]
  · have once := repliesOnce_iff replied
    exact once

/-- A command that is in the protocol and returns without a word. -/
theorem request_unanswered :
    ¬ ∀ (describe : InstrumentInfo → String) (calls : Nat → Calls) (s : Server)
        (request : ReceivedRequest), request.payload ≠ [] →
      RepliesOnce request s (s.handleRequest describe calls request) := by
  intro always
  have quiet : Calls :=
    ⟨1, .ok ⟨"SA220P", "1", "1.0"⟩, .ok (), .ok (), .ok (), .ok (), .ok ("width", "hash"),
      .ok ("width", "hash"), .ok (), .ok (), .ok (), .ok ()⟩
  obtain ⟨frames, _, sent⟩ := always (fun _ => "") (fun _ => quiet) ⟨false, []⟩
    ⟨"client", ["reset timestamps"]⟩ (List.cons_ne_nil _ _)
  have nothing : (Server.handleRequest (fun _ => "") (fun _ => quiet) ⟨false, []⟩
      ⟨"client", ["reset timestamps"]⟩).sent = [] := by
    rfl
  rw [nothing] at sent
  simp [markMore] at sent

end AqMD3.Acquisition
