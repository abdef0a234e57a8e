import AqMD3.SubscriberChain

/-!
What has reached the end of the chain when `notify_completed_and_wait` returns, for
every order of the `update` calls and the passes of the three workers.
-/

namespace AqMD3.Acquisition

open QueueStage Transitions

/-- A step of the chain: the publisher notifies a record or signals completion, or one
of the three workers takes its turn. -/
inductive ChainLabel where
  | notifies (record : UimfAcquisitionRecord)
  | completes
  | turns (turn : Turn)

-- A second `set_value` throws, which is no step of the chain.
def Chain.step (c : Chain) : ChainLabel → Option Chain
  | .notifies record => some (c.notify .both record)
  | .completes => if c.completed then none else some { c with completed := true }
  | .turns turn => c.turn turn

@[simp] def ChainLabel.record : ChainLabel → Option UimfAcquisitionRecord
  | .notifies record => some record
  | _ => none

def notifiedRecords (labels : List ChainLabel) : List UimfAcquisitionRecord :=
  labels.filterMap ChainLabel.record

/-- Nothing is notified once completion has been signalled. -/
def NoneAfter (labels : List ChainLabel) : Prop :=
  ∀ before after, labels = before ++ .completes :: after → notifiedRecords after = []

/-- `notify_completed_and_wait` has returned: the future of the one subscriber is ready. -/
def Chain.Waited (c : Chain) : Prop := c.completed = true ∧ c.processing.phase = .completed

/-- Everything notified has been handled, and nothing is left anywhere. -/
structure Chain.Delivered (records : List UimfAcquisitionRecord) (c : Chain) : Prop where
  zmq : c.zmq.seen.map Except.ok = records.map UimfAcquisitionRecord.toFrame
  writer : c.writer.seen.map Except.ok =
    (records.filter fun record => !record.parameters.fileName.isEmpty).map
      UimfAcquisitionRecord.toFrame
  processing : c.processing.queue = [] ∧ c.processing.items = []
  zmqEmpty : c.zmq.queue = [] ∧ c.zmq.items = []
  writerEmpty : c.writer.queue = [] ∧ c.writer.items = []

theorem toFrame_parameters {record : UimfAcquisitionRecord} {frame : UimfFrame}
    (encodes : record.toFrame = .ok frame) : frame.parameters = record.parameters := by
  unfold UimfAcquisitionRecord.toFrame at encodes
  split at encodes
  · cases encodes
  · cases encodes
    rfl

/-- The file writer gets a frame with a name, the ZMQ subscriber every frame. -/
theorem updates_encoded {record : UimfAcquisitionRecord} {frame : UimfFrame}
    (encodes : record.toFrame = .ok frame) :
    updates record = if record.parameters.fileName.isEmpty then [(.zmq, frame)]
      else [(.zmq, frame), (.writer, frame)] := by
  simp only [updates, encodes, notifyType, toFrame_parameters encodes]
  split
  · rw [show targets .acquire = [.zmq] from rfl]
    rfl
  · rw [show targets .both = [.zmq, .writer] from rfl]
    rfl

theorem forSink_zmq (records : List UimfAcquisitionRecord)
    (encodes : ∀ record ∈ records, ∃ frame, record.toFrame = .ok frame) :
    (forSink .zmq (records.flatMap updates)).map Except.ok =
      records.map UimfAcquisitionRecord.toFrame := by
  induction records with
  | nil => rfl
  | cons record rest ih =>
      obtain ⟨frame, encoded⟩ := encodes record List.mem_cons_self
      rw [List.flatMap_cons, forSink_append, List.map_append,
        ih fun other member => encodes other (List.mem_cons_of_mem _ member), List.map_cons, encoded,
        updates_encoded encoded]
      split <;> rfl

theorem forSink_writer (records : List UimfAcquisitionRecord)
    (encodes : ∀ record ∈ records, ∃ frame, record.toFrame = .ok frame) :
    (forSink .writer (records.flatMap updates)).map Except.ok =
      (records.filter fun record => !record.parameters.fileName.isEmpty).map
        UimfAcquisitionRecord.toFrame := by
  induction records with
  | nil => rfl
  | cons record rest ih =>
      obtain ⟨frame, encoded⟩ := encodes record List.mem_cons_self
      rw [List.flatMap_cons, forSink_append, List.map_append,
        ih fun other member => encodes other (List.mem_cons_of_mem _ member),
        updates_encoded encoded]
      cases unnamed : record.parameters.fileName.isEmpty with
      | true => simp [forSink, unnamed]
      | false => simp [forSink, unnamed, encoded]

/-- Both subscribers have left their loops by the time the `ProcessSubject` has. -/
theorem sinks_completed {c : Chain} {notified : List UimfAcquisitionRecord}
    (sound : c.Sound notified) (completed : c.processing.phase = .completed) (sink : Sink) :
    (c.sink sink).phase = .completed :=
  (sound.awaited [] (sound.closed completed)).2 sink List.not_mem_nil

theorem settled_empty {Value : Type} {stopped : Bool} {s : QueueWorker Value}
    (settled : Settled stopped s) (completed : s.phase = .completed) :
    s.queue = [] ∧ s.items = [] :=
  ⟨settled.drained (Or.inr completed), settled.items (by rw [completed]; intro drains; cases drains)⟩

theorem delivered_of_completed {c : Chain} {records : List UimfAcquisitionRecord}
    (sound : c.Sound records) (completed : c.processing.phase = .completed)
    (encodes : ∀ record ∈ records, ∃ frame, record.toFrame = .ok frame) :
    c.Delivered records := by
  have handled : c.processing.seen = records :=
    (settled_seen sound.settled (Or.inr completed)).trans sound.received
  have idle : c.pending = [] := by
    apply Classical.byContradiction
    intro pending
    have drains := sound.handling pending
    rw [completed] at drains
    cases drains
  -- A sink that has settled has handled all that was routed to it.
  have seen (sink : Sink) : (c.sink sink).seen = forSink sink (records.flatMap updates) := by
    have routed := sound.routed sink
    rw [idle, handled] at routed
    rw [settled_seen (sound.sinks sink) (Or.inr (sinks_completed sound completed sink)), ← routed]
    exact (List.append_nil _).symm
  exact {
    zmq := by
      rw [show c.zmq.seen = _ from seen .zmq]
      exact forSink_zmq records encodes
    writer := by
      rw [show c.writer.seen = _ from seen .writer]
      exact forSink_writer records encodes
    processing := settled_empty sound.settled completed
    zmqEmpty := settled_empty (sound.sinks .zmq) (sinks_completed sound completed .zmq)
    writerEmpty := settled_empty (sound.sinks .writer) (sinks_completed sound completed .writer) }

theorem notifiedRecords_cons (label : ChainLabel) (rest : List ChainLabel) :
    notifiedRecords (label :: rest) = label.record.toList ++ notifiedRecords rest := by
  cases label <;> rfl

/-- What the steps of a run keep: the records handed to the chain are those notified. -/
theorem run_sound (labels : List ChainLabel) (c final : Chain)
    (notified : List UimfAcquisitionRecord) (sound : c.Sound notified)
    (none : NoneAfter labels) (late : c.completed = true → notifiedRecords labels = [])
    (ran : run Chain.step c labels = some final) :
    final.Sound (notified ++ notifiedRecords labels) := by
  induction labels generalizing c notified with
  | nil =>
      cases ran
      rw [show notifiedRecords [] = [] from rfl, List.append_nil]
      exact sound
  | cons label rest ih =>
      obtain ⟨next, first, later⟩ := run_cons.mp ran
      have restNone : NoneAfter rest := by
        rintro before after rfl
        exact none (label :: before) after rfl
      rw [notifiedRecords_cons] at late ⊢
      cases label with
      | notifies record =>
          -- A record notified later than `notify_completed` is excluded.
          have running : c.completed = false := by
            rw [← Bool.not_eq_true]
            intro completed
            cases late completed
          cases first
          rw [ChainLabel.record, Option.toList_some, ← List.append_assoc]
          apply ih _ _ (sound_notify sound record running) restNone _ later
          intro completed
          rw [show (c.notify .both record).completed = c.completed from rfl, running] at completed
          cases completed
      | completes =>
          simp only [Chain.step] at first
          split at first
          · cases first
          · cases first
            exact ih _ _ (sound_complete sound) restNone (fun _ => none [] rest rfl) later
      | turns turn =>
          have moved : next.completed = c.completed := turn_completed first
          exact ih _ _ (sound_turn sound first) restNone (fun completed => late (moved ▸ completed))
            later

/-- No record is lost, duplicated or moved on its way to the subscribers its type
selects. -/
theorem chain_delivers (labels : List ChainLabel) (c : Chain)
    (ran : run Chain.step .begin labels = some c) (none : NoneAfter labels)
    (encodes : ∀ record ∈ notifiedRecords labels, ∃ frame, record.toFrame = .ok frame)
    (waited : c.Waited) : c.Delivered (notifiedRecords labels) := by
  have sound := run_sound labels .begin c [] sound_begin none (fun completed => by cases completed) ran
  exact delivered_of_completed sound waited.2 encodes

theorem noneAfter_once (front back : List ChainLabel)
    (unsignalled : ∀ record ∈ front.map ChainLabel.record, record ≠ none)
    (silent : notifiedRecords back = []) : NoneAfter (front ++ .completes :: back) := by
  rintro before after split
  induction front generalizing before with
  | nil =>
      cases before with
      | nil => exact (List.cons.inj split).2 ▸ silent
      | cons label rest =>
          have cut : back = rest ++ .completes :: after := (List.cons.inj split).2
          rw [cut, notifiedRecords, List.filterMap_append] at silent
          exact (List.append_eq_nil_iff.mp silent).2
  | cons label rest ih =>
      cases before with
      | nil =>
          have first := (List.cons.inj split).1
          rw [first] at unsignalled
          exact absurd rfl (unsignalled none (by simp))
      | cons other others =>
          exact ih (fun record member => unsignalled record (List.mem_cons_of_mem _ member)) others
            (List.cons.inj split).2

def emptyRecord (fileName : String) : UimfAcquisitionRecord :=
  ⟨⟨0, 0, 1, 0, 1, 0, fileName⟩, ⟨.ofSize 0, [], 0⟩, 0⟩

/-- Two records, of which the file writer gets the first. -/
def twoRecords : List ChainLabel :=
  [.notifies (emptyRecord "frames.uimf"), .notifies (emptyRecord "")] ++ .completes ::
    (List.replicate 19 (.turns .processing) ++ List.replicate 16 (.turns .zmq) ++
      List.replicate 10 (.turns .writer) ++ List.replicate 3 (.turns .processing))

def twoRecordsEnd : Chain := (run Chain.step .begin twoRecords).getD .begin

theorem chain_delivers_two_records :
    run Chain.step .begin twoRecords = some twoRecordsEnd ∧
      twoRecordsEnd.Delivered (notifiedRecords twoRecords) :=
  ⟨by decide +kernel,
    chain_delivers twoRecords twoRecordsEnd (by decide +kernel)
      (noneAfter_once _ _ (by simp) rfl)
      (by
        rintro record member
        rcases List.mem_cons.mp member with first | rest
        · exact ⟨⟨record.parameters, []⟩, by rw [first]; rfl⟩
        · exact ⟨⟨record.parameters, []⟩, by rw [List.mem_singleton.mp rest]; rfl⟩)
      ⟨by decide +kernel, by decide +kernel⟩⟩

end AqMD3.Acquisition
