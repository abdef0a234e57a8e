import AqMD3.ServedStream
import AqMD3.Transitions

/-!
The calls of a `CstZs1Context` one statement at a time, as far as they touch the markers
buffer: `start`, `stop`, and inside `acquire` the sanity check, every hunk of a walk, every
`check_fetch_alignment` and every fetch. Any of them may end its call by an exception, and
the next call finds the buffer as that left it.
-/

namespace AqMD3.Acquisition

open AcquisitionBuffer Transitions

/-- Where in `acquire` an exception is thrown. -/
inductive Place where
  | sanityCheck
  | fetchAlignment
  | driver
  | deadline
  | walk
  deriving DecidableEq

/-- What is executed next. At `walking` the loop has `count` hunks to go. -/
inductive Control where
  | idle (c : CstZs1Context)
  | walking (w : Walk) (count : Nat)
  | checking (w : Walk)
  | fetching (w : Walk)
  | processing (w : Walk)

def Control.context : Control → CstZs1Context
  | idle c => c
  | walking w _ => w.context
  | checking w => w.context
  | fetching w => w.context
  | processing w => w.context

/-- The walk whose fetch the driver is to answer. -/
def Control.asking : Control → Option Walk
  | fetching w => some w
  | _ => none

structure Session where
  triggersToRead : UInt64
  finish : Option Int
  control : Control
  -- What the driver answered to the most recent markers fetch.
  latest : Option FetchReply
  -- The exception that ended the most recent call, and where.
  left : Option (Place × Thrown)

inductive SessionLabel where
  | starts (fails : Bool)
  | stops (fails : Bool)
  | calls (triggersToRead : UInt64) (finish : Option Int)
  | walks
  | checks
  | fetches (reply : FetchReply)
  | finishes

namespace Session

def begin (c : CstZs1Context) : Session := ⟨0, none, .idle c, none, none⟩

def buffer (s : Session) : AcquisitionBuffer := s.control.context.markersBuffer

def throws (s : Session) (place : Place) (thrown : Thrown) (w : Walk) : Session :=
  { s with control := .idle w.context, left := some (place, thrown) }

/-- A call up to its first hunk, or up to the throw of the sanity check. -/
def enter (s : Session) (c : CstZs1Context) (triggersToRead : UInt64) (finish : Option Int) :
    Session :=
  let w := Walk.begin c triggersToRead
  let unprocessed := c.markersBuffer.getUnprocessed.toInt
  let s := { s with triggersToRead := triggersToRead, finish := finish, left := none }
  if unprocessed.tmod 16 ≠ 0 then
    s.throws .sanityCheck (.exception "actual_elements_markers % 16 != 0 at start of acquire") w
  else { s with control := .walking w (unprocessed.tdiv 16).toNat }

def walk (s : Session) (w : Walk) : Nat → Session
  | 0 => { s with control := .checking (w.onBuffer fun b => b.reset) }
  | count + 1 =>
      match walkHunk s.triggersToRead w with
      | .walked next => { s with control := .walking next count }
      | .lookAhead last => { s with control := .processing last }
      | .threw thrown last => s.throws .walk thrown last

def check (s : Session) (w : Walk) : Session :=
  match checkFetchAlignment w.context.markersChannel w.markersToAcquire.toInt with
  | .error thrown => s.throws .fetchAlignment thrown w
  | .ok () => { s with control := .fetching w }

/-- One fetch, answered. A fetch of nothing is asked for again. -/
def fetch (s : Session) (w : Walk) (reply : FetchReply) : Session :=
  let w := w.fetched reply
  let s := { s with latest := some reply }
  match reply.error with
  | some text => s.throws .driver (.exception text) w
  | none =>
      if s.finish.any (fun finish => finish < reply.now) then
        s.throws .deadline (.exception (timeoutWhat w reply)) w
      else if reply.elements.length = 0 then { s with control := .checking w }
      else
        { s with
          control := .walking ((w.grown s.triggersToRead reply.available).advanced reply)
            (reply.elements.length / 16) }

-- The samples fetch behind `process` has no markers buffer in it, however it ends.
def step (s : Session) (label : SessionLabel) : Option Session :=
  match s.control, label with
  | .idle c, .starts fails => some { s with control := .idle (if fails then c else c.start) }
  | .idle c, .stops fails => some { s with control := .idle (if fails then c else c.stop) }
  | .idle c, .calls triggersToRead finish => some (s.enter c triggersToRead finish)
  | .walking w count, .walks => some (s.walk w count)
  | .checking w, .checks => some (s.check w)
  | .fetching w, .fetches reply => some (s.fetch w reply)
  | .processing w, .finishes => some { s with control := .idle w.context }
  | _, _ => none

/-- Everything a step can be. -/
inductive Steps (s : Session) : SessionLabel → Session → Prop where
  | starts {c : CstZs1Context} (control : s.control = .idle c) (fails : Bool) :
      Steps s (.starts fails) { s with control := .idle (if fails then c else c.start) }
  | stops {c : CstZs1Context} (control : s.control = .idle c) (fails : Bool) :
      Steps s (.stops fails) { s with control := .idle (if fails then c else c.stop) }
  | calls {c : CstZs1Context} (control : s.control = .idle c) (triggersToRead : UInt64)
      (finish : Option Int) :
      Steps s (.calls triggersToRead finish) (s.enter c triggersToRead finish)
  | walks {w : Walk} {count : Nat} (control : s.control = .walking w count) :
      Steps s .walks (s.walk w count)
  | checks {w : Walk} (control : s.control = .checking w) : Steps s .checks (s.check w)
  | fetches {w : Walk} (control : s.control = .fetching w) (reply : FetchReply) :
      Steps s (.fetches reply) (s.fetch w reply)
  | finishes {w : Walk} (control : s.control = .processing w) :
      Steps s .finishes { s with control := .idle w.context }

theorem step_cases {s next : Session} {label : SessionLabel} (stepped : s.step label = some next) :
    Steps s label next := by
  unfold step at stepped
  split at stepped
  case h_1 c fails control =>
    cases stepped
    exact .starts control fails
  case h_2 c fails control =>
    cases stepped
    exact .stops control fails
  case h_3 c triggersToRead finish control =>
    cases stepped
    exact .calls control triggersToRead finish
  case h_4 w count control =>
    cases stepped
    exact .walks control
  case h_5 w control =>
    cases stepped
    exact .checks control
  case h_6 w reply control =>
    cases stepped
    exact .fetches control reply
  case h_7 w control =>
    cases stepped
    exact .finishes control
  case h_8 => cases stepped

section Stepping

variable {s : Session} {w : Walk}

theorem step_calls {c : CstZs1Context} (control : s.control = .idle c) (triggersToRead : UInt64)
    (finish : Option Int) :
    s.step (.calls triggersToRead finish) = some (s.enter c triggersToRead finish) := by
  simp only [step, control]

theorem step_walks {count : Nat} (control : s.control = .walking w count) :
    s.step .walks = some (s.walk w count) := by
  simp only [step, control]

theorem step_checks (control : s.control = .checking w) : s.step .checks = some (s.check w) := by
  simp only [step, control]

theorem step_fetches (control : s.control = .fetching w) (reply : FetchReply) :
    s.step (.fetches reply) = some (s.fetch w reply) := by
  simp only [step, control]

end Stepping

/-- The statement a walk over hunks has led to. -/
def AtStage (s : Session) : Stage → Prop
  | .walked w => s.control = .walking w 0
  | .lookAhead w => s.control = .processing w
  | .threw thrown w => s.control = .idle w.context ∧ s.left = some (.walk, thrown)

/-- The statement a call's markers loop has led to. -/
def AtEnd (s : Session) : MarkersEnd → Prop
  | .lookAhead w _ => s.control = .processing w
  | .threw thrown w _ => s.control = .idle w.context ∧ ∃ place, s.left = some (place, thrown)
  | .waiting w => s.control = .fetching w

theorem walkHunks_reached (count : Nat) (s : Session) (w : Walk)
    (control : s.control = .walking w count) :
    ∃ final, Reaches step s final ∧ final.triggersToRead = s.triggersToRead ∧
      final.finish = s.finish ∧ final.AtStage (walkHunks s.triggersToRead count w) := by
  induction count generalizing s w with
  | zero => exact ⟨s, reaches_refl s, rfl, rfl, control⟩
  | succ count ih =>
      have stepped := step_walks control
      unfold walk at stepped
      unfold walkHunks
      cases stage : walkHunk s.triggersToRead w with
      | walked next =>
          rw [stage] at stepped
          obtain ⟨final, reached, same, finish, here⟩ :=
            ih { s with control := .walking next count } next rfl
          exact ⟨final, reaches_step stepped reached, same, finish, here⟩
      | lookAhead last =>
          rw [stage] at stepped
          exact ⟨_, reaches_step stepped (reaches_refl _), rfl, rfl, rfl⟩
      | threw thrown last =>
          rw [stage] at stepped
          exact ⟨_, reaches_step stepped (reaches_refl _), rfl, rfl, rfl, rfl⟩

/-- From a walk's start to the end of its call, given what the fetches behind it lead to. -/
theorem walked_reached {s : Session} {w : Walk} {count : Nat} (loop : Walk → MarkersEnd)
    (replies : List FetchReply) (control : s.control = .walking w count)
    (behind : ∀ next final, final.triggersToRead = s.triggersToRead → final.finish = s.finish →
      final.control = .checking next → ∃ last, Reaches step final last ∧ last.AtEnd (loop next)) :
    ∃ last, Reaches step s last ∧
      last.AtEnd (match walkHunks s.triggersToRead count w with
        | .lookAhead last => .lookAhead last replies
        | .threw thrown last => .threw thrown last replies
        | .walked next => loop (next.onBuffer fun b => b.reset)) := by
  obtain ⟨final, reached, same, finish, here⟩ := walkHunks_reached count s w control
  cases stage : walkHunks s.triggersToRead count w with
  | walked next =>
      rw [stage] at here
      have stepped := step_walks (show final.control = .walking next 0 from here)
      obtain ⟨last, later, ended⟩ := behind (next.onBuffer fun b => b.reset) (final.walk next 0)
        same finish rfl
      exact ⟨last, reaches_trans reached (reaches_step stepped later), ended⟩
  | lookAhead last =>
      rw [stage] at here
      exact ⟨final, reached, here⟩
  | threw thrown last =>
      rw [stage] at here
      exact ⟨final, reached, here.1, _, here.2⟩

theorem markersLoop_reached (replies : List FetchReply) (s : Session) (w : Walk)
    (control : s.control = .checking w) :
    ∃ last, Reaches step s last ∧
      last.AtEnd (markersLoop s.triggersToRead s.finish replies w) := by
  induction replies generalizing s w with
  | nil =>
      apply reaches_behind (step_checks control)
      unfold check markersLoop
      cases checkFetchAlignment w.context.markersChannel w.markersToAcquire.toInt with
      | error thrown => exact ⟨_, reaches_refl _, rfl, _, rfl⟩
      | ok => exact ⟨_, reaches_refl _, rfl⟩
  | cons reply replies ih =>
      apply reaches_behind (step_checks control)
      unfold check markersLoop
      cases checkFetchAlignment w.context.markersChannel w.markersToAcquire.toInt with
      | error thrown => exact ⟨_, reaches_refl _, rfl, _, rfl⟩
      | ok =>
          apply reaches_behind (step_fetches rfl reply)
          unfold fetch
          dsimp only
          -- the answer ends the call, is asked for again, or is walked
          cases reply.error with
          | some text => exact ⟨_, reaches_refl _, rfl, _, rfl⟩
          | none =>
              dsimp only
              split
              · exact ⟨_, reaches_refl _, rfl, _, rfl⟩
              · split
                · exact ih _ (w.fetched reply) rfl
                · apply walked_reached (markersLoop s.triggersToRead s.finish replies) replies rfl
                  intro next final same finish here
                  have onward := ih final next here
                  rwa [same, finish] at onward

/-- Every call of `acquire` is a run of these statements, with the markers buffer it leaves. -/
theorem walkMarkers_reached (s : Session) {c : CstZs1Context} (control : s.control = .idle c)
    (call : AcquireCall) (markers : List FetchReply) :
    ∃ last, Reaches step s last ∧ last.AtEnd (c.walkMarkers call markers) := by
  apply reaches_behind (step_calls control call.triggersToRead call.deadline)
  unfold enter CstZs1Context.walkMarkers
  dsimp only
  split
  · exact ⟨_, reaches_refl _, rfl, _, rfl⟩
  · apply walked_reached (markersLoop call.triggersToRead call.deadline markers) markers rfl
    intro next final same finish here
    have onward := markersLoop_reached markers final next here
    rwa [same, finish] at onward

end Session
end AqMD3.Acquisition
