import AqMD3.CallSequence
import AqMD3.CstContext

/-!
The calls of a loop that looks at the clock behind each of them. A loop that heeds it
makes no call behind a late one, and ends.
-/

namespace AqMD3.LateCalls

variable {Call : Type} {late : Call → Prop} {ended : Prop}

/-- A late call is the last one, and the loop has ended. -/
def StopsLate (late : Call → Prop) (ended : Prop) (calls : List Call) : Prop :=
  ∀ before call after, calls = before ++ call :: after → late call → after = [] ∧ ended

theorem stopsLate_nil : StopsLate late ended [] := by
  intro before call after split
  exact absurd split (by simp)

theorem stopsLate_cons (call : Call) (rest : List Call) :
    StopsLate late ended (call :: rest) ↔
      (late call → rest = [] ∧ ended) ∧ StopsLate late ended rest := by
  constructor
  · intro stops
    refine ⟨stops [] call rest rfl, fun before other after split tardy => ?_⟩
    exact stops (call :: before) other after (by rw [split, List.cons_append]) tardy
  · rintro ⟨here, later⟩ before other after split tardy
    cases before with
    | nil =>
        cases split
        exact here tardy
    | cons first front =>
        obtain ⟨rfl, tail⟩ := List.cons.inj split
        exact later front other after tail tardy

theorem stopsLate_behind {front : List Call} (timely : ∀ call ∈ front, ¬ late call)
    (rest : List Call) : StopsLate late ended (front ++ rest) ↔ StopsLate late ended rest := by
  induction front with
  | nil => rfl
  | cons call front ih =>
      have tail := ih fun other member => timely other (List.mem_cons_of_mem call member)
      rw [List.cons_append, stopsLate_cons, tail]
      exact and_iff_right fun tardy => absurd tardy (timely call List.mem_cons_self)

theorem stopsLate_timely {calls : List Call} (timely : ∀ call ∈ calls, ¬ late call) :
    StopsLate late ended calls := by
  have stops := (@stopsLate_behind Call late ended calls timely []).mpr stopsLate_nil
  rwa [List.append_nil] at stops

theorem stopsLate_last {front : List Call} (timely : ∀ call ∈ front, ¬ late call) (call : Call)
    (ends : ended) : StopsLate late ended (front ++ [call]) := by
  rw [stopsLate_behind timely, stopsLate_cons]
  exact ⟨fun _ => ⟨rfl, ends⟩, stopsLate_nil⟩

end AqMD3.LateCalls

/-!
The timeout of an `acquire` against a driver that may answer for ever. Three of the four
fetch loops look at the clock behind each fetch. The samples loop of zero-suppressed
acquisition does not: it goes on for as long as elements are outstanding.
-/

namespace AqMD3.Acquisition

open LateCalls

/-- A fetch that returned past the deadline. -/
def Late (finish : Int) (call : FetchCall) : Prop := finish < call.reply.now

/-- Every answer a driver will give, on either stream. -/
structure Driver where
  markers : Nat → FetchReply
  samples : Nat → FetchReply

def answers (replies : Nat → FetchReply) (count : Nat) : List FetchReply :=
  (List.range count).map replies

theorem answers_mem {replies : Nat → FetchReply} {index count : Nat} (order : index < count) :
    replies index ∈ answers replies count :=
  List.mem_map.mpr ⟨index, List.mem_range.mpr order, rfl⟩

/-- What the deadline asks of a call, given its fetches and whether it has ended, for any
number of answers: it heeds a late fetch, and a clock that passes the deadline ends it. -/
structure KeepsDeadline (finish : Int) (driver : Driver) (fetches : Nat → Nat → List FetchCall)
    (ended : Nat → Nat → Prop) : Prop where
  stops : ∀ m n, StopsLate (Late finish) (ended m n) (fetches m n)
  ends : (∃ index, finish < (driver.markers index).now) →
    (∃ index, finish < (driver.samples index).now) → ∃ m n, ended m n

section Zs1

/-- How a markers loop leaves its fetches, when those before it were in time. -/
def MarkersEnd.Timely (finish : Int) (replies : List FetchReply) : MarkersEnd → Prop
  | .lookAhead w _ => ∀ call ∈ w.fetches, ¬ Late finish call
  | .waiting w =>
      (∀ call ∈ w.fetches, ¬ Late finish call) ∧ ∀ reply ∈ replies, ¬ finish < reply.now
  | .threw _ w _ => StopsLate (Late finish) True w.fetches

theorem MarkersEnd.timely_cons {finish : Int} {reply : FetchReply} {replies : List FetchReply}
    {ending : MarkersEnd} (here : ¬ finish < reply.now) (later : ending.Timely finish replies) :
    ending.Timely finish (reply :: replies) := by
  cases ending with
  | lookAhead w rest => exact later
  | threw thrown w rest => exact later
  | waiting w => exact ⟨later.1, List.forall_mem_cons.mpr ⟨here, later.2⟩⟩

theorem grown_fetches (w : Walk) (triggersToRead : UInt64) (reply : FetchReply) :
    ((w.grown triggersToRead reply.available).advanced reply).fetches = w.fetches := by
  unfold Walk.grown
  split
  · rfl
  · rfl

theorem markersLoop_timely (triggersToRead : UInt64) (finish : Int) (replies : List FetchReply)
    (w : Walk) (timely : ∀ call ∈ w.fetches, ¬ Late finish call) :
    (markersLoop triggersToRead (some finish) replies w).Timely finish replies := by
  induction replies generalizing w with
  | nil =>
      unfold markersLoop
      split
      · exact stopsLate_timely timely
      · exact ⟨timely, fun reply member => absurd member List.not_mem_nil⟩
  | cons reply replies ih =>
      unfold markersLoop
      split
      · exact stopsLate_timely timely
      · cases failed : reply.error with
        | some text => exact stopsLate_last timely _ trivial
        | none =>
            simp only [Option.any_some]
            by_cases tardy : finish < reply.now
            · rw [if_pos (decide_eq_true tardy)]
              exact stopsLate_last timely _ trivial
            · rw [if_neg (by simpa using tardy)]
              have all : ∀ call ∈ (w.fetched reply).fetches, ¬ Late finish call :=
                List.forall_mem_append.mpr ⟨timely, List.forall_mem_singleton.mpr tardy⟩
              by_cases nothing : reply.elements.length = 0
              · rw [if_pos nothing]
                exact MarkersEnd.timely_cons tardy (ih _ all)
              · rw [if_neg nothing]
                have kept := walkHunks_fetches triggersToRead (reply.elements.length / 16)
                  (((w.fetched reply).grown triggersToRead reply.available).advanced reply)
                rw [grown_fetches] at kept
                rw [← kept] at all
                split
                · rename_i last stage
                  rw [stage] at all
                  exact all
                · rename_i thrown last stage
                  rw [stage] at all
                  exact stopsLate_timely all
                · rename_i next stage
                  rw [stage] at all
                  exact MarkersEnd.timely_cons tardy (ih _ all)

theorem walkMarkers_timely (c : CstZs1Context) (call : AcquireCall) (finish : Int)
    (deadline : call.deadline = some finish) (markers : List FetchReply) :
    (c.walkMarkers call markers).Timely finish markers := by
  have none : ∀ one ∈ (Walk.begin c call.triggersToRead).fetches, ¬ Late finish one :=
    fun one member => absurd member List.not_mem_nil
  unfold CstZs1Context.walkMarkers
  simp only [deadline]
  split
  · exact stopsLate_timely none
  · have kept := walkHunks_fetches call.triggersToRead
      (c.markersBuffer.getUnprocessed.toInt.tdiv 16).toNat (Walk.begin c call.triggersToRead)
    rw [← kept] at none
    split
    · rename_i last stage
      rw [stage] at none
      exact none
    · rename_i thrown last stage
      rw [stage] at none
      exact stopsLate_timely none
    · rename_i next stage
      rw [stage] at none
      exact markersLoop_timely _ _ _ _ none

/-- The samples loop goes on: elements are outstanding, and the request for them passes. -/
def Asks (toAcquire fetched : UInt64) : Prop :=
  fetched < toAcquire ∧ Aligned (toAcquire - fetched).toInt64.toInt

/-- No samples fetch that is made comes back late with the loop going on behind it. -/
def KeepsUp (finish : Int) (toAcquire : UInt64) : List FetchReply → UInt64 → Prop
  | [], _ => True
  | reply :: replies, fetched =>
      Asks toAcquire fetched → reply.error = none →
        (finish < reply.now → ¬ Asks toAcquire (fetched + UInt64.ofNat reply.elements.length)) ∧
          KeepsUp finish toAcquire replies (fetched + UInt64.ofNat reply.elements.length)

section Loop

variable (samplesChannel : String) {toAcquire fetched : UInt64} (b : AcquisitionBuffer)

theorem samplesLoop_done (replies : List FetchReply) (done : ¬ Asks toAcquire fetched) :
    (samplesLoop samplesChannel toAcquire replies fetched b).fetches = [] ∧
      (samplesLoop samplesChannel toAcquire replies fetched b).ending ≠ .waiting := by
  by_cases outstanding : fetched < toAcquire
  · have refused : checkFetchAlignment samplesChannel (toAcquire - fetched).toInt64.toInt =
        .error (.exception (refusal samplesChannel (toAcquire - fetched).toInt64.toInt)) :=
      if_neg fun aligned => done ⟨outstanding, aligned⟩
    cases replies with
    | nil =>
        simp only [samplesLoop, if_pos outstanding, refused]
        exact ⟨trivial, fun ended => by cases ended⟩
    | cons reply rest =>
        simp only [samplesLoop, if_pos outstanding, refused]
        exact ⟨trivial, fun ended => by cases ended⟩
  · cases replies with
    | nil =>
        simp only [samplesLoop, if_neg outstanding]
        exact ⟨trivial, fun ended => by cases ended⟩
    | cons reply rest =>
        simp only [samplesLoop, if_neg outstanding]
        exact ⟨trivial, fun ended => by cases ended⟩

theorem samplesLoop_waits (asks : Asks toAcquire fetched) :
    samplesLoop samplesChannel toAcquire [] fetched b = ⟨b, .waiting, [], []⟩ := by
  have passes : checkFetchAlignment samplesChannel (toAcquire - fetched).toInt64.toInt = .ok () :=
    if_pos asks.2
  simp only [samplesLoop, if_pos asks.1, passes]

theorem samplesLoop_fetches (asks : Asks toAcquire fetched) (reply : FetchReply)
    (rest : List FetchReply) : samplesLoop samplesChannel toAcquire (reply :: rest) fetched b =
      match reply.error with
      | some text => ⟨b, .threw (.exception text), [⟨.samples, (toAcquire - fetched).toInt64.toInt,
          b.getAvailable.toInt, reply⟩], rest⟩
      | none => (samplesLoop samplesChannel toAcquire rest
          (fetched + UInt64.ofNat reply.elements.length) (fillSamples b reply)).after
            ⟨.samples, (toAcquire - fetched).toInt64.toInt, b.getAvailable.toInt, reply⟩ := by
  have passes : checkFetchAlignment samplesChannel (toAcquire - fetched).toInt64.toInt = .ok () :=
    if_pos asks.2
  cases failed : reply.error with
  | some text => simp only [samplesLoop, if_pos asks.1, passes, failed]
  | none => simp only [samplesLoop, if_pos asks.1, passes, failed]

theorem samplesLoop_done_iff (replies : List FetchReply) :
    ((samplesLoop samplesChannel toAcquire replies fetched b).fetches = [] ∧
        (samplesLoop samplesChannel toAcquire replies fetched b).ending ≠ .waiting) ↔
      ¬ Asks toAcquire fetched := by
  constructor
  · rintro ⟨nothing, ended⟩ more
    cases replies with
    | nil =>
        rw [samplesLoop_waits samplesChannel b more] at ended
        exact ended rfl
    | cons next others =>
        rw [samplesLoop_fetches samplesChannel b more] at nothing
        cases error : next.error with
        | some text => simp [error] at nothing
        | none => simp [error, SamplesResult.after] at nothing
  · exact samplesLoop_done samplesChannel b replies

end Loop

/-- The samples loop heeds the deadline exactly where it keeps up. -/
theorem samplesLoop_stops_iff (samplesChannel : String) (finish : Int) (toAcquire : UInt64)
    (replies : List FetchReply) (fetched : UInt64) (b : AcquisitionBuffer) :
    StopsLate (Late finish)
        ((samplesLoop samplesChannel toAcquire replies fetched b).ending ≠ .waiting)
        (samplesLoop samplesChannel toAcquire replies fetched b).fetches ↔
      KeepsUp finish toAcquire replies fetched := by
  induction replies generalizing fetched b with
  | nil =>
      have nothing : (samplesLoop samplesChannel toAcquire [] fetched b).fetches = [] := by
        by_cases asks : Asks toAcquire fetched
        · rw [samplesLoop_waits samplesChannel b asks]
        · exact (samplesLoop_done samplesChannel b [] asks).1
      rw [nothing]
      exact iff_of_true stopsLate_nil trivial
  | cons reply rest ih =>
      by_cases asks : Asks toAcquire fetched
      · rw [samplesLoop_fetches samplesChannel b asks]
        cases failed : reply.error with
        | some text =>
            refine iff_of_true ?_ fun _ fine => ?_
            · exact @stopsLate_last FetchCall _ _ [] (fun call member => absurd member List.not_mem_nil) _ nofun
            · rw [failed] at fine
              cases fine
        | none =>
            -- A late answer must be the last: the loop behind it asks for nothing.
            have later := ih (fetched + UInt64.ofNat reply.elements.length) (fillSamples b reply)
            simp only [SamplesResult.after, KeepsUp]
            rw [stopsLate_cons, later, samplesLoop_done_iff]
            exact ⟨fun kept _ _ => kept, fun kept => kept asks failed⟩
      · refine iff_of_true ?_ fun more => absurd more asks
        rw [(samplesLoop_done samplesChannel b (reply :: rest) asks).1]
        exact stopsLate_nil

theorem samplesLoop_waiting (samplesChannel : String) (finish : Int) (toAcquire : UInt64)
    (replies : List FetchReply) (fetched : UInt64) (b : AcquisitionBuffer)
    (keeps : KeepsUp finish toAcquire replies fetched)
    (waits : (samplesLoop samplesChannel toAcquire replies fetched b).ending = .waiting) :
    ∀ reply ∈ replies, ¬ finish < reply.now := by
  induction replies generalizing fetched b with
  | nil => exact fun reply member => absurd member List.not_mem_nil
  | cons reply rest ih =>
      by_cases asks : Asks toAcquire fetched
      · rw [samplesLoop_fetches samplesChannel b asks] at waits
        cases failed : reply.error with
        | some text => simp [failed] at waits
        | none =>
            simp only [failed, SamplesResult.after] at waits
            obtain ⟨heeds, later⟩ := keeps asks failed
            intro one member
            rcases List.mem_cons.mp member with rfl | inside
            · intro tardy
              exact (samplesLoop_done samplesChannel _ rest (heeds tardy)).2 waits
            · exact ih _ _ later waits one inside
      · exact absurd waits (samplesLoop_done samplesChannel b (reply :: rest) asks).2

end Zs1

section Cst

def CstMarkersEnd.Timely (finish : Int) (replies : List FetchReply) : CstMarkersEnd → Prop
  | .collected w _ => ∀ call ∈ w.fetches, ¬ Late finish call
  | .waiting w =>
      (∀ call ∈ w.fetches, ¬ Late finish call) ∧ ∀ reply ∈ replies, ¬ finish < reply.now
  | .threw _ w _ => StopsLate (Late finish) True w.fetches

theorem CstMarkersEnd.timely_cons {finish : Int} {reply : FetchReply} {replies : List FetchReply}
    {ending : CstMarkersEnd} (here : ¬ finish < reply.now)
    (later : ending.Timely finish replies) : ending.Timely finish (reply :: replies) := by
  cases ending with
  | collected w rest => exact later
  | threw thrown w rest => exact later
  | waiting w => exact ⟨later.1, List.forall_mem_cons.mpr ⟨here, later.2⟩⟩

theorem cstMarkersLoop_timely (c : CstContext) (triggersToRead : UInt64) (finish : Int)
    (replies : List FetchReply) (w : CstWalk) (timely : ∀ call ∈ w.fetches, ¬ Late finish call) :
    (c.markersLoop triggersToRead (some finish) replies w).Timely finish replies := by
  induction replies generalizing w with
  | nil =>
      unfold CstContext.markersLoop
      split
      · split
        · exact stopsLate_timely timely
        · exact ⟨timely, fun reply member => absurd member List.not_mem_nil⟩
      · exact timely
  | cons reply replies ih =>
      unfold CstContext.markersLoop
      split
      · simp only
        split
        · exact stopsLate_timely timely
        · have kept := (scanned_kept
            (w.fetched (CstContext.markersRequest triggersToRead w.available) reply)
            triggersToRead reply).1
          cases failed : reply.error with
          | some text => exact stopsLate_last timely _ trivial
          | none =>
              simp only [Option.any_some]
              by_cases tardy : finish < reply.now
              · rw [if_pos (decide_eq_true tardy)]
                rw [CstMarkersEnd.Timely, kept]
                exact stopsLate_last timely _ trivial
              · rw [if_neg (by simpa using tardy)]
                apply CstMarkersEnd.timely_cons tardy
                apply ih
                rw [kept]
                exact List.forall_mem_append.mpr ⟨timely, List.forall_mem_singleton.mpr tardy⟩
      · exact timely

theorem cstSamplesLoop_stops (elementsToAcquire finish : Int) (replies : List FetchReply)
    (b : AcquisitionBuffer) :
    StopsLate (Late finish)
        ((CstContext.samplesLoop elementsToAcquire (some finish) replies b).ending ≠ .waiting)
        (CstContext.samplesLoop elementsToAcquire (some finish) replies b).fetches ∧
      ((CstContext.samplesLoop elementsToAcquire (some finish) replies b).ending = .waiting →
        ∀ reply ∈ replies, ¬ finish < reply.now) := by
  induction replies generalizing b with
  | nil => exact ⟨stopsLate_nil, fun _ reply member => absurd member List.not_mem_nil⟩
  | cons reply rest ih =>
      -- A call that is the last one may be late.
      have last (call : FetchCall) (ended : Prop) (ends : ended) :
          StopsLate (Late finish) ended [call] :=
        (stopsLate_cons call []).mpr ⟨fun _ => ⟨rfl, ends⟩, stopsLate_nil⟩
      unfold CstContext.samplesLoop
      cases failed : reply.error with
      | some text => exact ⟨last _ _ nofun, nofun⟩
      | none =>
          simp only [Option.any_some]
          by_cases tardy : finish < reply.now
          · rw [if_pos (decide_eq_true tardy)]
            exact ⟨last _ _ nofun, nofun⟩
          · rw [if_neg (by simpa using tardy)]
            split
            · obtain ⟨stops, waits⟩ := ih (b.store (b.getRawUnaquired + reply.first) reply.elements)
              refine ⟨(stopsLate_cons _ _).mpr ⟨fun late => absurd late tardy, stops⟩, ?_⟩
              intro waiting one member
              rcases List.mem_cons.mp member with rfl | inside
              · exact tardy
              · exact waits waiting one inside
            · exact ⟨last _ _ nofun, nofun⟩

end Cst

/-- A call against so many of a driver's answers on each stream. -/
def CstContext.against (c : CstContext) (call : AcquireCall) (driver : Driver) (m n : Nat) : CstResult :=
  c.acquire { call with samples := answers driver.samples n } (answers driver.markers m)

def CstZs1Context.against (c : CstZs1Context) (call : AcquireCall) (driver : Driver) (m n : Nat) :
    AcquireResult :=
  c.acquire { call with samples := answers driver.samples n } (answers driver.markers m)

section CstCall

variable (c : CstContext) (call : AcquireCall) (driver : Driver)

theorem cstMarkers_timely (finish : Int) (m : Nat) :
    (c.markersLoop call.triggersToRead (some finish) (answers driver.markers m)
      (.begin call.triggersToRead)).Timely finish (answers driver.markers m) :=
  cstMarkersLoop_timely c call.triggersToRead finish (answers driver.markers m)
    (.begin call.triggersToRead) fun _ member => absurd member List.not_mem_nil

variable {finish : Int} (deadline : call.deadline = some finish)

include deadline

theorem cst_stops (m n : Nat) :
    StopsLate (Late finish) ((c.against call driver m n).ending ≠ .waiting)
      (c.against call driver m n).fetches := by
  have markers := cstMarkers_timely c call driver finish m
  have sampled := cstSamplesLoop_stops
    (CstContext.elementsToAcquire call.triggersToRead call.samplesBuffer.samplesPerTrigger) finish
    (answers driver.samples n) call.samplesBuffer
  have same : AcquireCall.deadline { call with samples := answers driver.samples n } = some finish :=
    deadline
  simp only [CstContext.against, CstContext.acquire, same]
  cases walked : c.markersLoop call.triggersToRead (some finish) (answers driver.markers m)
      (.begin call.triggersToRead) with
  | threw thrown w rest =>
      rw [walked] at markers
      intro before late after split tardy
      exact ⟨(markers before late after split tardy).1, nofun⟩
  | waiting w =>
      rw [walked] at markers
      exact stopsLate_timely markers.1
  | collected w rest =>
      rw [walked] at markers
      simp only [CstContext.fetchSamples, same]
      split
      · -- The request for the samples is refused before any is fetched.
        exact stopsLate_timely markers
      · refine (stopsLate_behind markers _).mpr ?_
        intro before late after split tardy
        obtain ⟨alone, ended⟩ := sampled.1 before late after split tardy
        refine ⟨alone, fun waits => ended ?_⟩
        revert waits
        simp only
        split
        · exact nofun
        · exact nofun
        · rename_i waiting
          exact fun _ => waiting

theorem cst_ends (i j : Nat) (pastMarkers : finish < (driver.markers i).now)
    (pastSamples : finish < (driver.samples j).now) :
    (c.against call driver (i + 1) (j + 1)).ending ≠ .waiting := by
  have markers := cstMarkers_timely c call driver finish (i + 1)
  have sampled := cstSamplesLoop_stops
    (CstContext.elementsToAcquire call.triggersToRead call.samplesBuffer.samplesPerTrigger) finish
    (answers driver.samples (j + 1)) call.samplesBuffer
  have same : AcquireCall.deadline { call with samples := answers driver.samples (j + 1) } =
      some finish := deadline
  simp only [CstContext.against, CstContext.acquire, same]
  cases walked : c.markersLoop call.triggersToRead (some finish) (answers driver.markers (i + 1))
      (.begin call.triggersToRead) with
  | threw thrown w rest => exact nofun
  | waiting w =>
      rw [walked] at markers
      exact absurd pastMarkers (markers.2 _ (answers_mem (Nat.lt_succ_self i)))
  | collected w rest =>
      simp only [CstContext.fetchSamples, same]
      split
      · exact nofun
      · split
        · exact nofun
        · exact nofun
        · rename_i waiting
          exact absurd pastSamples (sampled.2 waiting _ (answers_mem (Nat.lt_succ_self j)))

theorem cst_keeps_deadline :
    KeepsDeadline finish driver (fun m n => (c.against call driver m n).fetches)
      (fun m n => (c.against call driver m n).ending ≠ .waiting) where
  stops := cst_stops c call driver deadline
  ends := by
    rintro ⟨i, pastMarkers⟩ ⟨j, pastSamples⟩
    exact ⟨i + 1, j + 1, cst_ends c call driver deadline i j pastMarkers pastSamples⟩

end CstCall

/-- No samples fetch of the call comes back late with the samples loop going on behind it. -/
def SamplesKeepUp (c : CstZs1Context) (call : AcquireCall) (driver : Driver) (finish : Int) : Prop :=
  ∀ m n w rest, c.walkMarkers call (answers driver.markers m) = .lookAhead w rest →
    KeepsUp finish w.toAcquire (answers driver.samples n) 0

/-- The samples the call fetches behind markers that were walked to the end. -/
def samplesBehind (call : AcquireCall) (driver : Driver) (n : Nat) (w : Walk) : SamplesResult :=
  samplesLoop w.context.samplesChannel w.toAcquire (answers driver.samples n) 0 call.samplesBuffer

section Zs1Call

variable (c : CstZs1Context) (call : AcquireCall) (driver : Driver)

-- The markers are walked alike whatever is known of the samples.
theorem walkMarkers_samples (samples : List FetchReply) (m : Nat) :
    c.walkMarkers { call with samples := samples } (answers driver.markers m) =
      c.walkMarkers call (answers driver.markers m) := rfl

theorem against_lookAhead {m : Nat} (n : Nat) {w : Walk} {rest : List FetchReply}
    (caught : c.walkMarkers call (answers driver.markers m) = .lookAhead w rest) :
    ((c.against call driver m n).ending ≠ .waiting ↔
        (samplesBehind call driver n w).ending ≠ .waiting) ∧
      (c.against call driver m n).fetches = w.fetches ++ (samplesBehind call driver n w).fetches := by
  simp only [samplesBehind, CstZs1Context.against, CstZs1Context.acquire, walkMarkers_samples, caught,
    processLabel, and_true]
  split
  · rename_i returned
    rw [returned]
    exact iff_of_true (fun ended => by cases ended) (fun ended => by cases ended)
  · rename_i thrown threw
    rw [threw]
    exact iff_of_true (fun ended => by cases ended) (fun ended => by cases ended)
  · rename_i waits
    rw [waits]
    exact iff_of_false (fun ended => ended rfl) (fun ended => ended rfl)

variable {finish : Int} (deadline : call.deadline = some finish)

include deadline

theorem zs1_stops (keeps : SamplesKeepUp c call driver finish) (m n : Nat) :
    StopsLate (Late finish) ((c.against call driver m n).ending ≠ .waiting)
      (c.against call driver m n).fetches := by
  have markers := walkMarkers_timely c call finish deadline (answers driver.markers m)
  cases walked : c.walkMarkers call (answers driver.markers m) with
  | threw thrown w rest =>
      rw [walked] at markers
      simp only [CstZs1Context.against, CstZs1Context.acquire, walkMarkers_samples, walked]
      intro before late after split tardy
      exact ⟨(markers before late after split tardy).1, fun waits => by cases waits⟩
  | waiting w =>
      rw [walked] at markers
      simp only [CstZs1Context.against, CstZs1Context.acquire, walkMarkers_samples, walked]
      exact stopsLate_timely markers.1
  | lookAhead w rest =>
      rw [walked] at markers
      obtain ⟨ended, fetches⟩ := against_lookAhead c call driver n walked
      simp only [ended, fetches]
      apply (stopsLate_behind markers _).mpr
      exact (samplesLoop_stops_iff _ _ _ _ _ _).mpr (keeps m n w rest walked)

theorem zs1_ends (keeps : SamplesKeepUp c call driver finish) (i j : Nat)
    (pastMarkers : finish < (driver.markers i).now) (pastSamples : finish < (driver.samples j).now) :
    (c.against call driver (i + 1) (j + 1)).ending ≠ .waiting := by
  have markers := walkMarkers_timely c call finish deadline (answers driver.markers (i + 1))
  cases walked : c.walkMarkers call (answers driver.markers (i + 1)) with
  | threw thrown w rest =>
      simp only [CstZs1Context.against, CstZs1Context.acquire, walkMarkers_samples, walked]
      exact fun waits => by cases waits
  | waiting w =>
      rw [walked] at markers
      exact absurd pastMarkers (markers.2 _ (answers_mem (Nat.lt_succ_self i)))
  | lookAhead w rest =>
      apply (against_lookAhead c call driver (j + 1) walked).1.mpr
      intro waits
      exact absurd pastSamples (samplesLoop_waiting _ _ _ _ _ _
        (keeps (i + 1) (j + 1) w rest walked) waits _ (answers_mem (Nat.lt_succ_self j)))

theorem zs1_keeps_deadline_iff :
    KeepsDeadline finish driver (fun m n => (c.against call driver m n).fetches)
        (fun m n => (c.against call driver m n).ending ≠ .waiting) ↔
      SamplesKeepUp c call driver finish := by
  constructor
  · intro kept m n w rest caught
    have markers := walkMarkers_timely c call finish deadline (answers driver.markers m)
    rw [caught] at markers
    obtain ⟨ended, fetches⟩ := against_lookAhead c call driver n caught
    have stops := kept.stops m n
    simp only [ended, fetches] at stops
    exact (samplesLoop_stops_iff _ _ _ _ _ _).mp ((stopsLate_behind markers _).mp stops)
  · intro keeps
    constructor
    · exact zs1_stops c call driver deadline keeps
    · rintro ⟨i, pastMarkers⟩ ⟨j, pastSamples⟩
      exact ⟨i + 1, j + 1, zs1_ends c call driver deadline keeps i j pastMarkers pastSamples⟩

end Zs1Call

/-- The deadline of a call with a timeout, whatever the driver answers and when: one
context always keeps it, the other where its samples keep up. -/
theorem deadlines_kept (cst : CstContext) (zs1 : CstZs1Context) (call : AcquireCall) (driver : Driver)
    (timed : call.timeoutMs ≠ 0) :
    KeepsDeadline (call.now + call.timeoutMs) driver (fun m n => (cst.against call driver m n).fetches)
        (fun m n => (cst.against call driver m n).ending ≠ .waiting) ∧
      (KeepsDeadline (call.now + call.timeoutMs) driver
          (fun m n => (zs1.against call driver m n).fetches)
          (fun m n => (zs1.against call driver m n).ending ≠ .waiting) ↔
        SamplesKeepUp zs1 call driver (call.now + call.timeoutMs)) := by
  have deadline : call.deadline = some (call.now + call.timeoutMs) := if_neg timed
  exact ⟨cst_keeps_deadline cst call driver deadline, zs1_keeps_deadline_iff zs1 call driver deadline⟩

/-- One trigger with one gate, in time; then samples fetches that bring nothing, each one
later than the last. -/
def stalledSamples : Driver where
  markers index := if index = 0 then answered 0 0 [triggerHunk 5, gateHunk 2 4, triggerHunk 6] else
    answered 0 0 []
  samples index := ⟨none, 0, 0, [], 20 + 10 * index⟩

def timedCall : AcquireCall := ⟨1, 10, 0, .ofSize 64, []⟩

def zs1Context : CstZs1Context := (CstZs1Context.create "Channel1" 4).start

theorem deadlines_kept_stalled :
    KeepsDeadline (timedCall.now + timedCall.timeoutMs) stalledSamples
        (fun m n => ((CstContext.create "Channel1").against timedCall stalledSamples m n).fetches)
        (fun m n => ((CstContext.create "Channel1").against timedCall stalledSamples m n).ending ≠
          .waiting) ∧
      (KeepsDeadline (timedCall.now + timedCall.timeoutMs) stalledSamples
          (fun m n => (zs1Context.against timedCall stalledSamples m n).fetches)
          (fun m n => (zs1Context.against timedCall stalledSamples m n).ending ≠ .waiting) ↔
        SamplesKeepUp zs1Context timedCall stalledSamples (timedCall.now + timedCall.timeoutMs)) :=
  deadlines_kept (CstContext.create "Channel1") zs1Context timedCall stalledSamples (by decide)

/-- A clock that does not go back: from the call over its markers to its samples. -/
structure Driver.NeverBack (driver : Driver) (start : Int) : Prop where
  markers : ∀ i j, i ≤ j → (driver.markers i).now ≤ (driver.markers j).now
  samples : ∀ i j, i ≤ j → (driver.samples i).now ≤ (driver.samples j).now
  between : ∀ i j, start ≤ (driver.markers i).now ∧ (driver.markers i).now ≤ (driver.samples j).now

theorem stalledSamples_neverBack : stalledSamples.NeverBack timedCall.now := by
  have clock (index : Nat) : (stalledSamples.markers index).now = 0 := by
    simp only [stalledSamples]
    split <;> rfl
  constructor
  case markers => exact fun i j _ => Int.le_of_eq ((clock i).trans (clock j).symm)
  case samples =>
    intro i j order
    simp only [stalledSamples]
    omega
  case between =>
    intro i j
    rw [clock]
    exact ⟨Int.le_refl 0, by simp only [stalledSamples]; omega⟩

/-- Behind the samples fetch that returns at 20, past the deadline at 10, comes another one. -/
theorem deadlines_missed :
    ¬ ∀ (cst : CstContext) (zs1 : CstZs1Context) (call : AcquireCall) (driver : Driver),
      call.timeoutMs ≠ 0 → driver.NeverBack call.now →
      KeepsDeadline (call.now + call.timeoutMs) driver
          (fun m n => (cst.against call driver m n).fetches)
          (fun m n => (cst.against call driver m n).ending ≠ .waiting) ∧
        KeepsDeadline (call.now + call.timeoutMs) driver
          (fun m n => (zs1.against call driver m n).fetches)
          (fun m n => (zs1.against call driver m n).ending ≠ .waiting) := by
  intro kept
  have stops := (kept (CstContext.create "Channel1") zs1Context timedCall stalledSamples
    (by decide) stalledSamples_neverBack).2.stops 1 2
  have fetches : (zs1Context.against timedCall stalledSamples 1 2).fetches =
      [⟨.markers, 16, 527, stalledSamples.markers 0⟩] ++
        ⟨.samples, 16, 64, stalledSamples.samples 0⟩ ::
          [⟨.samples, 16, 64, stalledSamples.samples 1⟩] := by decide +kernel
  exact absurd (stops _ _ _ fetches (by unfold Late; decide +kernel)).1 nofun

end AqMD3.Acquisition
