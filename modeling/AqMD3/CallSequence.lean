import AqMD3.ServedStream
import AqMD3.SamplesFetch

/-!
Successive `acquire` calls of one frame over a served stream. Every call takes
the next triggers of the stream's reference parse, wherever the fetches cut the
stream and whatever the calls before it left in the markers buffer.
-/

namespace AqMD3.Acquisition

open FixedWidth Segments AcquisitionBuffer

/-- Between two calls: what lies unprocessed and what the driver has yet to return
are the rest of the stream. -/
structure Holds (c : CstZs1Context) (markers : List FetchReply) (left : List Hunk) : Prop where
  sound : Sound c.markersBuffer
  whole : 16 ∣ (pending c.markersBuffer).length
  stream : pending c.markersBuffer ++ markers.flatMap FetchReply.elements = flat left
  size : c.markersBuffer.data.length < 2 ^ 31

theorem empty_holds (c : CstZs1Context) (markers : List FetchReply) (hunks : List Hunk)
    (empty : Empty c.markersBuffer) (size : c.markersBuffer.data.length < 2 ^ 31)
    (stream : markers.flatMap FetchReply.elements = flat hunks) : Holds c markers hunks where
  sound := empty_sound empty
  whole := by
    rw [empty_pending empty]
    exact Nat.dvd_zero 16
  stream := by rw [empty_pending empty, List.nil_append, stream]
  size := size

/-- The samples side of a call, served: whole hunks that add up to the elements of
the gates the call returns, which fit its samples buffer. -/
structure SamplesServed (call : AcquireCall) (total : UInt64) : Prop where
  succeeded : ∀ reply ∈ call.samples, reply.error = none
  whole : ∀ reply ∈ call.samples, 16 ∣ reply.elements.length
  complete : (call.samples.flatMap FetchReply.elements).length = total.toNat
  fits : (total.toNat : Int) ≤ call.samplesBuffer.getAvailable.toInt

theorem walkMarkers_served (c : CstZs1Context) (call : AcquireCall) (markers : List FetchReply)
    (hunks : List Hunk) (holds : Holds c markers hunks) (askable : Askable call.triggersToRead)
    (kinds : ∀ h ∈ hunks, h.isTrigger = true ∨ h.isGate = true) (fresh : NoReplay c hunks)
    (enough : call.triggersToRead.toNat < hunks.countP Hunk.isTrigger)
    (fed : Fed call.deadline (c.walkMarkers call markers).walk.fetches) :
    ∃ before t after later last rest,
      hunks = before ++ t :: (after ++ later) ∧ t.isTrigger = true ∧
      c.walkMarkers call markers = .lookAhead last rest ∧
      Caught c call.triggersToRead before (t :: after) last ∧
      rest.flatMap FetchReply.elements = flat later := by
  obtain ⟨held, todo, cut, block, remaining⟩ := flat_split hunks _ _ holds.stream holds.whole
  have length := flat_length held
  rw [← block] at length
  have unprocessed : c.markersBuffer.getUnprocessed.toInt = (16 * held.length : Nat) := by
    rw [unprocessed_pending holds.sound, length]
  have aligned : ¬ c.markersBuffer.getUnprocessed.toInt.tmod 16 ≠ 0 := by
    rw [unprocessed, Classical.not_not, Int.tmod_eq_emod_of_nonneg (by omega)]
    omega
  have count : (c.markersBuffer.getUnprocessed.toInt.tdiv 16).toNat = held.length := by
    rw [unprocessed, Int.tdiv_eq_ediv_of_nonneg (by omega)]
    omega
  have unfolds := walkMarkers_aligned c call markers aligned
  rw [count] at unfolds
  rw [unfolds] at fed ⊢
  rw [cut] at kinds fresh enough
  rcases walkHunks_tracks askable held todo [] _ (tracks_begin c call.triggersToRead holds.sound)
      block (fun h member => kinds h (List.mem_append_left todo member)) fresh with
    ⟨next, walked, tracked⟩ | ⟨before, t, after, last, split, trigger, caught, place⟩
  · rw [walked] at fed ⊢
    obtain ⟨before, t, after, later, last, rest, split, trigger, caught, place, tail⟩ :=
      markersLoop_tracks askable call.deadline holds.size markers todo held _
        (tracks_reset tracked) (reset_empty next.buffer) remaining
        (fun h member => kinds h (List.mem_append_right held member)) fresh enough fed
    exact ⟨held ++ before, t, after, later, last, rest, by rw [cut, split, List.append_assoc],
      trigger, caught, place, tail⟩
  · rw [caught]
    exact ⟨before, t, after, todo, last, markers, by rw [cut, split]; simp, trigger, rfl, place,
      remaining⟩

theorem acquire_walked (c : CstZs1Context) (call : AcquireCall) (markers : List FetchReply) :
    ∀ fetch ∈ (c.walkMarkers call markers).walk.fetches, fetch ∈ (c.acquire call markers).fetches := by
  intro fetch member
  unfold CstZs1Context.acquire
  cases ending : c.walkMarkers call markers with
  | lookAhead last rest =>
      rw [ending] at member
      exact List.mem_append_left _ member
  | threw thrown last rest =>
      rw [ending] at member
      exact member
  | waiting last =>
      rw [ending] at member
      exact member

/-- The look-ahead trigger is where a call's segments end and the next call's begin. -/
theorem segments_lookAhead {before : List Hunk} {t : Hunk} {count : Nat} (trigger : t.isTrigger = true)
    (taken : (Hunk.segments before).length = count) (later : List Hunk) :
    (Hunk.segments (before ++ t :: later)).take count = Hunk.segments before ∧
      (Hunk.segments (before ++ t :: later)).drop count = Hunk.segments (t :: later) := by
  have split : Hunk.segments (before ++ t :: later) =
      Hunk.segments before ++ Hunk.segments (t :: later) :=
    segments_append_mark Hunk.isTrigger Hunk.gateMarkers before later t trigger
  constructor
  · rw [split, ← taken, List.take_left]
  · rw [split, ← taken, List.drop_left]

/-- One call: it returns the stamps of the next `n` triggers and leaves the stream
at the trigger after them. -/
theorem acquire_served (c : CstZs1Context) (call : AcquireCall) (markers : List FetchReply)
    (hunks : List Hunk) (holds : Holds c markers hunks) (askable : Askable call.triggersToRead)
    (kinds : ∀ h ∈ hunks, h.isTrigger = true ∨ h.isGate = true) (fresh : NoReplay c hunks)
    (enough : call.triggersToRead.toNat < hunks.countP Hunk.isTrigger)
    (fed : Fed call.deadline (c.acquire call markers).fetches)
    (served : SamplesServed call (fetchSize
      (((Hunk.segments hunks).take call.triggersToRead.toNat).flatMap Prod.snd))) :
    ∃ data seen left, (c.acquire call markers).ending = .returned data ∧
      data.stamps = ((Hunk.segments hunks).take call.triggersToRead.toNat).map stamp ∧
      hunks = seen ++ left ∧
      Hunk.segments left = (Hunk.segments hunks).drop call.triggersToRead.toNat ∧
      Holds (c.acquire call markers).context (c.acquire call markers).markers left ∧
      (c.acquire call markers).context.frameFirstTriggerChecked = true := by
  have walked : Fed call.deadline (c.walkMarkers call markers).walk.fetches :=
    fun fetch member => fed fetch (acquire_walked c call markers fetch member)
  obtain ⟨before, t, after, later, last, rest, cut, trigger, caught, place, tail⟩ :=
    walkMarkers_served c call markers hunks holds askable kinds fresh enough walked
  have taken : (Hunk.segments before).length = call.triggersToRead.toNat :=
    (segments_length Hunk.isTrigger Hunk.gateMarkers before).trans place.full
  obtain ⟨front, back⟩ := segments_lookAhead trigger taken (after ++ later)
  rw [← cut] at front back
  rw [front, ← place.parsed.toAcquire] at served
  have bound := int32_bounds call.samplesBuffer.getAvailable
  have fits := served.fits
  obtain ⟨made, unmade, calls, _, _, _, _, ends⟩ :=
    samplesLoop_returns last.context.samplesChannel last.toAcquire (by omega) call.samples 0
      call.samplesBuffer served.succeeded served.whole
      (by rw [served.complete, UInt64.toNat_zero, Nat.zero_add])
  have result : c.acquire call markers = processLabel last call.samplesBuffer rest call.samples := by
    simp only [CstZs1Context.acquire, caught]
  rw [result, processLabel, ends]
  refine ⟨_, before, t :: (after ++ later), rfl, ?_, cut, back.symm, ?_, ?_⟩
  · rw [front]
    exact place.parsed.stamps
  · refine ⟨place.sound, ?_, ?_, ?_⟩
    · change 16 ∣ (pending last.buffer).length
      rw [place.held, flat_length]
      exact Nat.dvd_mul_right 16 _
    · change pending last.buffer ++ _ = _
      rw [place.held, tail, ← flat_append, List.cons_append]
    · exact place.size.trans_lt holds.size
  · refine place.checked.mpr (Or.inr ?_)
    rw [place.full]
    exact askable.positive

/-- The samples of every call, served against the triggers the call takes. -/
def Supplied : List AcquireCall → List (Hunk × List GateMarker) → Prop
  | [], _ => True
  | call :: calls, segments =>
      SamplesServed call (fetchSize ((segments.take call.triggersToRead.toNat).flatMap Prod.snd)) ∧
        Supplied calls (segments.drop call.triggersToRead.toNat)

/-- Every markers fetch the calls make is served in time. -/
def CstZs1Context.Undisturbed (c : CstZs1Context) : List AcquireCall → List FetchReply → Prop
  | [], _ => True
  | call :: calls, markers =>
      Fed call.deadline (c.acquire call markers).fetches ∧
        (c.acquire call markers).context.Undisturbed calls (c.acquire call markers).markers

def triggersAsked (calls : List AcquireCall) : Nat :=
  (calls.map fun call => call.triggersToRead.toNat).sum

/-- Every call returns, with as many stamps as asked for, and the stamps of all
calls are one list. -/
def Returns (results : List AcquireResult) (calls : List AcquireCall)
    (stamps : List TriggerData) : Prop :=
  ∃ data : List AcquiredData, results.map AcquireResult.ending = data.map Ending.returned ∧
    data.map (fun d => d.stamps.length) = calls.map (fun call => call.triggersToRead.toNat) ∧
    data.flatMap AcquiredData.stamps = stamps

theorem acquireAll_served (calls : List AcquireCall) (c : CstZs1Context)
    (markers : List FetchReply) (hunks : List Hunk) (holds : Holds c markers hunks)
    (askable : ∀ call ∈ calls, Askable call.triggersToRead)
    (kinds : ∀ h ∈ hunks, h.isTrigger = true ∨ h.isGate = true) (fresh : NoReplay c hunks)
    (enough : triggersAsked calls < hunks.countP Hunk.isTrigger)
    (undisturbed : c.Undisturbed calls markers) (supplied : Supplied calls (Hunk.segments hunks)) :
    Returns (c.acquireAll calls markers) calls
      (((Hunk.segments hunks).take (triggersAsked calls)).map stamp) := by
  induction calls generalizing c markers hunks with
  | nil => exact ⟨[], rfl, rfl, rfl⟩
  | cons call calls ih =>
      have asked : triggersAsked (call :: calls) =
          call.triggersToRead.toNat + triggersAsked calls := rfl
      rw [asked] at enough ⊢
      obtain ⟨data, seen, left, returned, stamps, cut, segments, held, checked⟩ :=
        acquire_served c call markers hunks holds (askable call List.mem_cons_self) kinds fresh
          (by omega) undisturbed.1 supplied.1
      have total : (Hunk.segments hunks).length = hunks.countP Hunk.isTrigger :=
        segments_length Hunk.isTrigger Hunk.gateMarkers hunks
      have remaining : left.countP Hunk.isTrigger =
          hunks.countP Hunk.isTrigger - call.triggersToRead.toNat := by
        rw [← segments_length Hunk.isTrigger Hunk.gateMarkers left, ← total]
        exact (congrArg List.length segments).trans List.length_drop
      obtain ⟨rest, endings, counts, concatenated⟩ :=
        ih _ _ left held (fun next member => askable next (List.mem_cons_of_mem call member))
          (fun h member => kinds h (cut ▸ List.mem_append_right seen member))
          (fun unchecked => absurd checked (by rw [unchecked]; exact Bool.false_ne_true))
          (by omega) undisturbed.2 (by rw [segments]; exact supplied.2)
      refine ⟨data :: rest, ?_, ?_, ?_⟩
      · simp only [CstZs1Context.acquireAll, List.map_cons, returned, endings]
      · rw [List.map_cons, List.map_cons, counts, stamps, List.length_map, List.length_take]
        congr 1
        omega
      · rw [List.flatMap_cons, concatenated, stamps, segments, ← List.map_append, ← List.take_add]

theorem stamps_reference (hunks : List Hunk)
    (ordered : ∀ h ∈ hunks, ∀ m ∈ h.gateMarkers, Ordered m) :
    (Hunk.segments hunks).map stamp = referenceParse hunks := by
  refine List.map_congr_left fun segment member => ?_
  have plain : segment.2.map GateMarker.gateData = segment.2.map GateMarker.plainGate := by
    refine List.map_congr_left fun m inside => ordered_gate m ?_
    obtain ⟨h, source, found⟩ := segments_parts _ _ hunks segment member m inside
    exact ordered h source m found
  rw [stamp, plain]

/-- A frame: one `start`, then calls that each ask for at least one trigger, over a
stream of trigger and gate hunks the driver serves in whatever pieces it likes. -/
structure Driven (c : CstZs1Context) (calls : List AcquireCall) (markers : List FetchReply)
    (hunks : List Hunk) : Prop where
  idle : Empty c.markersBuffer
  size : c.markersBuffer.data.length < 2 ^ 31
  stream : markers.flatMap FetchReply.elements = flat hunks
  kinds : ∀ h ∈ hunks, h.isTrigger = true ∨ h.isGate = true
  ordered : ∀ h ∈ hunks, ∀ m ∈ h.gateMarkers, Ordered m
  asked : ∀ call ∈ calls, 1 ≤ call.triggersToRead.toNat
  enough : triggersAsked calls < hunks.countP Hunk.isTrigger
  fresh : NoReplay c.start hunks
  undisturbed : c.start.Undisturbed calls markers
  supplied : Supplied calls (Hunk.segments hunks)

/-- No trigger and no gate is lost, duplicated or moved at a fetch boundary or a call
boundary. -/
theorem acquireAll_reference (c : CstZs1Context) (calls : List AcquireCall)
    (markers : List FetchReply) (hunks : List Hunk) (driven : Driven c calls markers hunks)
    (askable : ∀ call ∈ calls, Askable call.triggersToRead) :
    Returns (c.start.acquireAll calls markers) calls
      ((referenceParse hunks).take (triggersAsked calls)) := by
  rw [← stamps_reference hunks driven.ordered, ← List.map_take]
  exact acquireAll_served calls c.start markers hunks
    (empty_holds c.start markers hunks driven.idle driven.size driven.stream) askable
    driven.kinds driven.fresh driven.enough driven.undisturbed driven.supplied

def gateHunk (start stop : Int32) : Hunk :=
  ((Vector.replicate 16 (0 : Int32)).setIfInBounds 0 (start <<< 24 ||| 4)).setIfInBounds 2 (stop <<< 24)

def triggerHunk (clock : Int32) : Hunk :=
  ((Vector.replicate 16 (0 : Int32)).setIfInBounds 0 1).setIfInBounds 1 (clock <<< 8)

def sevenHunks : List Hunk :=
  [gateHunk 2 4, triggerHunk 5, gateHunk 2 4, gateHunk 6 8, triggerHunk 6, gateHunk 3 4,
    triggerHunk 7]

def answered (available : Int) (first : Nat) (hunks : List Hunk) : FetchReply :=
  ⟨none, available, first, flat hunks, 0⟩

def sixFetches : List FetchReply :=
  [answered 64 3 [gateHunk 2 4], answered 0 0 [], answered 32 0 [triggerHunk 5, gateHunk 2 4],
    answered 16 9 [gateHunk 6 8, triggerHunk 6], answered 16 0 [gateHunk 3 4],
    answered 16 1 [triggerHunk 7]]

def twoCalls : List AcquireCall :=
  [⟨1, 0, 0, .ofSize 64, [⟨none, 32, 5, List.replicate 32 7, 0⟩]⟩,
    ⟨1, 0, 0, .ofSize 64, [⟨none, 16, 0, List.replicate 16 7, 0⟩]⟩]

/-- Two calls over seven hunks: an orphan gate, an empty fetch, a backlog, and a
look-ahead trigger that the first call leaves to the second. -/
theorem acquireAll_reference_two_calls :
    Returns ((CstZs1Context.create "Channel1" 4).start.acquireAll twoCalls sixFetches) twoCalls
      ((referenceParse sevenHunks).take (triggersAsked twoCalls)) :=
  acquireAll_reference _ twoCalls sixFetches sevenHunks
    { idle := ⟨rfl, rfl, rfl⟩
      size := by decide +kernel
      stream := by decide +kernel
      kinds := fun h member => (Bool.or_eq_true _ _).mp (List.all_eq_true.mp
        (by decide +kernel : sevenHunks.all (fun h => h.isTrigger || h.isGate) = true) h member)
      ordered := fun h member m inside => of_decide_eq_true (List.all_eq_true.mp
        (List.all_eq_true.mp (by decide +kernel :
          sevenHunks.all (fun h => h.gateMarkers.all fun m => decide (Ordered m)) = true) h member)
        m inside)
      asked := by decide +kernel
      enough := by decide +kernel
      fresh := by decide +kernel
      undisturbed := ⟨by decide +kernel, by decide +kernel, trivial⟩
      supplied := ⟨⟨by decide, by decide, by decide +kernel, by decide +kernel⟩,
        ⟨by decide, by decide, by decide +kernel, by decide +kernel⟩, trivial⟩ }
    (fun call member => askable_of_lt call.triggersToRead
      ((by decide +kernel : ∀ call ∈ twoCalls, 0 < call.triggersToRead.toNat) call member)
      ((by decide +kernel : ∀ call ∈ twoCalls, call.triggersToRead.toNat < 2 ^ 24) call member))

def bareTrigger : Hunk := (Vector.replicate 16 0).setIfInBounds 0 1

/-- Asking for 2^28 triggers makes a request of 2^32 elements, which as an int is 0:
the call is refused before it fetches anything. -/
def tooMany (reply : FetchReply) : AcquireResult :=
  (CstZs1Context.create "Channel1" 0).start.acquire ⟨268435456, 0, 0, .ofSize 0, []⟩ [reply]

theorem tooMany_refused (reply : FetchReply) :
    (tooMany reply).ending = .threw (.exception (refusal "MarkersCh1" 0)) ∧
      (tooMany reply).fetches = [] := ⟨rfl, rfl⟩

theorem bareTriggers (count : Nat) :
    ∃ hunks : List Hunk, (∀ h ∈ hunks, h = bareTrigger) ∧ hunks.length = count :=
  ⟨List.replicate count bareTrigger, fun _ member => List.eq_of_mem_replicate member,
    List.length_replicate⟩

theorem bareTrigger_fetchSize (hunks : List Hunk) (bare : ∀ h ∈ hunks, h = bareTrigger)
    (count : Nat) : fetchSize (((Hunk.segments hunks).take count).flatMap Prod.snd) = 0 := by
  have none : ((Hunk.segments hunks).take count).flatMap Prod.snd = [] := by
    refine List.eq_nil_iff_forall_not_mem.mpr fun m member => ?_
    obtain ⟨segment, taken, inside⟩ := List.mem_flatMap.mp member
    obtain ⟨h, source, found⟩ := segments_parts _ _ hunks segment (List.mem_of_mem_take taken) m inside
    rw [bare h source] at found
    exact absurd found (List.eq_nil_iff_forall_not_mem.mp (by decide) m)
  rw [none]
  rfl

/-- A stream of 2^28 + 1 triggers has enough of them for one call that asks for 2^28,
and the call returns none. -/
theorem acquireAll_reference_refused :
    ¬ ∀ (c : CstZs1Context) (calls : List AcquireCall) (markers : List FetchReply)
        (hunks : List Hunk), Driven c calls markers hunks →
        Returns (c.start.acquireAll calls markers) calls
          ((referenceParse hunks).take (triggersAsked calls)) := by
  intro returns
  obtain ⟨hunks, bare, length⟩ := bareTriggers (2 ^ 28 + 1)
  have triggers : hunks.countP Hunk.isTrigger = 2 ^ 28 + 1 := by
    rw [← length, List.countP_eq_length]
    intro h member
    rw [bare h member]
    decide
  obtain ⟨refused, unfetched⟩ := tooMany_refused ⟨none, 0, 0, flat hunks, 0⟩
  obtain ⟨data, endings, _, _⟩ := returns (.create "Channel1" 0) [⟨268435456, 0, 0, .ofSize 0, []⟩]
    [⟨none, 0, 0, flat hunks, 0⟩] hunks
    { idle := ⟨rfl, rfl, rfl⟩
      size := by decide
      stream := by simp
      kinds := fun h member => Or.inl (by rw [bare h member]; decide)
      ordered := fun h member m inside => by
        rw [bare h member] at inside
        exact absurd inside (List.eq_nil_iff_forall_not_mem.mp (by decide) m)
      asked := by
        intro call member
        rw [List.mem_singleton.mp member]
        decide
      enough := by
        rw [triggers]
        decide
      fresh := fun _ valid => by cases valid
      undisturbed := ⟨by
        rw [← tooMany, unfetched]
        exact fun fetch member => absurd member List.not_mem_nil, trivial⟩
      supplied := ⟨by
        rw [bareTrigger_fetchSize hunks bare]
        exact ⟨by simp, by simp, rfl, by decide⟩, trivial⟩ }
  cases data with
  | nil => cases endings
  | cons first rest =>
      have ending := (List.cons.inj endings).1
      rw [← tooMany, refused] at ending
      cases ending

end AqMD3.Acquisition
