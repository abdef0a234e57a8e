import AqMD3.CallSequence
import AqMD3.CstContext

/-!
The timestamps `CstContext::acquire` collects, over whatever stream of hunks it is served:
the triggers of the stream, from the first on, as many as it was asked for. What it asks
for next depends on what was reported last, and always fits its buffer.
-/

namespace AqMD3.Acquisition

open Overwrite CstContext

/-- The timestamps of a stream of hunks: its trigger hunks, in order. -/
def cstTriggers (hunks : List Hunk) : List TriggerData :=
  (hunks.filter Hunk.isTrigger).map Hunk.cstTrigger

theorem cstTriggers_append (first second : List Hunk) :
    cstTriggers (first ++ second) = cstTriggers first ++ cstTriggers second := by
  rw [cstTriggers, List.filter_append, List.map_append]
  rfl

theorem cstTriggers_length (hunks : List Hunk) :
    (cstTriggers hunks).length = hunks.countP Hunk.isTrigger := by
  rw [cstTriggers, List.length_map, List.countP_eq_length_filter]

theorem take_taken {Item : Type} (count : Nat) (first second : List Item) :
    (first.take count ++ second).take count = (first ++ second).take count := by
  rw [List.take_append, List.take_append, List.take_take, Nat.min_self, List.length_take]
  congr 2
  omega

section Requests

variable {triggersToRead : UInt64} (positive : 0 < triggersToRead.toNat)
  (bound : 256 * triggersToRead.toNat + 15 < 2 ^ 63)
include positive bound

theorem markersToAcquire_exact :
    (markersToAcquire triggersToRead).toInt = 16 * triggersToRead.toNat := by
  have sixteen : CstContext.markersHunkSize.toUInt64.toNat = 16 := rfl
  have product : (triggersToRead * CstContext.markersHunkSize.toUInt64).toNat = 16 * triggersToRead.toNat := by
    rw [UInt64.toNat_mul, sixteen]
    omega
  rw [markersToAcquire, FixedWidth.uint64_signed_exact _ (by omega), product]
  omega

theorem markersRequestMax_exact :
    (markersRequestMax triggersToRead).toInt = 256 * triggersToRead.toNat := by
  rw [markersRequestMax, Int64.toInt_mul, markersToAcquire_exact positive bound,
    show markersMultiplierMax.toInt = 16 from rfl, Int.bmod_def]
  omega

theorem markersBufferSize_exact : markersBufferSize triggersToRead = 256 * triggersToRead.toNat + 15 := by
  have most := markersRequestMax_exact positive bound
  have unsigned : (markersRequestMax triggersToRead).toUInt64.toNat = 256 * triggersToRead.toNat := by
    have signed : (markersRequestMax triggersToRead).toBitVec.toInt = 256 * triggersToRead.toNat := most
    change (markersRequestMax triggersToRead).toBitVec.toNat = 256 * triggersToRead.toNat
    rw [BitVec.toInt_eq_toNat_cond] at signed
    have width := (markersRequestMax triggersToRead).toBitVec.isLt
    split at signed <;> omega
  have fifteen : (15 : UInt64).toNat = 15 := rfl
  rw [markersBufferSize, UInt64.toNat_add, unsigned, fifteen]
  omega

theorem markersRequest_fits (available : Int) :
    Aligned (markersRequest triggersToRead available) ∧
      markersRequest triggersToRead available + 15 ≤ markersBufferSize triggersToRead := by
  have least := markersToAcquire_exact positive bound
  have most := markersRequestMax_exact positive bound
  rw [aligned_iff, markersBufferSize_exact positive bound, markersRequest]
  simp only [least, most, show CstContext.markersHunkSize.toInt = 16 from rfl]
  split
  · rename_i more
    have nonneg : 0 ≤ min available (256 * (triggersToRead.toNat : Int)) := by omega
    rw [Int.tmod_eq_emod_of_nonneg nonneg]
    omega
  · omega

end Requests

/-- The scan of some hunks, while there are triggers to come: theirs are added, and no
more than were asked for. -/
theorem scanHunks_stamps (triggersToRead : UInt64) (hunks : List Hunk) (w : CstWalk)
    (room : w.stamps.length < triggersToRead.toNat) :
    (scanHunks triggersToRead hunks w).stamps =
      (w.stamps ++ cstTriggers hunks).take triggersToRead.toNat := by
  induction hunks generalizing w with
  | nil =>
      rw [show cstTriggers [] = [] from rfl, List.append_nil, List.take_of_length_le (by omega)]
      rfl
  | cons seg rest ih =>
      unfold scanHunks
      by_cases trigger : seg.isTrigger = true
      · have kind : ¬ seg.kind ≠ 0x01 := fun other => other (by simpa [Hunk.isTrigger] using trigger)
        have head : cstTriggers (seg :: rest) = seg.cstTrigger :: cstTriggers rest := by
          simp [cstTriggers, trigger]
        have counted : (w.stamps ++ [seg.cstTrigger]).length = w.stamps.length + 1 := by simp
        rw [if_neg kind, head, List.append_cons w.stamps seg.cstTrigger (cstTriggers rest)]
        by_cases full : triggersToRead.toNat ≤ w.stamps.length + 1
        · -- It was the last one: the hunks behind it are not looked at.
          simp only [counted, if_pos full]
          rw [List.take_append_of_le_length (by omega), List.take_of_length_le (by omega)]
        · simp only [counted, if_neg full]
          exact ih { w with stamps := w.stamps ++ [seg.cstTrigger] } (by simp only [counted]; omega)
      · have kind : seg.kind ≠ 0x01 := by simpa [Hunk.isTrigger] using trigger
        have head : cstTriggers (seg :: rest) = cstTriggers rest := by simp [cstTriggers, trigger]
        rw [if_pos kind, head]
        exact ih { w with hunksSkipped := w.hunksSkipped + 1 } room

theorem flat_word (hunks : List Hunk) (index word : Nat) (here : index < hunks.length)
    (inside : word < 16) : (flat hunks)[index * 16 + word]? = some (hunks[index][word]) := by
  induction hunks generalizing index with
  | nil => exact absurd here (Nat.not_lt_zero index)
  | cons h rest ih =>
      cases index with
      | zero =>
          rw [flat_cons, List.getElem?_append_left (by simpa using inside)]
          simp [inside]
      | succ index =>
          rw [flat_cons, List.getElem?_append_right (by rw [Vector.length_toList]; omega),
            Vector.length_toList, show (index + 1) * 16 + word - 16 = index * 16 + word by omega,
            ih index (by simpa using here)]
          rfl

theorem segments_fetched (w : CstWalk) (request : Int) (reply : FetchReply) (hunks : List Hunk)
    (block : reply.elements = flat hunks)
    (space : reply.first + reply.elements.length ≤ w.markersBuffer.length) :
    (List.range (reply.elements.length / 16)).map ((w.fetched request reply).segment reply.first) =
      hunks := by
  have length := flat_length hunks
  rw [← block] at length
  have stored := window_overwrite w.markersBuffer reply.first reply.elements space
  apply List.ext_getElem
  · rw [List.length_map, List.length_range]
    omega
  · intro index _ here
    rw [List.getElem_map, List.getElem_range]
    apply Vector.ext
    intro word inside
    have cell := window_getElem? (overwrite w.markersBuffer reply.first reply.elements) reply.first
      reply.elements.length (index * 16 + word) (by omega)
    rw [stored, block, flat_word hunks index word here inside, ← block] at cell
    simp only [CstWalk.segment, CstWalk.fetched, Vector.getElem_ofFn, List.getD_eq_getElem?_getD]
    rw [Nat.add_assoc, ← cell]
    rfl

def CstMarkersEnd.walk : CstMarkersEnd → CstWalk
  | .collected w _ => w
  | .threw _ w _ => w
  | .waiting w => w

theorem cstMarkersLoop_fetches (c : CstContext) (triggersToRead : UInt64) (deadline : Option Int)
    (replies : List FetchReply) (w : CstWalk) :
    ∃ more, (c.markersLoop triggersToRead deadline replies w).walk.fetches = w.fetches ++ more := by
  induction replies generalizing w with
  | nil =>
      refine ⟨[], ?_⟩
      unfold CstContext.markersLoop
      split
      · split <;> simp [CstMarkersEnd.walk]
      · simp [CstMarkersEnd.walk]
  | cons reply replies ih =>
      unfold CstContext.markersLoop
      split
      · simp only
        split
        · exact ⟨[], (List.append_nil _).symm⟩
        · have kept := (scanned_kept (w.fetched (markersRequest triggersToRead w.available) reply)
            triggersToRead reply).1
          cases reply.error with
          | some text => exact ⟨_, rfl⟩
          | none =>
              simp only
              split
              · exact ⟨_, kept⟩
              · obtain ⟨more, fetches⟩ := ih ((w.fetched (markersRequest triggersToRead w.available)
                  reply).scanned triggersToRead reply)
                rw [kept] at fetches
                exact ⟨_, fetches.trans (List.append_assoc _ _ _)⟩
      · exact ⟨[], (List.append_nil _).symm⟩

section Steps

variable (c : CstContext) {triggersToRead : UInt64} {deadline : Option Int} {reply : FetchReply}
  {w : CstWalk}

theorem cstMarkersLoop_done (replies : List FetchReply)
    (full : ¬ w.stamps.length < triggersToRead.toNat) :
    c.markersLoop triggersToRead deadline replies w = .collected w replies := by
  cases replies with
  | nil => rw [CstContext.markersLoop, if_neg full]
  | cons reply rest => rw [CstContext.markersLoop, if_neg full]

variable (replies : List FetchReply) (more : w.stamps.length < triggersToRead.toNat)
  (passes : checkFetchAlignment c.markersChannel (markersRequest triggersToRead w.available) = .ok ())
include more passes

theorem cstMarkersLoop_made :
    ⟨.markers, markersRequest triggersToRead w.available, w.markersBuffer.length, reply⟩ ∈
      (c.markersLoop triggersToRead deadline (reply :: replies) w).walk.fetches := by
  have fetches := (scanned_kept (w.fetched (markersRequest triggersToRead w.available) reply)
    triggersToRead reply).1
  have made : ⟨.markers, markersRequest triggersToRead w.available, w.markersBuffer.length, reply⟩ ∈
      (w.fetched (markersRequest triggersToRead w.available) reply).fetches :=
    List.mem_append_right _ (List.mem_singleton_self _)
  unfold CstContext.markersLoop
  simp only [if_pos more, passes]
  cases reply.error with
  | some text => exact made
  | none =>
      simp only
      split
      · exact fetches ▸ made
      · obtain ⟨later, trace⟩ := cstMarkersLoop_fetches c triggersToRead deadline replies
          ((w.fetched (markersRequest triggersToRead w.available) reply).scanned triggersToRead reply)
        rw [trace, fetches]
        exact List.mem_append_left later made

theorem cstMarkersLoop_onward (succeeded : reply.error = none)
    (timely : deadline.any (fun finish => finish < reply.now) = false) :
    c.markersLoop triggersToRead deadline (reply :: replies) w =
      c.markersLoop triggersToRead deadline replies
        ((w.fetched (markersRequest triggersToRead w.available) reply).scanned
          triggersToRead reply) := by
  rw [CstContext.markersLoop]
  simp only [if_pos more, passes, succeeded, timely, Bool.false_eq_true, ↓reduceIte]

end Steps

/-- A markers fetch asks for whole hunks and leaves fifteen elements of its buffer. -/
def Spared (fetch : FetchCall) : Prop :=
  Aligned fetch.elementsToFetch ∧ fetch.elementsToFetch + 15 ≤ fetch.bufferSize

section Served

variable (c : CstContext) {triggersToRead : UInt64} (positive : 0 < triggersToRead.toNat)
  (bound : 256 * triggersToRead.toNat + 15 < 2 ^ 63) (deadline : Option Int)
include positive bound

theorem cstMarkersLoop_spared (replies : List FetchReply) (w : CstWalk)
    (size : w.markersBuffer.length = markersBufferSize triggersToRead)
    (before : ∀ fetch ∈ w.fetches, Spared fetch) :
    ∀ fetch ∈ (c.markersLoop triggersToRead deadline replies w).walk.fetches, Spared fetch := by
  induction replies generalizing w with
  | nil =>
      unfold CstContext.markersLoop
      split
      · split
        · exact before
        · exact before
      · exact before
  | cons reply replies ih =>
      unfold CstContext.markersLoop
      split
      · simp only
        split
        · exact before
        · obtain ⟨fetches, buffer⟩ := scanned_kept
            (w.fetched (markersRequest triggersToRead w.available) reply) triggersToRead reply
          -- The request depends on the backlog alone, and the scan leaves the buffer its size.
          have asked : ∀ fetch ∈ (w.fetched (markersRequest triggersToRead w.available) reply).fetches,
              Spared fetch := by
            intro fetch member
            rcases List.mem_append.mp member with earlier | last
            · exact before fetch earlier
            · obtain ⟨aligned, fits⟩ := markersRequest_fits positive bound w.available
              rw [List.mem_singleton.mp last]
              exact ⟨aligned, by rw [size]; exact fits⟩
          cases reply.error with
          | some text => exact asked
          | none =>
              simp only
              split
              · exact fun fetch member => asked fetch (fetches ▸ member)
              · apply ih
                · rw [buffer, CstWalk.fetched, overwrite_length, size]
                · rw [fetches]
                  exact asked
      · exact before

theorem cstMarkersLoop_collects (replies : List FetchReply) (todo : List Hunk) (w : CstWalk)
    (size : w.markersBuffer.length = markersBufferSize triggersToRead)
    (room : w.stamps.length ≤ triggersToRead.toNat)
    (stream : replies.flatMap FetchReply.elements = flat todo)
    (enough : triggersToRead.toNat ≤ w.stamps.length + todo.countP Hunk.isTrigger)
    (fed : Fed deadline (c.markersLoop triggersToRead deadline replies w).walk.fetches) :
    ∃ last rest, c.markersLoop triggersToRead deadline replies w = .collected last rest ∧
      last.stamps = (w.stamps ++ cstTriggers todo).take triggersToRead.toNat := by
  induction replies generalizing todo w with
  | nil =>
      have none : todo = [] := flat_empty stream
      rw [none, List.countP_nil] at enough
      refine ⟨w, [], cstMarkersLoop_done c [] (by omega), ?_⟩
      rw [none, show cstTriggers [] = [] from rfl, List.append_nil, List.take_of_length_le room]
  | cons reply replies ih =>
      by_cases more : w.stamps.length < triggersToRead.toNat
      · have passes : checkFetchAlignment c.markersChannel
            (markersRequest triggersToRead w.available) = .ok () :=
          if_pos (markersRequest_fits positive bound w.available).1
        obtain ⟨_, buffer⟩ := scanned_kept
          (w.fetched (markersRequest triggersToRead w.available) reply) triggersToRead reply
        -- The fetch is made whatever follows, so what is known of all fetches holds of it.
        obtain ⟨served, timely⟩ := fed ⟨.markers, markersRequest triggersToRead w.available,
          w.markersBuffer.length, reply⟩ (cstMarkersLoop_made c replies more passes) rfl
        have succeeded : reply.error = none := served.succeeded
        rw [cstMarkersLoop_onward c replies more passes succeeded timely] at fed ⊢
        rw [List.flatMap_cons] at stream
        obtain ⟨hunks, later, cut, block, remaining⟩ := flat_split todo _ _ stream served.hunks
        have space : (reply.first + reply.elements.length : Int) ≤ w.markersBuffer.length :=
          served.space
        have scanned : ((w.fetched (markersRequest triggersToRead w.available) reply).scanned
            triggersToRead reply).stamps =
              (w.stamps ++ cstTriggers hunks).take triggersToRead.toNat := by
          rw [CstWalk.scanned, segments_fetched w _ reply hunks block (by omega)]
          exact scanHunks_stamps triggersToRead hunks
            (w.fetched (markersRequest triggersToRead w.available) reply) more
        have length := congrArg List.length scanned
        rw [List.length_take, List.length_append, cstTriggers_length] at length
        rw [cut, List.countP_append] at enough
        obtain ⟨last, rest, collected, stamps⟩ := ih later _
          (by rw [buffer, CstWalk.fetched, overwrite_length, size]) (by omega) remaining (by omega) fed
        refine ⟨last, rest, collected, ?_⟩
        rw [stamps, scanned, cut, cstTriggers_append, ← List.append_assoc, take_taken]
      · -- All of them are there already: no fetch is made for the rest of the stream.
        have full : w.stamps.length = triggersToRead.toNat := by omega
        refine ⟨w, reply :: replies, cstMarkersLoop_done c _ more, ?_⟩
        rw [List.take_append_of_le_length (by omega), List.take_of_length_le (by omega)]

end Served

theorem cstSamplesLoop_samples (elements : Int) (deadline : Option Int) (replies : List FetchReply)
    (b : AcquisitionBuffer) :
    ∀ fetch ∈ (CstContext.samplesLoop elements deadline replies b).fetches, fetch.channel = .samples := by
  induction replies generalizing b with
  | nil => exact fun fetch member => absurd member List.not_mem_nil
  | cons reply rest ih =>
      have only (call : FetchCall) (samples : call.channel = .samples) :
          ∀ fetch ∈ [call], fetch.channel = .samples :=
        fun fetch member => by rw [List.mem_singleton.mp member, samples]
      unfold CstContext.samplesLoop
      cases reply.error with
      | some text => exact only _ rfl
      | none =>
          simp only
          split
          · exact only _ rfl
          · split
            · intro fetch member
              rcases List.mem_cons.mp member with rfl | later
              · rfl
              · exact ih _ fetch later
            · exact only _ rfl

theorem cstSamplesLoop_returns (elements : Int) (deadline : Option Int) (replies : List FetchReply)
    (b : AcquisitionBuffer)
    (answered : ∀ fetch ∈ (CstContext.samplesLoop elements deadline replies b).fetches,
      fetch.reply.error = none ∧ deadline.any (fun finish => finish < fetch.reply.now) = false)
    (full : ∃ reply ∈ replies, elements ≤ (reply.elements.length : Int)) :
    (CstContext.samplesLoop elements deadline replies b).ending = .returned () := by
  induction replies generalizing b with
  | nil =>
      obtain ⟨reply, member, _⟩ := full
      exact absurd member List.not_mem_nil
  | cons reply rest ih =>
      obtain ⟨succeeded, timely⟩ := answered ⟨.samples, elements, b.getSize, reply⟩ (by
        unfold CstContext.samplesLoop
        cases reply.error with
        | some text => exact List.mem_singleton_self _
        | none =>
            simp only
            split
            · exact List.mem_singleton_self _
            · split
              · exact List.mem_cons_self
              · exact List.mem_singleton_self _)
      have error : reply.error = none := succeeded
      have clock : deadline.any (fun finish => decide (finish < reply.now)) = false := timely
      unfold CstContext.samplesLoop at answered ⊢
      simp only [error, clock, Bool.false_eq_true, ↓reduceIte] at answered ⊢
      -- A short answer is asked for again, and the full one is still to come.
      by_cases short : (reply.elements.length : Int) < elements
      · rw [if_pos short] at answered ⊢
        obtain ⟨other, member, whole⟩ := full
        rcases List.mem_cons.mp member with rfl | later
        · omega
        · exact ih _ (fun fetch inside => answered fetch (List.mem_cons_of_mem _ inside))
            ⟨other, later, whole⟩
      · rw [if_neg short]

/-- The trace of a call: its markers fetches, then its samples fetches. -/
theorem cst_acquire_trace (c : CstContext) (call : AcquireCall) (markers : List FetchReply) :
    ∃ more, (c.acquire call markers).fetches = (c.markersLoop call.triggersToRead call.deadline markers
        (.begin call.triggersToRead)).walk.fetches ++ more ∧
      ∀ fetch ∈ more, fetch.channel = .samples := by
  unfold CstContext.acquire
  cases c.markersLoop call.triggersToRead call.deadline markers (.begin call.triggersToRead) with
  | collected w rest =>
      unfold CstContext.fetchSamples
      simp only
      split
      · exact ⟨[], (List.append_nil _).symm, nofun⟩
      · exact ⟨_, rfl, cstSamplesLoop_samples _ _ _ _⟩
  | threw thrown w rest => exact ⟨[], (List.append_nil _).symm, nofun⟩
  | waiting w => exact ⟨[], (List.append_nil _).symm, nofun⟩

/-- A driver that serves a call: the markers fetches are a stream with enough triggers, in
any slices; no fetch fails or is late, and the samples come in full at some point. -/
structure CstFed (c : CstContext) (call : AcquireCall) (markers : List FetchReply)
    (hunks : List Hunk) : Prop where
  stream : markers.flatMap FetchReply.elements = flat hunks
  enough : call.triggersToRead.toNat ≤ hunks.countP Hunk.isTrigger
  fed : Fed call.deadline (c.acquire call markers).fetches
  answered : ∀ fetch ∈ (c.acquire call markers).fetches, fetch.channel = .samples →
    fetch.reply.error = none ∧ call.deadline.any (fun finish => finish < fetch.reply.now) = false
  full : ∃ reply ∈ call.samples,
    elementsToAcquire call.triggersToRead call.samplesBuffer.samplesPerTrigger ≤ reply.elements.length

/-- The call returns the first triggers of the stream, as many as it was asked for, and
every markers fetch it made left room. -/
structure FirstTriggers (c : CstContext) (call : AcquireCall) (markers : List FetchReply)
    (hunks : List Hunk) : Prop where
  returned : ∃ buffer, (c.acquire call markers).ending = .returned
    ⟨buffer, (cstTriggers hunks).take call.triggersToRead.toNat, call.samplesBuffer.samplesPerTrigger⟩
  count : ((cstTriggers hunks).take call.triggersToRead.toNat).length = call.triggersToRead.toNat
  spared : ∀ fetch ∈ (c.acquire call markers).fetches, fetch.channel = .markers → Spared fetch

/-- For every stream, slicing, available count and number of triggers whose request for
the samples is not refused. -/
theorem first_triggers (c : CstContext) (call : AcquireCall) (markers : List FetchReply)
    (hunks : List Hunk) (positive : 1 ≤ call.triggersToRead.toNat)
    (bound : 256 * call.triggersToRead.toNat + 15 < 2 ^ 63)
    (whole : Aligned (elementsToAcquire call.triggersToRead call.samplesBuffer.samplesPerTrigger))
    (served : CstFed c call markers hunks) : FirstTriggers c call markers hunks := by
  have size : (CstWalk.begin call.triggersToRead).markersBuffer.length =
      markersBufferSize call.triggersToRead := List.length_replicate
  obtain ⟨more, trace, samples⟩ := cst_acquire_trace c call markers
  have fed : Fed call.deadline (c.markersLoop call.triggersToRead call.deadline markers
      (.begin call.triggersToRead)).walk.fetches :=
    fun fetch member => served.fed fetch (trace ▸ List.mem_append_left more member)
  have spared := cstMarkersLoop_spared c positive bound call.deadline markers
    (.begin call.triggersToRead) size (fun fetch member => absurd member List.not_mem_nil)
  obtain ⟨last, rest, collected, stamps⟩ := cstMarkersLoop_collects c positive bound call.deadline
    markers hunks (.begin call.triggersToRead) size
    (show ([] : List TriggerData).length ≤ _ from Nat.zero_le _) served.stream
    (by simpa [CstWalk.begin] using served.enough) fed
  have passes : checkFetchAlignment c.samplesChannel
      (elementsToAcquire call.triggersToRead call.samplesBuffer.samplesPerTrigger) = .ok () :=
    if_pos whole
  have made : c.acquire call markers = c.fetchSamples call last rest := by
    rw [CstContext.acquire, collected]
  constructor
  · have returns := cstSamplesLoop_returns
      (elementsToAcquire call.triggersToRead call.samplesBuffer.samplesPerTrigger) call.deadline
      call.samples call.samplesBuffer (fun fetch member => served.answered fetch (by
        rw [made, CstContext.fetchSamples]
        simp only [passes]
        exact List.mem_append_right _ member) (cstSamplesLoop_samples _ _ _ _ fetch member)) served.full
    refine ⟨(CstContext.samplesLoop
      (elementsToAcquire call.triggersToRead call.samplesBuffer.samplesPerTrigger) call.deadline
      call.samples call.samplesBuffer).buffer, ?_⟩
    rw [made, CstContext.fetchSamples]
    simp only [passes, returns, stamps]
    rfl
  · rw [List.length_take, cstTriggers_length, Nat.min_eq_left served.enough]
  · intro fetch member marked
    rw [trace] at member
    rcases List.mem_append.mp member with early | late
    · exact spared fetch early
    · rw [samples fetch late] at marked
      cases marked

/-- Gate hunks and an unknown one between the triggers, in two slices. -/
def leftoverHunks : List Hunk :=
  [gateHunk 2 4, triggerHunk 5, Vector.replicate 16 0, gateHunk 6 8, triggerHunk 6, triggerHunk 7]

def leftoverMarkers : List FetchReply :=
  [answered 64 3 (leftoverHunks.take 2), answered 16 15 (leftoverHunks.drop 2)]

def recordsOf (triggersToRead samplesPerTrigger : UInt64) (elements : Nat) : AcquireCall :=
  ⟨triggersToRead, 0, 0, .ofTriggers triggersToRead samplesPerTrigger,
    [⟨none, 0, 0, [], 0⟩, ⟨none, 0, 0, List.replicate elements 7, 0⟩]⟩

theorem first_triggers_leftover :
    FirstTriggers (CstContext.create "Channel1") (recordsOf 2 16 16) leftoverMarkers leftoverHunks :=
  first_triggers (CstContext.create "Channel1") (recordsOf 2 16 16) leftoverMarkers leftoverHunks
    (by decide) (by decide) (by decide +kernel)
    ⟨by decide +kernel, by decide +kernel, by decide +kernel, by decide +kernel, by decide +kernel⟩

/-- A record of 16 samples is 8 elements, and one trigger's request is refused. With whole
requests for the samples, 2^60 triggers make a request of no markers, which is refused. -/
theorem first_triggers_refused :
    (¬ ∀ (c : CstContext) (call : AcquireCall) (markers : List FetchReply) (hunks : List Hunk),
        1 ≤ call.triggersToRead.toNat → CstFed c call markers hunks →
        FirstTriggers c call markers hunks) ∧
      ¬ ∀ (c : CstContext) (call : AcquireCall) (markers : List FetchReply) (hunks : List Hunk),
        1 ≤ call.triggersToRead.toNat →
        Aligned (elementsToAcquire call.triggersToRead call.samplesBuffer.samplesPerTrigger) →
        CstFed c call markers hunks → FirstTriggers c call markers hunks := by
  constructor
  · intro first
    obtain ⟨buffer, returned⟩ := (first (CstContext.create "Channel1") (recordsOf 1 16 8)
      [answered 16 0 [triggerHunk 5]] [triggerHunk 5] (by decide)
      ⟨by decide +kernel, by decide +kernel, by decide +kernel, by decide +kernel,
        by decide +kernel⟩).returned
    have refused : ((CstContext.create "Channel1").acquire (recordsOf 1 16 8)
        [answered 16 0 [triggerHunk 5]]).ending = .threw (.exception (refusal "StreamCh1" 8)) := by
      decide +kernel
    rw [refused] at returned
    cases returned
  · intro first
    obtain ⟨hunks, triggers⟩ : ∃ hunks : List Hunk, hunks.countP Hunk.isTrigger = 2 ^ 60 := by
      refine ⟨List.replicate (2 ^ 60) (triggerHunk 5), ?_⟩
      rw [List.countP_replicate, if_pos (by decide +kernel)]
    obtain ⟨elements, length⟩ : ∃ elements : List Int32, elements.length = 2 ^ 60 :=
      ⟨List.replicate (2 ^ 60) 0, List.length_replicate⟩
    let call : AcquireCall := ⟨1152921504606846976, 0, 0, .ofTriggers 0 2, [⟨none, 0, 0, elements, 0⟩]⟩
    have request : markersRequest 1152921504606846976 0 = 0 := by decide +kernel
    have asks : 0 < (1152921504606846976 : UInt64).toNat := by decide +kernel
    have refused : (CstContext.create "Channel1").acquire call [⟨none, 0, 0, flat hunks, 0⟩] =
        ⟨.threw (.exception (refusal "MarkersCh1" 0)), [], [⟨none, 0, 0, flat hunks, 0⟩],
          call.samples⟩ := by
      simp only [CstContext.acquire, CstContext.markersLoop, call, CstWalk.begin, List.length_nil, asks,
        request, ↓reduceIte]
      rfl
    have samples : elementsToAcquire 1152921504606846976 2 = 2 ^ 60 := by decide +kernel
    have whole : Aligned (elementsToAcquire 1152921504606846976 2) := by decide +kernel
    have enough : (1152921504606846976 : UInt64).toNat ≤ 2 ^ 60 := by decide +kernel
    obtain ⟨buffer, returned⟩ := (first (CstContext.create "Channel1") call
      [⟨none, 0, 0, flat hunks, 0⟩] hunks asks whole
      ⟨by simp, triggers ▸ enough, by rw [refused]; nofun, by rw [refused]; nofun,
        ⟨_, List.mem_singleton_self _, samples.trans_le (by simp only [length]; decide)⟩⟩).returned
    rw [refused] at returned
    cases returned

end AqMD3.Acquisition
