import AqMD3.CallSequence
import AqMD3.SpectrumEncoding

/-!
What successive `acquire` calls hand on, when each call's samples are fetched without a gap:
the stamps of the next triggers of the stream, and a buffer that holds the elements recorded
for them and nothing else.
-/

namespace AqMD3.Acquisition

open FixedWidth Overwrite Segments AcquisitionBuffer

/-- A call's samples are those of some triggers. The driver splits them as it likes, and no
fetch behind stored elements has a first valid element past 0. -/
structure SamplesRecorded (call : AcquireCall) (total : UInt64) (trigs : List RecordedTrigger) :
    Prop where
  idle : Empty call.samplesBuffer
  size : call.samplesBuffer.data.length < 2 ^ 31
  succeeded : ∀ reply ∈ call.samples, reply.error = none
  admissible : Admissible call.samplesBuffer.data.length total.toNat 0 0
    (call.samples.map FetchReply.counts)
  gapless : Gapless (call.samples.map FetchReply.counts)
  elements : call.samples.flatMap FetchReply.elements = trigs.flatMap RecordedTrigger.elements

section Samples

variable {call : AcquireCall} {total : UInt64} {trigs : List RecordedTrigger}
  (recorded : SamplesRecorded call total trigs)
include recorded

theorem samples_room :
    gaps (call.samples.map FetchReply.part) + (call.samples.flatMap FetchReply.elements).length ≤
        call.samplesBuffer.data.length ∧
      (call.samples.flatMap FetchReply.elements).length = total.toNat ∧
      ∀ reply ∈ call.samples, 16 ∣ reply.elements.length := by
  obtain ⟨count, room, whole⟩ := admissible_totals recorded.admissible (by omega)
  rw [← elements_counts] at count room
  rw [← gaps_parts] at room
  exact ⟨by omega, by omega, fun reply member => whole reply.counts (List.mem_map_of_mem member)⟩

theorem samples_served : SamplesServed call total := by
  obtain ⟨room, count, whole⟩ := samples_room recorded
  obtain ⟨acquired, processed, shift⟩ := recorded.idle
  have size := recorded.size
  refine ⟨recorded.succeeded, whole, count, ?_⟩
  rw [getAvailable, acquired, shift, Int32.toInt_zero, Int.sub_zero, Int.sub_zero,
    Int32.toInt_ofInt, Int.bmod_def]
  simp only [Int32.size]
  omega

theorem samplesLoop_folds (channel : String) :
    (samplesLoop channel total call.samples 0 call.samplesBuffer).buffer =
      call.samples.foldl fillSamples call.samplesBuffer := by
  obtain ⟨room, count, whole⟩ := samples_room recorded
  have size := recorded.size
  obtain ⟨made, unmade, calls, split, rest, _, _, ends⟩ :=
    samplesLoop_returns channel total (by omega) call.samples 0 call.samplesBuffer
      recorded.succeeded whole (by rw [UInt64.toNat_zero]; omega)
  have needed : unmade = [] := by
    have admissible := recorded.admissible
    rw [split, List.map_append] at admissible
    refine List.map_eq_nil_iff.mp (admissible_all_needed admissible (by omega) ?_)
    intro part member
    obtain ⟨one, inside, rfl⟩ := List.mem_map.mp member
    exact congrArg List.length (rest one inside)
  rw [needed, List.append_nil] at split
  rw [ends, split]

theorem samples_pending (channel : String) :
    Sound (samplesLoop channel total call.samples 0 call.samplesBuffer).buffer ∧
      pending (samplesLoop channel total call.samples 0 call.samplesBuffer).buffer =
        trigs.flatMap RecordedTrigger.elements := by
  obtain ⟨room, _, _⟩ := samples_room recorded
  have size := recorded.size
  obtain ⟨⟨acquired, shift, processed⟩, data⟩ := fillSamples_run call.samples
    (empty_filled_none recorded.idle) size (by rw [stored_parts]; omega)
  rw [stored_parts, Nat.zero_add] at acquired
  rw [Nat.zero_add] at shift
  have length : (call.samples.foldl fillSamples call.samplesBuffer).data.length =
      call.samplesBuffer.data.length := by
    rw [data, place_length]
  have sound : Sound (call.samples.foldl fillSamples call.samplesBuffer) := by
    constructor <;> simp only [processed, acquired, shift, length, Int32.toInt_zero] <;> omega
  rw [samplesLoop_folds recorded]
  refine ⟨sound, ?_⟩
  have block := place_gapless call.samplesBuffer.data 0 call.samples recorded.gapless (by omega)
  rw [Nat.zero_add] at block
  rw [pending, raw_unprocessed_exact sound, unprocessed_exact sound, processed, acquired, shift, data,
    ← recorded.elements, Int32.toInt_zero, Int.zero_add, Int.sub_zero, Int.toNat_natCast,
    Int.toNat_natCast]
  exact block

end Samples

theorem returned_buffer {c : CstZs1Context} {call : AcquireCall} {markers : List FetchReply}
    {data : AcquiredData} (returned : (c.acquire call markers).ending = .returned data) :
    ∃ last rest, c.walkMarkers call markers = .lookAhead last rest ∧
      data.samplesBuffer = (samplesLoop last.context.samplesChannel last.toAcquire call.samples 0
        call.samplesBuffer).buffer := by
  unfold CstZs1Context.acquire at returned
  cases walked : c.walkMarkers call markers with
  | lookAhead last rest =>
      rw [walked] at returned
      refine ⟨last, rest, rfl, ?_⟩
      simp only [processLabel] at returned
      cases ending : (samplesLoop last.context.samplesChannel last.toAcquire call.samples 0
          call.samplesBuffer).ending with
      | returned _ =>
          rw [ending] at returned
          injection returned with same
          rw [← same]
      | threw thrown => rw [ending] at returned; cases returned
      | waiting => rw [ending] at returned; cases returned
  | threw thrown last rest => rw [walked] at returned; cases returned
  | waiting last => rw [walked] at returned; cases returned

/-- What is handed on for a group of triggers: their stamps and their elements. -/
structure HandsOn (group : List RecordedTrigger) (data : AcquiredData) : Prop where
  stamps : data.stamps = group.map RecordedTrigger.stamp
  sound : Sound data.samplesBuffer
  elements : pending data.samplesBuffer = group.flatMap RecordedTrigger.elements

/-- The calls take the triggers of the stream in groups, each with its samples. -/
def RecordedFor : List AcquireCall → List (Hunk × List GateMarker) → List (List RecordedTrigger) → Prop
  | [], _, groups => groups = []
  | call :: calls, segments, groups =>
      ∃ group rest, groups = group :: rest ∧
        (segments.take call.triggersToRead.toNat).map stamp = group.map RecordedTrigger.stamp ∧
        SamplesRecorded call
          (fetchSize ((segments.take call.triggersToRead.toNat).flatMap Prod.snd)) group ∧
        RecordedFor calls (segments.drop call.triggersToRead.toNat) rest

theorem acquireAll_recorded (calls : List AcquireCall) (c : CstZs1Context)
    (markers : List FetchReply) (hunks : List Hunk) (groups : List (List RecordedTrigger))
    (holds : Holds c markers hunks) (askable : ∀ call ∈ calls, Askable call.triggersToRead)
    (kinds : ∀ h ∈ hunks, h.isTrigger = true ∨ h.isGate = true) (fresh : NoReplay c hunks)
    (enough : triggersAsked calls < hunks.countP Hunk.isTrigger)
    (undisturbed : c.Undisturbed calls markers)
    (recorded : RecordedFor calls (Hunk.segments hunks) groups) :
    ∃ data : List AcquiredData,
      (c.acquireAll calls markers).map AcquireResult.ending = data.map Ending.returned ∧
      groups.map List.length = calls.map (fun call => call.triggersToRead.toNat) ∧
      List.Forall₂ HandsOn groups data := by
  induction calls generalizing c markers hunks groups with
  | nil =>
      rw [RecordedFor] at recorded
      subst recorded
      exact ⟨[], rfl, rfl, List.Forall₂.nil⟩
  | cons call calls ih =>
      obtain ⟨group, rest, rfl, names, samples, later⟩ := recorded
      have asked : triggersAsked (call :: calls) =
          call.triggersToRead.toNat + triggersAsked calls := rfl
      rw [asked] at enough
      obtain ⟨data, seen, left, returned, stamps, cut, segments, held, checked⟩ :=
        acquire_served c call markers hunks holds (askable call List.mem_cons_self) kinds fresh
          (by omega) undisturbed.1 (samples_served samples)
      obtain ⟨before, t, after, behind, last, tail, split, trigger, walked, caught, _⟩ :=
        walkMarkers_served c call markers hunks holds (askable call List.mem_cons_self) kinds fresh
          (by omega) (fun fetch member => undisturbed.1 fetch (acquire_walked c call markers fetch member))
      obtain ⟨last', tail', same, buffer⟩ := returned_buffer returned
      rw [walked] at same
      injection same with sameLast _
      subst sameLast
      have taken : (Hunk.segments before).length = call.triggersToRead.toNat :=
        (segments_length Hunk.isTrigger Hunk.gateMarkers before).trans caught.full
      obtain ⟨front, _⟩ := segments_lookAhead trigger taken (after ++ behind)
      rw [← split] at front
      have total : last.toAcquire =
          fetchSize (((Hunk.segments hunks).take call.triggersToRead.toNat).flatMap Prod.snd) := by
        rw [front]
        exact caught.parsed.toAcquire
      rw [total] at buffer
      obtain ⟨sound, elements⟩ := samples_pending samples last.context.samplesChannel
      have count : (Hunk.segments hunks).length = hunks.countP Hunk.isTrigger :=
        segments_length Hunk.isTrigger Hunk.gateMarkers hunks
      have remaining : left.countP Hunk.isTrigger =
          hunks.countP Hunk.isTrigger - call.triggersToRead.toNat := by
        rw [← segments_length Hunk.isTrigger Hunk.gateMarkers left, ← count]
        exact (congrArg List.length segments).trans List.length_drop
      obtain ⟨datas, endings, lengths, all⟩ := ih _ _ left rest held
        (fun next member => askable next (List.mem_cons_of_mem call member))
        (fun h member => kinds h (cut ▸ List.mem_append_right seen member))
        (fun unchecked => absurd checked (by rw [unchecked]; exact Bool.false_ne_true))
        (by omega) undisturbed.2 (by rw [segments]; exact later)
      refine ⟨data :: datas, ?_, ?_, List.Forall₂.cons ⟨?_, ?_, ?_⟩ all⟩
      · simp only [CstZs1Context.acquireAll, List.map_cons, returned, endings]
      · have size := congrArg List.length names
        rw [List.length_map, List.length_map, List.length_take] at size
        rw [List.map_cons, List.map_cons, lengths]
        congr 1
        omega
      · rw [stamps, names]
      · rw [buffer]
        exact sound
      · rw [buffer]
        exact elements

end AqMD3.Acquisition
