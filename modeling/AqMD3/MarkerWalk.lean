import AqMD3.Zs1Context

/-!
The markers walk against the reference parse. `Parsed` says what the walk has
built from the hunks it has read so far and holds for any words at all. The
facts about a served stream add where the next hunk lies: `Tracks` inside a
call, `Holds` between two calls.
-/

namespace AqMD3.Acquisition

open FixedWidth Segments AcquisitionBuffer

theorem fetchSize_append (first second : List GateMarker) :
    fetchSize (first ++ second) = fetchSize first + fetchSize second := by
  simp only [fetchSize, List.map_append, List.sum_append]

/-- The stamps and the fetch size are those of the segments of the hunks read. -/
structure Parsed (seen : List Hunk) (w : Walk) : Prop where
  stamps : w.stamps = (Hunk.segments seen).map stamp
  toAcquire : w.toAcquire = fetchSize ((Hunk.segments seen).flatMap Prod.snd)

/-- What a gate hunk leaves as it was: everything but stamps, sizes and orphans. -/
structure Kept (before after : Walk) : Prop where
  context : after.context = before.context
  trigCount : after.trigCount = before.trigCount
  markersToAcquire : after.markersToAcquire = before.markersToAcquire
  activeMultiplier : after.activeMultiplier = before.activeMultiplier
  fetches : after.fetches = before.fetches

def gatesAt (seg : Hunk) (blocks : List (Fin 4)) : List GateMarker :=
  blocks.filterMap fun block =>
    if seg.blockKind block = 0x04 then some (seg.gateMarker block) else none

theorem gatesAt_cons (seg : Hunk) (block : Fin 4) (rest : List (Fin 4)) :
    gatesAt seg (block :: rest) =
      (if seg.blockKind block = 0x04 then [seg.gateMarker block] else []) ++ gatesAt seg rest := by
  by_cases gate : seg.blockKind block = 0x04
  · simp [gatesAt, gate]
  · simp [gatesAt, gate]

theorem walkBlock_kept (seg : Hunk) (w : Walk) (block : Fin 4) : Kept w (walkBlock seg w block) := by
  unfold walkBlock
  split
  · split
    · exact ⟨rfl, rfl, rfl, rfl, rfl⟩
    · exact ⟨rfl, rfl, rfl, rfl, rfl⟩
  · exact ⟨rfl, rfl, rfl, rfl, rfl⟩

theorem walkBlocks_kept (seg : Hunk) (blocks : List (Fin 4)) (w : Walk) :
    Kept w (blocks.foldl (walkBlock seg) w) := by
  induction blocks generalizing w with
  | nil => exact ⟨rfl, rfl, rfl, rfl, rfl⟩
  | cons block rest ih =>
      have head := walkBlock_kept seg w block
      have tail := ih (walkBlock seg w block)
      exact ⟨tail.context.trans head.context, tail.trigCount.trans head.trigCount,
        tail.markersToAcquire.trans head.markersToAcquire,
        tail.activeMultiplier.trans head.activeMultiplier, tail.fetches.trans head.fetches⟩

/-- Before the first trigger the blocks of a gate hunk change no stamp and no size. -/
theorem walkBlocks_orphans (seg : Hunk) (blocks : List (Fin 4)) (w : Walk) (none : w.stamps = []) :
    (blocks.foldl (walkBlock seg) w).stamps = [] ∧
      (blocks.foldl (walkBlock seg) w).toAcquire = w.toAcquire := by
  induction blocks generalizing w with
  | nil => exact ⟨none, rfl⟩
  | cons block rest ih =>
      have head : (walkBlock seg w block).stamps = [] ∧
          (walkBlock seg w block).toAcquire = w.toAcquire := by
        unfold walkBlock
        split
        · simp [none, Walk.orphan]
        · exact ⟨none, rfl⟩
      obtain ⟨stamps, toAcquire⟩ := ih _ head.1
      exact ⟨stamps, toAcquire.trans head.2⟩

/-- After it they extend the last stamp and the size, block by block. -/
theorem walkBlocks_attached (seg : Hunk) (blocks : List (Fin 4)) (w : Walk)
    (front : List TriggerData) (last : TriggerData) (stamps : w.stamps = front ++ [last]) :
    (blocks.foldl (walkBlock seg) w).stamps = front ++ [{ last with
        gateData := last.gateData ++ (gatesAt seg blocks).map GateMarker.gateData }] ∧
      (blocks.foldl (walkBlock seg) w).toAcquire =
        w.toAcquire + fetchSize (gatesAt seg blocks) := by
  induction blocks generalizing w last with
  | nil => simp [stamps, gatesAt, fetchSize]
  | cons block rest ih =>
      rw [gatesAt_cons, List.foldl_cons]
      by_cases gate : seg.blockKind block = 0x04
      · have step : walkBlock seg w block = w.attach (seg.gateMarker block) := by
          simp [walkBlock, gate, stamps]
        have grown : (w.attach (seg.gateMarker block)).stamps = front ++ [{ last with
            gateData := last.gateData ++ [(seg.gateMarker block).gateData] }] := by
          simp only [Walk.attach, stamps]
          exact List.modifyLast_concat _ _ _
        obtain ⟨tail, total⟩ := ih (w.attach (seg.gateMarker block)) _ grown
        rw [step, tail, total, fetchSize_append]
        simp [gate, Walk.attach, fetchSize, UInt64.add_assoc]
      · have step : walkBlock seg w block = w := by simp [walkBlock, gate]
        rw [step]
        simpa [gate] using ih w last stamps

theorem walkGate_kept (w : Walk) (seg : Hunk) :
    (walkGate w seg).context =
        { w.context with markersBuffer := w.buffer.advanceProcessed 16 } ∧
      (walkGate w seg).trigCount = w.trigCount ∧
      (walkGate w seg).markersToAcquire = w.markersToAcquire ∧
      (walkGate w seg).activeMultiplier = w.activeMultiplier ∧
      (walkGate w seg).fetches = w.fetches := by
  have kept := walkBlocks_kept seg (List.finRange 4) w
  refine ⟨?_, kept.trigCount, kept.markersToAcquire, kept.activeMultiplier, kept.fetches⟩
  simp only [walkGate, Walk.onBuffer, kept.context]
  rfl

theorem segments_trigger (seen : List Hunk) (h : Hunk) (trigger : h.isTrigger = true) :
    Hunk.segments (seen ++ [h]) = Hunk.segments seen ++ [(h, [])] :=
  segments_concat_mark Hunk.isTrigger Hunk.gateMarkers seen h trigger

theorem segments_gate (seen : List Hunk) (h : Hunk) (gate : h.isTrigger = false) :
    Hunk.segments (seen ++ [h]) = (Hunk.segments seen).modifyLast fun segment =>
      (segment.1, segment.2 ++ h.gateMarkers) :=
  segments_concat_part Hunk.isTrigger Hunk.gateMarkers seen h gate

theorem parsed_begin (c : CstZs1Context) (triggersToRead : UInt64) :
    Parsed [] (Walk.begin c triggersToRead) := ⟨rfl, rfl⟩

/-- Only the stamps and the fetch size of a walk matter to `Parsed`. -/
theorem parsed_of_same {seen : List Hunk} {before after : Walk} (parsed : Parsed seen before)
    (stamps : after.stamps = before.stamps) (toAcquire : after.toAcquire = before.toAcquire) :
    Parsed seen after := ⟨stamps.trans parsed.stamps, toAcquire.trans parsed.toAcquire⟩

theorem parsed_trigger {seen : List Hunk} {before after : Walk} (parsed : Parsed seen before)
    (h : Hunk) (trigger : h.isTrigger = true) (stamps : after.stamps = before.stamps ++ [h.trigger])
    (toAcquire : after.toAcquire = before.toAcquire) : Parsed (seen ++ [h]) after := by
  constructor
  · rw [stamps, parsed.stamps, segments_trigger seen h trigger, List.map_append]
    rfl
  · rw [toAcquire, parsed.toAcquire, segments_trigger seen h trigger]
    simp

theorem parsed_gate {seen : List Hunk} {w : Walk} (parsed : Parsed seen w) (h : Hunk)
    (gate : h.isTrigger = false) : Parsed (seen ++ [h]) (walkGate w h) := by
  rcases List.eq_nil_or_concat (Hunk.segments seen) with empty | ⟨front, last, split⟩
  · have none : w.stamps = [] := by rw [parsed.stamps, empty, List.map_nil]
    obtain ⟨stamps, toAcquire⟩ := walkBlocks_orphans h (List.finRange 4) w none
    constructor
    · rw [segments_gate seen h gate, empty]
      exact stamps
    · rw [segments_gate seen h gate, empty]
      exact toAcquire.trans (parsed.toAcquire.trans (by rw [empty]; rfl))
  · rw [List.concat_eq_append] at split
    have some : w.stamps = front.map stamp ++ [stamp last] := by
      rw [parsed.stamps, split, List.map_append, List.map_singleton]
    obtain ⟨stamps, toAcquire⟩ := walkBlocks_attached h (List.finRange 4) w _ _ some
    have extended : Hunk.segments (seen ++ [h]) = front ++ [(last.1, last.2 ++ h.gateMarkers)] := by
      rw [segments_gate seen h gate, split]
      exact List.modifyLast_concat _ _ _
    constructor
    · rw [extended, List.map_append]
      refine stamps.trans ?_
      simp only [stamp, List.map_append, List.map_singleton]
      rfl
    · refine toAcquire.trans ?_
      rw [extended, parsed.toAcquire, split, List.flatMap_append, List.flatMap_append,
        fetchSize_append, fetchSize_append, List.flatMap_singleton, List.flatMap_singleton,
        fetchSize_append, UInt64.add_assoc]
      rfl

/-- The walk with a trigger hunk taken in, before its sixteen words are passed. -/
def Walk.stamped (w : Walk) (context : CstZs1Context) (seg : Hunk) : Walk :=
  { w with
    trigCount := w.trigCount + 1
    context := context
    stamps := w.stamps ++ [seg.trigger] }

/-- Every way a hunk can be taken, with all that it changes. -/
theorem walkHunk_cases (triggersToRead : UInt64) (w : Walk) :
    (w.segment.isTrigger = true ∧
        triggersToRead + 1 ≤ (w.trigCount + 1).toInt64.toUInt64 ∧
        walkHunk triggersToRead w = .lookAhead { w with trigCount := w.trigCount + 1 }) ∨
    (w.segment.isTrigger = true ∧ ∃ context damaged,
        w.context.noteTrigger w.segment.timestamp w.segment.index = (context, some damaged) ∧
        walkHunk triggersToRead w = .threw damaged (w.stamped context w.segment)) ∨
    (w.segment.isTrigger = true ∧
        ¬ triggersToRead + 1 ≤ (w.trigCount + 1).toInt64.toUInt64 ∧ ∃ context,
        w.context.noteTrigger w.segment.timestamp w.segment.index = (context, none) ∧
        walkHunk triggersToRead w =
          .walked ((w.stamped context w.segment).onBuffer fun b => b.advanceProcessed 16)) ∨
    (w.segment.isTrigger = false ∧ w.segment.isGate = true ∧
        walkHunk triggersToRead w = .walked (walkGate w w.segment)) ∨
    (w.segment.isTrigger = false ∧ w.segment.isGate = false ∧
        ∃ thrown, walkHunk triggersToRead w = .threw thrown w) := by
  by_cases trigger : w.segment.isTrigger = true
  · by_cases overshoots : triggersToRead + 1 ≤ (w.trigCount + 1).toInt64.toUInt64
    · exact Or.inl ⟨trigger, overshoots, by simp [walkHunk, walkTrigger, trigger, overshoots]⟩
    · rcases noted : w.context.noteTrigger w.segment.timestamp w.segment.index with ⟨context, outcome⟩
      cases outcome with
      | some damaged =>
          refine Or.inr (Or.inl ⟨trigger, context, damaged, rfl, ?_⟩)
          simp only [walkHunk, walkTrigger, trigger, overshoots, noted, ↓reduceIte]
          rfl
      | none =>
          refine Or.inr (Or.inr (Or.inl ⟨trigger, overshoots, context, rfl, ?_⟩))
          simp only [walkHunk, walkTrigger, trigger, overshoots, noted, ↓reduceIte]
          rfl
  · rw [Bool.not_eq_true] at trigger
    by_cases gate : w.segment.isGate = true
    · exact Or.inr (Or.inr (Or.inr (Or.inl ⟨trigger, gate, by simp [walkHunk, trigger, gate]⟩)))
    · rw [Bool.not_eq_true] at gate
      refine Or.inr (Or.inr (Or.inr (Or.inr ⟨trigger, gate, ?_⟩)))
      by_cases dummy : w.segment.kind = 0x08
      · exact ⟨_, by simp [walkHunk, trigger, gate, dummy]; rfl⟩
      · exact ⟨_, by simp [walkHunk, trigger, gate, dummy]; rfl⟩

def Stage.walk : Stage → Walk
  | .walked w => w
  | .lookAhead w => w
  | .threw _ w => w

def MarkersEnd.walk : MarkersEnd → Walk
  | .lookAhead w _ => w
  | .threw _ w _ => w
  | .waiting w => w

theorem walkHunk_fetches (triggersToRead : UInt64) (w : Walk) :
    (walkHunk triggersToRead w).walk.fetches = w.fetches := by
  rcases walkHunk_cases triggersToRead w with
    ⟨_, _, step⟩ | ⟨_, _, _, _, step⟩ | ⟨_, _, _, _, step⟩ | ⟨_, _, step⟩ | ⟨_, _, _, step⟩
  · rw [step]
    rfl
  · rw [step]
    rfl
  · rw [step]
    rfl
  · rw [step]
    exact (walkGate_kept w w.segment).2.2.2.2
  · rw [step]
    rfl

theorem walkHunks_fetches (triggersToRead : UInt64) (count : Nat) (w : Walk) :
    (walkHunks triggersToRead count w).walk.fetches = w.fetches := by
  induction count generalizing w with
  | zero => rfl
  | succ count ih =>
      have head := walkHunk_fetches triggersToRead w
      unfold walkHunks
      cases step : walkHunk triggersToRead w with
      | walked next =>
          rw [step] at head
          exact (ih next).trans head
      | lookAhead last =>
          rw [step] at head
          exact head
      | threw thrown last =>
          rw [step] at head
          exact head

/-- The hunks that a walk passes, in order. It does not pass the one it stops at. -/
def walkHunksPassed (triggersToRead : UInt64) : Nat → Walk → List Hunk
  | 0, _ => []
  | count + 1, w =>
      match walkHunk triggersToRead w with
      | .walked next => w.segment :: walkHunksPassed triggersToRead count next
      | _ => []

def markersLoopPassed (triggersToRead : UInt64) : List FetchReply → Walk → List Hunk
  | [], _ => []
  | reply :: replies, w =>
      if reply.elements.length = 0 then markersLoopPassed triggersToRead replies (w.fetched reply)
      else
        let entered := ((w.fetched reply).grown triggersToRead reply.available).advanced reply
        walkHunksPassed triggersToRead (reply.elements.length / 16) entered ++
          match walkHunks triggersToRead (reply.elements.length / 16) entered with
          | .walked next => markersLoopPassed triggersToRead replies (next.onBuffer fun b => b.reset)
          | _ => []

/-- The hunks of a call that comes to its `process` label. -/
def CstZs1Context.hunksPassed (c : CstZs1Context) (call : AcquireCall) (markers : List FetchReply) :
    List Hunk :=
  let w := Walk.begin c call.triggersToRead
  let left := (c.markersBuffer.getUnprocessed.toInt.tdiv 16).toNat
  walkHunksPassed call.triggersToRead left w ++
    match walkHunks call.triggersToRead left w with
    | .walked next =>
        markersLoopPassed call.triggersToRead markers (next.onBuffer fun b => b.reset)
    | _ => []

/-- Whatever the words are, a walk that ends or meets the look-ahead trigger has
parsed the hunks it passed. -/
theorem walkHunks_parsed (triggersToRead : UInt64) (count : Nat) (w : Walk) (seen : List Hunk)
    (parsed : Parsed seen w) (last : Walk) (outcome : walkHunks triggersToRead count w = .walked last ∨
      walkHunks triggersToRead count w = .lookAhead last) :
    Parsed (seen ++ walkHunksPassed triggersToRead count w) last := by
  induction count generalizing w seen with
  | zero =>
      rcases outcome with walked | caught
      · cases walked
        simpa [walkHunksPassed] using parsed
      · cases caught
  | succ count ih =>
      unfold walkHunks at outcome
      unfold walkHunksPassed
      rcases walkHunk_cases triggersToRead w with
        ⟨_, _, step⟩ | ⟨_, _, _, _, step⟩ | ⟨trigger, _, context, _, step⟩ | ⟨gate, _, step⟩ |
          ⟨_, _, _, step⟩
      · simp only [step, reduceCtorEq, Stage.lookAhead.injEq, false_or] at outcome ⊢
        subst outcome
        rw [List.append_nil]
        exact parsed_of_same parsed rfl rfl
      · simp [step] at outcome
      · simp only [step] at outcome ⊢
        rw [List.append_cons]
        exact ih _ _ (parsed_trigger parsed w.segment trigger rfl rfl) outcome
      · simp only [step] at outcome ⊢
        rw [List.append_cons]
        exact ih _ _ (parsed_gate parsed w.segment gate) outcome
      · simp [step] at outcome

theorem markersLoop_parsed (triggersToRead : UInt64) (deadline : Option Int)
    (replies : List FetchReply) (w : Walk) (seen : List Hunk) (parsed : Parsed seen w)
    (last : Walk) (rest : List FetchReply)
    (caught : markersLoop triggersToRead deadline replies w = .lookAhead last rest) :
    Parsed (seen ++ markersLoopPassed triggersToRead replies w) last := by
  induction replies generalizing w seen with
  | nil =>
      unfold markersLoop at caught
      split at caught <;> cases caught
  | cons reply replies ih =>
      unfold markersLoop at caught
      unfold markersLoopPassed
      split at caught
      · cases caught
      · cases failed : reply.error with
        | some text => simp [failed] at caught
        | none =>
            simp only [failed] at caught
            split at caught
            · cases caught
            · split at caught
              · rename_i nothing
                -- A fetch of no elements is followed by the next one.
                have same : Parsed seen (w.fetched reply) := parsed_of_same parsed rfl rfl
                rw [if_pos nothing]
                exact ih _ seen same caught
              · rename_i something
                have grown : Parsed seen
                    (((w.fetched reply).grown triggersToRead reply.available).advanced reply) := by
                  unfold Walk.grown
                  split
                  · exact parsed_of_same parsed rfl rfl
                  · exact parsed_of_same parsed rfl rfl
                -- The block is walked up to its end or to the look-ahead trigger.
                have walked := walkHunks_parsed triggersToRead (reply.elements.length / 16) _ seen grown
                rw [if_neg something]
                split at caught
                · rename_i last' stage
                  cases caught
                  simp only [stage, List.append_nil]
                  exact walked last (Or.inr stage)
                · cases caught
                · rename_i next stage
                  simp only [stage]
                  rw [← List.append_assoc]
                  exact ih (next.onBuffer fun b => b.reset) _
                    (parsed_of_same (walked next (Or.inl stage)) rfl rfl) caught

theorem hunksPassed_parsed (c : CstZs1Context) (call : AcquireCall) (markers : List FetchReply)
    (last : Walk) (rest : List FetchReply) (caught : c.walkMarkers call markers = .lookAhead last rest) :
    Parsed (c.hunksPassed call markers) last := by
  unfold CstZs1Context.walkMarkers at caught
  unfold CstZs1Context.hunksPassed
  have walked := walkHunks_parsed call.triggersToRead
    (c.markersBuffer.getUnprocessed.toInt.tdiv 16).toNat _ [] (parsed_begin c call.triggersToRead)
  simp only [List.nil_append] at caught walked ⊢
  split at caught
  · cases caught
  · split at caught
    · rename_i last' stage
      cases caught
      simp only [stage, List.append_nil]
      exact walked last (Or.inr stage)
    · cases caught
    · rename_i next stage
      simp only [stage]
      exact markersLoop_parsed call.triggersToRead call.deadline markers
        (next.onBuffer fun b => b.reset) _ (parsed_of_same (walked next (Or.inl stage)) rfl rfl)
        last rest caught

/-- What a call has built when it reaches its `process` label is the parse of some
hunks, whatever words the stream held. -/
theorem walkMarkers_parsed (c : CstZs1Context) (call : AcquireCall) (markers : List FetchReply)
    (last : Walk) (rest : List FetchReply) (caught : c.walkMarkers call markers = .lookAhead last rest) :
    ∃ seen, Parsed seen last :=
  ⟨_, hunksPassed_parsed c call markers last rest caught⟩

/-- A request that is not refused is a fetch in the trace of the call, before
any the rest of the loop makes. -/
theorem markersLoop_call (triggersToRead : UInt64) (deadline : Option Int) (reply : FetchReply)
    (replies : List FetchReply) (w : Walk)
    (tail : ∀ next : Walk, ∃ more,
      (markersLoop triggersToRead deadline replies next).walk.fetches = next.fetches ++ more)
    (aligned : Aligned w.markersToAcquire.toInt) :
    ∃ more, (markersLoop triggersToRead deadline (reply :: replies) w).walk.fetches =
      (w.fetched reply).fetches ++ more := by
  simp only [markersLoop, checkFetchAlignment, aligned, ↓reduceIte]
  cases reply.error with
  | some text => exact ⟨[], (List.append_nil _).symm⟩
  | none =>
      simp only
      split
      · exact ⟨[], (List.append_nil _).symm⟩
      · split
        · exact tail (w.fetched reply)
        · have grown : (((w.fetched reply).grown triggersToRead reply.available).advanced
              reply).fetches = (w.fetched reply).fetches := by
            unfold Walk.grown
            split <;> rfl
          have walked := walkHunks_fetches triggersToRead (reply.elements.length / 16)
            (((w.fetched reply).grown triggersToRead reply.available).advanced reply)
          rw [grown] at walked
          split
          · rename_i last stage
            rw [stage] at walked
            exact ⟨[], by rw [List.append_nil, ← walked]; rfl⟩
          · rename_i thrown last stage
            rw [stage] at walked
            exact ⟨[], by rw [List.append_nil, ← walked]; rfl⟩
          · rename_i next stage
            rw [stage] at walked
            rw [← walked]
            exact tail (next.onBuffer fun b => b.reset)

/-- A fetch, once made, stays in the trace of the call. -/
theorem markersLoop_fetches (triggersToRead : UInt64) (deadline : Option Int)
    (replies : List FetchReply) (w : Walk) :
    ∃ more, (markersLoop triggersToRead deadline replies w).walk.fetches = w.fetches ++ more := by
  induction replies generalizing w with
  | nil =>
      refine ⟨[], ?_⟩
      unfold markersLoop
      split <;> simp [MarkersEnd.walk]
  | cons reply replies ih =>
      by_cases aligned : Aligned w.markersToAcquire.toInt
      · obtain ⟨more, fetches⟩ := markersLoop_call triggersToRead deadline reply replies w ih aligned
        exact ⟨_, fetches.trans (List.append_assoc _ _ _)⟩
      · refine ⟨[], ?_⟩
        simp [markersLoop, checkFetchAlignment, aligned, MarkersEnd.walk]

end AqMD3.Acquisition
