import AqMD3.TriggerNotes

/-!
Spans that lie in order on a line of cells, with a free cell between any two. A span is
charged for its own cells and, where one or none, for the free cell behind it, so
together they never cost more than the line and the cell behind it.
-/

namespace AqMD3.SpanPacking

/-- Spans `(start, stop)` of the cells from `start` up to `stop`, from `low` on. They start
on the line, and the last of their cells may lie one past it. -/
def Apart (last : Nat) : Nat → List (Nat × Nat) → Prop
  | _, [] => True
  | low, span :: rest =>
      low ≤ span.1 ∧ span.1 ≤ last ∧ span.1 ≤ span.2 ∧ span.2 ≤ last + 2 ∧
        Apart last (span.2 + 1) rest

instance decidableApart (last : Nat) :
    (low : Nat) → (spans : List (Nat × Nat)) → Decidable (Apart last low spans)
  | _, [] => inferInstanceAs (Decidable True)
  | low, span :: rest =>
      have := decidableApart last (span.2 + 1) rest
      inferInstanceAs (Decidable (low ≤ span.1 ∧ _ ∧ _ ∧ _ ∧ _))

theorem apart_inside {last low : Nat} {spans : List (Nat × Nat)} (apart : Apart last low spans) :
    ∀ span ∈ spans, span.1 ≤ span.2 ∧ span.2 ≤ last + 2 := by
  induction spans generalizing low with
  | nil => exact fun span member => absurd member List.not_mem_nil
  | cons first rest ih =>
      obtain ⟨_, _, ordered, past, later⟩ := apart
      intro span member
      rcases List.mem_cons.mp member with here | tail
      · rw [here]
        exact ⟨ordered, past⟩
      · exact ih later span tail

/-- A price that covers the cells of a span, and a free one where they are one or none. -/
structure Cheap (cost : Nat → Nat) (price : Nat) : Prop where
  few : ∀ cells, cost cells ≤ price * (cells + 1)
  many : ∀ cells, 2 ≤ cells → cost cells ≤ price * cells

theorem single_le {cost : Nat → Nat} {price last low start stop : Nat} (cheap : Cheap cost price)
    (after : low ≤ start) (inside : start ≤ last) (ordered : start ≤ stop)
    (past : stop ≤ last + 2) : cost (stop - start) ≤ price * (last + 2 - low) := by
  by_cases many : 2 ≤ stop - start
  · apply Nat.le_trans (cheap.many _ many)
    apply Nat.mul_le_mul_left
    omega
  · apply Nat.le_trans (cheap.few _)
    apply Nat.mul_le_mul_left
    omega

theorem packed_le {cost : Nat → Nat} {price last low : Nat} {spans : List (Nat × Nat)}
    (cheap : Cheap cost price) (apart : Apart last low spans) :
    (spans.map fun span => cost (span.2 - span.1)).sum ≤ price * (last + 2 - low) := by
  induction spans generalizing low with
  | nil => exact Nat.zero_le _
  | cons span rest ih =>
      obtain ⟨after, inside, ordered, past, later⟩ := apart
      rw [List.map_cons, List.sum_cons]
      cases rest with
      | nil => exact single_le cheap after inside ordered past
      | cons next others =>
          have tail := ih later
          have here := cheap.few (span.2 - span.1)
          -- The next span starts on the line, so the free cell does as well.
          have free : span.2 + 1 ≤ last := Nat.le_trans later.1 later.2.1
          have split : last + 2 - low =
              (span.1 - low) + (span.2 - span.1 + 1) + (last + 2 - (span.2 + 1)) := by omega
          rw [split, Nat.mul_add, Nat.mul_add]
          omega

theorem packed_whole (cost : Nat → Nat) (unit : Nat) (whole : ∀ cells, unit ∣ cost cells)
    (spans : List (Nat × Nat)) : unit ∣ (spans.map fun span => cost (span.2 - span.1)).sum := by
  induction spans with
  | nil => exact Nat.dvd_zero unit
  | cons span rest ih =>
      rw [List.map_cons, List.sum_cons]
      exact Nat.dvd_add (whole _) ih

end AqMD3.SpanPacking

/-!
How much one `acquire` can ask of the samples stream. A gate is fetched in whole hunks of
16 elements, four of them a block of 8 samples, so a gate of one block costs as much as
one of four. Gates that lie in a record with a suppressed block between them still cost
no more elements than the record has samples.
-/

namespace AqMD3.Acquisition

open FixedWidth SpanPacking

/-- The elements of a gate of so many blocks. -/
def blockCost (blocks : Nat) : Nat := (4 * blocks + 15) / 16 * 16

theorem blockCost_cheap : Cheap blockCost 8 where
  few := fun blocks => by
    unfold blockCost
    omega
  many := fun blocks several => by
    unfold blockCost
    omega

theorem blockCost_hunks (blocks : Nat) : 16 ∣ blockCost blocks := Nat.dvd_mul_left 16 _

def GateMarker.span (m : GateMarker) : Nat × Nat := (m.startBlockIndex.toNat, m.endBlockIndex.toNat)

/-- Gates of one trigger that lie inside a record, in order, with at least one suppressed
block between them. The blocks are counted from 1, and the end block of a gate is the
next one after its last, or at position 0 the one after that. -/
def InRecord (recordSize : UInt64) (gates : List GateMarker) : Prop :=
  Apart (recordSize.toNat / 8) 1 (gates.map GateMarker.span)

instance (recordSize : UInt64) (gates : List GateMarker) : Decidable (InRecord recordSize gates) :=
  decidableApart _ _ _

/-- No wrap and no overflow: the elements are those of the gate's blocks. -/
theorem toAcquireMemoryBlocks_cost (m : GateMarker)
    (ordered : m.startBlockIndex.toNat ≤ m.endBlockIndex.toNat)
    (narrow : m.endBlockIndex.toNat < 2 ^ 62 - 4) :
    m.toAcquireMemoryBlocks.toNat = blockCost (m.endBlockIndex.toNat - m.startBlockIndex.toNat) := by
  rw [m.toAcquireMemoryBlocks_rounded, blockCost]
  omega

theorem fetchSize_packed {recordSize : UInt64} {gates : List GateMarker}
    (inRecord : InRecord recordSize gates) :
    (fetchSize gates).toNat ≤
      ((gates.map GateMarker.span).map fun span => blockCost (span.2 - span.1)).sum := by
  have inside := apart_inside inRecord
  have narrow := recordSize.toNat_lt
  clear inRecord
  induction gates with
  | nil => exact Nat.zero_le _
  | cons m rest ih =>
      obtain ⟨ordered, past⟩ := inside m.span List.mem_cons_self
      have cost := toAcquireMemoryBlocks_cost m ordered (by
        change m.span.2 < _
        omega)
      have tail := ih fun span member => inside span (List.mem_cons_of_mem _ member)
      have split : fetchSize (m :: rest) = m.toAcquireMemoryBlocks + fetchSize rest := rfl
      rw [split, UInt64.toNat_add, List.map_cons, List.map_cons, List.sum_cons, cost]
      apply Nat.le_trans (Nat.mod_le _ _)
      exact Nat.add_le_add_left tail _

/-- The packing: eight elements a block, its free neighbour included, and whole hunks on
both sides. -/
theorem fetchSize_le_record {recordSize : UInt64} (whole : 32 ∣ recordSize.toNat)
    {gates : List GateMarker} (inRecord : InRecord recordSize gates) :
    (fetchSize gates).toNat ≤ recordSize.toNat := by
  have packed := packed_le blockCost_cheap inRecord
  have hunks := packed_whole blockCost 16 blockCost_hunks (gates.map GateMarker.span)
  apply Nat.le_trans (fetchSize_packed inRecord)
  omega

theorem fetchSize_le {recordSize : UInt64} (whole : 32 ∣ recordSize.toNat)
    {segments : List (Hunk × List GateMarker)}
    (inRecord : ∀ segment ∈ segments, InRecord recordSize segment.2) :
    (fetchSize (segments.flatMap Prod.snd)).toNat ≤ segments.length * recordSize.toNat := by
  induction segments with
  | nil => exact Nat.zero_le _
  | cons segment rest ih =>
      have here := fetchSize_le_record whole (inRecord segment List.mem_cons_self)
      have later := ih fun other member => inRecord other (List.mem_cons_of_mem segment member)
      rw [List.flatMap_cons, fetchSize_append, UInt64.toNat_add, List.length_cons, Nat.add_mul,
        Nat.one_mul]
      apply Nat.le_trans (Nat.mod_le _ _)
      omega

/-- Before the look-ahead trigger a call has counted its stamps in an int, and has no more
of them than it was asked for. -/
structure Counts (triggersToRead : UInt64) (w : Walk) : Prop where
  counted : w.trigCount = Int32.ofNat w.stamps.length
  narrow : w.stamps.length < 2 ^ 32 - 1
  room : w.stamps.length ≤ triggersToRead.toNat

/-- The int as the comparison sees it: exact at first, and past 2^31 near 2^64. -/
theorem widen_ofNat (n : Nat) (narrow : n < 2 ^ 32) :
    n ≤ (Int32.ofNat n).toInt64.toUInt64.toNat ∧
      (n = 2 ^ 32 - 1 → (Int32.ofNat n).toInt64.toUInt64.toNat = 2 ^ 64 - 1) := by
  have value := int32_widen (Int32.ofNat n)
  rw [Int32.toInt_ofNat', Int.bmod_def] at value
  simp only [Int32.size] at value
  omega

theorem stamps_counted {triggersToRead : UInt64} {w : Walk} (counts : Counts triggersToRead w)
    (short : ¬ triggersToRead + 1 ≤ (w.trigCount + 1).toInt64.toUInt64) :
    w.stamps.length + 1 < 2 ^ 32 - 1 ∧ w.stamps.length + 1 ≤ triggersToRead.toNat := by
  have narrow := counts.narrow
  have width := triggersToRead.toNat_lt
  have next : w.trigCount + 1 = Int32.ofNat (w.stamps.length + 1) := by
    rw [counts.counted, Int32.ofNat_add]
    rfl
  obtain ⟨low, top⟩ := widen_ofNat (w.stamps.length + 1) (by omega)
  rw [next, UInt64.le_iff_toNat_le, UInt64.toNat_add, UInt64.toNat_one] at short
  omega

theorem walkGate_stamps (w : Walk) (seg : Hunk) :
    (walkGate w seg).stamps.length = w.stamps.length := by
  have same := congrArg List.length (walkGate_timestamps w seg).1
  rwa [Walk.timestamps, Walk.timestamps, List.length_map, List.length_map] at same

theorem counts_hunk (triggersToRead : UInt64) (w : Walk) (counts : Counts triggersToRead w) :
    (walkHunk triggersToRead w).Meets (Counts triggersToRead)
      (fun last => last.stamps.length ≤ triggersToRead.toNat) (fun _ _ => True) := by
  rcases walkHunk_cases triggersToRead w with
    ⟨_, _, step⟩ | ⟨_, _, _, _, step⟩ | ⟨_, short, context, _, step⟩ | ⟨_, _, step⟩ |
      ⟨_, _, _, step⟩
  · rw [step]
    exact counts.room
  · rw [step]
    trivial
  · obtain ⟨narrow, room⟩ := stamps_counted counts short
    have length : ((w.stamped context w.segment).onBuffer fun b =>
        b.advanceProcessed 16).stamps.length = w.stamps.length + 1 := by
      simp [Walk.onBuffer, Walk.stamped]
    rw [step]
    refine ⟨?_, length ▸ narrow, length ▸ room⟩
    rw [length, Int32.ofNat_add, ← counts.counted]
    rfl
  · have length := walkGate_stamps w w.segment
    rw [step]
    exact ⟨by rw [length, ← counts.counted]; exact (walkGate_kept w w.segment).2.1,
      length ▸ counts.narrow, length ▸ counts.room⟩
  · rw [step]
    trivial

theorem counts_rule (triggersToRead : UInt64) :
    WalkRule triggersToRead (Counts triggersToRead)
      (fun last => last.stamps.length ≤ triggersToRead.toNat) (fun _ _ => True) where
  hunk := counts_hunk triggersToRead
  fetched := fun _ _ counts => ⟨counts.counted, counts.narrow, counts.room⟩
  grown := fun w available counts => by
    unfold Walk.grown
    split
    · exact ⟨counts.counted, counts.narrow, counts.room⟩
    · exact counts
  onBuffer := fun _ _ counts => ⟨counts.counted, counts.narrow, counts.room⟩
  refused := fun _ _ _ => trivial

theorem counts_begin (c : CstZs1Context) (triggersToRead : UInt64) :
    Counts triggersToRead (Walk.begin c triggersToRead) :=
  ⟨rfl, by simp [Walk.begin], Nat.zero_le _⟩

/-- One call, whatever the driver answers: no more elements than a record of samples for
each trigger it was asked for. -/
theorem acquire_fetches_le {c : CstZs1Context} {call : AcquireCall} {markers rest : List FetchReply}
    {last : Walk} (caught : c.walkMarkers call markers = .lookAhead last rest) {recordSize : UInt64}
    (whole : 32 ∣ recordSize.toNat)
    (inRecord : ∀ segment ∈ Hunk.segments (c.hunksPassed call markers),
      InRecord recordSize segment.2) :
    (c.acquire call markers).toAcquire.toNat ≤ call.triggersToRead.toNat * recordSize.toNat := by
  have parsed := hunksPassed_parsed c call markers last rest caught
  have room := walkMarkers_meets (counts_rule call.triggersToRead) markers
    (counts_begin c call.triggersToRead)
  rw [caught] at room
  have triggers : (Hunk.segments (c.hunksPassed call markers)).length ≤
      call.triggersToRead.toNat := by
    have length := congrArg List.length parsed.stamps
    rw [List.length_map] at length
    exact length ▸ room
  have asked : (c.acquire call markers).toAcquire = last.toAcquire := by
    simp only [CstZs1Context.acquire, caught]
    rfl
  rw [asked, parsed.toAcquire]
  calc _ ≤ (Hunk.segments (c.hunksPassed call markers)).length * recordSize.toNat :=
        fetchSize_le whole inRecord
    _ ≤ call.triggersToRead.toNat * recordSize.toNat := Nat.mul_le_mul_right _ triggers

end AqMD3.Acquisition
