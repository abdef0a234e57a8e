import AqMD3.Zs1Context

/-!
The samples loop of `acquire`: a fetch that comes back short is followed by one
for the rest. Every fetch moves the buffer's offset by its own first valid
element, and `get_raw_unprocessed()` is read once, after the last. What was
fetched is contiguous there when no fetch behind stored elements moves it.
-/

namespace AqMD3.Acquisition

open FixedWidth Overwrite AcquisitionBuffer

/-- A buffer whose elements nobody has consumed, with its two other positions. -/
structure Filled (b : AcquisitionBuffer) (acquired offset : Nat) : Prop where
  acquiredIndex : b.acquiredIndex.toInt = acquired
  offset : b.offset.toInt = offset
  processedIndex : b.processedIndex = 0

theorem empty_filled_none {b : AcquisitionBuffer} (empty : Empty b) : Filled b 0 0 := by
  obtain ⟨acquired, processed, shift⟩ := empty
  exact ⟨by rw [acquired]; rfl, by rw [shift]; rfl, processed⟩

def FetchReply.part (reply : FetchReply) : Nat × List Int32 := (reply.first, reply.elements)

theorem fillSamples_exact {b : AcquisitionBuffer} {acquired offset : Nat} (reply : FetchReply)
    (filled : Filled b acquired offset) (size : b.data.length < 2 ^ 31)
    (fits : acquired + offset + reply.first + reply.elements.length ≤ b.data.length) :
    Filled (fillSamples b reply) (acquired + reply.elements.length) (offset + reply.first) ∧
      (fillSamples b reply).data =
        overwrite b.data (acquired + offset + reply.first) reply.elements := by
  have acquiredIndex := filled.acquiredIndex
  have shift := filled.offset
  have first : (Int32.ofNat reply.first).toInt = reply.first := int32_ofNat_exact _ (by omega)
  have count : (Int32.ofNat reply.elements.length).toInt = reply.elements.length :=
    int32_ofNat_exact _ (by omega)
  have place : (b.getRawUnaquired + reply.first).toNat = acquired + offset + reply.first := by
    rw [getRawUnaquired, int32_add_exact _ _ (by omega) (by omega)]
    omega
  refine ⟨⟨?_, ?_, filled.processedIndex⟩, ?_⟩
  · change (b.acquiredIndex + Int32.ofNat reply.elements.length).toInt = _
    rw [int32_add_exact _ _ (by omega) (by omega), acquiredIndex, count]
    rfl
  · change (b.offset + Int32.ofNat reply.first).toInt = _
    rw [int32_add_exact _ _ (by omega) (by omega), shift, first]
    rfl
  · rw [← place]
    rfl

/-- A run of samples fetches: the blocks lie one after another, each behind its
own gap, and the offset is the sum of all gaps. -/
theorem fillSamples_run {b : AcquisitionBuffer} {acquired offset : Nat}
    (replies : List FetchReply) (filled : Filled b acquired offset)
    (size : b.data.length < 2 ^ 31)
    (fits : acquired + offset + gaps (replies.map FetchReply.part) +
      (stored (replies.map FetchReply.part)).length ≤ b.data.length) :
    Filled (replies.foldl fillSamples b)
        (acquired + (stored (replies.map FetchReply.part)).length)
        (offset + gaps (replies.map FetchReply.part)) ∧
      (replies.foldl fillSamples b).data =
        place b.data (acquired + offset) (replies.map FetchReply.part) := by
  induction replies generalizing b acquired offset with
  | nil => exact ⟨filled, rfl⟩
  | cons reply replies ih =>
      simp only [gaps, stored, List.map_cons, List.sum_cons, List.flatMap_cons, List.length_append,
        FetchReply.part] at fits ih ⊢
      obtain ⟨next, data⟩ := fillSamples_exact reply filled size (by omega)
      have length : (fillSamples b reply).data.length = b.data.length := by
        rw [data, overwrite_length]
      obtain ⟨last, final⟩ := ih next (by omega) (by omega)
      refine ⟨?_, ?_⟩
      · rw [Nat.add_assoc, Nat.add_assoc] at last
        exact last
      · rw [List.foldl_cons, final, data, place]
        congr 1
        omega

theorem hunks_whole (replies : List FetchReply)
    (whole : ∀ reply ∈ replies, 16 ∣ reply.elements.length) :
    16 ∣ (replies.flatMap FetchReply.elements).length := by
  induction replies with
  | nil => exact Nat.dvd_zero 16
  | cons reply replies ih =>
      rw [List.flatMap_cons, List.length_append]
      exact Nat.dvd_add (whole reply List.mem_cons_self)
        (ih fun one member => whole one (List.mem_cons_of_mem _ member))

theorem fetched_exact (toAcquire fetched : UInt64) (count rest : Nat)
    (total : fetched.toNat + (count + rest) = toAcquire.toNat) :
    (fetched + UInt64.ofNat count).toNat = fetched.toNat + count := by
  have width := toAcquire.toNat_lt
  have exact : (UInt64.ofNat count).toNat = count :=
    UInt64.toNat_ofNat_of_lt' (show count < 2 ^ 64 by omega)
  rw [uint64_add_exact _ _ (by omega), exact]

theorem outstanding_aligned {toAcquire fetched : UInt64} (bound : toAcquire.toNat < 2 ^ 63)
    (more : fetched.toNat < toAcquire.toNat) (rest : Nat)
    (total : fetched.toNat + rest = toAcquire.toNat) (whole : 16 ∣ rest) :
    Aligned (toAcquire - fetched).toInt64.toInt := by
  have difference := uint64_sub_exact toAcquire fetched (Nat.le_of_lt more)
  have outstanding : (toAcquire - fetched).toInt64.toInt = (toAcquire.toNat - fetched.toNat : Nat) := by
    rw [uint64_signed_exact _ (by omega), difference]
  rw [aligned_iff, outstanding]
  omega

/-- Fetches of whole hunks that add up to what is wanted end the loop, and each of
them that the loop makes fills the buffer. -/
theorem samplesLoop_returns (samplesChannel : String) (toAcquire : UInt64)
    (bound : toAcquire.toNat < 2 ^ 63) (replies : List FetchReply) (fetched : UInt64)
    (b : AcquisitionBuffer) (succeeded : ∀ reply ∈ replies, reply.error = none)
    (whole : ∀ reply ∈ replies, 16 ∣ reply.elements.length)
    (total : fetched.toNat + (replies.flatMap FetchReply.elements).length = toAcquire.toNat) :
    ∃ made unmade calls, replies = made ++ unmade ∧
      (∀ reply ∈ unmade, reply.elements = []) ∧ calls.map FetchCall.reply = made ∧
      (∀ call ∈ calls, call.channel = .samples) ∧
      samplesLoop samplesChannel toAcquire replies fetched b =
        ⟨made.foldl fillSamples b, .returned (), calls, unmade⟩ := by
  induction replies generalizing fetched b with
  | nil =>
      have done : ¬ fetched < toAcquire := by
        rw [UInt64.lt_iff_toNat_lt]
        simp at total
        omega
      exact ⟨[], [], [], rfl, by simp, rfl, by simp, by simp [samplesLoop, done]⟩
  | cons reply replies ih =>
      rw [List.flatMap_cons, List.length_append] at total
      by_cases more : fetched < toAcquire
      · have order := UInt64.lt_iff_toNat_lt.mp more
        have hunks : 16 ∣ ((reply :: replies).flatMap FetchReply.elements).length :=
          hunks_whole _ whole
        rw [List.flatMap_cons, List.length_append] at hunks
        have aligned := outstanding_aligned bound order _ total hunks
        have failed : reply.error = none := succeeded reply List.mem_cons_self
        obtain ⟨made, unmade, calls, split, rest, trace, channels, ends⟩ :=
          ih (fetched + UInt64.ofNat reply.elements.length) (fillSamples b reply)
            (fun one member => succeeded one (List.mem_cons_of_mem _ member))
            (fun one member => whole one (List.mem_cons_of_mem _ member))
            (by rw [fetched_exact toAcquire fetched _ _ total]; omega)
        refine ⟨reply :: made, unmade,
          ⟨.samples, (toAcquire - fetched).toInt64.toInt, b.getAvailable.toInt, reply⟩ :: calls,
          by rw [split, List.cons_append], rest, by rw [List.map_cons, trace], ?_, ?_⟩
        · intro call member
          rcases List.mem_cons.mp member with same | old
          · rw [same]
          · exact channels call old
        · simp only [samplesLoop, more, checkFetchAlignment, aligned, failed, ends, ↓reduceIte]
          rfl
      · refine ⟨[], reply :: replies, [], rfl, ?_, rfl, by simp, by simp [samplesLoop, more]⟩
        rw [UInt64.lt_iff_toNat_lt] at more
        have none : ((reply :: replies).flatMap FetchReply.elements).length = 0 := by
          rw [List.flatMap_cons, List.length_append]
          omega
        exact List.flatMap_eq_nil_iff.mp (List.eq_nil_of_length_eq_zero none)

/-- What a fetch reports: its first valid element and how many elements it wrote. -/
def FetchReply.counts (reply : FetchReply) : Nat × Nat := (reply.first, reply.elements.length)

/-- The ways the driver may split a samples fetch: one more fetch while elements
are outstanding, each in whole hunks, no more than outstanding, inside the space
`get_available()` then tells of. -/
def Admissible (size toAcquire : Nat) : Nat → Nat → List (Nat × Nat) → Prop
  | acquired, _, [] => acquired = toAcquire
  | acquired, offset, (first, count) :: rest =>
      acquired < toAcquire ∧ 16 ∣ count ∧ acquired + count ≤ toAcquire ∧
        first + count ≤ size - acquired - offset ∧
        Admissible size toAcquire (acquired + count) (offset + first) rest

instance decidableAdmissible (size toAcquire : Nat) :
    (acquired offset : Nat) → (split : List (Nat × Nat)) →
      Decidable (Admissible size toAcquire acquired offset split)
  | acquired, _, [] => inferInstanceAs (Decidable (acquired = toAcquire))
  | acquired, offset, (first, count) :: rest =>
      have := decidableAdmissible size toAcquire (acquired + count) (offset + first) rest
      inferInstanceAs (Decidable (_ ∧ _ ∧ _ ∧ _ ∧ _))

/-- Behind the first fetch that wrote anything, none has a first valid element past 0. -/
def Gapless : List (Nat × Nat) → Prop
  | [] => True
  | (_, count) :: rest => if count = 0 then Gapless rest else ∀ part ∈ rest, part.1 = 0

def firsts (split : List (Nat × Nat)) : Nat := (split.map Prod.fst).sum

def totals (split : List (Nat × Nat)) : Nat := (split.map Prod.snd).sum

theorem admissible_totals {size toAcquire acquired offset : Nat} {split : List (Nat × Nat)}
    (admissible : Admissible size toAcquire acquired offset split)
    (inside : acquired + offset ≤ size) :
    acquired + totals split = toAcquire ∧
      acquired + offset + firsts split + totals split ≤ size ∧ ∀ part ∈ split, 16 ∣ part.2 := by
  induction split generalizing acquired offset with
  | nil => exact ⟨admissible, inside, by simp⟩
  | cons part rest ih =>
      obtain ⟨first, count⟩ := part
      obtain ⟨_, whole, request, space, tail⟩ := admissible
      obtain ⟨total, room, wholes⟩ := ih tail (by omega)
      simp only [firsts, totals, List.map_cons, List.sum_cons] at total room ⊢
      refine ⟨by omega, by omega, ?_⟩
      intro part member
      rcases List.mem_cons.mp member with same | old
      · rw [same]
        exact whole
      · exact wholes part old

theorem admissible_all_needed {size toAcquire acquired offset : Nat}
    {front back : List (Nat × Nat)}
    (admissible : Admissible size toAcquire acquired offset (front ++ back))
    (inside : acquired + offset ≤ size) (none : ∀ part ∈ back, part.2 = 0) : back = [] := by
  induction front generalizing acquired offset with
  | nil =>
      cases back with
      | nil => rfl
      | cons part rest =>
          rw [List.nil_append] at admissible
          have total := (admissible_totals admissible inside).1
          have zero : totals (part :: rest) = 0 := by
            rw [totals, List.sum_eq_zero_iff_forall_eq_nat]
            intro value member
            obtain ⟨one, here, rfl⟩ := List.mem_map.mp member
            exact none one here
          have outstanding : acquired < toAcquire := admissible.1
          omega
  | cons part front ih =>
      obtain ⟨first, count⟩ := part
      obtain ⟨_, _, _, space, tail⟩ := admissible
      exact ih tail (by omega)

theorem stored_parts (replies : List FetchReply) :
    stored (replies.map FetchReply.part) = replies.flatMap FetchReply.elements := by
  rw [stored, List.flatMap_map]
  rfl

theorem gaps_parts (replies : List FetchReply) :
    gaps (replies.map FetchReply.part) = firsts (replies.map FetchReply.counts) := by
  rw [gaps, firsts, List.map_map, List.map_map]
  rfl

theorem elements_counts (replies : List FetchReply) :
    (replies.flatMap FetchReply.elements).length = totals (replies.map FetchReply.counts) := by
  rw [List.length_flatMap, totals, List.map_map]
  rfl

/-- Fetches that store no gap behind stored elements leave one contiguous block. -/
theorem place_gapless (cells : List Int32) (base : Nat) (replies : List FetchReply)
    (gapless : Gapless (replies.map FetchReply.counts))
    (fits : base + gaps (replies.map FetchReply.part) +
      (replies.flatMap FetchReply.elements).length ≤ cells.length) :
    window (place cells base (replies.map FetchReply.part))
        (base + gaps (replies.map FetchReply.part))
        (replies.flatMap FetchReply.elements).length =
      replies.flatMap FetchReply.elements := by
  induction replies generalizing base with
  | nil => simp [window]
  | cons reply replies ih =>
      simp only [List.map_cons, FetchReply.part, place, gaps, List.sum_cons] at fits ⊢
      by_cases none : reply.elements.length = 0
      · have empty := List.eq_nil_of_length_eq_zero none
        rw [List.flatMap_cons, empty, List.nil_append] at fits ⊢
        have rest : Gapless (replies.map FetchReply.counts) := by
          simpa [Gapless, FetchReply.counts, none] using gapless
        have tail := ih (base + reply.first) rest (by simp only [gaps]; omega)
        rw [overwrite_nil, List.length_nil, Nat.add_zero, ← Nat.add_assoc]
        exact tail
      · -- From the first element on nothing moves the block, so the rest is appended.
        have still : ∀ part ∈ replies.map FetchReply.part, part.1 = 0 := by
          intro part member
          obtain ⟨one, inside, rfl⟩ := List.mem_map.mp member
          simp only [Gapless, FetchReply.counts, List.map_cons, none, ↓reduceIte] at gapless
          exact gapless _ (List.mem_map_of_mem inside)
        have zero : (replies.map fun reply => reply.first).sum = 0 := by
          rw [List.sum_eq_zero_iff_forall_eq_nat]
          intro value member
          obtain ⟨one, inside, rfl⟩ := List.mem_map.mp member
          exact still _ (List.mem_map_of_mem inside)
        have head : (replies.map FetchReply.part).map Prod.fst =
            replies.map fun reply => reply.first := by
          rw [List.map_map]
          rfl
        rw [List.flatMap_cons, List.length_append] at fits ⊢
        change base + (reply.first + ((replies.map FetchReply.part).map Prod.fst).sum) + _ ≤ _ at fits
        change window _ (base + (reply.first + ((replies.map FetchReply.part).map Prod.fst).sum)) _ = _
        rw [head, zero, Nat.add_zero] at fits ⊢
        have after := place_contiguous (overwrite cells (base + reply.first) reply.elements)
          (base + reply.first) (base + reply.first + reply.elements.length)
          (replies.map FetchReply.part) (by omega) still
          (by rw [overwrite_length, ← stored, stored_parts]; omega)
        rw [← stored, stored_parts, Nat.add_sub_cancel_left,
          window_overwrite _ _ _ (by omega)] at after
        exact after

/-- A fetch behind stored elements that moves the offset leaves an old element
among those that are read. -/
theorem place_gapped (cells : List Int32) (old : Int32) (base : Nat) (replies : List FetchReply)
    (blank : ∀ index, base ≤ index → index < cells.length → cells[index]? = some old)
    (gapped : ¬ Gapless (replies.map FetchReply.counts))
    (fits : base + gaps (replies.map FetchReply.part) +
      (replies.flatMap FetchReply.elements).length ≤ cells.length) :
    ∃ index, index < (replies.flatMap FetchReply.elements).length ∧
      (place cells base (replies.map FetchReply.part))[
        base + gaps (replies.map FetchReply.part) + index]? = some old := by
  induction replies generalizing base with
  | nil => exact absurd trivial gapped
  | cons reply replies ih =>
      have shift : gaps ((reply :: replies).map FetchReply.part) =
          reply.first + gaps (replies.map FetchReply.part) := rfl
      rw [shift] at fits ⊢
      rw [List.flatMap_cons] at fits ⊢
      simp only [List.map_cons, FetchReply.part, place]
      by_cases none : reply.elements.length = 0
      · have empty := List.eq_nil_of_length_eq_zero none
        rw [empty, List.nil_append] at fits ⊢
        have rest : ¬ Gapless (replies.map FetchReply.counts) := by
          simpa [Gapless, FetchReply.counts, none] using gapped
        obtain ⟨index, inside, kept⟩ := ih (base + reply.first)
          (fun index low high => blank index (by omega) high) rest (by omega)
        refine ⟨index, inside, ?_⟩
        rw [overwrite_nil, List.length_nil, Nat.add_zero, ← Nat.add_assoc]
        exact kept
      · -- Elements are stored, and a later fetch moves on past where they end.
        have moved : ∃ part ∈ replies.map FetchReply.part, part.1 ≠ 0 := by
          by_contra still
          refine gapped ?_
          simp only [Gapless, FetchReply.counts, List.map_cons, none, ↓reduceIte]
          intro part member
          obtain ⟨one, inside, rfl⟩ := List.mem_map.mp member
          by_contra nonzero
          exact still ⟨one.part, List.mem_map_of_mem inside, nonzero⟩
        rw [List.length_append] at fits ⊢
        obtain ⟨index, low, high, kept⟩ := place_leaves_gap
          (overwrite cells (base + reply.first) reply.elements) old reply.elements.length
          (base + reply.first + reply.elements.length) (replies.map FetchReply.part) (by omega)
          (fun index low high => by
            rw [overwrite_length] at high
            rw [overwrite_untouched _ _ _ _ (Or.inr low)]
            exact blank index (by omega) high) moved
          (by rw [overwrite_length, stored_parts]; omega)
        rw [stored_parts] at high
        refine ⟨index - (base + (reply.first + gaps (replies.map FetchReply.part))), by omega, ?_⟩
        rw [Nat.add_sub_cancel' (by omega)]
        exact kept

/-- What the samples loop is for: the elements fetched, in order, are what is read
from `get_raw_unprocessed()` on. -/
def Delivered (samplesChannel : String) (toAcquire : UInt64) (b : AcquisitionBuffer)
    (replies : List FetchReply) : Prop :=
  let result := samplesLoop samplesChannel toAcquire replies 0 b
  result.ending = .returned () ∧ result.fetches.map FetchCall.reply = replies ∧
    window result.buffer.data result.buffer.getRawUnprocessed.toNat toAcquire.toNat =
      replies.flatMap FetchReply.elements

theorem samplesLoop_admissible (samplesChannel : String) (toAcquire : UInt64)
    (b : AcquisitionBuffer) (replies : List FetchReply) (empty : Empty b)
    (size : b.data.length < 2 ^ 31)
    (admissible : Admissible b.data.length toAcquire.toNat 0 0 (replies.map FetchReply.counts))
    (succeeded : ∀ reply ∈ replies, reply.error = none) :
    let result := samplesLoop samplesChannel toAcquire replies 0 b
    result.ending = .returned () ∧ result.fetches.map FetchCall.reply = replies ∧
      result.buffer.getRawUnprocessed.toNat = gaps (replies.map FetchReply.part) ∧
      result.buffer.data = place b.data 0 (replies.map FetchReply.part) := by
  obtain ⟨total, room, whole⟩ := admissible_totals admissible (by omega)
  rw [← elements_counts] at total room
  rw [← gaps_parts] at room
  obtain ⟨made, unmade, calls, split, rest, trace, _, ends⟩ :=
    samplesLoop_returns samplesChannel toAcquire (by omega) replies 0 b succeeded
      (fun reply member => whole reply.counts (List.mem_map_of_mem member))
      (by rw [UInt64.toNat_zero]; omega)
  have needed : unmade = [] := by
    rw [split, List.map_append] at admissible
    refine List.map_eq_nil_iff.mp (admissible_all_needed admissible (by omega) ?_)
    intro part member
    obtain ⟨one, inside, rfl⟩ := List.mem_map.mp member
    exact congrArg List.length (rest one inside)
  rw [needed, List.append_nil] at split
  subst split
  obtain ⟨filled, data⟩ := fillSamples_run replies (empty_filled_none empty) size
    (by rw [stored_parts]; omega)
  have shift := filled.offset
  have processed := filled.processedIndex
  have start : (replies.foldl fillSamples b).getRawUnprocessed.toNat =
      gaps (replies.map FetchReply.part) := by
    rw [getRawUnprocessed, processed, Int32.zero_add]
    omega
  rw [ends]
  exact ⟨rfl, trace, start, data⟩

/-- The same split over a stream that repeats one element. -/
def constantReplies (element : Int32) (split : List (Nat × Nat)) : List FetchReply :=
  split.map fun part => ⟨none, part.2, part.1, List.replicate part.2 element, 0⟩

theorem constantReplies_counts (element : Int32) (split : List (Nat × Nat)) :
    (constantReplies element split).map FetchReply.counts = split := by
  rw [constantReplies, List.map_map]
  refine (List.map_congr_left fun part _ => ?_).trans (List.map_id split)
  simp [FetchReply.counts]

theorem constantReplies_succeeded (element : Int32) (split : List (Nat × Nat)) :
    ∀ reply ∈ constantReplies element split, reply.error = none := by
  intro reply member
  obtain ⟨part, _, rfl⟩ := List.mem_map.mp member
  rfl

theorem constantReplies_elements (element : Int32) (split : List (Nat × Nat)) :
    ∀ value ∈ (constantReplies element split).flatMap FetchReply.elements, value = element := by
  intro value member
  obtain ⟨reply, inside, here⟩ := List.mem_flatMap.mp member
  obtain ⟨part, _, rfl⟩ := List.mem_map.mp inside
  exact List.eq_of_mem_replicate here

/-- An admissible split delivers every stream into every buffer exactly when no
fetch behind stored elements has a first valid element past 0. -/
theorem samples_delivered_iff (samplesChannel : String) (size : Nat) (width : size < 2 ^ 31)
    (toAcquire : UInt64) (split : List (Nat × Nat))
    (admissible : Admissible size toAcquire.toNat 0 0 split) :
    (∀ b replies, Empty b → b.data.length = size → replies.map FetchReply.counts = split →
        (∀ reply ∈ replies, reply.error = none) → Delivered samplesChannel toAcquire b replies) ↔
      Gapless split := by
  obtain ⟨total, room, _⟩ := admissible_totals admissible (by omega)
  constructor
  · intro delivers
    by_contra gapped
    -- Elements of 1 over a buffer of zeros: a gap reads back as 0.
    have counts := constantReplies_counts 1 split
    have succeeded := constantReplies_succeeded 1 split
    have empty : Empty (ofSize size) := ⟨rfl, rfl, rfl⟩
    have length : (ofSize size).data.length = size := List.length_replicate
    obtain ⟨_, _, block⟩ := delivers (ofSize size) (constantReplies 1 split) empty length counts
      succeeded
    obtain ⟨_, _, start, data⟩ := samplesLoop_admissible samplesChannel toAcquire (ofSize size)
      (constantReplies 1 split) empty (by omega) (by rwa [length, counts]) succeeded
    have count := elements_counts (constantReplies 1 split)
    have shift := gaps_parts (constantReplies 1 split)
    rw [counts] at count shift
    obtain ⟨index, inside, old⟩ := place_gapped (ofSize size).data 0 0 (constantReplies 1 split)
      (fun index _ high => by
        rw [length] at high
        simp [ofSize, high]) (by rwa [counts]) (by omega)
    rw [start, data] at block
    have read := congrArg (fun cells : List Int32 => cells[index]?) block
    rw [window_getElem? _ _ _ _ (by omega), ← Nat.zero_add (gaps _), old] at read
    exact absurd (constantReplies_elements 1 split 0 (List.mem_of_getElem? read.symm)) (by decide)
  · intro gapless b replies empty length shape succeeded
    subst shape
    rw [← length] at width admissible room
    obtain ⟨returned, trace, start, data⟩ :=
      samplesLoop_admissible samplesChannel toAcquire b replies empty width admissible succeeded
    refine ⟨returned, trace, ?_⟩
    rw [← elements_counts] at total room
    rw [← gaps_parts] at room
    have block := place_gapless b.data 0 replies gapless (by omega)
    rw [Nat.zero_add] at block total
    rw [start, data, ← total, block]

theorem samples_delivered_iff_late_start :
    (∀ b replies, Empty b → b.data.length = 64 →
        replies.map FetchReply.counts = [(0, 0), (5, 16), (0, 16)] →
        (∀ reply ∈ replies, reply.error = none) → Delivered "StreamCh1" 32 b replies) ↔
      Gapless [(0, 0), (5, 16), (0, 16)] :=
  samples_delivered_iff "StreamCh1" 64 (by decide) 32 [(0, 0), (5, 16), (0, 16)] (by decide)

/-- Two fetches of sixteen elements, the second starting one past its pointer: the
first element read is not the stream's. -/
theorem samples_delivered_gap :
    ¬ ∀ (samplesChannel : String) (toAcquire : UInt64) (b : AcquisitionBuffer)
        (replies : List FetchReply), Empty b → b.data.length < 2 ^ 31 →
        0 < toAcquire.toNat → 16 ∣ toAcquire.toNat →
        Admissible b.data.length toAcquire.toNat 0 0 (replies.map FetchReply.counts) →
        (∀ reply ∈ replies, reply.error = none) →
        Delivered samplesChannel toAcquire b replies := by
  intro delivers
  have gap := delivers "StreamCh1" 32 (ofSize 64) (constantReplies 1 [(0, 16), (1, 16)])
    ⟨rfl, rfl, rfl⟩ (by decide) (by decide) (by decide) (by decide)
    (constantReplies_succeeded 1 [(0, 16), (1, 16)])
  exact absurd gap.2.2 (by decide +kernel)

end AqMD3.Acquisition
