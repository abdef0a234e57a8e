import AqMD3.GateReads

/-!
Gates whose 32-bit block counter wrapped. The size is taken before the wrap is undone,
as a 64-bit difference, and the wrap is undone by one block less than the counter holds:
no such gate comes out as a counter of 33 bits would have it.
-/

namespace AqMD3.Acquisition

open FixedWidth

def GateMarker.Wrapped (m : GateMarker) : Prop := m.endBlockIndex < m.startBlockIndex

/-- The blocks of a wrapped gate, its counter taken for one of 33 bits. -/
def GateMarker.wideBlocks (m : GateMarker) : Nat :=
  m.endBlockIndex.toNat + 2 ^ 32 - m.startBlockIndex.toNat

def wholeBatches (elements : Nat) : Nat := (elements + 15) / 16 * 16

def GateData.span (g : GateData) : UInt64 := g.getStopSampleIndex - g.getStartSampleIndex

/-- A gate whose counter did not wrap, of the blocks of one that did. -/
structure SameLength (m other : GateMarker) : Prop where
  fields : other.Fields
  ordered : Ordered other
  blocks : other.endBlockIndex.toNat = other.startBlockIndex.toNat + m.wideBlocks
  startPos : other.startBlockSampleIndx = m.startBlockSampleIndx
  stopPos : other.endBlockSampleIndx = m.endBlockSampleIndx

/-- A wrapped gate as 33 bits would have it, and what its elements add to the fetch. -/
structure DecodedWide (m : GateMarker) (g : GateData) (amount : UInt64) : Prop where
  elementCount : g.elementCount.toNat = wholeBatches (4 * m.wideBlocks)
  span : ∀ other, SameLength m other → g.span = other.gateData.span
  toAcquire : amount.toNat = g.elementCount.toNat

/-- A block walked as a wrapped gate of the latest trigger, to this gate and this amount. -/
structure Walked (before after : Walk) (g : GateData) (amount : UInt64) : Prop where
  stamps : after.stamps =
    before.stamps.modifyLast fun t => { t with gateData := t.gateData ++ [g] }
  toAcquire : after.toAcquire = before.toAcquire + amount

theorem wrapped_blocks {m : GateMarker} (fields : m.Fields) (wrapped : m.Wrapped) :
    m.toAcquireMemoryBlocks.toNat =
      (2 ^ 64 - 2 ^ 34 + wholeBatches (4 * m.wideBlocks)) % 2 ^ 64 := by
  have start := fields.start
  have behind := UInt64.lt_iff_toNat_lt.mp wrapped
  rw [m.toAcquireMemoryBlocks_rounded, wholeBatches, GateMarker.wideBlocks]
  omega

theorem wrapped_elements {m : GateMarker} (fields : m.Fields) (wrapped : m.Wrapped) :
    m.gateData.elementCount.toNat = wholeBatches (4 * m.wideBlocks) % 2 ^ 32 := by
  have counted : m.gateData.elementCount.toNat = m.toAcquireMemoryBlocks.toNat % 2 ^ 32 :=
    UInt64.toNat_toUInt32 _
  rw [counted, wrapped_blocks fields wrapped]
  omega

/-- The fetch grows by the elements only where both come out as none: the gate is three
blocks or less short of a whole turn of the counter. -/
theorem wrapped_amount {m : GateMarker} (fields : m.Fields) (wrapped : m.Wrapped) :
    m.toAcquireMemoryBlocks.toNat = m.gateData.elementCount.toNat ↔
      m.startBlockIndex.toNat ≤ m.endBlockIndex.toNat + 3 := by
  have start := fields.start
  have behind := UInt64.lt_iff_toNat_lt.mp wrapped
  rw [wrapped_elements fields wrapped, wrapped_blocks fields wrapped, wholeBatches,
    GateMarker.wideBlocks]
  omega

theorem span_exact (m : GateMarker) : m.gateData.span =
    (m.unwrappedEnd - m.startBlockIndex) * 8 - (8 - m.endBlockSampleIndx).toUInt64 -
      m.startBlockSampleIndx.toUInt64 := by
  change (m.unwrappedEnd - 1) * 8 - (8 - m.endBlockSampleIndx).toUInt64 -
    ((m.startBlockIndex - 1) * 8 + m.startBlockSampleIndx.toUInt64) = _
  grind

theorem wrapped_span {m other : GateMarker} (fields : m.Fields) (wrapped : m.Wrapped)
    (same : SameLength m other) : m.gateData.span + 8 = other.gateData.span := by
  have narrow := fields.start
  have start := same.fields.start
  have stop := same.fields.stop
  have behind := UInt64.lt_iff_toNat_lt.mp wrapped
  have undone : m.unwrappedEnd = m.endBlockIndex + 4294967295 := if_pos wrapped
  have plain : other.unwrappedEnd = other.endBlockIndex := if_neg (UInt64.not_lt.mpr same.ordered)
  have lengths : other.endBlockIndex - other.startBlockIndex =
      m.endBlockIndex + 4294967296 - m.startBlockIndex := by
    apply UInt64.toNat_inj.mp
    have blocks := same.blocks
    have width := m.startBlockIndex.toNat_lt
    have turn : (4294967296 : UInt64).toNat = 4294967296 := rfl
    rw [GateMarker.wideBlocks] at blocks
    rw [uint64_sub_exact _ _ (by omega), UInt64.toNat_sub, UInt64.toNat_add, turn]
    omega
  rw [span_exact, span_exact, undone, plain, lengths, same.startPos, same.stopPos]
  grind

theorem sameLength_exists {m : GateMarker} (fields : m.Fields) (wrapped : m.Wrapped) :
    ∃ other, SameLength m other := by
  have behind := UInt64.lt_iff_toNat_lt.mp wrapped
  have start := fields.start
  have short : m.wideBlocks < 2 ^ 32 := by
    rw [GateMarker.wideBlocks]
    omega
  have size : UInt64.size = 2 ^ 64 := rfl
  have blocks : (UInt64.ofNat m.wideBlocks).toNat = m.wideBlocks :=
    UInt64.toNat_ofNat_of_lt' (by omega)
  refine ⟨⟨0, m.startBlockSampleIndx, UInt64.ofNat m.wideBlocks, m.endBlockSampleIndx⟩,
    ⟨Nat.two_pow_pos 32, ?_, fields.startPos, fields.stopPos⟩, ?_, ?_, rfl, rfl⟩
  · rw [blocks]
    exact short
  · exact UInt64.le_iff_toNat_le.mpr (Nat.zero_le _)
  · rw [blocks, UInt64.toNat_zero, Nat.zero_add]

theorem wrapped_not_wide {m : GateMarker} (fields : m.Fields) (wrapped : m.Wrapped)
    (amount : UInt64) : ¬ DecodedWide m m.gateData amount := by
  intro decoded
  obtain ⟨other, same⟩ := sameLength_exists fields wrapped
  have short := wrapped_span fields wrapped same
  rw [← decoded.span other same] at short
  have none : (8 : UInt64) = 0 := by grind
  exact absurd none (by decide)

theorem walked_once {before after : Walk} (present : before.stamps ≠ []) {g g' : GateData}
    {amount amount' : UInt64} (walked : Walked before after g amount)
    (again : Walked before after g' amount') : g' = g ∧ amount' = amount := by
  obtain ⟨front, last, split⟩ := (List.eq_nil_or_concat before.stamps).resolve_left present
  rw [List.concat_eq_append] at split
  have stamps := walked.stamps.symm.trans again.stamps
  rw [split, List.modifyLast_concat, List.modifyLast_concat] at stamps
  have total := walked.toAcquire.symm.trans again.toAcquire
  refine ⟨?_, (UInt64.add_right_inj before.toAcquire).mp total |>.symm⟩
  have gates := congrArg TriggerData.gateData (List.singleton_inj.mp (List.append_cancel_left stamps))
  exact (List.singleton_inj.mp (List.append_cancel_left gates)).symm

theorem walkBlock_walked {w : Walk} {seg : Hunk} {block : Fin 4} (gate : seg.blockKind block = 0x04)
    (present : w.stamps ≠ []) : Walked w (walkBlock seg w block) (seg.gateMarker block).gateData
      (seg.gateMarker block).toAcquireMemoryBlocks := by
  have attached : walkBlock seg w block = w.attach (seg.gateMarker block) := by
    simp [walkBlock, gate, present]
  rw [attached]
  exact ⟨rfl, rfl⟩

/-- Whatever the words of a gate block are: where its counter wrapped, the gate it is
walked as is a block short, and its elements are kept modulo 2^32. -/
theorem wrapped_gates (w : Walk) (seg : Hunk) (block : Fin 4) (gate : seg.blockKind block = 0x04)
    (present : w.stamps ≠ []) (wrapped : (seg.gateMarker block).Wrapped) :
    (¬ ∃ g amount, Walked w (walkBlock seg w block) g amount ∧
        DecodedWide (seg.gateMarker block) g amount) ∧
      ∃ g amount, Walked w (walkBlock seg w block) g amount ∧
        (∀ other, SameLength (seg.gateMarker block) other → g.span + 8 = other.gateData.span) ∧
        g.elementCount.toNat = wholeBatches (4 * (seg.gateMarker block).wideBlocks) % 2 ^ 32 ∧
        (amount.toNat = g.elementCount.toNat ↔
          (seg.gateMarker block).startBlockIndex.toNat ≤
            (seg.gateMarker block).endBlockIndex.toNat + 3) := by
  have fields := gateMarker_fields seg block
  have walked := walkBlock_walked gate present
  constructor
  · rintro ⟨g, amount, again, decoded⟩
    obtain ⟨rfl, rfl⟩ := walked_once present walked again
    exact wrapped_not_wide fields wrapped _ decoded
  · exact ⟨_, _, walked, fun other same => wrapped_span fields wrapped same,
      wrapped_elements fields wrapped, wrapped_amount fields wrapped⟩

def wrappedHunk : Hunk :=
  (((Vector.replicate 16 (0 : Int32)).setIfInBounds 0 (-33554428)).setIfInBounds 1 0xffffff).setIfInBounds
    2 ((2 : Int32) <<< 24)

def stampedWalk : Walk :=
  { Walk.begin (CstZs1Context.create "Channel1" 4).start 1 with stamps := [(triggerHunk 5).trigger] }

theorem wrapped_gates_turn :
    (¬ ∃ g amount, Walked stampedWalk (walkBlock wrappedHunk stampedWalk 0) g amount ∧
        DecodedWide (wrappedHunk.gateMarker 0) g amount) ∧
      ∃ g amount, Walked stampedWalk (walkBlock wrappedHunk stampedWalk 0) g amount ∧
        (∀ other, SameLength (wrappedHunk.gateMarker 0) other → g.span + 8 = other.gateData.span) ∧
        g.elementCount.toNat = wholeBatches (4 * (wrappedHunk.gateMarker 0).wideBlocks) % 2 ^ 32 ∧
        (amount.toNat = g.elementCount.toNat ↔
          (wrappedHunk.gateMarker 0).startBlockIndex.toNat ≤
            (wrappedHunk.gateMarker 0).endBlockIndex.toNat + 3) :=
  wrapped_gates stampedWalk wrappedHunk 0 (by decide +kernel) (by decide +kernel)
    (by unfold GateMarker.Wrapped; decide +kernel)

/-- Its four blocks are sixteen elements, and the fetch grows by 2^64 - 2^34 more. -/
theorem wrapped_gates_short :
    ¬ ∀ (w : Walk) (seg : Hunk) (block : Fin 4), seg.blockKind block = 0x04 → w.stamps ≠ [] →
      (seg.gateMarker block).Wrapped → ∃ g amount, Walked w (walkBlock seg w block) g amount ∧
        DecodedWide (seg.gateMarker block) g amount := by
  intro wide
  have wrapped : (wrappedHunk.gateMarker 0).Wrapped := by
    unfold GateMarker.Wrapped
    decide +kernel
  have present : stampedWalk.stamps ≠ [] := by decide +kernel
  obtain ⟨g, amount, walked, decoded⟩ :=
    wide stampedWalk wrappedHunk 0 (by decide +kernel) present wrapped
  obtain ⟨rfl, rfl⟩ := walked_once present (walkBlock_walked (by decide +kernel) present) walked
  have apart : (wrappedHunk.gateMarker 0).toAcquireMemoryBlocks.toNat ≠
      (wrappedHunk.gateMarker 0).gateData.elementCount.toNat := by decide +kernel
  exact apart decoded.toAcquire

end AqMD3.Acquisition
