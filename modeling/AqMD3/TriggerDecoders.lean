import AqMD3.CallSequence
import AqMD3.CstContext

/-!
The two decoders of a trigger hunk. Both take the same fields out of its first three
words. One extends the sign of the third word into the top of the timestamp, and both
divide the sub-sample field by 256 as an int, which leaves nothing of it.
-/

namespace AqMD3.Acquisition

open FixedWidth

def FieldsDiffer (h h' : Hunk) : Prop :=
  h.indexField ≠ h'.indexField ∨ h.timestampField ≠ h'.timestampField ∨
    h.subsampleField ≠ h'.subsampleField

/-- What is asked of the decoders at two hunks: they agree, and lose no field. -/
structure Decodes (h h' : Hunk) : Prop where
  agree : h.cstTrigger = h.trigger
  agree' : h'.cstTrigger = h'.trigger
  kept : FieldsDiffer h h' → h.trigger ≠ h'.trigger ∧ h.cstTrigger ≠ h'.cstTrigger

theorem packed_exact (low high : UInt64) :
    ((high <<< 24) ||| ((low >>> 8) &&& 0x0000000000ffffff)).toNat =
      high.toNat % 2 ^ 40 * 2 ^ 24 + low.toNat / 2 ^ 8 % 2 ^ 24 := by
  have top : (high <<< 24).toNat = (high.toNat % 2 ^ 40) <<< 24 := by
    rw [UInt64.toNat_shiftLeft, show (24 : UInt64).toNat % 64 = 24 from rfl, Nat.shiftLeft_eq,
      Nat.shiftLeft_eq]
    omega
  have bottom : ((low >>> 8) &&& 0x0000000000ffffff).toNat = low.toNat / 2 ^ 8 % 2 ^ 24 := by
    rw [UInt64.toNat_and, UInt64.toNat_shiftRight, show (8 : UInt64).toNat % 64 = 8 from rfl,
      Nat.shiftRight_eq_div_pow, show (0x0000000000ffffff : UInt64).toNat = 2 ^ 24 - 1 from rfl,
      Nat.and_two_pow_sub_one_eq_mod]
  have small : low.toNat / 2 ^ 8 % 2 ^ 24 < 2 ^ 24 := Nat.mod_lt _ (by decide)
  rw [UInt64.toNat_or, top, bottom, ← Nat.shiftLeft_add_eq_or_of_lt small, Nat.shiftLeft_eq]

theorem word_extended (a : Int32) : a.toInt64.toUInt64.toNat =
    if a.toUInt32.toNat < 2 ^ 31 then a.toUInt32.toNat else a.toUInt32.toNat + (2 ^ 64 - 2 ^ 32) := by
  have wide := int32_widen a
  have signed := int32_reinterpret a
  have width := a.toUInt32.toNat_lt
  rw [Int.bmod_def] at signed
  split at signed <;> split <;> omega

theorem cstTimestamp_exact (h : Hunk) : h.cstTimestamp.toNat = h.timestampField := by
  have low := h[1].toUInt32.toNat_lt
  have high := h[2].toUInt32.toNat_lt
  rw [Hunk.cstTimestamp, packed_exact, UInt32.toNat_toUInt64, UInt32.toNat_toUInt64,
    Hunk.timestampField]
  omega

/-- The other one sets the eight bits above them where the third word has its top bit. -/
theorem timestamp_exact (h : Hunk) : h.timestamp.toNat =
    h.timestampField + if h.WellSigned then 0 else 2 ^ 64 - 2 ^ 56 := by
  have low := h[1].toUInt32.toNat_lt
  have high := h[2].toUInt32.toNat_lt
  rw [Hunk.timestamp, packed_exact, word_extended, word_extended, Hunk.timestampField]
  by_cases clear : h.WellSigned
  · rw [if_pos clear]
    rw [Hunk.WellSigned] at clear
    rw [if_pos clear]
    split <;> omega
  · rw [if_neg clear]
    rw [Hunk.WellSigned] at clear
    rw [if_neg clear]
    split <;> omega

/-- A byte, negated and divided as an int, is none. -/
theorem fraction_lost (word : Int32) : -1 * (word &&& 0x000000ff) / 256 = 0 := by
  have small : (word &&& 0x000000ff).toBitVec.toNat ≤ 255 := Nat.and_le_right
  have fraction : (word &&& 0x000000ff).toInt = (word &&& 0x000000ff).toBitVec.toNat := by
    change (word &&& 0x000000ff).toBitVec.toInt = _
    rw [BitVec.toInt_eq_toNat_cond]
    split <;> omega
  have negated : (-1 * (word &&& 0x000000ff)).toInt = -(word &&& 0x000000ff).toInt := by
    rw [Int32.toInt_mul, show (-1 : Int32).toInt = -1 from rfl, Int.bmod_def]
    omega
  have quotient : (-(word &&& 0x000000ff).toInt).tdiv 256 = 0 := by
    rw [Int.neg_tdiv, Int.tdiv_eq_ediv_of_nonneg (by omega)]
    omega
  apply Int32.toInt_inj.mp
  rw [Int32.toInt_div, negated, show (256 : Int32).toInt = 256 from rfl, quotient]
  rfl

theorem subsamplePos_none (h : Hunk) : h.subsamplePos = 0 := by
  rw [Hunk.subsamplePos]
  simp only [fraction_lost]
  rfl

theorem index_exact (h : Hunk) : h.index.toNat = h.indexField := by
  rw [Hunk.index, UInt32.toNat_shiftRight, show (8 : UInt32).toNat % 32 = 8 from rfl,
    Nat.shiftRight_eq_div_pow, Hunk.indexField]

theorem decoders_agree_iff (h : Hunk) : h.cstTrigger = h.trigger ↔ h.WellSigned := by
  have exact := timestamp_exact h
  have unsigned := cstTimestamp_exact h
  constructor
  · intro same
    have stamps := congrArg UInt64.toNat (congrArg TriggerData.timestamp same)
    change h.cstTimestamp.toNat = h.timestamp.toNat at stamps
    rw [unsigned, exact] at stamps
    by_contra signed
    rw [if_neg signed] at stamps
    omega
  · intro signed
    rw [if_pos signed] at exact
    have stamps : h.cstTimestamp = h.timestamp := UInt64.toNat_inj.mp (by rw [unsigned, exact, Nat.add_zero])
    rw [Hunk.cstTrigger, Hunk.trigger, stamps]

theorem trigger_same_iff (h h' : Hunk) :
    h.trigger = h'.trigger ↔ h.indexField = h'.indexField ∧ h.timestampField = h'.timestampField := by
  -- The field determines the third word, and with it what stands above the 56 bits.
  have stamps : h.timestamp = h'.timestamp ↔ h.timestampField = h'.timestampField := by
    have low := h[1].toUInt32.toNat_lt
    have low' := h'[1].toUInt32.toNat_lt
    have high := h[2].toUInt32.toNat_lt
    have high' := h'[2].toUInt32.toNat_lt
    rw [← UInt64.toNat_inj, timestamp_exact, timestamp_exact, Hunk.timestampField, Hunk.timestampField]
    by_cases clear : h.WellSigned <;> by_cases clear' : h'.WellSigned <;>
      simp only [clear, clear', ↓reduceIte] <;> rw [Hunk.WellSigned] at clear clear' <;> omega
  rw [← index_exact, ← index_exact, ← stamps, UInt32.toNat_inj, Hunk.trigger, Hunk.trigger,
    subsamplePos_none, subsamplePos_none, TriggerData.mk.injEq]
  constructor
  · rintro ⟨same, indexes, _, _⟩
    exact ⟨indexes, same⟩
  · rintro ⟨indexes, same⟩
    exact ⟨same, indexes, rfl, rfl⟩

theorem cstTrigger_same_iff (h h' : Hunk) : h.cstTrigger = h'.cstTrigger ↔
    h.indexField = h'.indexField ∧ h.timestampField = h'.timestampField := by
  rw [← index_exact, ← index_exact, ← cstTimestamp_exact, ← cstTimestamp_exact, UInt32.toNat_inj,
    UInt64.toNat_inj, Hunk.cstTrigger, Hunk.cstTrigger, subsamplePos_none, subsamplePos_none,
    TriggerData.mk.injEq]
  constructor
  · rintro ⟨stamps, indexes, _, _⟩
    exact ⟨indexes, stamps⟩
  · rintro ⟨indexes, stamps⟩
    exact ⟨stamps, indexes, rfl, rfl⟩

/-- The decoders meet what is asked of them exactly where both third words have a clear top
bit and the hunks do not differ in the sub-sample field alone. -/
theorem trigger_decoders_iff (h h' : Hunk) :
    Decodes h h' ↔ h.WellSigned ∧ h'.WellSigned ∧ (h.subsampleField ≠ h'.subsampleField →
      h.indexField ≠ h'.indexField ∨ h.timestampField ≠ h'.timestampField) := by
  have first := trigger_same_iff h h'
  have second := cstTrigger_same_iff h h'
  constructor
  · intro decodes
    refine ⟨(decoders_agree_iff h).mp decodes.agree, (decoders_agree_iff h').mp decodes.agree', ?_⟩
    intro differ
    have apart := (decodes.kept (Or.inr (Or.inr differ))).1
    rw [ne_eq, first] at apart
    exact not_and_or.mp apart
  · rintro ⟨signed, signed', alone⟩
    refine ⟨(decoders_agree_iff h).mpr signed, (decoders_agree_iff h').mpr signed', fun differ => ?_⟩
    have apart : h.indexField ≠ h'.indexField ∨ h.timestampField ≠ h'.timestampField := by
      rcases differ with index | stamp | subsample
      · exact Or.inl index
      · exact Or.inr stamp
      · exact alone subsample
    rw [ne_eq, ne_eq, first, second]
    exact ⟨not_and_or.mpr apart, not_and_or.mpr apart⟩

/-- Triggers at one time that differ in the sub-sample field, with the top bit of the third
word set. -/
def signedHunk (subsample : Int32) : Hunk :=
  ((triggerHunk 5).setIfInBounds 1 ((5 : Int32) <<< 8 ||| subsample)).setIfInBounds 2 Int32.minValue

theorem trigger_decoders_signed :
    ¬ ∀ h h' : Hunk, h.isTrigger = true → h'.isTrigger = true → Decodes h h' := by
  intro decodes
  have agree := (decodes (signedHunk 1) (signedHunk 2) (by decide +kernel) (by decide +kernel)).agree
  exact absurd agree (by decide +kernel)

end AqMD3.Acquisition
