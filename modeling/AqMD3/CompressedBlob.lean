import AqMD3.CompressedSpectra
import AqMD3.LzfRoundTrip
import AqMD3.SpectrumEncoding

/-!
The blob of a scan, with the `lzf_compress` that is built in. Nothing is assumed of the
buffer it is made in or of the bytes behind the spectrum. The blob says what the spectrum
says, and that is what was recorded.
-/

namespace AqMD3.Acquisition

open FixedWidth CellMemory RunLength AcquisitionBuffer Lzf

/-- `lzf_compress` in a buffer that holds `memory`, on an input with `behind` after it. -/
def lzf (behind memory : Memory UInt8) : Compressor where
  bytes input outLen := (lzfCompress (ofList input behind) input.length outLen memory).bytes
  stored input outLen := (lzfCompress (ofList input behind) input.length outLen memory).stored

/-- The bytes bound to the statement. -/
def EncodedResult.blob (behind memory : Memory UInt8) (er : EncodedResult) : List UInt8 :=
  let input := (spectraBytes er.encodedSpectra).take er.encodedSize.toUInt32.toNat
  let outLen := er.processingBufferSize.toUInt32.toNat
  let result := lzfCompress (ofList input behind) input.length outLen memory
  block result.out 0 result.bytes

theorem blob_empty (behind memory : Memory UInt8) {er : EncodedResult}
    (none : er.encodedSpectra = []) : er.blob behind memory = [] := by
  have input : (spectraBytes er.encodedSpectra).take er.encodedSize.toUInt32.toNat = [] := by
    rw [none, spectraBytes, List.flatMap_nil, List.take_nil]
  simp only [EncodedResult.blob, input, lzfCompress, List.length_nil, true_or, ↓reduceIte,
    block_zero]

/-- A spectrum from its bytes, four an entry and the low one first. -/
def spectraOf : List UInt8 → List Int32
  | b0 :: b1 :: b2 :: b3 :: rest =>
      (b0.toUInt32 ||| b1.toUInt32 <<< 8 ||| b2.toUInt32 <<< 16 ||| b3.toUInt32 <<< 24).toInt32 ::
        spectraOf rest
  | _ => []

theorem word_toNat (b0 b1 b2 b3 : UInt8) :
    (b0.toUInt32 ||| b1.toUInt32 <<< 8 ||| b2.toUInt32 <<< 16 ||| b3.toUInt32 <<< 24).toNat =
      b0.toNat + 2 ^ 8 * b1.toNat + 2 ^ 16 * b2.toNat + 2 ^ 24 * b3.toNat := by
  have low := b0.toNat_lt
  have second := b1.toNat_lt
  have third := b2.toNat_lt
  have high := b3.toNat_lt
  have eight : (8 : UInt32).toNat % 32 = 8 := rfl
  have sixteen : (16 : UInt32).toNat % 32 = 16 := rfl
  have twentyFour : (24 : UInt32).toNat % 32 = 24 := rfl
  have above (front byte place : Nat) (below : front < 2 ^ place) :
      front ||| byte <<< place = front + 2 ^ place * byte := by
    rw [Nat.or_comm, ← Nat.shiftLeft_add_eq_or_of_lt below, Nat.shiftLeft_eq, Nat.mul_comm,
      Nat.add_comm]
  rw [UInt32.toNat_or, UInt32.toNat_or, UInt32.toNat_or, UInt32.toNat_shiftLeft,
    UInt32.toNat_shiftLeft, UInt32.toNat_shiftLeft, eight, sixteen, twentyFour,
    UInt8.toNat_toUInt32, UInt8.toNat_toUInt32, UInt8.toNat_toUInt32, UInt8.toNat_toUInt32,
    Nat.mod_eq_of_lt (by rw [Nat.shiftLeft_eq]; omega),
    Nat.mod_eq_of_lt (by rw [Nat.shiftLeft_eq]; omega),
    Nat.mod_eq_of_lt (by rw [Nat.shiftLeft_eq]; omega),
    above _ _ 8 low, above _ _ 16 (by omega), above _ _ 24 (by omega)]

theorem byte_toNat (word : UInt32) (place : UInt32) (inside : place.toNat < 32) :
    (word >>> place).toUInt8.toNat = word.toNat / 2 ^ place.toNat % 2 ^ 8 := by
  rw [UInt32.toNat_toUInt8, UInt32.toNat_shiftRight, Nat.mod_eq_of_lt inside, Nat.shiftRight_eq_div_pow]

theorem word_of_bytes (word : UInt32) :
    word.toUInt8.toUInt32 ||| (word >>> (8 : UInt32)).toUInt8.toUInt32 <<< 8 |||
      (word >>> (16 : UInt32)).toUInt8.toUInt32 <<< 16 |||
      (word >>> (24 : UInt32)).toUInt8.toUInt32 <<< 24 = word := by
  have bound := word.toNat_lt
  apply UInt32.toNat_inj.mp
  rw [word_toNat, UInt32.toNat_toUInt8, byte_toNat word 8 (by decide), byte_toNat word 16 (by decide),
    byte_toNat word 24 (by decide)]
  simp only [UInt32.reduceToNat]
  omega

theorem spectraOf_bytes (encoded : List Int32) : spectraOf (spectraBytes encoded) = encoded := by
  induction encoded with
  | nil => rfl
  | cons val rest ih =>
      rw [spectraBytes, List.flatMap_cons, ← spectraBytes, List.cons_append, List.cons_append,
        List.cons_append, List.cons_append, List.nil_append, spectraOf, ih, word_of_bytes]
      rfl

section Spectrum

variable (behind memory : Memory UInt8) {er : EncodedResult}
  (short : er.encodedSpectra.length < 2 ^ 28)
include short

theorem whole_input : (spectraBytes er.encodedSpectra).take er.encodedSize.toUInt32.toNat =
      spectraBytes er.encodedSpectra ∧
    er.processingBufferSize.toUInt32.toNat = 2 * (spectraBytes er.encodedSpectra).length := by
  have input := encodedSize_exact short
  have output := processingBufferSize_exact short
  have inLen := int32_unsigned_exact er.encodedSize (by omega)
  have outLen := int32_unsigned_exact er.processingBufferSize (by omega)
  have length := spectraBytes_length er.encodedSpectra
  exact ⟨List.take_of_length_le (by omega), by omega⟩

theorem lzf_present (present : er.encodedSpectra ≠ []) :
    0 < (lzfCompress (ofList (spectraBytes er.encodedSpectra) behind)
      (spectraBytes er.encodedSpectra).length er.processingBufferSize.toUInt32.toNat memory).bytes := by
  have entries := List.length_pos_iff.mpr present
  have length := spectraBytes_length er.encodedSpectra
  have room := (whole_input short).2
  exact lzfCompress_returns _ _ _ memory (by omega) (by omega)

/-- The buffer takes what the built-in compressor stores and the zero behind it, and a blob
is left, exactly where there is an entry at all. -/
theorem lzf_inside_iff : CompressedInside (lzf behind memory) er ↔ er.encodedSpectra ≠ [] := by
  obtain ⟨whole, room⟩ := whole_input short
  have length := spectraBytes_length er.encodedSpectra
  have allocated : (er.getCompressedSpectra (lzf behind memory)).allocated =
      8 * er.encodedSpectra.length := processingBufferSize_exact short
  have size : (er.getCompressedSpectra (lzf behind memory)).size =
      (lzfCompress (ofList (spectraBytes er.encodedSpectra) behind)
        (spectraBytes er.encodedSpectra).length er.processingBufferSize.toUInt32.toNat memory).bytes := by
    rw [EncodedResult.getCompressedSpectra]
    simp only [whole, lzf]
  have writes : (er.getCompressedSpectra (lzf behind memory)).writes =
      (lzfCompress (ofList (spectraBytes er.encodedSpectra) behind)
        (spectraBytes er.encodedSpectra).length er.processingBufferSize.toUInt32.toNat
          memory).stored ++ [(er.getCompressedSpectra (lzf behind memory)).size] := by
    rw [EncodedResult.getCompressedSpectra]
    simp only [whole, lzf]
  have stores := lzfCompress_inside (ofList (spectraBytes er.encodedSpectra) behind)
    (spectraBytes er.encodedSpectra).length er.processingBufferSize.toUInt32.toNat memory
  constructor
  · -- An empty spectrum leaves no byte, and the zero is stored to the first of none.
    rintro ⟨inside, _⟩ none
    have last := inside _ (by
      rw [writes]
      exact List.mem_append_right _ (List.mem_singleton_self _))
    rw [allocated, none, List.length_nil] at last
    omega
  · intro present
    have some := lzf_present behind memory short present
    have entries := List.length_pos_iff.mpr present
    refine ⟨fun index member => ?_, fun _ => size ▸ some⟩
    rw [writes] at member
    rcases List.mem_append.mp member with byte | zero
    · have inside := stores.inside index byte
      omega
    · have most := stores.most.2
      rw [List.mem_singleton.mp zero, size]
      omega

theorem blob_reads_back (present : er.encodedSpectra ≠ []) (room : Nat)
    (enough : 4 * er.encodedSpectra.length ≤ room) :
    lzfDecompress (er.blob behind memory) room = .returned (spectraBytes er.encodedSpectra) := by
  have whole := (whole_input short).1
  have length := spectraBytes_length er.encodedSpectra
  have back := lzfCompress_accepted (ofList (spectraBytes er.encodedSpectra) behind)
    (spectraBytes er.encodedSpectra).length er.processingBufferSize.toUInt32.toNat memory
    (lzf_present behind memory short present) room
  rw [if_pos (by omega), block_ofList] at back
  rw [EncodedResult.blob]
  simp only [whole]
  exact back

end Spectrum

theorem lzf_inside_one_gap :
    CompressedInside (lzf (fun _ => 0) fun _ => 0) ⟨0, 1, [-5, 40000], 40000, 40000, 5, 7⟩ ↔
      (⟨0, 1, [-5, 40000], 40000, 40000, 5, 7⟩ : EncodedResult).encodedSpectra ≠ [] :=
  lzf_inside_iff (fun _ => 0) (fun _ => 0) (by decide)

/-- A reader's way back from a blob to the bins it stores something in. -/
def readBlob (blob : List UInt8) (room : Nat) : Option (List (Nat × Int)) :=
  match lzfDecompress blob room with
  | .returned bytes => some (expandFrom 0 ((spectraOf bytes).map Int32.toInt))
  | _ => none

/-- The blob of a recorded trigger's scan: every sample of its gates at its own bin, and
nothing else. -/
theorem recorded_blob (behind memory : Memory UInt8) (offsetBins : UInt32)
    (t : RecordedTrigger) (er : EncodedResult) (encodes : Encodes offsetBins t er)
    (gated : t.gates ≠ []) (short : er.encodedSpectra.length < 2 ^ 28) (room : Nat)
    (enough : 4 * er.encodedSpectra.length ≤ room) :
    readBlob (er.blob behind memory) room = some (placed offsetBins t.gates) := by
  have present : er.encodedSpectra ≠ [] := by
    intro none
    obtain ⟨g, rest, split⟩ := List.exists_cons_of_ne_nil gated
    have expansion := encodes.expansion
    have inside : g.first < g.past := g.nonempty
    rw [none, split, placed, List.flatMap_cons, List.map_nil, expandFrom] at expansion
    have length := congrArg List.length expansion
    rw [List.length_append, List.length_map, List.length_range', List.length_nil] at length
    omega
  rw [readBlob, blob_reads_back behind memory short present room enough]
  simp only [spectraOf_bytes, encodes.expansion]

end AqMD3.Acquisition
