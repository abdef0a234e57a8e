import AqMD3.UimfWriter

/-!
`EncodedResult::get_compressed_spectra`: a spectrum compressed into a buffer of twice its
bytes, and a zero behind what the compressor returned. The compressor is a parameter; what
is relied on is what it returns for an empty input and for a buffer that is large enough.
-/

namespace AqMD3.Acquisition

open FixedWidth

/-- `lzf_compress`: what it returns for an input and an `out_len`, and where it stores. -/
structure Compressor where
  bytes : List UInt8 → Nat → Nat
  stored : List UInt8 → Nat → List Nat

/-- At most this many bytes come out of so many. -/
def bytesNeeded (length : Nat) : Nat := length + length / 32 + 3

structure Documented (lzf : Compressor) : Prop where
  empty : ∀ outLen, lzf.bytes [] outLen = 0
  fits : ∀ input outLen, input ≠ [] → bytesNeeded input.length ≤ outLen →
    0 < lzf.bytes input outLen ∧ lzf.bytes input outLen ≤ bytesNeeded input.length
  -- A last run without a byte in it is taken back after its length was stored.
  written : ∀ input outLen, 0 < lzf.bytes input outLen →
    ∀ index ∈ lzf.stored input outLen, index ≤ lzf.bytes input outLen

/-- The bytes of a spectrum, the low one of an entry first. -/
def spectraBytes (encoded : List Int32) : List UInt8 :=
  encoded.flatMap fun val =>
    let word : UInt32 := val.toUInt32
    [word.toUInt8, (word >>> (8 : UInt32)).toUInt8, (word >>> (16 : UInt32)).toUInt8,
      (word >>> (24 : UInt32)).toUInt8]

/-- The buffer's size, the indexes stored to, and the size of the blob. -/
structure CompressedSpectra where
  allocated : Int
  writes : List Nat
  size : Nat
  deriving DecidableEq

def EncodedResult.encodedSize (er : EncodedResult) : Int32 :=
  (UInt64.ofNat er.encodedSpectra.length * 4).toUInt32.toInt32

def EncodedResult.processingBufferSize (er : EncodedResult) : Int32 := er.encodedSize * 2

def EncodedResult.getCompressedSpectra (lzf : Compressor) (er : EncodedResult) : CompressedSpectra :=
  let input := (spectraBytes er.encodedSpectra).take er.encodedSize.toUInt32.toNat
  let outLen := er.processingBufferSize.toUInt32.toNat
  let bytes := lzf.bytes input outLen
  -- The zero is stored behind the bytes, wherever they end.
  { allocated := er.processingBufferSize.toInt
    writes := lzf.stored input outLen ++ [bytes]
    size := bytes }

/-- Every byte stored is inside the buffer, and a spectrum leaves a blob. -/
structure CompressedInside (lzf : Compressor) (er : EncodedResult) : Prop where
  inside : ∀ index ∈ (er.getCompressedSpectra lzf).writes,
    (index : Int) < (er.getCompressedSpectra lzf).allocated
  present : er.encodedSpectra ≠ [] → 0 < (er.getCompressedSpectra lzf).size

theorem spectraBytes_length (encoded : List Int32) :
    (spectraBytes encoded).length = 4 * encoded.length := by
  induction encoded with
  | nil => rfl
  | cons val rest ih =>
      rw [spectraBytes, List.flatMap_cons, List.length_append, ← spectraBytes, ih, List.length_cons,
        List.length_cons, List.length_cons, List.length_cons, List.length_cons, List.length_nil]
      omega

section Sizes

variable {er : EncodedResult} (short : er.encodedSpectra.length < 2 ^ 28)
include short

theorem encodedSize_exact : er.encodedSize.toInt = 4 * er.encodedSpectra.length := by
  have size : UInt64.size = 2 ^ 64 := rfl
  have four : (4 : UInt64).toNat = 4 := rfl
  have product : (UInt64.ofNat er.encodedSpectra.length * 4).toNat = 4 * er.encodedSpectra.length := by
    rw [UInt64.toNat_mul, UInt64.toNat_ofNat_of_lt' (by omega), four]
    omega
  rw [EncodedResult.encodedSize, uint64_narrow_exact _ (by omega), product]
  omega

theorem processingBufferSize_exact :
    er.processingBufferSize.toInt = 8 * er.encodedSpectra.length := by
  rw [EncodedResult.processingBufferSize, Int32.toInt_mul, encodedSize_exact short,
    show (2 : Int32).toInt = 2 from rfl, Int.bmod_def]
  omega

end Sizes

/-- For any spectrum of fewer than 2^28 entries: the buffer takes what is stored exactly
where there is an entry at all. -/
theorem compressed_inside_iff (lzf : Compressor) (documented : Documented lzf) (er : EncodedResult)
    (short : er.encodedSpectra.length < 2 ^ 28) :
    CompressedInside lzf er ↔ er.encodedSpectra ≠ [] := by
  have input := encodedSize_exact short
  have output := processingBufferSize_exact short
  have inLen := int32_unsigned_exact er.encodedSize (by omega)
  have outLen := int32_unsigned_exact er.processingBufferSize (by omega)
  have length := spectraBytes_length er.encodedSpectra
  have whole : (spectraBytes er.encodedSpectra).take er.encodedSize.toUInt32.toNat =
      spectraBytes er.encodedSpectra := List.take_of_length_le (by omega)
  constructor
  · -- An empty spectrum gets no byte, and the zero is stored to the first.
    rintro ⟨inside, _⟩ none
    have last := inside (lzf.bytes ((spectraBytes er.encodedSpectra).take
      er.encodedSize.toUInt32.toNat) er.processingBufferSize.toUInt32.toNat)
      (List.mem_append_right _ (List.mem_singleton_self _))
    have allocated : (er.getCompressedSpectra lzf).allocated = er.processingBufferSize.toInt := rfl
    rw [allocated, output, none] at last
    simp only [List.length_nil] at last
    omega
  · intro present
    have entries : 0 < er.encodedSpectra.length := List.length_pos_iff.mpr present
    have some : spectraBytes er.encodedSpectra ≠ [] := List.ne_nil_of_length_pos (by omega)
    obtain ⟨positive, most⟩ := documented.fits (spectraBytes er.encodedSpectra)
      er.processingBufferSize.toUInt32.toNat some (by rw [bytesNeeded]; omega)
    have written := documented.written _ _ positive
    rw [bytesNeeded] at most
    constructor
    · intro index member
      have allocated : (er.getCompressedSpectra lzf).allocated = er.processingBufferSize.toInt := rfl
      rw [EncodedResult.getCompressedSpectra] at member
      simp only [whole] at member
      rw [allocated, output]
      rcases List.mem_append.mp member with byte | zero
      · have within := written index byte
        omega
      · rw [List.mem_singleton.mp zero]
        omega
    · intro _
      rw [EncodedResult.getCompressedSpectra]
      simp only [whole]
      exact positive

/-- Input that does not compress: runs of 32 bytes as they are, one byte in front of each. -/
def literalRuns : Compressor where
  bytes input outLen :=
    if input.length + (input.length + 31) / 32 ≤ outLen then input.length + (input.length + 31) / 32
    else 0
  stored input outLen :=
    if input.length + (input.length + 31) / 32 ≤ outLen then
      List.range (input.length + (input.length + 31) / 32)
    else []

theorem literalRuns_documented : Documented literalRuns where
  empty outLen := by simp [literalRuns]
  fits input outLen present enough := by
    have some := List.length_pos_iff.mpr present
    rw [bytesNeeded] at enough ⊢
    simp only [literalRuns]
    rw [if_pos (by omega)]
    omega
  written input outLen positive := by
    simp only [literalRuns] at positive ⊢
    split at positive
    · rename_i fits
      rw [if_pos fits, if_pos fits]
      intro index member
      exact Nat.le_of_lt (List.mem_range.mp member)
    · exact absurd positive (Nat.lt_irrefl 0)

theorem compressed_inside_one_gap :
    CompressedInside literalRuns ⟨0, 1, [-5, 40000], 40000, 40000, 5, 7⟩ ↔
      (⟨0, 1, [-5, 40000], 40000, 40000, 5, 7⟩ : EncodedResult).encodedSpectra ≠ [] :=
  compressed_inside_iff literalRuns literalRuns_documented ⟨0, 1, [-5, 40000], 40000, 40000, 5, 7⟩
    (by decide)

/-- The first scan of a frame, without gates, is written, and the zero behind its spectrum
goes to the first byte of none. -/
theorem compressed_outside :
    ¬ ∀ (lzf : Compressor) (parameters : UimfFrameParameters) (er : EncodedResult), Documented lzf →
      (scanRow parameters er).isSome → er.encodedSpectra.length < 2 ^ 28 → CompressedInside lzf er := by
  intro always
  have inside := (always literalRuns ⟨0, 0, 0, 0, 1, 0, ""⟩ ⟨0, 0, [], 0, 0, 0, 7⟩ literalRuns_documented
    (by decide +kernel) (by decide)).inside 0
  exact absurd (inside (by decide +kernel)) (by decide +kernel)

end AqMD3.Acquisition
