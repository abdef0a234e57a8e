import AqMD3.LzfRoundTrip

/-!
`lzf_compress` keeps to its buffers. It stores to the output alone, and two memories that
hold the same input give the same call: no byte behind the input decides anything, although
one behind an input of a single byte is read.
-/

namespace AqMD3.Lzf

open CellMemory BackReferences

section Reads

variable {data other : Memory UInt8} {inLen : Nat} (same : SameOn 0 inLen data other)
include same

theorem read_same {index : Nat} (inside : index < inLen) : other index = data index :=
  same index (Nat.zero_le _) (by rwa [Nat.zero_add])

theorem first_same {p : Nat} (inside : p + 1 < inLen) : first other p = first data p := by
  rw [first, first, read_same same (Nat.lt_of_succ_lt inside), read_same same inside]

theorem next_same (v : UInt32) {p : Nat} (inside : p + 2 < inLen) : next other v p = next data v p := by
  rw [next, next, read_same same inside]

theorem pair_same {p : Nat} (inside : p + 1 < inLen) : pair other p = pair data p := by
  rw [pair, pair, read_same same (Nat.lt_of_succ_lt inside), read_same same inside]

/-- A reference is compared only where it lies before what is compared with it. -/
theorem matches_same (ref : Nat) {ip : Nat} (left : ip + 2 < inLen) :
    Matches other ref ip ↔ Matches data ref ip := by
  by_cases before : ref < ip
  · rw [Matches, Matches, pair_same same (p := ref) (by omega), pair_same same (p := ip) (by omega),
      read_same same (show ref + 2 < inLen by omega), read_same same left]
  · exact iff_of_false (fun found => before found.1) (fun found => before found.1)

theorem unrolled_reads (ref ip : Nat) (before : ref < ip) (count len : Nat)
    (inside : ip + len + count < inLen) :
    unrolled other ref ip count len = unrolled data ref ip count len := by
  induction count generalizing len with
  | zero => rfl
  | succ count ih =>
      rw [unrolled, unrolled, read_same same (show ref + (len + 1) < inLen by omega),
        read_same same (show ip + (len + 1) < inLen by omega), ih (len + 1) (by omega)]

theorem lengthen_reads (ref ip maxlen : Nat) (before : ref < ip) (inside : ip + maxlen < inLen)
    (turns len : Nat) :
    lengthen other ref ip maxlen turns len = lengthen data ref ip maxlen turns len := by
  induction turns generalizing len with
  | zero => rfl
  | succ turns ih =>
      rw [lengthen, lengthen, ih]
      by_cases short : len + 1 < maxlen
      · rw [read_same same (show ref + (len + 1) < inLen by omega),
          read_same same (show ip + (len + 1) < inLen by omega)]
      · rw [if_neg (fun both => short both.1), if_neg (fun both => short both.1)]

theorem matchLength_reads (ref ip : Nat) (before : ref < ip) (left : ip + 2 < inLen) :
    matchLength other ref ip (min (inLen - ip - 2) 264) =
      matchLength data ref ip (min (inLen - ip - 2) 264) := by
  generalize bound : min (inLen - ip - 2) 264 = maxlen
  have lengthened := lengthen_reads same ref ip maxlen before (by omega) (maxlen + 1)
  rw [matchLength, matchLength]
  by_cases long : 16 < maxlen
  · simp only [long, ↓reduceIte, unrolled_reads same ref ip before 16 2 (by omega), lengthened]
  · rw [if_neg long, if_neg long, lengthened]

theorem copyLiteral_reads (w : Writing) (left : w.ip < inLen) :
    copyLiteral other w = copyLiteral data w := by
  rw [copyLiteral, copyLiteral, read_same same left]

theorem copyMatch_reads (ref : Nat) (w : Writing) (before : ref < w.ip) (left : w.ip + 2 < inLen) :
    copyMatch other inLen ref w = copyMatch data inLen ref w := by
  have length := matchLength_reads same ref w.ip before left
  rw [copyMatch, copyMatch]
  simp only [Nat.one_shiftLeft, Nat.reducePow, Nat.reduceAdd, length]

theorem rehash_reads (s : Compressing) (past : 2 ≤ s.ip) (left : s.ip + 2 < inLen) :
    rehash other s = rehash data s := by
  simp only [rehash, hash]
  rw [first_same same (p := s.ip - 2) (by omega), next_same same _ (p := s.ip - 2) (by omega),
    next_same same _ (p := s.ip - 2 + 1) (by omega)]

theorem compressTurn_reads (outLen : Nat) (s : Compressing) (left : s.ip + 2 < inLen) :
    compressTurn other inLen outLen s = compressTurn data inLen outLen s := by
  simp only [compressTurn, next_same same s.hval left]
  generalize next data s.hval s.ip = hval
  by_cases found : Matches data (s.htab (idx hval)).toNat s.ip
  · rw [if_pos found, if_pos ((matches_same same _ left).mpr found), matchTurn, matchTurn]
    have copied := copyMatch_reads same (s.htab (idx hval)).toNat s.toWriting found.1 left
    have moved : (hash s hval).toWriting = s.toWriting := rfl
    simp only [moved, copied]
    by_cases last : inLen ≤ (copyMatch data inLen (s.htab (idx hval)).toNat s.toWriting).ip + 2
    · simp only [last, ↓reduceIte]
    · have ahead := (copyMatch_ip data inLen _ s.toWriting left found).1
      simp only [last, ↓reduceIte]
      rw [rehash_reads same _ (by change 2 ≤ (copyMatch data inLen _ s.toWriting).ip; omega)
        (by change (copyMatch data inLen _ s.toWriting).ip + 2 < inLen; omega)]
  · rw [if_neg found, if_neg (fun there => found ((matches_same same _ left).mp there)),
      literalTurn, literalTurn]
    have copied := copyLiteral_reads same s.toWriting (by omega)
    have moved : (hash s hval).toWriting = s.toWriting := rfl
    simp only [moved, copied]

theorem compressLoop_reads (outLen turns : Nat) (s : Compressing) :
    compressLoop other inLen outLen turns s = compressLoop data inLen outLen turns s := by
  induction turns generalizing s with
  | zero => rfl
  | succ turns ih =>
      rw [compressLoop, compressLoop]
      by_cases left : s.ip + 2 < inLen
      · rw [if_pos left, if_pos left, compressTurn_reads same outLen s left]
        cases compressTurn data inLen outLen s with
        | refused w => rfl
        | went after => exact ih after
      · rw [if_neg left, if_neg left]

theorem copyTail_reads (turns : Nat) (w : Writing) :
    copyTail other inLen turns w = copyTail data inLen turns w := by
  induction turns generalizing w with
  | zero => rfl
  | succ turns ih =>
      rw [copyTail, copyTail]
      by_cases left : w.ip < inLen
      · rw [if_pos left, if_pos left, copyLiteral_reads same w left, ih]
      · rw [if_neg left, if_neg left]

theorem finish_reads (outLen : Nat) (ended : Compressed) :
    finish other inLen outLen ended = finish data inLen outLen ended := by
  cases ended with
  | refused w => rfl
  | went s => rw [finish, finish, copyTail_reads same]

theorem lzfCompress_reads (outLen : Nat) (memory : Memory UInt8) :
    lzfCompress other inLen outLen memory = lzfCompress data inLen outLen memory := by
  rw [lzfCompress, lzfCompress]
  by_cases none : inLen = 0 ∨ outLen = 0
  · rw [if_pos none, if_pos none]
  rw [if_neg none, if_neg none, compressLoop_reads same, finish_reads same]
  by_cases single : inLen = 1
  · -- The second byte gets into `hval`, and nothing is hashed.
    subst single
    rfl
  · rw [start, start, first_same same (by omega)]

end Reads

/-- Every store of a call is inside its output, and nothing but its input decides it. -/
theorem lzfCompress_confined (data : Memory UInt8) (inLen outLen : Nat) (memory : Memory UInt8) :
    StoresInside inLen outLen memory (lzfCompress data inLen outLen memory) ∧
      ∀ other, SameOn 0 inLen data other →
        lzfCompress other inLen outLen memory = lzfCompress data inLen outLen memory :=
  ⟨lzfCompress_inside data inLen outLen memory,
    fun _ same => lzfCompress_reads same outLen memory⟩

end AqMD3.Lzf
