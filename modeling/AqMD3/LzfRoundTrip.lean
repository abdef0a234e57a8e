import Mathlib.Tactic.IntervalCases
import AqMD3.LzfCompress

/-!
What `lzf_compress` returns is a stream of the tokens it has closed so far. A run that is
not stopped yet has its bytes in the output already, behind an octet still to be stored.
Whatever the table refers to, the comparisons decide that it is the same.
-/

namespace AqMD3.Lzf

open CellMemory BackReferences

def SameFor (data : Memory UInt8) (ref ip count : Nat) : Prop :=
  ∀ offset, offset < count → data (ref + offset) = data (ip + offset)

theorem sameFor_succ (data : Memory UInt8) (ref ip count : Nat) (before : SameFor data ref ip count)
    (here : data (ref + count) = data (ip + count)) : SameFor data ref ip (count + 1) := by
  intro offset inside
  rcases Nat.lt_succ_iff_lt_or_eq.mp inside with earlier | last
  · exact before offset earlier
  · rw [last]
    exact here

theorem pair_octets (data : Memory UInt8) (ref ip : Nat) (same : pair data ref = pair data ip) :
    data ref = data ip ∧ data (ref + 1) = data (ip + 1) := by
  have bytes (high low : UInt8) :
      (high.toUInt16 <<< 8 ||| low.toUInt16).toNat = high.toNat * 256 + low.toNat := by
    have top := high.toNat_lt
    have bottom := low.toNat_lt
    have eight : (8 : UInt16).toNat % 16 = 8 := rfl
    rw [UInt16.toNat_or, UInt16.toNat_shiftLeft, eight, UInt8.toNat_toUInt16, UInt8.toNat_toUInt16,
      Nat.mod_eq_of_lt (by rw [Nat.shiftLeft_eq]; omega), ← Nat.shiftLeft_add_eq_or_of_lt bottom,
      Nat.shiftLeft_eq]
  have equal := congrArg UInt16.toNat same
  rw [pair, pair, bytes, bytes] at equal
  have first := (data ref).toNat_lt
  have second := (data ip).toNat_lt
  exact ⟨UInt8.toNat_inj.mp (by omega), UInt8.toNat_inj.mp (by omega)⟩

theorem matches_three (data : Memory UInt8) (ref ip : Nat) (found : Matches data ref ip) :
    SameFor data ref ip 3 := by
  obtain ⟨_, _, _, third, both⟩ := found
  obtain ⟨one, two⟩ := pair_octets data ref ip both
  intro offset inside
  interval_cases offset
  · exact one
  · exact two
  · exact third

theorem unrolled_same (data : Memory UInt8) (ref ip count len : Nat)
    (same : SameFor data ref ip (len + 1)) :
    ((unrolled data ref ip count len).2 = true →
      (unrolled data ref ip count len).1 = len + count ∧
        SameFor data ref ip (len + count + 1)) ∧
    ((unrolled data ref ip count len).2 = false →
      len < (unrolled data ref ip count len).1 ∧
        (unrolled data ref ip count len).1 ≤ len + count ∧
        SameFor data ref ip (unrolled data ref ip count len).1) := by
  induction count generalizing len with
  | zero => exact ⟨fun _ => ⟨rfl, same⟩, fun broke => Bool.noConfusion (show true = false from broke)⟩
  | succ count ih =>
      rw [unrolled]
      by_cases differs : data (ref + (len + 1)) ≠ data (ip + (len + 1))
      · rw [if_pos differs]
        exact ⟨fun whole => absurd whole Bool.false_ne_true, fun _ => ⟨by omega, by omega, same⟩⟩
      · rw [if_neg differs]
        obtain ⟨whole, broke⟩ := ih (len + 1) (sameFor_succ _ _ _ _ same (not_not.mp differs))
        rw [show len + (count + 1) = len + 1 + count by omega]
        refine ⟨whole, fun stopped => ?_⟩
        obtain ⟨low, high, same⟩ := broke stopped
        exact ⟨by omega, high, same⟩

theorem lengthen_same (data : Memory UInt8) (ref ip maxlen turns len : Nat)
    (same : SameFor data ref ip (len + 1)) (some : 0 < turns) :
    len < lengthen data ref ip maxlen turns len ∧
      lengthen data ref ip maxlen turns len ≤ max (len + 1) maxlen ∧
      SameFor data ref ip (lengthen data ref ip maxlen turns len) := by
  induction turns generalizing len with
  | zero => omega
  | succ turns ih =>
      rw [lengthen]
      by_cases again : len + 1 < maxlen ∧ data (ref + (len + 1)) = data (ip + (len + 1))
      · rw [if_pos again]
        have longer := sameFor_succ _ _ _ _ same again.2
        cases turns with
        | zero =>
            rw [lengthen]
            exact ⟨by omega, by omega, same⟩
        | succ turns =>
            obtain ⟨low, high, rest⟩ := ih (len + 1) longer (Nat.succ_pos turns)
            exact ⟨by omega, by omega, rest⟩
      · rw [if_neg again]
        exact ⟨by omega, by omega, same⟩

/-- A match is of three bytes at least, ends inside the input and is no longer than a
reference can say. -/
theorem matchLength_spec (data : Memory UInt8) (ref ip inLen : Nat) (left : ip + 2 < inLen)
    (found : Matches data ref ip) :
    3 ≤ matchLength data ref ip (min (inLen - ip - 2) 264) ∧
      matchLength data ref ip (min (inLen - ip - 2) 264) ≤ 264 ∧
      ip + matchLength data ref ip (min (inLen - ip - 2) 264) ≤ inLen ∧
      SameFor data ref ip (matchLength data ref ip (min (inLen - ip - 2) 264)) := by
  generalize bound : min (inLen - ip - 2) 264 = maxlen
  have three := matches_three data ref ip found
  rw [matchLength]
  by_cases long : 16 < maxlen
  · rw [if_pos long]
    obtain ⟨whole, broke⟩ := unrolled_same data ref ip 16 2 three
    cases compared : (unrolled data ref ip 16 2).2 with
    | false =>
        obtain ⟨low, high, same⟩ := broke compared
        simp only [compared, Bool.false_eq_true, ↓reduceIte]
        exact ⟨by omega, by omega, by omega, same⟩
    | true =>
        obtain ⟨len, same⟩ := whole compared
        simp only [compared, ↓reduceIte, len]
        obtain ⟨low, high, same⟩ :=
          lengthen_same data ref ip maxlen (maxlen + 1) (2 + 16) same (Nat.succ_pos _)
        exact ⟨by omega, by omega, by omega, same⟩
  · rw [if_neg long]
    obtain ⟨low, high, same⟩ :=
      lengthen_same data ref ip maxlen (maxlen + 1) 2 three (Nat.succ_pos _)
    exact ⟨by omega, by omega, by omega, same⟩

/-- Everything in front of `op` is octets of the tokens, which stand for the bytes read. -/
structure Closed (data : Memory UInt8) (w : Writing) (tokens : List (Token UInt8)) : Prop where
  fits : ∀ token ∈ tokens, Fits token
  octets : block w.out 0 w.op = tokens.flatMap octets
  expands : expand [] tokens = some (block data 0 w.ip)

/-- The tokens end in front of the run, whose bytes are stored without their number. -/
structure Running (data : Memory UInt8) (w : Writing) (tokens : List (Token UInt8)) : Prop where
  short : w.lit ≤ 32
  behind : w.lit < w.op
  read : w.lit ≤ w.ip
  fits : ∀ token ∈ tokens, Fits token
  octets : block w.out 0 (w.op - w.lit - 1) = tokens.flatMap octets
  run : block w.out (w.op - w.lit) w.lit = block data (w.ip - w.lit) w.lit
  expands : expand [] tokens = some (block data 0 (w.ip - w.lit))

/-- A stopped run is a token more, and an empty one is taken back. -/
theorem stopped_closed (data : Memory UInt8) (w : Writing) (tokens : List (Token UInt8))
    (running : Running data w tokens) :
    ∃ closed, Closed data (undoRun (stopRun w)) closed := by
  obtain ⟨short, behind, read, fits, before, run, expands⟩ := running
  by_cases empty : w.lit = 0
  · have undone : (undoRun (stopRun w)).op = w.op - 1 := by
      rw [undoRun, noRun, stopRun, store]
      simp only [empty, ↓reduceIte]
    rw [empty, Nat.sub_zero] at before expands
    refine ⟨tokens, fits, ?_, expands⟩
    rw [undone, ← before]
    exact block_write_outside _ _ _ _ _ (Or.inr (by omega))
  · have kept : (undoRun (stopRun w)).op = w.op := by
      rw [undoRun, noRun, stopRun, store]
      simp only [empty, ↓reduceIte, Nat.sub_zero]
    have length : (block data (w.ip - w.lit) w.lit).length = w.lit := block_length _ _ _
    have count : UInt8.ofNat w.lit - 1 = UInt8.ofNat (w.lit - 1) := by
      apply UInt8.toNat_inj.mp
      rw [UInt8.toNat_sub, UInt8.toNat_ofNat', UInt8.toNat_ofNat', show (1 : UInt8).toNat = 1 from rfl]
      omega
    refine ⟨tokens ++ [.literal (block data (w.ip - w.lit) w.lit)], ?_, ?_, ?_⟩
    · intro token member
      rcases List.mem_append.mp member with earlier | last
      · exact fits token earlier
      · rw [List.mem_singleton.mp last, Fits, length]
        omega
    · obtain ⟨base, place⟩ : ∃ base, w.op = base + 1 + w.lit := ⟨w.op - w.lit - 1, by omega⟩
      have counted : w.op - w.lit - 1 = base := by omega
      have first : w.op - w.lit = base + 1 := by omega
      rw [counted] at before
      rw [first] at run
      have header := block_write_next w.out 0 base (UInt8.ofNat w.lit - 1)
      have body := block_write_outside w.out (base + 1) w.lit base (UInt8.ofNat w.lit - 1)
        (Or.inl (Nat.lt_succ_self base))
      have stopped : (undoRun (stopRun w)).out = write w.out base (UInt8.ofNat w.lit - 1) := by
        rw [undoRun, stopRun, store, counted]
      rw [Nat.zero_add] at header
      rw [kept, stopped, place, block_add, Nat.zero_add, header, body, run, before,
        List.flatMap_append, List.flatMap_singleton, Lzf.octets, length, count, List.append_assoc]
      rfl
    · have whole : block data 0 w.ip =
          block data 0 (w.ip - w.lit) ++ block data (w.ip - w.lit) w.lit := by
        have split := block_add data 0 (w.ip - w.lit) w.lit
        rwa [Nat.zero_add, Nat.sub_add_cancel (by omega)] at split
      rw [expand_snoc _ _ _ _ expands, Token.apply, ← whole]
      rfl

theorem started_running (data : Memory UInt8) (w : Writing) (tokens : List (Token UInt8))
    (closed : Closed data w tokens) : Running data (startRun w) tokens := by
  obtain ⟨fits, octets, expands⟩ := closed
  exact ⟨Nat.zero_le _, Nat.succ_pos _, Nat.zero_le _, fits, octets, rfl, expands⟩

theorem put_block (w : Writing) (octet : UInt8) :
    block (put w octet).out 0 (put w octet).op = block w.out 0 w.op ++ [octet] := by
  have stored := block_write_next w.out 0 w.op octet
  rwa [Nat.zero_add] at stored

theorem putReference_block (w : Writing) (off len : Nat) :
    block (putReference w off len).out 0 (putReference w off len).op =
      block w.out 0 w.op ++ octets (.copy (off + 1) (len + 2)) := by
  rw [putReference, octets, Nat.add_sub_cancel, Nat.add_sub_cancel, Nat.shiftRight_eq_div_pow]
  by_cases short : len < 7
  · rw [if_pos short, if_pos (by omega), put_block, put_block, List.append_assoc, Nat.shiftLeft_eq]
    rfl
  · rw [if_neg short, if_neg (by omega), put_block, put_block, put_block, List.append_assoc,
      List.append_assoc, show len + 2 - 9 = len - 7 by omega]
    rfl

theorem putReference_op (w : Writing) (off len : Nat) :
    (putReference w off len).op = w.op + if len < 7 then 2 else 3 := by
  rw [putReference]
  split <;> rfl

theorem referenced_closed (data : Memory UInt8) (w : Writing) (tokens : List (Token UInt8))
    (off len : Nat) (closed : Closed data w tokens) (near : off < 8192) (inside : off < w.ip)
    (positive : 0 < len) (most : len ≤ 262) (same : SameFor data (w.ip - off - 1) w.ip (len + 2)) :
    Closed data { putReference w off len with ip := w.ip + 1 + (len + 1) }
      (tokens ++ [.copy (off + 1) (len + 2)]) := by
  obtain ⟨fits, before, expands⟩ := closed
  refine ⟨?_, ?_, ?_⟩
  · intro token member
    rcases List.mem_append.mp member with earlier | last
    · exact fits token earlier
    · rw [List.mem_singleton.mp last]
      exact ⟨by omega, by omega, by omega, by omega⟩
  · rw [List.flatMap_append, List.flatMap_singleton, ← before]
    exact putReference_block w off len
  · have reach : 0 < off + 1 ∧ off + 1 ≤ (block data 0 w.ip).length := by
      rw [block_length]
      omega
    rw [expand_snoc _ _ _ _ expands, Token.apply, if_pos reach,
      copyBack_block data (off + 1) w.ip (len + 2) reach.1 (by omega)]
    · change some (block data 0 (w.ip + (len + 2))) = some (block data 0 (w.ip + 1 + (len + 1)))
      rw [show w.ip + (len + 2) = w.ip + 1 + (len + 1) by omega]
    · intro offset before
      rw [← same offset before]
      congr 1
      omega

theorem literal_running (data : Memory UInt8) (w : Writing) (tokens : List (Token UInt8))
    (running : Running data w tokens) (short : w.lit < 32) :
    ∃ tokens, Running data (copyLiteral data w) tokens ∧ (copyLiteral data w).lit < 32 := by
  obtain ⟨_, behind, read, fits, before, run, expands⟩ := running
  have copied : Running data { put w (data w.ip) with ip := w.ip + 1, lit := w.lit + 1 } tokens := by
    have header : w.op + 1 - (w.lit + 1) - 1 = w.op - w.lit - 1 := by omega
    have body : w.op + 1 - (w.lit + 1) = w.op - w.lit := by omega
    have begin : w.ip + 1 - (w.lit + 1) = w.ip - w.lit := by omega
    have next := block_write_next w.out (w.op - w.lit) w.lit (data w.ip)
    rw [show w.op - w.lit + w.lit = w.op by omega] at next
    refine ⟨short, Nat.succ_lt_succ behind, Nat.succ_le_succ read, fits, ?_, ?_, ?_⟩
    · change block (write w.out w.op (data w.ip)) 0 (w.op + 1 - (w.lit + 1) - 1) = _
      rw [header, ← before]
      exact block_write_outside _ _ _ _ _ (Or.inr (by omega))
    · change block (write w.out w.op (data w.ip)) (w.op + 1 - (w.lit + 1)) (w.lit + 1) =
        block data (w.ip + 1 - (w.lit + 1)) (w.lit + 1)
      rw [body, begin, next, run, block_succ, show w.ip - w.lit + w.lit = w.ip by omega]
    · change _ = some (block data 0 (w.ip + 1 - (w.lit + 1)))
      rw [begin]
      exact expands
  rw [copyLiteral]
  by_cases full : w.lit + 1 = 1 <<< 5
  · obtain ⟨closed, stopped⟩ := stopped_closed data _ tokens copied
    have kept : undoRun (stopRun { put w (data w.ip) with ip := w.ip + 1, lit := w.lit + 1 }) =
        stopRun { put w (data w.ip) with ip := w.ip + 1, lit := w.lit + 1 } := by
      rw [undoRun, noRun, stopRun, store]
      simp only [Nat.succ_ne_zero, ↓reduceIte, Nat.sub_zero]
    rw [kept] at stopped
    simp only [full, ↓reduceIte] at stopped ⊢
    exact ⟨closed, started_running data _ closed stopped, Nat.zero_lt_succ 31⟩
  · rw [Nat.one_shiftLeft] at full
    simp only [Nat.one_shiftLeft, full, ↓reduceIte]
    exact ⟨tokens, copied, by omega⟩

theorem match_running (data : Memory UInt8) (w : Writing) (tokens : List (Token UInt8))
    (inLen ref : Nat) (running : Running data w tokens) (left : w.ip + 2 < inLen)
    (found : Matches data ref w.ip) :
    ∃ tokens, Running data (copyMatch data inLen ref w) tokens := by
  obtain ⟨closed, stopped⟩ := stopped_closed data w tokens running
  obtain ⟨three, most, inside, same⟩ := matchLength_spec data ref w.ip inLen left found
  obtain ⟨before, near, _⟩ := found
  rw [Nat.one_shiftLeft] at near
  have length : matchLength data ref w.ip (min (inLen - w.ip - 2) 264) - 2 + 2 =
    matchLength data ref w.ip (min (inLen - w.ip - 2) 264) := by omega
  have from_ref : w.ip - (w.ip - ref - 1) - 1 = ref := by omega
  have copied := referenced_closed data _ closed (w.ip - ref - 1)
    (matchLength data ref w.ip (min (inLen - w.ip - 2) 264) - 2) stopped near
    (show w.ip - ref - 1 < w.ip by omega) (by omega) (by omega)
    (by
      rw [length]
      change SameFor data (w.ip - (w.ip - ref - 1) - 1) w.ip _
      rw [from_ref]
      exact same)
  exact ⟨_, started_running data _ _ copied⟩

theorem rehash_writing (data : Memory UInt8) (s : Compressing) (past : 2 ≤ s.ip) :
    (rehash data s).toWriting = s.toWriting := by
  have place : s.ip - 2 + 1 + 1 = s.ip := by omega
  simp only [rehash, hash, place]

theorem matchTurn_cases (data : Memory UInt8) (inLen outLen ref : Nat) (s : Compressing) :
    outLen ≤ s.op - noRun s.toWriting + 4 ∧
        matchTurn data inLen outLen ref s = .refused s.toWriting ∨
      s.op - noRun s.toWriting + 4 < outLen ∧ ∃ after, matchTurn data inLen outLen ref s = .went after ∧
        after.toWriting = copyMatch data inLen ref s.toWriting := by
  rw [matchTurn]
  by_cases tight : outLen ≤ s.op - noRun s.toWriting + 4
  · rw [if_pos ⟨by omega, tight⟩]
    exact Or.inl ⟨tight, rfl⟩
  rw [if_neg (fun both => tight both.2)]
  refine Or.inr ⟨by omega, ?_⟩
  by_cases last : inLen ≤ (copyMatch data inLen ref s.toWriting).ip + 2
  · simp only [last, ↓reduceIte]
    exact ⟨_, rfl, rfl⟩
  · simp only [last, ↓reduceIte]
    refine ⟨_, rfl, rehash_writing _ _ ?_⟩
    change 2 ≤ s.ip + 1 + (_ + 1)
    omega

theorem literalTurn_cases (data : Memory UInt8) (outLen : Nat) (s : Compressing) :
    outLen ≤ s.op ∧ literalTurn data outLen s = .refused s.toWriting ∨
      s.op < outLen ∧ ∃ after, literalTurn data outLen s = .went after ∧
        after.toWriting = copyLiteral data s.toWriting := by
  rw [literalTurn]
  by_cases tight : outLen ≤ s.op
  · rw [if_pos tight]
    exact Or.inl ⟨tight, rfl⟩
  · rw [if_neg tight]
    exact Or.inr ⟨by omega, _, rfl, rfl⟩

/-- What a turn does to what is stored: a byte it has room for, or a match with four bytes to
spare. -/
inductive Moved (data : Memory UInt8) (inLen outLen : Nat) (w : Writing) : Writing → Prop
  | literal (room : w.op < outLen) : Moved data inLen outLen w (copyLiteral data w)
  | reference (ref : Nat) (found : Matches data ref w.ip) (spare : w.op - noRun w + 4 < outLen) :
      Moved data inLen outLen w (copyMatch data inLen ref w)

theorem compressTurn_cases (data : Memory UInt8) (inLen outLen : Nat) (s : Compressing) :
    outLen ≤ s.op + 4 ∧ compressTurn data inLen outLen s = .refused s.toWriting ∨
      ∃ after, compressTurn data inLen outLen s = .went after ∧
        Moved data inLen outLen s.toWriting after.toWriting := by
  simp only [compressTurn]
  generalize next data s.hval s.ip = hval
  by_cases found : Matches data (s.htab (idx hval)).toNat s.ip
  · rw [if_pos found]
    rcases matchTurn_cases data inLen outLen (s.htab (idx hval)).toNat (hash s hval) with
      ⟨tight, refused⟩ | ⟨spare, after, went, moved⟩
    · exact Or.inl ⟨by simp only [hash] at tight; omega, refused⟩
    · exact Or.inr ⟨after, went, moved ▸ Moved.reference _ found spare⟩
  · rw [if_neg found]
    rcases literalTurn_cases data outLen (hash s hval) with ⟨tight, refused⟩ | ⟨room, after, went, moved⟩
    · exact Or.inl ⟨by simp only [hash] at tight; omega, refused⟩
    · exact Or.inr ⟨after, went, moved ▸ Moved.literal room⟩

def Compressed.writing : Compressed → Writing
  | .refused w => w
  | .went s => s.toWriting

/-- The invariant rule of the main loop. -/
theorem compressLoop_invariant (data : Memory UInt8) (inLen outLen : Nat) (Holds : Writing → Prop)
    (step : ∀ w after, w.ip + 2 < inLen → Holds w → Moved data inLen outLen w after → Holds after)
    (turns : Nat) (s : Compressing) (holds : Holds s.toWriting) :
    Holds (compressLoop data inLen outLen turns s).writing := by
  induction turns generalizing s with
  | zero => exact holds
  | succ turns ih =>
      rw [compressLoop]
      by_cases left : s.ip + 2 < inLen
      · rw [if_pos left]
        rcases compressTurn_cases data inLen outLen s with ⟨_, refused⟩ | ⟨after, went, moved⟩
        · simp only [refused]
          exact holds
        · simp only [went]
          exact ih after (step _ _ left holds moved)
      · rw [if_neg left]
        exact holds

theorem compressLoop_left (data : Memory UInt8) (inLen outLen turns : Nat) (s ended : Compressing)
    (went : compressLoop data inLen outLen turns s = .went ended) : inLen ≤ ended.ip + 2 := by
  induction turns generalizing s with
  | zero => cases went
  | succ turns ih =>
      rw [compressLoop] at went
      by_cases left : s.ip + 2 < inLen
      · rw [if_pos left] at went
        rcases compressTurn_cases data inLen outLen s with ⟨_, refused⟩ | ⟨after, taken, _⟩
        · simp only [refused] at went
          cases went
        · simp only [taken] at went
          exact ih after went
      · rw [if_neg left] at went
        injection went with same
        rw [← same]
        omega

theorem copyTail_invariant (data : Memory UInt8) (inLen : Nat) (Holds : Writing → Prop)
    (step : ∀ w, w.ip < inLen → Holds w → Holds (copyLiteral data w)) (turns : Nat) (w : Writing)
    (holds : Holds w) : Holds (copyTail data inLen turns w) := by
  induction turns generalizing w with
  | zero => exact holds
  | succ turns ih =>
      rw [copyTail]
      by_cases left : w.ip < inLen
      · rw [if_pos left]
        exact ih _ (step w left holds)
      · rw [if_neg left]
        exact holds

theorem copyLiteral_ip (data : Memory UInt8) (w : Writing) : (copyLiteral data w).ip = w.ip + 1 := by
  simp only [copyLiteral]
  split <;> rfl

theorem copyMatch_ip (data : Memory UInt8) (inLen ref : Nat) (w : Writing)
    (left : w.ip + 2 < inLen) (found : Matches data ref w.ip) :
    w.ip + 3 ≤ (copyMatch data inLen ref w).ip ∧ (copyMatch data inLen ref w).ip ≤ inLen := by
  obtain ⟨three, _, inside, _⟩ := matchLength_spec data ref w.ip inLen left found
  have place : (copyMatch data inLen ref w).ip =
      w.ip + 1 + (matchLength data ref w.ip (min (inLen - w.ip - 2) 264) - 2 + 1) := rfl
  omega

theorem moved_ip (data : Memory UInt8) (inLen outLen : Nat) (w after : Writing)
    (left : w.ip + 2 < inLen) (moved : Moved data inLen outLen w after) :
    w.ip < after.ip ∧ after.ip ≤ inLen := by
  cases moved with
  | literal room =>
      rw [copyLiteral_ip]
      omega
  | reference ref found spare =>
      obtain ⟨ahead, inside⟩ := copyMatch_ip data inLen ref w left found
      omega

/-- The tail is copied to its end. -/
theorem copyTail_ip (data : Memory UInt8) (inLen turns : Nat) (w : Writing) (inside : w.ip ≤ inLen)
    (enough : inLen ≤ w.ip + turns) : (copyTail data inLen turns w).ip = inLen := by
  induction turns generalizing w with
  | zero =>
      rw [copyTail]
      omega
  | succ turns ih =>
      have place := copyLiteral_ip data w
      rw [copyTail]
      by_cases left : w.ip < inLen
      · rw [if_pos left]
        exact ih _ (by omega) (by omega)
      · rw [if_neg left]
        omega

def Emits (data : Memory UInt8) (inLen : Nat) (w : Writing) : Prop :=
  w.ip ≤ inLen ∧ w.lit < 32 ∧ ∃ tokens, Running data w tokens

theorem literal_emits (data : Memory UInt8) (inLen : Nat) (w : Writing) (left : w.ip < inLen)
    (emits : Emits data inLen w) : Emits data inLen (copyLiteral data w) := by
  obtain ⟨_, short, tokens, running⟩ := emits
  obtain ⟨grown, copied, less⟩ := literal_running data w tokens running short
  exact ⟨by rw [copyLiteral_ip]; omega, less, grown, copied⟩

theorem moved_emits (data : Memory UInt8) (inLen outLen : Nat) (w after : Writing)
    (left : w.ip + 2 < inLen) (emits : Emits data inLen w)
    (moved : Moved data inLen outLen w after) : Emits data inLen after := by
  cases moved with
  | literal room => exact literal_emits data inLen w (by omega) emits
  | reference ref found spare =>
      obtain ⟨_, _, tokens, running⟩ := emits
      exact ⟨(copyMatch_ip data inLen ref w left found).2, Nat.zero_lt_succ 31,
        match_running data w tokens inLen ref running left found⟩

theorem start_emits (data memory : Memory UInt8) (inLen : Nat) :
    Emits data inLen (start data memory).toWriting :=
  ⟨Nat.zero_le _, Nat.zero_lt_succ 31, [], Nat.zero_le _, Nat.zero_lt_one, Nat.le_refl _,
    fun _ member => absurd member List.not_mem_nil, rfl, rfl, rfl⟩

/-- The end of a call whose main loop was left: the octets of a stream of the input. -/
theorem tail_closed (data : Memory UInt8) (inLen : Nat) (w : Writing) (emits : Emits data inLen w) :
    ∃ tokens, Stream (block (undoRun (stopRun (copyTail data inLen inLen w))).out 0
      (undoRun (stopRun (copyTail data inLen inLen w))).op) tokens [] (block data 0 inLen) := by
  obtain ⟨_, _, tokens, running⟩ := copyTail_invariant data inLen (Emits data inLen)
    (literal_emits data inLen) inLen w emits
  have place := copyTail_ip data inLen inLen w emits.1 (by omega)
  obtain ⟨closed, fits, octets, expands⟩ := stopped_closed data _ tokens running
  refine ⟨closed, fits, octets.symm, ?_⟩
  rw [← place]
  exact expands

theorem loop_emits (data memory : Memory UInt8) (inLen outLen turns : Nat) :
    Emits data inLen (compressLoop data inLen outLen turns (start data memory)).writing :=
  compressLoop_invariant data inLen outLen (Emits data inLen) (moved_emits data inLen outLen) turns
    (start data memory) (start_emits data memory inLen)

theorem stream_nonempty (data : Memory UInt8) (inLen : Nat) (input : List UInt8)
    (tokens : List (Token UInt8)) (present : 0 < inLen)
    (stream : Stream input tokens [] (block data 0 inLen)) : tokens ≠ [] := by
  rintro rfl
  have none := stream.expands
  rw [expand_nil, Option.some.injEq] at none
  have length := congrArg List.length none
  rw [block_length, List.length_nil] at length
  omega

/-- What is returned, when it is not 0, is as many octets of a stream of the input. -/
theorem lzfCompress_stream (data : Memory UInt8) (inLen outLen : Nat) (memory : Memory UInt8)
    (some : 0 < (lzfCompress data inLen outLen memory).bytes) :
    0 < inLen ∧ ∃ tokens, Stream (block (lzfCompress data inLen outLen memory).out 0
      (lzfCompress data inLen outLen memory).bytes) tokens [] (block data 0 inLen) := by
  rw [lzfCompress] at some ⊢
  by_cases none : inLen = 0 ∨ outLen = 0
  · rw [if_pos none] at some
    exact absurd some (Nat.lt_irrefl 0)
  rw [if_neg none] at some ⊢
  refine ⟨by omega, ?_⟩
  have ended := loop_emits data memory inLen outLen (inLen + 1)
  cases looped : compressLoop data inLen outLen (inLen + 1) (start data memory) with
  | refused w =>
      rw [looped] at some
      exact absurd some (Nat.lt_irrefl 0)
  | went s =>
      rw [looped] at some ended
      rw [finish] at some ⊢
      by_cases tight : outLen < s.op + 3
      · rw [if_pos tight] at some
        exact absurd some (Nat.lt_irrefl 0)
      rw [if_neg tight] at some ⊢
      exact tail_closed data inLen s.toWriting ended

/-- What is returned is accepted where there is room for the input. -/
theorem lzfCompress_accepted (data : Memory UInt8) (inLen outLen : Nat) (memory : Memory UInt8)
    (some : 0 < (lzfCompress data inLen outLen memory).bytes) (room : Nat) :
    if inLen ≤ room then
      lzfDecompress (block (lzfCompress data inLen outLen memory).out 0
        (lzfCompress data inLen outLen memory).bytes) room = .returned (block data 0 inLen)
    else
      ∃ stored, lzfDecompress (block (lzfCompress data inLen outLen memory).out 0
        (lzfCompress data inLen outLen memory).bytes) room = .refused .e2big stored := by
  obtain ⟨present, tokens, stream⟩ := lzfCompress_stream data inLen outLen memory some
  have accepted := lzfDecompress_stream _ _ room tokens
    (stream_nonempty data inLen _ tokens present stream) stream
  rwa [block_length] at accepted

def StoredBelow (outLen op : Nat) (stored : List Nat) : Prop :=
  ∀ index ∈ stored, index < outLen ∧ index < op

theorem storedBelow_cons (outLen before op index : Nat) (stored : List Nat)
    (below : StoredBelow outLen before stored) (grown : before ≤ op) (inside : index < outLen)
    (behind : index < op) : StoredBelow outLen op (index :: stored) := by
  intro key member
  rcases List.mem_cons.mp member with here | earlier
  · rw [here]
    exact ⟨inside, behind⟩
  · obtain ⟨low, high⟩ := below key earlier
    exact ⟨low, Nat.lt_of_lt_of_le high grown⟩

/-- Every index stored to is inside the output and in front of `op`, and no more is stored
than the bytes read and one octet for every 32 of them. -/
structure Bounded (outLen : Nat) (w : Writing) : Prop where
  short : w.lit < 32
  behind : w.lit < w.op
  stored : StoredBelow outLen w.op w.stored
  dense : 32 * w.op + w.lit ≤ 33 * w.ip + 32

theorem literal_bounded (data : Memory UInt8) (outLen : Nat) (w : Writing) (room : w.op < outLen)
    (bounded : Bounded outLen w) : Bounded outLen (copyLiteral data w) := by
  obtain ⟨short, behind, stored, dense⟩ := bounded
  have copied := storedBelow_cons outLen w.op (w.op + 1) w.op w.stored stored (Nat.le_succ _) room
    (Nat.lt_succ_self _)
  simp only [copyLiteral, Nat.one_shiftLeft]
  by_cases full : w.lit + 1 = 2 ^ 5
  · rw [if_pos full]
    refine ⟨Nat.zero_lt_succ 31, Nat.zero_lt_succ _, ?_, ?_⟩
    · exact storedBelow_cons outLen (w.op + 1) (w.op + 1 + 1) (w.op + 1 - (w.lit + 1) - 1) _ copied
        (by omega) (by omega) (by omega)
    · change 32 * (w.op + 1 + 1) + 0 ≤ 33 * (w.ip + 1) + 32
      omega
  · rw [if_neg full]
    refine ⟨show w.lit + 1 < 32 by omega, Nat.succ_lt_succ behind, copied, ?_⟩
    change 32 * (w.op + 1) + (w.lit + 1) ≤ 33 * (w.ip + 1) + 32
    omega

theorem put_stored (outLen before : Nat) (w : Writing) (octet : UInt8)
    (below : StoredBelow outLen before w.stored) (grown : before ≤ w.op + 1) (room : w.op < outLen) :
    StoredBelow outLen (w.op + 1) (put w octet).stored :=
  storedBelow_cons outLen before (w.op + 1) w.op w.stored below grown room (Nat.lt_succ_self _)

theorem putReference_stored (outLen : Nat) (w : Writing) (off len : Nat)
    (below : StoredBelow outLen (w.op + 1) w.stored) (room : w.op + 3 < outLen) :
    StoredBelow outLen (putReference w off len).op (putReference w off len).stored := by
  rw [putReference]
  split
  · have first := put_stored outLen (w.op + 1) w (UInt8.ofNat ((off >>> 8) + (len <<< 5))) below
      (Nat.le_refl _) (by omega)
    exact put_stored outLen (w.op + 1) _ (UInt8.ofNat off) first (Nat.le_succ _)
      (show w.op + 1 < outLen by omega)
  · have first := put_stored outLen (w.op + 1) w (UInt8.ofNat ((off >>> 8) + (7 <<< 5))) below
      (Nat.le_refl _) (by omega)
    have second := put_stored outLen (w.op + 1) _ (UInt8.ofNat (len - 7)) first (Nat.le_succ _)
      (show w.op + 1 < outLen by omega)
    exact put_stored outLen (w.op + 1 + 1) _ (UInt8.ofNat off) second (Nat.le_succ _)
      (show w.op + 1 + 1 < outLen by omega)

theorem match_bounded (data : Memory UInt8) (inLen outLen ref : Nat) (w : Writing)
    (left : w.ip + 2 < inLen) (found : Matches data ref w.ip)
    (spare : w.op - noRun w + 4 < outLen) (bounded : Bounded outLen w) :
    Bounded outLen (copyMatch data inLen ref w) := by
  obtain ⟨short, behind, stored, dense⟩ := bounded
  obtain ⟨three, most, inside, _⟩ := matchLength_spec data ref w.ip inLen left found
  have place : (copyMatch data inLen ref w).ip =
      w.ip + 1 + (matchLength data ref w.ip (min (inLen - w.ip - 2) 264) - 2 + 1) := rfl
  have octets := putReference_op (undoRun (stopRun w)) (w.ip - ref - 1)
    (matchLength data ref w.ip (min (inLen - w.ip - 2) 264) - 2)
  have undone : (undoRun (stopRun w)).op = w.op - noRun w := rfl
  have one : noRun w = 1 ∧ w.lit = 0 ∨ noRun w = 0 ∧ 0 < w.lit := by
    rw [noRun]
    split <;> omega
  have stopped : StoredBelow outLen ((undoRun (stopRun w)).op + 1) (undoRun (stopRun w)).stored :=
    storedBelow_cons outLen w.op _ (w.op - w.lit - 1) w.stored stored (by omega) (by omega)
      (by omega)
  have written := putReference_stored outLen (undoRun (stopRun w)) (w.ip - ref - 1)
    (matchLength data ref w.ip (min (inLen - w.ip - 2) 264) - 2) stopped (by omega)
  refine ⟨Nat.zero_lt_succ 31, Nat.zero_lt_succ _, ?_, ?_⟩
  · intro index member
    obtain ⟨low, high⟩ := written index member
    exact ⟨low, Nat.lt_succ_of_lt high⟩
  · rw [place]
    change 32 * ((putReference (undoRun (stopRun w)) (w.ip - ref - 1)
      (matchLength data ref w.ip (min (inLen - w.ip - 2) 264) - 2)).op + 1) + 0 ≤ _
    rw [octets, undone]
    split <;> omega

theorem moved_bounded (data : Memory UInt8) (inLen outLen : Nat) (w after : Writing)
    (left : w.ip + 2 < inLen) (bounded : Bounded outLen w)
    (moved : Moved data inLen outLen w after) : Bounded outLen after := by
  cases moved with
  | literal room => exact literal_bounded data outLen w room bounded
  | reference ref found spare => exact match_bounded data inLen outLen ref w left found spare bounded

theorem start_bounded (data memory : Memory UInt8) (outLen : Nat) :
    Bounded outLen (start data memory).toWriting :=
  ⟨Nat.zero_lt_succ 31, Nat.zero_lt_one, fun _ member => absurd member List.not_mem_nil,
    Nat.le_refl _⟩

/-- The tail still has room for its bytes, and for an octet if they fill a run. -/
def TailFits (inLen outLen : Nat) (w : Writing) : Prop :=
  inLen ≤ w.ip + 2 ∧ w.op + (inLen - w.ip) + (w.lit + (inLen - w.ip)) / 32 ≤ outLen

theorem literal_tailFits (data : Memory UInt8) (inLen outLen : Nat) (w : Writing)
    (left : w.ip < inLen) (short : w.lit < 32) (fits : TailFits inLen outLen w) :
    TailFits inLen outLen (copyLiteral data w) := by
  obtain ⟨near, room⟩ := fits
  simp only [copyLiteral, Nat.one_shiftLeft]
  by_cases full : w.lit + 1 = 2 ^ 5
  · rw [if_pos full]
    refine ⟨Nat.le_succ_of_le near, ?_⟩
    change w.op + 1 + 1 + (inLen - (w.ip + 1)) + (0 + (inLen - (w.ip + 1))) / 32 ≤ outLen
    omega
  · rw [if_neg full]
    refine ⟨Nat.le_succ_of_le near, ?_⟩
    change w.op + 1 + (inLen - (w.ip + 1)) + (w.lit + 1 + (inLen - (w.ip + 1))) / 32 ≤ outLen
    omega

/-- What was not stored to is as it was. -/
def Logged (memory : Memory UInt8) (w : Writing) : Prop :=
  ∀ index, index ∉ w.stored → w.out index = memory index

theorem store_logged (memory : Memory UInt8) (w : Writing) (index : Nat) (octet : UInt8)
    (logged : Logged memory w) : Logged memory (store w index octet) := by
  intro key absent
  have other : key ≠ index := fun same => absent (List.mem_cons.mpr (Or.inl same))
  have earlier : key ∉ w.stored := fun member => absent (List.mem_cons_of_mem _ member)
  rw [← logged key earlier]
  exact write_elsewhere w.out index octet key other

theorem literal_logged (data memory : Memory UInt8) (w : Writing) (logged : Logged memory w) :
    Logged memory (copyLiteral data w) := by
  have copied := store_logged memory w w.op (data w.ip) logged
  simp only [copyLiteral]
  split
  · exact store_logged memory { put w (data w.ip) with ip := w.ip + 1, lit := w.lit + 1 } _ _ copied
  · exact copied

theorem match_logged (data memory : Memory UInt8) (inLen ref : Nat) (w : Writing)
    (logged : Logged memory w) : Logged memory (copyMatch data inLen ref w) := by
  have stopped : Logged memory (undoRun (stopRun w)) := store_logged memory w _ _ logged
  have put_logged (w : Writing) (octet : UInt8) (logged : Logged memory w) :
      Logged memory (put w octet) := store_logged memory w w.op octet logged
  change Logged memory (putReference (undoRun (stopRun w)) _ _)
  rw [putReference]
  split
  · exact put_logged _ _ (put_logged _ _ stopped)
  · exact put_logged _ _ (put_logged _ _ (put_logged _ _ stopped))

theorem moved_logged (data memory : Memory UInt8) (inLen outLen : Nat) (w after : Writing)
    (logged : Logged memory w) (moved : Moved data inLen outLen w after) : Logged memory after := by
  cases moved with
  | literal room => exact literal_logged data memory w logged
  | reference ref found spare => exact match_logged data memory inLen ref w logged

/-- The end of a call that has room for its tail. -/
theorem tail_bounded (data : Memory UInt8) (inLen outLen : Nat) (w : Writing)
    (bounded : Bounded outLen w) (inside : w.ip ≤ inLen) (near : inLen ≤ w.ip + 2)
    (room : w.op + 3 ≤ outLen) :
    Bounded outLen (copyTail data inLen inLen w) ∧ (copyTail data inLen inLen w).op ≤ outLen := by
  have short := bounded.short
  have fits : TailFits inLen outLen w := ⟨near, by omega⟩
  obtain ⟨ended, _, last⟩ := copyTail_invariant data inLen
    (fun w => Bounded outLen w ∧ TailFits inLen outLen w)
    (fun w left holds => ⟨literal_bounded data outLen w (by have := holds.2.2; omega) holds.1,
      literal_tailFits data inLen outLen w left holds.1.short holds.2⟩) inLen w ⟨bounded, fits⟩
  exact ⟨ended, by omega⟩

/-- Where a call stores, and how much it returns. -/
structure StoresInside (inLen outLen : Nat) (memory : Memory UInt8) (result : LzfCompressed) :
    Prop where
  inside : ∀ index ∈ result.stored, index < outLen
  -- A last run without a byte is taken back after its octet was stored.
  written : 0 < result.bytes → ∀ index ∈ result.stored, index ≤ result.bytes
  kept : ∀ index, index ∉ result.stored → result.out index = memory index
  most : result.bytes ≤ outLen ∧ result.bytes ≤ inLen + inLen / 32 + 1

theorem lzfCompress_inside (data : Memory UInt8) (inLen outLen : Nat) (memory : Memory UInt8) :
    StoresInside inLen outLen memory (lzfCompress data inLen outLen memory) := by
  rw [lzfCompress]
  by_cases none : inLen = 0 ∨ outLen = 0
  · rw [if_pos none]
    exact ⟨fun _ member => absurd member List.not_mem_nil,
      fun _ _ member => absurd member List.not_mem_nil, fun _ _ => rfl, Nat.zero_le _, Nat.zero_le _⟩
  rw [if_neg none]
  have bounded := compressLoop_invariant data inLen outLen (Bounded outLen)
    (moved_bounded data inLen outLen) (inLen + 1) (start data memory) (start_bounded data memory outLen)
  have logged := compressLoop_invariant data inLen outLen (Logged memory)
    (fun w after _ => moved_logged data memory inLen outLen w after) (inLen + 1) (start data memory)
    (fun _ _ => rfl)
  have emits := loop_emits data memory inLen outLen (inLen + 1)
  -- Where 0 is returned, what was stored before is inside.
  have refused (w : Writing) (bounded : Bounded outLen w) (logged : Logged memory w) :
      StoresInside inLen outLen memory ⟨0, w.out, w.stored⟩ :=
    ⟨fun index member => (bounded.stored index member).1,
      fun some => absurd some (Nat.lt_irrefl 0), logged, Nat.zero_le _, Nat.zero_le _⟩
  cases looped : compressLoop data inLen outLen (inLen + 1) (start data memory) with
  | refused w =>
      rw [looped] at bounded logged
      exact refused w bounded logged
  | went s =>
      rw [looped] at bounded logged emits
      have near := compressLoop_left data inLen outLen (inLen + 1) (start data memory) s looped
      rw [finish]
      by_cases tight : outLen < s.op + 3
      · rw [if_pos tight]
        exact refused s.toWriting bounded logged
      rw [if_neg tight]
      obtain ⟨⟨short, behind, stored, dense⟩, last⟩ := tail_bounded data inLen outLen s.toWriting
        bounded emits.1 near (by omega)
      have place := copyTail_ip data inLen inLen s.toWriting emits.1 (by omega)
      have tail := copyTail_invariant data inLen (Logged memory)
        (fun w _ => literal_logged data memory w) inLen s.toWriting logged
      generalize copyTail data inLen inLen s.toWriting = w at *
      have one : noRun w = 1 ∧ w.lit = 0 ∨ noRun w = 0 ∧ 0 < w.lit := by
        rw [noRun]
        split <;> omega
      have below : StoredBelow outLen w.op (stopRun w).stored :=
        storedBelow_cons outLen w.op w.op (w.op - w.lit - 1) w.stored stored (Nat.le_refl _)
          (by omega) (by omega)
      have undone : (undoRun (stopRun w)).op = w.op - noRun w := rfl
      refine ⟨fun index member => (below index member).1, fun _ index member => ?_,
        store_logged memory w _ _ tail, ?_, ?_⟩
      · have behind := (below index member).2
        change index ≤ (undoRun (stopRun w)).op
        omega
      · change (undoRun (stopRun w)).op ≤ outLen
        omega
      · change (undoRun (stopRun w)).op ≤ _
        omega

/-- With four bytes and one for every 32 to spare no turn is refused. -/
theorem compressLoop_returns (data : Memory UInt8) (inLen outLen turns : Nat) (s : Compressing)
    (bounded : Bounded outLen s.toWriting) (inside : s.ip ≤ inLen)
    (enough : inLen + inLen / 32 + 4 ≤ outLen) (turnsLeft : inLen < s.ip + turns) :
    ∃ ended, compressLoop data inLen outLen turns s = .went ended := by
  induction turns generalizing s with
  | zero => omega
  | succ turns ih =>
      rw [compressLoop]
      by_cases left : s.ip + 2 < inLen
      · rw [if_pos left]
        rcases compressTurn_cases data inLen outLen s with ⟨tight, _⟩ | ⟨after, went, moved⟩
        · have dense := bounded.dense
          omega
        · obtain ⟨ahead, before⟩ := moved_ip data inLen outLen _ _ left moved
          simp only [went]
          exact ih after (moved_bounded data inLen outLen _ _ left bounded moved) before (by omega)
      · rw [if_neg left]
        exact ⟨s, rfl⟩

theorem lzfCompress_returns (data : Memory UInt8) (inLen outLen : Nat) (memory : Memory UInt8)
    (present : 0 < inLen) (enough : inLen + inLen / 32 + 4 ≤ outLen) :
    0 < (lzfCompress data inLen outLen memory).bytes := by
  have bounded := compressLoop_invariant data inLen outLen (Bounded outLen)
    (moved_bounded data inLen outLen) (inLen + 1) (start data memory) (start_bounded data memory outLen)
  have emits := loop_emits data memory inLen outLen (inLen + 1)
  obtain ⟨ended, looped⟩ := compressLoop_returns data inLen outLen (inLen + 1) (start data memory)
    (start_bounded data memory outLen) (Nat.zero_le _) enough (by change inLen < 0 + (inLen + 1); omega)
  rw [looped] at bounded emits
  have dense := bounded.dense
  have before := emits.1
  rw [lzfCompress, if_neg (by omega), looped, finish]
  have room : ¬ outLen < ended.op + 3 := by
    change ¬ outLen < (Compressed.went ended).writing.op + 3
    omega
  rw [if_neg room]
  obtain ⟨tokens, stream⟩ := tail_closed data inLen ended.toWriting emits
  have nonempty := stream_nonempty data inLen _ tokens present stream
  by_contra none
  have zero : (undoRun (stopRun (copyTail data inLen inLen ended.toWriting))).op = 0 :=
    Nat.eq_zero_of_not_pos none
  obtain ⟨token, rest, rfl⟩ := List.exists_cons_of_ne_nil nonempty
  have octets := stream.octets
  rw [zero, block_zero, List.flatMap_cons] at octets
  exact octets_nonempty token (List.append_eq_nil_iff.mp octets).1

/-- What `lzf_compress` returns decompresses to its input, and with four bytes and one for
every 32 to spare it returns something. -/
theorem lzf_round_trip (data : Memory UInt8) (inLen outLen : Nat) (memory : Memory UInt8) :
    (0 < (lzfCompress data inLen outLen memory).bytes → ∀ room,
      if inLen ≤ room then
        lzfDecompress (block (lzfCompress data inLen outLen memory).out 0
          (lzfCompress data inLen outLen memory).bytes) room = .returned (block data 0 inLen)
      else
        ∃ stored, lzfDecompress (block (lzfCompress data inLen outLen memory).out 0
          (lzfCompress data inLen outLen memory).bytes) room = .refused .e2big stored) ∧
      (0 < inLen → inLen + inLen / 32 + 4 ≤ outLen →
        0 < (lzfCompress data inLen outLen memory).bytes) :=
  ⟨lzfCompress_accepted data inLen outLen memory, lzfCompress_returns data inLen outLen memory⟩

-- Five bytes in eight: a run of two and a copy of three fill five, and three more are asked for.
example : (lzfCompress (ofList [97, 98, 98, 98, 98] fun _ => 0) 5 8 fun _ => 0).bytes = 0 := by decide +kernel

example : block (lzfCompress (ofList [97, 98, 98, 98, 98] fun _ => 0) 5 9 fun _ => 0).out 0 5 =
    [1, 97, 98, 32, 0] := by decide +kernel

end AqMD3.Lzf
