import AqMD3.BackReferences

/-!
`lzf_decompress`. What is left of the input is the list of its bytes, and what was stored is
the list in front of `op`. The stream accepted is one of literal runs and back references,
and nothing else is.
-/

namespace AqMD3.Lzf

open BackReferences

/-- What `errno` is set to. -/
inductive Errno where
  | e2big
  | einval
  deriving DecidableEq

/-- One turn of the loop: a byte behind the input is read, 0 is returned, or what is left of
the input and the bytes in front of `op`. -/
inductive Turn where
  | outside
  | refused (errno : Errno)
  | advanced (rest out : List UInt8)
  deriving DecidableEq

/-- `*op++ = *ref++`, so many times. -/
def copyOctets (ref : Nat) : Nat → List UInt8 → List UInt8
  | 0, out => out
  | count + 1, out => copyOctets (ref + 1) count (out ++ out[ref]?.toList)

def literalRun (outLen : Nat) (rest out : List UInt8) (ctrl : Nat) : Turn :=
  let count := ctrl + 1
  if outLen < out.length + count then .refused .e2big
  else if rest.length < count then .refused .einval
  else .advanced (rest.drop count) (out ++ rest.take count)

/-- `distance` is how far `ref` lies before `op`. -/
def copyReference (outLen : Nat) (rest out : List UInt8) (distance len : Nat) : Turn :=
  if outLen < out.length + len + 2 then .refused .e2big
  else if out.length < distance then .refused .einval
  else
    let ref := out.length - distance
    if 9 < len then
      if ref + (len + 2) ≤ out.length then
        .advanced rest (out ++ (out.drop ref).take (len + 2))
      else .advanced rest (copyOctets ref (len + 2) out)
    else .advanced rest (copyOctets ref (len + 2) out)

def offsetByte (outLen : Nat) (rest out : List UInt8) (ctrl len : Nat) : Turn :=
  match rest with
  | [] => .outside
  | low :: rest => copyReference outLen rest out (((ctrl &&& 0x1f) <<< 8) + 1 + low.toNat) len

def backReference (outLen : Nat) (rest out : List UInt8) (ctrl : Nat) : Turn :=
  let len := ctrl >>> 5
  if rest = [] then .refused .einval
  else if len = 7 then
    match rest with
    | [] => .outside
    | more :: rest =>
        if rest = [] then .refused .einval
        else offsetByte outLen rest out ctrl (len + more.toNat)
  else offsetByte outLen rest out ctrl len

def turn (outLen : Nat) (rest out : List UInt8) : Turn :=
  match rest with
  | [] => .outside
  | ctrl :: rest =>
      if ctrl.toNat < 1 <<< 5 then literalRun outLen rest out ctrl.toNat
      else backReference outLen rest out ctrl.toNat

/-- The octets of a literal run and of a back reference. -/
def octets : Token UInt8 → List UInt8
  | .literal run => UInt8.ofNat (run.length - 1) :: run
  | .copy distance length =>
      if length ≤ 8 then
        [UInt8.ofNat ((distance - 1) / 256 + (length - 2) * 32), UInt8.ofNat (distance - 1)]
      else
        [UInt8.ofNat ((distance - 1) / 256 + 224), UInt8.ofNat (length - 9),
          UInt8.ofNat (distance - 1)]

/-- The tokens that have octets: a run of 1..32, a copy of 3..264 from 1..8192 back. -/
def Fits : Token UInt8 → Prop
  | .literal run => 0 < run.length ∧ run.length ≤ 32
  | .copy distance length => 0 < distance ∧ distance ≤ 8192 ∧ 3 ≤ length ∧ length ≤ 264

theorem copyOctets_copyBack (count : Nat) (out : List UInt8) (ref : Nat) (before : ref < out.length) :
    copyOctets ref count out = copyBack (out.length - ref) count out := by
  induction count generalizing out ref with
  | zero => rfl
  | succ count ih =>
      obtain ⟨octet, found⟩ : ∃ octet, out[ref]? = some octet :=
        ⟨_, List.getElem?_eq_getElem before⟩
      have here : out.length - (out.length - ref) = ref := by omega
      have grown : (out ++ [octet]).length = out.length + 1 := by
        rw [List.length_append, List.length_singleton]
      rw [copyOctets, copyBack, here, found, Option.toList_some, ih _ _ (by omega), grown]
      rw [show out.length + 1 - (ref + 1) = out.length - ref by omega]

/-- The block copy and the copy octet by octet add the same bytes. -/
theorem copyReference_eq (outLen : Nat) (rest out : List UInt8) (distance len : Nat)
    (positive : 0 < distance) :
    copyReference outLen rest out distance len =
      if outLen < out.length + len + 2 then .refused .e2big
      else if out.length < distance then .refused .einval
      else .advanced rest (copyBack distance (len + 2) out) := by
  rw [copyReference]
  by_cases large : outLen < out.length + len + 2
  · rw [if_pos large, if_pos large]
  rw [if_neg large, if_neg large]
  by_cases early : out.length < distance
  · rw [if_pos early, if_pos early]
  have back : out.length - (out.length - distance) = distance := by omega
  have plain : copyOctets (out.length - distance) (len + 2) out =
      copyBack distance (len + 2) out := by
    rw [copyOctets_copyBack _ _ _ (by omega), back]
  rw [if_neg early, if_neg early]
  by_cases long : 9 < len
  · by_cases apart : out.length - distance + (len + 2) ≤ out.length
    · simp only [long, apart, ↓reduceIte]
      rw [copyBack_disjoint distance (len + 2) out (by omega) (by omega)]
    · simp only [long, apart, ↓reduceIte, plain]
  · simp only [long, ↓reduceIte, plain]

theorem length_bits (ctrl : Nat) : ctrl >>> 5 = ctrl / 32 := Nat.shiftRight_eq_div_pow ctrl 5

theorem offset_bits (ctrl : Nat) : (ctrl &&& 0x1f) <<< 8 = ctrl % 32 * 256 := by
  rw [show (0x1f : Nat) = 2 ^ 5 - 1 from rfl, Nat.and_two_pow_sub_one_eq_mod, Nat.shiftLeft_eq]

theorem literalRun_advanced (outLen : Nat) (rest out next grown : List UInt8) (ctrl : Nat)
    (taken : literalRun outLen rest out ctrl = .advanced next grown) :
    ctrl + 1 ≤ rest.length ∧ next = rest.drop (ctrl + 1) ∧
      grown = out ++ rest.take (ctrl + 1) ∧ grown.length ≤ outLen := by
  simp only [literalRun] at taken
  split at taken
  · cases taken
  rename_i room
  split at taken
  · cases taken
  rename_i there
  injection taken with left grew
  have length : (rest.take (ctrl + 1)).length = ctrl + 1 := by
    rw [List.length_take]
    omega
  refine ⟨by omega, left.symm, grew.symm, ?_⟩
  rw [← grew, List.length_append, length]
  omega

theorem copyReference_advanced (outLen : Nat) (rest out next grown : List UInt8)
    (distance len : Nat) (positive : 0 < distance)
    (taken : copyReference outLen rest out distance len = .advanced next grown) :
    next = rest ∧ Token.apply out (.copy distance (len + 2)) = some grown ∧
      grown.length ≤ outLen := by
  rw [copyReference_eq _ _ _ _ _ positive] at taken
  split at taken
  · cases taken
  rename_i room
  split at taken
  · cases taken
  rename_i reach
  injection taken with left grew
  refine ⟨left.symm, ?_, ?_⟩
  · rw [Token.apply, if_pos ⟨positive, by omega⟩, grew]
  · rw [← grew, copyBack_length _ _ _ positive (by omega)]
    omega

theorem octets_short (ctrl low : UInt8) (reference : 32 ≤ ctrl.toNat) (short : ctrl.toNat / 32 ≠ 7) :
    octets (.copy (ctrl.toNat % 32 * 256 + 1 + low.toNat) (ctrl.toNat / 32 + 2)) = [ctrl, low] := by
  have byte := ctrl.toNat_lt
  have next := low.toNat_lt
  have high : (ctrl.toNat % 32 * 256 + 1 + low.toNat - 1) / 256 + (ctrl.toNat / 32 + 2 - 2) * 32 =
      ctrl.toNat := by omega
  have same : UInt8.ofNat (ctrl.toNat % 32 * 256 + 1 + low.toNat - 1) = low := by
    apply UInt8.toNat_inj.mp
    rw [UInt8.toNat_ofNat']
    omega
  rw [octets, if_pos (by omega), high, same, UInt8.ofNat_toNat]

theorem octets_long (ctrl more low : UInt8) (long : ctrl.toNat / 32 = 7) :
    octets (.copy (ctrl.toNat % 32 * 256 + 1 + low.toNat) (7 + more.toNat + 2)) =
      [ctrl, more, low] := by
  have byte := ctrl.toNat_lt
  have next := low.toNat_lt
  have high : (ctrl.toNat % 32 * 256 + 1 + low.toNat - 1) / 256 + 224 = ctrl.toNat := by omega
  have same : UInt8.ofNat (ctrl.toNat % 32 * 256 + 1 + low.toNat - 1) = low := by
    apply UInt8.toNat_inj.mp
    rw [UInt8.toNat_ofNat']
    omega
  rw [octets, if_neg (by omega), high, same, show 7 + more.toNat + 2 - 9 = more.toNat by omega,
    UInt8.ofNat_toNat, UInt8.ofNat_toNat]

/-- A turn that goes on has read the octets of one token and stored what it stands for. -/
theorem turn_advanced (outLen : Nat) (rest out next grown : List UInt8)
    (taken : turn outLen rest out = .advanced next grown) :
    ∃ token, Fits token ∧ rest = octets token ++ next ∧ token.apply out = some grown ∧
      grown.length ≤ outLen := by
  cases rest with
  | nil => cases taken
  | cons ctrl rest =>
      have byte := ctrl.toNat_lt
      simp only [turn] at taken
      split at taken
      · rename_i literal
        rw [Nat.one_shiftLeft] at literal
        obtain ⟨there, left, grew, room⟩ := literalRun_advanced _ _ _ _ _ _ taken
        have length : (rest.take (ctrl.toNat + 1)).length = ctrl.toNat + 1 := by
          rw [List.length_take]
          omega
        refine ⟨.literal (rest.take (ctrl.toNat + 1)), ⟨by omega, by omega⟩, ?_, ?_, room⟩
        · rw [octets, length, Nat.add_sub_cancel, UInt8.ofNat_toNat, left, List.cons_append,
            List.take_append_drop]
        · rw [Token.apply, grew]
      · rename_i reference
        rw [Nat.one_shiftLeft] at reference
        simp only [backReference, length_bits] at taken
        cases rest with
        | nil => cases taken
        | cons first rest =>
            rw [if_neg (List.cons_ne_nil first rest)] at taken
            split at taken
            · rename_i long
              cases rest with
              | nil => cases taken
              | cons low rest =>
                  simp only [List.cons_ne_nil, ↓reduceIte, offsetByte, offset_bits] at taken
                  obtain ⟨left, applied, room⟩ :=
                    copyReference_advanced _ _ _ _ _ _ _ (by omega) taken
                  have next := low.toNat_lt
                  have more := first.toNat_lt
                  rw [long] at applied
                  refine ⟨.copy (ctrl.toNat % 32 * 256 + 1 + low.toNat) (7 + first.toNat + 2),
                    ⟨by omega, by omega, by omega, by omega⟩, ?_, applied, room⟩
                  rw [octets_long ctrl first low long, left]
                  rfl
            · rename_i short
              simp only [offsetByte, offset_bits] at taken
              obtain ⟨left, applied, room⟩ :=
                copyReference_advanced _ _ _ _ _ _ _ (by omega) taken
              have next := first.toNat_lt
              refine ⟨.copy (ctrl.toNat % 32 * 256 + 1 + first.toNat) (ctrl.toNat / 32 + 2),
                ⟨by omega, by omega, by omega, by omega⟩, ?_, applied, room⟩
              rw [octets_short ctrl first (by omega) short, left]
              rfl

theorem turn_literal (outLen : Nat) (run next out : List UInt8) (fits : Fits (.literal run)) :
    turn outLen (octets (.literal run) ++ next) out =
      if out.length + run.length ≤ outLen then .advanced next (out ++ run) else .refused .e2big := by
  obtain ⟨some, most⟩ := fits
  have ctrl : (UInt8.ofNat (run.length - 1)).toNat = run.length - 1 := by
    rw [UInt8.toNat_ofNat']
    omega
  have count : run.length - 1 + 1 = run.length := by omega
  rw [octets, List.cons_append, turn]
  simp only [ctrl, Nat.one_shiftLeft]
  rw [if_pos (by omega), literalRun]
  simp only [count]
  by_cases room : out.length + run.length ≤ outLen
  · rw [if_neg (by omega), if_neg (by rw [List.length_append]; omega), if_pos room,
      List.take_left, List.drop_left]
  · rw [if_pos (by omega), if_neg room]

theorem turn_copy (outLen distance length : Nat) (next out : List UInt8)
    (fits : Fits (.copy distance length)) (reach : distance ≤ out.length) :
    turn outLen (octets (.copy distance length) ++ next) out =
      if out.length + length ≤ outLen then .advanced next (copyBack distance length out)
      else .refused .e2big := by
  obtain ⟨positive, window, least, most⟩ := fits
  have low : (UInt8.ofNat (distance - 1)).toNat = (distance - 1) % 256 := UInt8.toNat_ofNat'
  -- Both forms end in the same block copy.
  have copied : copyReference outLen next out distance (length - 2) =
      if out.length + length ≤ outLen then .advanced next (copyBack distance length out)
      else .refused .e2big := by
    rw [copyReference_eq _ _ _ _ _ positive, show length - 2 + 2 = length by omega,
      show out.length + (length - 2) + 2 = out.length + length by omega]
    by_cases room : out.length + length ≤ outLen
    · rw [if_neg (by omega), if_neg (by omega), if_pos room]
    · rw [if_pos (by omega), if_neg room]
  by_cases short : length ≤ 8
  · have ctrl : (UInt8.ofNat ((distance - 1) / 256 + (length - 2) * 32)).toNat =
        (distance - 1) / 256 + (length - 2) * 32 := by
      rw [UInt8.toNat_ofNat']
      omega
    rw [octets, if_pos short, List.cons_append, List.cons_append, List.nil_append, turn]
    simp only [ctrl, Nat.one_shiftLeft]
    rw [if_neg (by omega), backReference]
    simp only [length_bits]
    rw [if_neg (List.cons_ne_nil _ _), if_neg (by omega), offsetByte]
    simp only [offset_bits, low]
    rw [← copied]
    congr 1 <;> omega
  · have ctrl : (UInt8.ofNat ((distance - 1) / 256 + 224)).toNat = (distance - 1) / 256 + 224 := by
      rw [UInt8.toNat_ofNat']
      omega
    have more : (UInt8.ofNat (length - 9)).toNat = length - 9 := by
      rw [UInt8.toNat_ofNat']
      omega
    rw [octets, if_neg short, List.cons_append, List.cons_append, List.cons_append,
      List.nil_append, turn]
    simp only [ctrl, Nat.one_shiftLeft]
    rw [if_neg (by omega), backReference]
    simp only [length_bits]
    rw [if_neg (List.cons_ne_nil _ _), if_pos (by omega)]
    simp only [more]
    rw [if_neg (List.cons_ne_nil _ _), offsetByte]
    simp only [offset_bits, low]
    rw [← copied]
    congr 1 <;> omega

theorem turn_token (outLen : Nat) (token : Token UInt8) (next out grown : List UInt8)
    (fits : Fits token) (applied : token.apply out = some grown) :
    turn outLen (octets token ++ next) out =
      if grown.length ≤ outLen then .advanced next grown else .refused .e2big := by
  cases token with
  | literal run =>
      rw [Token.apply, Option.some.injEq] at applied
      rw [turn_literal outLen run next out fits, ← applied, List.length_append]
  | copy distance length =>
      rw [Token.apply] at applied
      split at applied
      · rename_i reach
        rw [Option.some.injEq] at applied
        rw [turn_copy outLen distance length next out fits reach.2, ← applied,
          copyBack_length _ _ _ reach.1 reach.2]
      · cases applied

theorem octets_nonempty (token : Token UInt8) : octets token ≠ [] := by
  cases token with
  | literal run => exact List.cons_ne_nil _ _
  | copy distance length =>
      rw [octets]
      split
      · exact List.cons_ne_nil _ _
      · exact List.cons_ne_nil _ _

theorem turn_shorter (outLen : Nat) (rest out next grown : List UInt8)
    (taken : turn outLen rest out = .advanced next grown) : next.length < rest.length := by
  obtain ⟨token, _, read, _⟩ := turn_advanced outLen rest out next grown taken
  have some := List.length_pos_iff.mpr (octets_nonempty token)
  rw [read, List.length_append]
  omega

theorem copyReference_inside (outLen : Nat) (rest out : List UInt8) (distance len : Nat) :
    copyReference outLen rest out distance len ≠ .outside := by
  simp only [copyReference]
  split
  · exact Turn.noConfusion
  split
  · exact Turn.noConfusion
  split
  · split <;> exact Turn.noConfusion
  · exact Turn.noConfusion

/-- With a byte left, what is read of the input is checked for first. -/
theorem turn_inside (outLen : Nat) (rest out : List UInt8) (left : rest ≠ []) :
    turn outLen rest out ≠ .outside := by
  cases rest with
  | nil => exact absurd rfl left
  | cons ctrl rest =>
      simp only [turn]
      split
      · simp only [literalRun]
        split
        · exact Turn.noConfusion
        · split <;> exact Turn.noConfusion
      · cases rest with
        | nil => exact Turn.noConfusion
        | cons first rest =>
            simp only [backReference]
            rw [if_neg (List.cons_ne_nil first rest)]
            split
            · cases rest with
              | nil => exact Turn.noConfusion
              | cons low rest =>
                  simp only [List.cons_ne_nil, ↓reduceIte, offsetByte]
                  exact copyReference_inside _ _ _ _ _
            · exact copyReference_inside _ _ _ _ _

/-- How a call ends: a byte behind the input is read, 0 is returned, the bytes stored (their
number is what is returned), or not within the turns allowed. -/
inductive Decompressed where
  | outside
  | refused (errno : Errno) (out : List UInt8)
  | returned (out : List UInt8)
  | unfinished
  deriving DecidableEq

def lzfDecompressFrom (outLen : Nat) : Nat → List UInt8 → List UInt8 → Decompressed
  | 0, _, _ => .unfinished
  | turns + 1, rest, out =>
      match turn outLen rest out with
      | .outside => .outside
      | .refused errno => .refused errno out
      | .advanced next grown =>
          if next = [] then .returned grown else lzfDecompressFrom outLen turns next grown

/-- No turn leaves as much of the input as it found, so a turn a byte is enough. -/
def lzfDecompress (input : List UInt8) (outLen : Nat) : Decompressed :=
  lzfDecompressFrom outLen (input.length + 1) input []

def Decompressed.stored : Decompressed → List UInt8
  | .refused _ out | .returned out => out
  | .outside | .unfinished => []

/-- A stream of tokens whose octets are the input, and what it stands for. -/
structure Stream (input : List UInt8) (tokens : List (Token UInt8)) (out whole : List UInt8) :
    Prop where
  fits : ∀ token ∈ tokens, Fits token
  octets : tokens.flatMap octets = input
  expands : expand out tokens = some whole

theorem from_returned (outLen turns : Nat) (rest out whole : List UInt8)
    (ended : lzfDecompressFrom outLen turns rest out = .returned whole) :
    whole.length ≤ outLen ∧ ∃ tokens, tokens ≠ [] ∧ Stream rest tokens out whole := by
  induction turns generalizing rest out with
  | zero => cases ended
  | succ turns ih =>
      rw [lzfDecompressFrom] at ended
      cases taken : turn outLen rest out with
      | outside => rw [taken] at ended; cases ended
      | refused errno => rw [taken] at ended; cases ended
      | advanced next grown =>
          simp only [taken] at ended
          obtain ⟨token, fits, read, applied, room⟩ := turn_advanced _ _ _ _ _ taken
          split at ended
          · rename_i last
            injection ended with same
            subst last same
            refine ⟨room, [token], List.cons_ne_nil _ _, ?_, ?_, ?_⟩
            · simpa using fits
            · rw [List.flatMap_singleton, read, List.append_nil]
            · rw [expand, applied, Option.bind_some, expand]
          · obtain ⟨short, tokens, _, stream⟩ := ih next grown ended
            refine ⟨short, token :: tokens, List.cons_ne_nil _ _, ?_, ?_, ?_⟩
            · exact List.forall_mem_cons.mpr ⟨fits, stream.fits⟩
            · rw [List.flatMap_cons, stream.octets, read]
            · rw [expand, applied, Option.bind_some, stream.expands]

theorem from_stream (outLen turns : Nat) (rest out whole : List UInt8)
    (tokens : List (Token UInt8)) (some : tokens ≠ []) (stream : Stream rest tokens out whole)
    (enough : rest.length < turns) :
    if whole.length ≤ outLen then lzfDecompressFrom outLen turns rest out = .returned whole
    else ∃ stored, lzfDecompressFrom outLen turns rest out = .refused .e2big stored := by
  induction tokens generalizing rest out turns with
  | nil => exact absurd rfl some
  | cons token tokens ih =>
      obtain ⟨fits, read, expands⟩ := stream
      rw [List.flatMap_cons] at read
      rw [expand] at expands
      cases turns with
      | zero => omega
      | succ turns =>
          cases applied : token.apply out with
          | none => rw [applied] at expands; cases expands
          | some grown =>
              rw [applied, Option.bind_some] at expands
              have here := turn_token outLen token (tokens.flatMap octets) out grown
                (fits token List.mem_cons_self) applied
              have grows := (expand_extends grown whole tokens expands).length_le
              have nonempty := List.length_pos_iff.mpr (octets_nonempty token)
              rw [read] at here
              rw [lzfDecompressFrom]
              by_cases room : grown.length ≤ outLen
              · rw [if_pos room] at here
                simp only [here]
                cases tokens with
                | nil =>
                    rw [expand, Option.some.injEq] at expands
                    subst expands
                    rw [if_pos room, List.flatMap_nil, if_pos rfl]
                | cons second tokens =>
                    have more : (second :: tokens).flatMap octets ≠ [] := by
                      rw [List.flatMap_cons]
                      exact List.append_ne_nil_of_left_ne_nil (octets_nonempty second) _
                    rw [if_neg more]
                    refine ih turns _ grown (List.cons_ne_nil _ _)
                      ⟨fun token member => fits token (List.mem_cons_of_mem _ member), rfl, expands⟩ ?_
                    rw [← read, List.length_append] at enough
                    omega
              · rw [if_neg room] at here
                rw [if_neg (by omega)]
                exact ⟨out, by simp only [here]⟩

theorem from_inside (outLen turns : Nat) (rest out : List UInt8) (left : rest ≠ [])
    (enough : rest.length < turns) (room : out.length ≤ outLen) :
    lzfDecompressFrom outLen turns rest out ≠ .outside ∧
      lzfDecompressFrom outLen turns rest out ≠ .unfinished ∧
      (lzfDecompressFrom outLen turns rest out).stored.length ≤ outLen := by
  induction turns generalizing rest out with
  | zero => omega
  | succ turns ih =>
      rw [lzfDecompressFrom]
      cases taken : turn outLen rest out with
      | outside => exact absurd taken (turn_inside outLen rest out left)
      | refused errno => exact ⟨Decompressed.noConfusion, Decompressed.noConfusion, room⟩
      | advanced next grown =>
          have shorter := turn_shorter outLen rest out next grown taken
          obtain ⟨_, _, _, _, fits⟩ := turn_advanced outLen rest out next grown taken
          by_cases last : next = []
          · simp only [last, ↓reduceIte]
            exact ⟨Decompressed.noConfusion, Decompressed.noConfusion, fits⟩
          · simp only [last, ↓reduceIte]
            exact ih next grown last (by omega) fits

/-- Whatever the bytes are: every one stored is inside the output, and the one read behind the
input is the first of an empty one. -/
theorem lzfDecompress_inside (input : List UInt8) (outLen : Nat) :
    (lzfDecompress input outLen).stored.length ≤ outLen ∧
      lzfDecompress input outLen ≠ .unfinished ∧
      (lzfDecompress input outLen = .outside ↔ input = []) := by
  by_cases empty : input = []
  · subst empty
    exact ⟨Nat.zero_le _, Decompressed.noConfusion, fun _ => rfl, fun _ => rfl⟩
  · obtain ⟨inside, finished, room⟩ := from_inside outLen (input.length + 1) input [] empty
      (Nat.lt_succ_self _) (Nat.zero_le _)
    exact ⟨room, finished, fun outside => absurd outside inside, fun none => absurd none empty⟩

theorem lzfDecompress_stream (input whole : List UInt8) (outLen : Nat)
    (tokens : List (Token UInt8)) (some : tokens ≠ []) (stream : Stream input tokens [] whole) :
    if whole.length ≤ outLen then lzfDecompress input outLen = .returned whole
    else ∃ stored, lzfDecompress input outLen = .refused .e2big stored :=
  from_stream outLen (input.length + 1) input [] whole tokens some stream (Nat.lt_succ_self _)

/-- What is accepted is a stream of tokens, and a stream is accepted where it has room. -/
theorem lzfDecompress_returned_iff (input whole : List UInt8) (outLen : Nat) :
    lzfDecompress input outLen = .returned whole ↔
      whole.length ≤ outLen ∧ ∃ tokens, tokens ≠ [] ∧ Stream input tokens [] whole := by
  constructor
  · exact from_returned outLen (input.length + 1) input [] whole
  · rintro ⟨room, tokens, some, stream⟩
    have accepted := lzfDecompress_stream input whole outLen tokens some stream
    rwa [if_pos room] at accepted

example : lzfDecompress [2, 97, 98, 99, 224, 0, 2] 20 =
    .returned [97, 98, 99, 97, 98, 99, 97, 98, 99, 97, 98, 99] := by decide +kernel

end AqMD3.Lzf
