import Mathlib.Data.List.Basic
import Mathlib.Data.UInt

/-!
Messages as bytes. A number takes seven bits to a byte, the low ones first, and the top bit
says that more follow; a text or a list stands behind its length. A message is a run of fields,
and a loop that takes in each field wherever it stands takes in any run of them.
-/

namespace AqMD3.TaggedFields

/-- The bytes of a number. -/
def varint (n : Nat) : List UInt8 :=
  if n < 128 then [n.toUInt8] else (n % 128 + 128).toUInt8 :: varint (n / 128)
termination_by n

/-- The number in front, and the bytes behind it. -/
def readVarint : List UInt8 → Option (Nat × List UInt8)
  | [] => none
  | byte :: rest =>
      if byte.toNat < 128 then some (byte.toNat, rest)
      else (readVarint rest).map fun high => (byte.toNat - 128 + 128 * high.1, high.2)

theorem byte_exact {n : Nat} (small : n < 256) : n.toUInt8.toNat = n :=
  UInt8.toNat_ofNat_of_lt' small

theorem varint_small {n : Nat} (small : n < 128) : varint n = [n.toUInt8] := by
  rw [varint, if_pos small]

theorem readVarint_varint (n : Nat) (rest : List UInt8) :
    readVarint (varint n ++ rest) = some (n, rest) := by
  induction n using varint.induct with
  | case1 n small =>
      have byte : n.toUInt8.toNat = n := byte_exact (by omega)
      rw [varint_small small, List.singleton_append, readVarint, byte, if_pos small]
  | case2 n large ih =>
      have byte : (n % 128 + 128).toUInt8.toNat = n % 128 + 128 := byte_exact (by omega)
      rw [varint, if_neg large, List.cons_append, readVarint, byte, if_neg (by omega), ih]
      simp only [Option.map_some, Option.some.injEq, Prod.mk.injEq, and_true]
      omega

theorem readVarint_behind {bytes rest : List UInt8} {n : Nat}
    (read : readVarint bytes = some (n, rest)) : rest.length < bytes.length := by
  induction bytes generalizing n rest with
  | nil => cases read
  | cons byte tail ih =>
      rw [readVarint] at read
      split at read
      · cases read
        exact Nat.lt_succ_self _
      · obtain ⟨high, found, same⟩ := Option.map_eq_some_iff.mp read
        cases same
        exact Nat.lt_succ_of_lt (ih found)

theorem varint_length {k n : Nat} (fits : n < 128 ^ (k + 1)) : (varint n).length ≤ k + 1 := by
  induction k generalizing n with
  | zero =>
      rw [varint_small (by simpa using fits)]
      exact Nat.le_refl 1
  | succ k ih =>
      by_cases small : n < 128
      · rw [varint_small small, List.length_singleton]
        exact Nat.succ_pos _
      · rw [varint, if_neg small, List.length_cons]
        exact Nat.succ_le_succ (ih (Nat.div_lt_of_lt_mul (by rwa [Nat.pow_succ'] at fits)))

/-- What is left to read behind something. -/
abbrev Behind (bytes : List UInt8) := {rest : List UInt8 // rest.length < bytes.length}

/-- A read that leaves what is behind, as one that cannot fail to. -/
def front {Value : Type} (read : List UInt8 → Option (Value × List UInt8))
    (behind : ∀ {bytes rest : List UInt8} {value : Value}, read bytes = some (value, rest) →
      rest.length < bytes.length) (bytes : List UInt8) : Option (Value × Behind bytes) :=
  (read bytes).pmap (fun found shorter => (found.1, ⟨found.2, shorter⟩)) fun _ same => behind same

theorem front_read {Value : Type} {read : List UInt8 → Option (Value × List UInt8)}
    (behind : ∀ {bytes rest : List UInt8} {value : Value}, read bytes = some (value, rest) →
      rest.length < bytes.length) {bytes rest : List UInt8} {value : Value}
    (found : read bytes = some (value, rest)) :
    front read behind bytes = some (value, ⟨rest, behind found⟩) := by
  simp [front, found]

theorem varint_front (n : Nat) (rest : List UInt8) : rest.length < (varint n ++ rest).length :=
  readVarint_behind (readVarint_varint n rest)

theorem varint_present (n : Nat) : 0 < (varint n).length := by
  have front := varint_front n []
  rw [List.append_nil] at front
  exact front

/-- Bytes behind their length. -/
def delimited (content : List UInt8) : List UInt8 := varint content.length ++ content

/-- The bytes a length in front says, and those behind them. -/
def readDelimited (bytes : List UInt8) : Option (List UInt8 × List UInt8) :=
  match readVarint bytes with
  | none => none
  | some (length, rest) =>
      if length ≤ rest.length then some (rest.take length, rest.drop length) else none

theorem readDelimited_delimited (content rest : List UInt8) :
    readDelimited (delimited content ++ rest) = some (content, rest) := by
  rw [readDelimited, delimited, List.append_assoc, readVarint_varint]
  simp

theorem readDelimited_behind {bytes content rest : List UInt8}
    (read : readDelimited bytes = some (content, rest)) : rest.length < bytes.length := by
  unfold readDelimited at read
  split at read
  · cases read
  rename_i length behind front
  split at read
  · cases read
    have shorter := readVarint_behind front
    rw [List.length_drop]
    omega
  · cases read

theorem delimited_front (content rest : List UInt8) :
    rest.length < (delimited content ++ rest).length :=
  readDelimited_behind (readDelimited_delimited content rest)

/-- The bytes of one value of a wire type. -/
inductive WireValue : Nat → List UInt8 → Prop
  | number (n : Nat) (fits : n < 2 ^ 64) : WireValue 0 (varint n)
  | fixed64 (bytes : List UInt8) (length : bytes.length = 8) : WireValue 1 bytes
  | content (bytes : List UInt8) (fits : bytes.length < 2 ^ 31) : WireValue 2 (delimited bytes)
  | fixed32 (bytes : List UInt8) (length : bytes.length = 4) : WireValue 5 bytes

/-- What is behind one value of a wire type; groups are not read. -/
def skipValue (wireType : Nat) (bytes : List UInt8) : Option (Unit × List UInt8) :=
  match wireType with
  | 0 => (readVarint bytes).map fun read => ((), read.2)
  | 1 => if 8 ≤ bytes.length then some ((), bytes.drop 8) else none
  | 2 => (readDelimited bytes).map fun read => ((), read.2)
  | 5 => if 4 ≤ bytes.length then some ((), bytes.drop 4) else none
  | _ => none

theorem skipValue_behind {wireType : Nat} {bytes rest : List UInt8} {value : Unit}
    (skipped : skipValue wireType bytes = some (value, rest)) : rest.length < bytes.length := by
  unfold skipValue at skipped
  split at skipped
  case h_1 | h_3 =>
    obtain ⟨read, found, same⟩ := Option.map_eq_some_iff.mp skipped
    cases same
    first | exact readVarint_behind found | exact readDelimited_behind found
  case h_2 | h_4 =>
    split at skipped
    · cases skipped
      rw [List.length_drop]
      omega
    · cases skipped
  case h_5 => cases skipped

theorem WireValue.skipped {wireType : Nat} {bytes : List UInt8} (value : WireValue wireType bytes)
    (rest : List UInt8) : skipValue wireType (bytes ++ rest) = some ((), rest) := by
  cases value with
  | number n => rw [skipValue, readVarint_varint, Option.map_some]
  | content bytes => rw [skipValue, readDelimited_delimited, Option.map_some]
  | fixed64 _ length | fixed32 _ length =>
      rw [skipValue, if_pos (by rw [List.length_append]; omega), List.drop_left' length]

theorem WireValue.front {wireType : Nat} {bytes : List UInt8} (value : WireValue wireType bytes)
    (rest : List UInt8) : rest.length < (bytes ++ rest).length :=
  skipValue_behind (value.skipped rest)

/-- Numbers one behind the other, to the end. -/
def readVarints (bytes : List UInt8) : Option (List Nat) :=
  match bytes with
  | [] => some []
  | byte :: tail =>
      match _ : readVarint (byte :: tail) with
      | none => none
      | some (n, rest) => (readVarints rest).map (n :: ·)
termination_by bytes.length
decreasing_by exact readVarint_behind (by assumption)

theorem readVarints_varints (numbers : List Nat) :
    readVarints (numbers.flatMap varint) = some numbers := by
  induction numbers with
  | nil => simp [readVarints]
  | cons n numbers ih =>
      have front := readVarint_varint n (numbers.flatMap varint)
      have present := varint_front n (numbers.flatMap varint)
      rw [List.flatMap_cons]
      cases bytes : varint n ++ numbers.flatMap varint with
      | nil => simp [bytes] at present
      | cons byte tail =>
          rw [bytes] at front
          rw [readVarints]
          split
          · rename_i failed
            rw [front] at failed
            cases failed
          · rename_i first rest found
            rw [front] at found
            cases found
            rw [ih, Option.map_some]

section Loop

variable {Message Outcome : Type}

/-- A field: its bytes, and what it sets in a message. -/
structure WireField (Message : Type) where
  bytes : List UInt8
  put : Message → Message

/-- The bytes of a run of fields. -/
def written (fields : List (WireField Message)) : List UInt8 := fields.flatMap WireField.bytes

/-- A message with a run of fields set in it, from the first to the last. -/
def putAll (fields : List (WireField Message)) (message : Message) : Message :=
  fields.foldl (fun message field => field.put message) message

/-- A loop sets the field in front in its message and goes on behind it. -/
def Takes (loop : Message → List UInt8 → Outcome) (field : WireField Message) : Prop :=
  ∀ message rest, loop message (field.bytes ++ rest) = loop (field.put message) rest

theorem loop_written {loop : Message → List UInt8 → Outcome} {fields : List (WireField Message)}
    (takes : ∀ field ∈ fields, Takes loop field) (message : Message) (rest : List UInt8) :
    loop message (written fields ++ rest) = loop (putAll fields message) rest := by
  induction fields generalizing message with
  | nil => rfl
  | cons field fields ih =>
      have first := takes field List.mem_cons_self
      have later := ih fun other member => takes other (List.mem_cons_of_mem field member)
      rw [written, List.flatMap_cons, List.append_assoc, first]
      exact later (field.put message)

theorem written_append (first second : List (WireField Message)) :
    written (first ++ second) = written first ++ written second := List.flatMap_append

theorem putAll_append (first second : List (WireField Message)) (message : Message) :
    putAll (first ++ second) message = putAll second (putAll first message) := List.foldl_append

/-- A field that is written only where its value is not the default. -/
def optional {Item : Type} (present : Prop) [Decidable present] (item : Item) : List Item :=
  if present then [item] else []

theorem optional_map {Item Other : Type} (present : Prop) [Decidable present] (item : Item)
    (f : Item → Other) : (optional present item).map f = optional present (f item) := by
  unfold optional
  split <;> rfl

theorem optional_mem {Item : Type} {present : Prop} [Decidable present] {item other : Item}
    (member : other ∈ optional present item) : other = item := by
  unfold optional at member
  split at member
  · exact List.mem_singleton.mp member
  · cases member

theorem written_optional (present : Prop) [Decidable present] (field : WireField Message) :
    written (optional present field) = if present then field.bytes else [] := by
  unfold optional
  split
  · exact List.flatMap_singleton ..
  · rfl

theorem putAll_default {present : Prop} [Decidable present] {field : WireField Message}
    (kept : ¬ present → ∀ message, field.put message = message) (message : Message) :
    putAll (optional present field) message = field.put message := by
  unfold optional
  split
  · rfl
  · rename_i absent
    exact (kept absent message).symm

theorem putAll_optional {Value : Type} {set : Value → Message → Message} {get : Message → Value}
    (kept : ∀ message, set (get message) message = message) (present : Prop) [Decidable present]
    (bytes : List UInt8) (value : Value) (message : Message) :
    putAll (optional present ⟨bytes, set value⟩) message =
      set (if present then value else get message) message := by
  unfold optional
  split
  · rfl
  · exact (kept message).symm

end Loop

end AqMD3.TaggedFields
