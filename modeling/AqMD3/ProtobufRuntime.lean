import AqMD3.TaggedFields

/-!
What the generated messages call of the two protobuf runtimes, which are not in the repository:
the parser of the console, the reader and the writer of its clients, and the loops of the
generated code over them. Documented is the wire format, and that is what is taken of them.
-/

namespace AqMD3.Acquisition

open TaggedFields

def utf8 (text : String) : List UInt8 := text.toUTF8.data.toList

/-- A negative number is extended to 64 bits. -/
def signedVarint (value : Int32) : List UInt8 := varint value.toInt64.toUInt64.toNat

theorem extended_cut (value : Int32) : value.toInt64.toUInt64.toUInt32.toInt32 = value := by
  apply Int32.toBitVec.inj
  have cut := BitVec.signExtend_eq_setWidth_of_le value.toInt64.toBitVec (show 32 ≤ 64 by decide)
  exact cut.symm.trans (congrArg Int32.toBitVec (Int32.toInt32_toInt64 value))

/-- A field behind its tag. -/
def tagged {Message : Type} (tag : UInt32) (bytes : List UInt8) (put : Message → Message) :
    WireField Message :=
  ⟨varint tag.toNat ++ bytes, put⟩

/-- What `_InternalParse` calls. A pointer is the bytes from it on, and null if a read failed. -/
structure ParseContext where
  readTag : (ptr : List UInt8) → UInt32 × Option (Behind ptr)
  readVarint : (ptr : List UInt8) → UInt64 × Option (Behind ptr)
  inlineGreedyStringParserUTF8 : (ptr : List UInt8) → String × Option (Behind ptr)
  unknownFieldParse : UInt32 → (ptr : List UInt8) → Option (Behind ptr)

structure ParseContext.Documented (ctx : ParseContext) : Prop where
  tag : ∀ (tag : UInt32) (rest : List UInt8),
    ctx.readTag (varint tag.toNat ++ rest) = (tag, some ⟨rest, varint_front _ _⟩)
  number : ∀ (value : UInt64) (rest : List UInt8),
    ctx.readVarint (varint value.toNat ++ rest) = (value, some ⟨rest, varint_front _ _⟩)
  text : ∀ (value : String) (rest : List UInt8), (utf8 value).length < 2 ^ 31 →
    ctx.inlineGreedyStringParserUTF8 (delimited (utf8 value) ++ rest) =
      (value, some ⟨rest, delimited_front _ _⟩)
  unknown : ∀ (tag : UInt32) (bytes rest : List UInt8) (value : WireValue (tag.toNat % 8) bytes),
    8 ≤ tag.toNat → ctx.unknownFieldParse tag (bytes ++ rest) = some ⟨rest, value.front rest⟩

/-- A parser that reads the format and nothing else. -/
def base128Context : ParseContext where
  readTag ptr :=
    match front readVarint readVarint_behind ptr with
    | some (tag, rest) => (UInt32.ofNat tag, some rest)
    | none => (0, none)
  readVarint ptr :=
    match front readVarint readVarint_behind ptr with
    | some (value, rest) => (UInt64.ofNat value, some rest)
    | none => (0, none)
  inlineGreedyStringParserUTF8 ptr :=
    match front readDelimited readDelimited_behind ptr with
    | some (content, rest) =>
        match String.fromUTF8? ⟨content.toArray⟩ with
        | some text => (text, some rest)
        | none => ("", none)
    | none => ("", none)
  unknownFieldParse tag ptr :=
    (front (skipValue (tag.toNat % 8)) skipValue_behind ptr).map Prod.snd

theorem fromUTF8_utf8 (text : String) : String.fromUTF8? ⟨(utf8 text).toArray⟩ = some text := by
  have valid : text.toUTF8.IsValidUTF8 := text.isValidUTF8
  exact dif_pos valid

theorem base128Context_documented : base128Context.Documented where
  tag tag rest := by
    simp only [base128Context, front_read readVarint_behind (readVarint_varint tag.toNat rest),
      UInt32.ofNat_toNat]
  number value rest := by
    simp only [base128Context, front_read readVarint_behind (readVarint_varint value.toNat rest),
      UInt64.ofNat_toNat]
  text value rest _ := by
    simp only [base128Context, fromUTF8_utf8,
      front_read readDelimited_behind (readDelimited_delimited (utf8 value) rest)]
  unknown tag bytes rest value _ := by
    simp only [base128Context, front_read skipValue_behind (value.skipped rest), Option.map_some]

/-- How a case of the switch over the tag ends. -/
inductive Case (Message : Type) (ptr : List UInt8) where
  | goesOn (message : Message) (rest : Behind ptr)
  | fails (message : Message)
  | unusual

/-- `field_ = Read(&ptr); CHK_(ptr);` -/
def Case.value {Message Value : Type} {ptr : List UInt8} (read : Value × Option (Behind ptr))
    (set : Value → Message) : Case Message ptr :=
  match read.2 with
  | some rest => .goesOn (set read.1) rest
  | none => .fails (set read.1)

/-- `val = Read(&ptr); CHK_(ptr); set_field(val);` -/
def Case.checked {Message Value : Type} {ptr : List UInt8} (read : Value × Option (Behind ptr))
    (message : Message) (set : Value → Message) : Case Message ptr :=
  match read.2 with
  | some rest => .goesOn (set read.1) rest
  | none => .fails message

/-- A parse reaches the end, or a tag that ends it, or a read that fails. -/
inductive ParseEnd where
  | atEnd
  | lastTag (tag : UInt32)
  | failed
  deriving DecidableEq

section Parse

variable {Message : Type}

/-- The loop of `_InternalParse` around the switch of a message. -/
def ParseContext.internalParse (ctx : ParseContext)
    (cases : UInt32 → Message → (ptr : List UInt8) → Case Message ptr) (message : Message)
    (ptr : List UInt8) : Message × ParseEnd :=
  if ptr.isEmpty then (message, .atEnd)
  else
    match ctx.readTag ptr with
    | (_, none) => (message, .failed)
    | (tag, some field) =>
        match cases tag message field.1 with
        | .goesOn next rest => internalParse ctx cases next rest.1
        | .fails next => (next, .failed)
        | .unusual =>
            -- the end of a group, or a zero
            if tag &&& 7 = 4 ∨ tag = 0 then (message, .lastTag tag)
            else
              match ctx.unknownFieldParse tag field.1 with
              | none => (message, .failed)
              | some rest => internalParse ctx cases message rest.1
termination_by ptr.length
decreasing_by
  · exact Nat.lt_trans rest.2 field.2
  · exact Nat.lt_trans rest.2 field.2

variable {ctx : ParseContext} {cases : UInt32 → Message → (ptr : List UInt8) → Case Message ptr}

theorem internalParse_end (message : Message) :
    ctx.internalParse cases message [] = (message, .atEnd) := by
  rw [ParseContext.internalParse, List.isEmpty_nil, if_pos rfl]

theorem tag_present (tag : UInt32) (rest : List UInt8) :
    (varint tag.toNat ++ rest).isEmpty = false := by
  have front := varint_front tag.toNat rest
  exact List.isEmpty_eq_false_iff.mpr (List.ne_nil_of_length_pos (Nat.zero_lt_of_lt front))

theorem internalParse_takes (documented : ctx.Documented) {tag : UInt32} {bytes : List UInt8}
    {put : Message → Message}
    (reads : ∀ message rest, ∃ behind,
      cases tag message (bytes ++ rest) = .goesOn (put message) ⟨rest, behind⟩) :
    Takes (ctx.internalParse cases) (tagged tag bytes put) := by
  intro message rest
  unfold tagged
  obtain ⟨behind, read⟩ := reads message rest
  simp only [List.append_assoc]
  rw [ParseContext.internalParse, tag_present, if_neg Bool.false_ne_true, documented.tag]
  simp only [read]

theorem number_takes (documented : ctx.Documented) {tag : UInt32}
    (set : UInt64 → Message → Message)
    (switched : ∀ message ptr,
      cases tag message ptr = .value (ctx.readVarint ptr) fun value => set value message)
    (value : UInt64) :
    Takes (ctx.internalParse cases) (tagged tag (varint value.toNat) (set value)) := by
  refine internalParse_takes documented fun message rest => ⟨varint_front _ _, ?_⟩
  rw [switched, documented.number value rest, Case.value]

theorem text_takes (documented : ctx.Documented) {tag : UInt32}
    (set : String → Message → Message)
    (switched : ∀ message ptr, cases tag message ptr =
      .value (ctx.inlineGreedyStringParserUTF8 ptr) fun value => set value message)
    {value : String} (fits : (utf8 value).length < 2 ^ 31) :
    Takes (ctx.internalParse cases) (tagged tag (delimited (utf8 value)) (set value)) := by
  refine internalParse_takes documented fun message rest => ⟨delimited_front _ _, ?_⟩
  rw [switched, documented.text value rest fits, Case.value]

theorem internalParse_skips (documented : ctx.Documented) {tag : UInt32} {bytes : List UInt8}
    (value : WireValue (tag.toNat % 8) bytes) (numbered : 8 ≤ tag.toNat)
    (unusual : ∀ message ptr, cases tag message ptr = .unusual) :
    Takes (ctx.internalParse cases) (tagged tag bytes id) := by
  intro message rest
  unfold tagged
  have group : ¬ (tag &&& 7 = 4 ∨ tag = 0) := by
    rintro (ended | zero)
    · have wireType : tag.toNat % 8 = 4 := by
        have low := congrArg UInt32.toNat ended
        rw [UInt32.toNat_and] at low
        have seven := Nat.and_two_pow_sub_one_eq_mod tag.toNat 3
        exact seven.symm.trans low
      rw [wireType] at value
      cases value
    · simp [zero] at numbered
  simp only [List.append_assoc]
  rw [ParseContext.internalParse, tag_present, if_neg Bool.false_ne_true, documented.tag]
  simp only [unusual, if_neg group, documented.unknown tag bytes rest value numbered, id_eq]

end Parse

/-- What `WriteTo` calls, each call with the bytes it appends to the stream. -/
structure CodedOutputStream where
  writeRawTag : UInt8 → List UInt8
  writeUInt64 : UInt64 → List UInt8
  writeUInt32 : UInt32 → List UInt8
  writeString : String → List UInt8
  writeEnum : Int32 → List UInt8

structure CodedOutputStream.Documented (output : CodedOutputStream) : Prop where
  rawTag : ∀ tag, output.writeRawTag tag = [tag]
  uint64 : ∀ value, output.writeUInt64 value = varint value.toNat
  uint32 : ∀ value, output.writeUInt32 value = varint value.toNat
  text : ∀ value, output.writeString value = delimited (utf8 value)
  enumeration : ∀ value, output.writeEnum value = signedVarint value

def base128Output : CodedOutputStream where
  writeRawTag tag := [tag]
  writeUInt64 value := varint value.toNat
  writeUInt32 value := varint value.toNat
  writeString value := delimited (utf8 value)
  writeEnum value := signedVarint value

theorem base128Output_documented : base128Output.Documented :=
  ⟨fun _ => rfl, fun _ => rfl, fun _ => rfl, fun _ => rfl, fun _ => rfl⟩

/-- The codec of a repeated field, with the tag it writes in front. -/
inductive FieldCodec : Type → Type 1 where
  | forInt32 (tag : UInt32) : FieldCodec Int32
  | forUInt32 (tag : UInt32) : FieldCodec UInt32
  | forUInt64 (tag : UInt32) : FieldCodec UInt64

def FieldCodec.bytes {Value : Type} : FieldCodec Value → Value → List UInt8
  | .forInt32 _, value => signedVarint value
  | .forUInt32 _, value => varint value.toNat
  | .forUInt64 _, value => varint value.toNat

theorem codec_number {Value : Type} (codec : FieldCodec Value) (value : Value) :
    ∃ n, n < 2 ^ 64 ∧ codec.bytes value = varint n := by
  cases codec with
  | forInt32 => exact ⟨_, value.toInt64.toUInt64.toNat_lt, rfl⟩
  | forUInt32 => exact ⟨_, Nat.lt_trans value.toNat_lt (by decide), rfl⟩
  | forUInt64 => exact ⟨_, value.toNat_lt, rfl⟩

/-- What `MergeFrom` calls, or the text of the exception it throws. `ReadTag` is 0, here
`none`, at the end; what reads or skips a field looks at the last tag. -/
structure CodedInputStream where
  readTag : (left : List UInt8) → Except String (Option (UInt32 × Behind left))
  readUInt64 : (left : List UInt8) → Except String (UInt64 × Behind left)
  addEntriesFrom : {Value : Type} → FieldCodec Value → UInt32 → (left : List UInt8) →
    Except String (List Value × Behind left)
  skipLastField : UInt32 → (left : List UInt8) → Except String (Behind left)

structure CodedInputStream.Documented (input : CodedInputStream) : Prop where
  atEnd : input.readTag [] = .ok none
  tag : ∀ (tag : UInt32) (rest : List UInt8), 8 ≤ tag.toNat →
    input.readTag (varint tag.toNat ++ rest) = .ok (some (tag, ⟨rest, varint_front _ _⟩))
  number : ∀ (value : UInt64) (rest : List UInt8),
    input.readUInt64 (varint value.toNat ++ rest) = .ok (value, ⟨rest, varint_front _ _⟩)
  packed : ∀ {Value : Type} (codec : FieldCodec Value) (lastTag : UInt32) (values : List Value)
    (rest : List UInt8), lastTag.toNat % 8 = 2 → (values.flatMap codec.bytes).length < 2 ^ 31 →
    input.addEntriesFrom codec lastTag (delimited (values.flatMap codec.bytes) ++ rest) =
      .ok (values, ⟨rest, delimited_front _ _⟩)

def FieldCodec.value {Value : Type} : FieldCodec Value → Nat → Value
  | .forInt32 _, number => (UInt64.ofNat number).toUInt32.toInt32
  | .forUInt32 _, number => UInt32.ofNat number
  | .forUInt64 _, number => UInt64.ofNat number

/-- A reader of packed fields; one that is not packed it refuses. -/
def base128Input : CodedInputStream where
  readTag left :=
    if left.isEmpty then .ok none
    else
      match front readVarint readVarint_behind left with
      | some (tag, rest) => .ok (some (UInt32.ofNat tag, rest))
      | none => .error "truncated"
  readUInt64 left :=
    match front readVarint readVarint_behind left with
    | some (value, rest) => .ok (UInt64.ofNat value, rest)
    | none => .error "truncated"
  addEntriesFrom codec lastTag left :=
    match front readDelimited readDelimited_behind left with
    | some (content, rest) =>
        match readVarints content with
        | some numbers =>
            if lastTag.toNat % 8 = 2 then .ok (numbers.map codec.value, rest)
            else .error "not packed"
        | none => .error "truncated"
    | none => .error "truncated"
  skipLastField tag left :=
    match front (skipValue (tag.toNat % 8)) skipValue_behind left with
    | some (_, rest) => .ok rest
    | none => .error "truncated"

theorem codec_values {Value : Type} (codec : FieldCodec Value) (values : List Value) :
    ∃ numbers, readVarints (values.flatMap codec.bytes) = some numbers ∧
      numbers.map codec.value = values := by
  have through (number : Value → Nat) (written : codec.bytes = fun value => varint (number value))
      (exact_ : ∀ value, codec.value (number value) = value) :
      ∃ numbers, readVarints (values.flatMap codec.bytes) = some numbers ∧
        numbers.map codec.value = values := by
    refine ⟨values.map number, ?_, ?_⟩
    · rw [← readVarints_varints, List.flatMap_map, written]
    · rw [List.map_map]
      exact (List.map_congr_left fun value _ => exact_ value).trans (List.map_id values)
  cases codec with
  | forInt32 =>
      refine through (fun value => value.toInt64.toUInt64.toNat) rfl fun value => ?_
      simp only [FieldCodec.value, UInt64.ofNat_toNat, extended_cut]
  | forUInt32 => exact through UInt32.toNat rfl fun _ => UInt32.ofNat_toNat
  | forUInt64 => exact through UInt64.toNat rfl fun _ => UInt64.ofNat_toNat

theorem base128Input_documented : base128Input.Documented where
  atEnd := rfl
  tag tag rest _ := by
    simp only [base128Input, tag_present, Bool.false_eq_true, if_false,
      front_read readVarint_behind (readVarint_varint tag.toNat rest), UInt32.ofNat_toNat]
  number value rest := by
    simp only [base128Input, front_read readVarint_behind (readVarint_varint value.toNat rest),
      UInt64.ofNat_toNat]
  packed codec lastTag values rest packed _ := by
    obtain ⟨numbers, read, same⟩ := codec_values codec values
    have content := readDelimited_delimited (values.flatMap codec.bytes) rest
    simp only [base128Input, front_read readDelimited_behind content, read, packed, if_true, same]

section Merge

variable {Message : Type}

/-- The loop of `MergeFrom` around the switch of a message; `none` is its `default`. -/
def CodedInputStream.mergeFrom (input : CodedInputStream)
    (cases : UInt32 → Message → (left : List UInt8) → Option (Except String (Message × Behind left)))
    (message : Message) (left : List UInt8) : Except String Message :=
  match input.readTag left with
  | .error what => .error what
  | .ok none => .ok message
  | .ok (some (tag, field)) =>
      let skipped := (input.skipLastField tag field.1).map fun rest => (message, rest)
      match (cases tag message field.1).getD skipped with
      | .error what => .error what
      | .ok (next, rest) => mergeFrom input cases next rest.1
termination_by left.length
decreasing_by exact Nat.lt_trans rest.2 field.2

variable {input : CodedInputStream}
  {cases : UInt32 → Message → (left : List UInt8) → Option (Except String (Message × Behind left))}

theorem mergeFrom_end (documented : input.Documented) (message : Message) :
    input.mergeFrom cases message [] = .ok message := by
  rw [CodedInputStream.mergeFrom, documented.atEnd]

theorem mergeFrom_takes (documented : input.Documented) {tag : UInt32} (numbered : 8 ≤ tag.toNat)
    {bytes : List UInt8} {put : Message → Message}
    (reads : ∀ message rest, ∃ behind,
      cases tag message (bytes ++ rest) = some (.ok (put message, ⟨rest, behind⟩))) :
    Takes (input.mergeFrom cases) (tagged tag bytes put) := by
  intro message rest
  unfold tagged
  obtain ⟨behind, read⟩ := reads message rest
  simp only [List.append_assoc]
  rw [CodedInputStream.mergeFrom, documented.tag tag _ numbered]
  simp only [read, Option.getD_some]

end Merge

/-- What `ByteSizeLong` and `InternalSerializeWithCachedSizesToArray` call: the bytes a call
writes, and the sizes of values and of whole repeated fields. -/
structure WireFormatLite where
  writeTagToArray : UInt32 → UInt32 → List UInt8
  writeVarint32ToArray : UInt32 → List UInt8
  writeUInt64ToArray : UInt32 → UInt64 → List UInt8
  writeInt32NoTagToArray : List Int32 → List UInt8
  writeUInt32NoTagToArray : List UInt32 → List UInt8
  writeUInt64NoTagToArray : List UInt64 → List UInt8
  int32Size : Int32 → Nat
  uint64Size : UInt64 → Nat
  int32Sizes : List Int32 → Nat
  uint32Sizes : List UInt32 → Nat
  uint64Sizes : List UInt64 → Nat

structure WireFormatLite.Documented (lite : WireFormatLite) : Prop where
  tag : ∀ fieldNumber wireType : UInt32, fieldNumber.toNat < 2 ^ 29 → wireType.toNat < 8 →
    lite.writeTagToArray fieldNumber wireType = varint (8 * fieldNumber.toNat + wireType.toNat)
  varint32 : ∀ value, lite.writeVarint32ToArray value = varint value.toNat
  uint64 : ∀ (fieldNumber : UInt32) (value : UInt64), fieldNumber.toNat < 2 ^ 29 →
    lite.writeUInt64ToArray fieldNumber value = varint (8 * fieldNumber.toNat) ++ varint value.toNat
  int32s : ∀ values, lite.writeInt32NoTagToArray values = values.flatMap signedVarint
  uint32s : ∀ values, lite.writeUInt32NoTagToArray values = values.flatMap fun v => varint v.toNat
  uint64s : ∀ values, lite.writeUInt64NoTagToArray values = values.flatMap fun v => varint v.toNat
  int32Size : ∀ value, lite.int32Size value = (signedVarint value).length
  uint64Size : ∀ value, lite.uint64Size value = (varint value.toNat).length
  int32Sizes : ∀ values, lite.int32Sizes values = (values.flatMap signedVarint).length
  uint32Sizes : ∀ values,
    lite.uint32Sizes values = (values.flatMap fun v => varint v.toNat).length
  uint64Sizes : ∀ values,
    lite.uint64Sizes values = (values.flatMap fun v => varint v.toNat).length

def base128Lite : WireFormatLite where
  writeTagToArray fieldNumber wireType := varint (8 * fieldNumber.toNat + wireType.toNat)
  writeVarint32ToArray value := varint value.toNat
  writeUInt64ToArray fieldNumber value := varint (8 * fieldNumber.toNat) ++ varint value.toNat
  writeInt32NoTagToArray values := values.flatMap signedVarint
  writeUInt32NoTagToArray values := values.flatMap fun v => varint v.toNat
  writeUInt64NoTagToArray values := values.flatMap fun v => varint v.toNat
  int32Size value := (signedVarint value).length
  uint64Size value := (varint value.toNat).length
  int32Sizes values := (values.flatMap signedVarint).length
  uint32Sizes values := (values.flatMap fun v => varint v.toNat).length
  uint64Sizes values := (values.flatMap fun v => varint v.toNat).length

theorem base128Lite_documented : base128Lite.Documented := by
  constructor <;> intros <;> rfl

end AqMD3.Acquisition
