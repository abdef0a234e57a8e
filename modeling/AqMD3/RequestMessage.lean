import AqMD3.AcquireFrame
import AqMD3.ProtobufRuntime

/-!
`UimfRequestMessage` from the clients' `WriteTo` to the console's `_InternalParse`. A field with
the default value is not written. Fields are parsed in any order; the last of its kind counts,
and one that the message does not have is skipped.
-/

namespace AqMD3.Acquisition

open TaggedFields

/-- The message with its frame type, which no handler reads. -/
structure WholeRequestMessage extends UimfRequestMessage where
  frameType : Int32
  deriving DecidableEq

namespace WholeRequestMessage

def fresh : WholeRequestMessage := ⟨⟨0, 0, 0, 0, 0, 0, ""⟩, 0⟩

/-- The switch of `UimfRequestMessage::_InternalParse`. -/
def cases (ctx : ParseContext) (tag : UInt32) (message : WholeRequestMessage) (ptr : List UInt8) :
    Case WholeRequestMessage ptr :=
  match tag >>> 3 with
  | 1 =>
      if tag.toUInt8 = 8 then
        .value (ctx.readVarint ptr) fun value => { message with startTrigger := value }
      else .unusual
  | 2 =>
      if tag.toUInt8 = 16 then
        .value (ctx.readVarint ptr) fun value => { message with nbrSamples := value }
      else .unusual
  | 3 =>
      if tag.toUInt8 = 24 then
        .value (ctx.readVarint ptr) fun value => { message with frameLength := value }
      else .unusual
  | 4 =>
      if tag.toUInt8 = 32 then
        .value (ctx.readVarint ptr) fun value => { message with nbrAccumulations := value }
      else .unusual
  | 5 =>
      if tag.toUInt8 = 40 then
        .value (ctx.readVarint ptr) fun value => { message with frameNumber := value.toUInt32 }
      else .unusual
  | 6 =>
      if tag.toUInt8 = 48 then
        .value (ctx.readVarint ptr) fun value => { message with offsetBins := value.toUInt32 }
      else .unusual
  | 7 =>
      if tag.toUInt8 = 58 then
        .value (ctx.inlineGreedyStringParserUTF8 ptr) fun value => { message with fileName := value }
      else .unusual
  | 8 =>
      if tag.toUInt8 = 64 then
        .checked (ctx.readVarint ptr) message fun value =>
          { message with frameType := value.toUInt32.toInt32 }
      else .unusual
  | _ => .unusual

def internalParse (ctx : ParseContext) (message : WholeRequestMessage) (ptr : List UInt8) :
    WholeRequestMessage × ParseEnd :=
  ctx.internalParse (cases ctx) message ptr

/-- The clients' `WriteTo`. -/
def writeTo (message : WholeRequestMessage) (output : CodedOutputStream) : List UInt8 :=
  (if message.startTrigger ≠ 0 then
    output.writeRawTag 8 ++ output.writeUInt64 message.startTrigger else []) ++
  (if message.nbrSamples ≠ 0 then
    output.writeRawTag 16 ++ output.writeUInt64 message.nbrSamples else []) ++
  (if message.frameLength ≠ 0 then
    output.writeRawTag 24 ++ output.writeUInt64 message.frameLength else []) ++
  (if message.nbrAccumulations ≠ 0 then
    output.writeRawTag 32 ++ output.writeUInt64 message.nbrAccumulations else []) ++
  (if message.frameNumber ≠ 0 then
    output.writeRawTag 40 ++ output.writeUInt32 message.frameNumber else []) ++
  (if message.offsetBins ≠ 0 then
    output.writeRawTag 48 ++ output.writeUInt32 message.offsetBins else []) ++
  (if message.fileName.length ≠ 0 then
    output.writeRawTag 58 ++ output.writeString message.fileName else []) ++
  (if message.frameType ≠ 0 then
    output.writeRawTag 64 ++ output.writeEnum message.frameType else [])

/-- `MergeFrom` of another message: what the other leaves at its default stays. -/
def mergeFrom (message other : WholeRequestMessage) : WholeRequestMessage where
  fileName := if 0 < other.fileName.length then other.fileName else message.fileName
  startTrigger := if other.startTrigger ≠ 0 then other.startTrigger else message.startTrigger
  nbrSamples := if other.nbrSamples ≠ 0 then other.nbrSamples else message.nbrSamples
  frameLength := if other.frameLength ≠ 0 then other.frameLength else message.frameLength
  nbrAccumulations :=
    if other.nbrAccumulations ≠ 0 then other.nbrAccumulations else message.nbrAccumulations
  frameNumber := if other.frameNumber ≠ 0 then other.frameNumber else message.frameNumber
  offsetBins := if other.offsetBins ≠ 0 then other.offsetBins else message.offsetBins
  frameType := if other.frameType ≠ 0 then other.frameType else message.frameType

end WholeRequestMessage

/-- A field on the wire: one of the message, or any other. -/
inductive RequestField where
  | startTrigger (value : UInt64)
  | nbrSamples (value : UInt64)
  | frameLength (value : UInt64)
  | nbrAccumulations (value : UInt64)
  | frameNumber (value : UInt32)
  | offsetBins (value : UInt32)
  | fileName (value : String)
  | frameType (value : Int32)
  | other (tag : UInt32) (bytes : List UInt8)

namespace RequestField

open WholeRequestMessage

def field : RequestField → WireField WholeRequestMessage
  | .startTrigger value =>
      tagged 8 (varint value.toNat) fun message => { message with startTrigger := value }
  | .nbrSamples value =>
      tagged 16 (varint value.toNat) fun message => { message with nbrSamples := value }
  | .frameLength value =>
      tagged 24 (varint value.toNat) fun message => { message with frameLength := value }
  | .nbrAccumulations value =>
      tagged 32 (varint value.toNat) fun message => { message with nbrAccumulations := value }
  | .frameNumber value =>
      tagged 40 (varint value.toNat) fun message => { message with frameNumber := value }
  | .offsetBins value =>
      tagged 48 (varint value.toNat) fun message => { message with offsetBins := value }
  | .fileName value =>
      tagged 58 (delimited (utf8 value)) fun message => { message with fileName := value }
  | .frameType value =>
      tagged 64 (signedVarint value) fun message => { message with frameType := value }
  | .other tag bytes => tagged tag bytes id

/-- A name of less than 2 GiB; another field has a number and a value of its wire type. -/
def WellFormed : RequestField → Prop
  | .fileName value => (utf8 value).length < 2 ^ 31
  | .other tag bytes =>
      tag ∉ [8, 16, 24, 32, 40, 48, 58, 64] ∧ 8 ≤ tag.toNat ∧ WireValue (tag.toNat % 8) bytes
  | _ => True

theorem tested_tag {tag number : UInt32} {low : UInt8} (shifted : tag >>> 3 = number)
    (byte : tag.toUInt8 = low) (small : number.toNat ≤ 8) : tag = low.toUInt32 := by
  have high := congrArg UInt32.toNat shifted
  have bottom := congrArg UInt8.toNat byte
  have three : (3 : UInt32).toNat % 32 = 3 := rfl
  rw [UInt32.toNat_shiftRight, three, Nat.shiftRight_eq_div_pow] at high
  rw [UInt32.toNat_toUInt8] at bottom
  apply UInt32.toNat_inj.mp
  rw [UInt8.toNat_toUInt32]
  omega

theorem other_unusual {ctx : ParseContext} {tag : UInt32}
    (unknown : tag ∉ [8, 16, 24, 32, 40, 48, 58, 64]) (message : WholeRequestMessage)
    (ptr : List UInt8) : cases ctx tag message ptr = .unusual := by
  have none (number : UInt32) (low : UInt8) (shifted : tag >>> 3 = number)
      (small : number.toNat ≤ 8) (listed : low.toUInt32 ∈ [8, 16, 24, 32, 40, 48, 58, 64]) :
      ¬ tag.toUInt8 = low := by
    intro byte
    rw [tested_tag shifted byte small] at unknown
    exact unknown listed
  unfold cases
  split
  case h_9 => rfl
  all_goals
    rename_i shifted
    exact if_neg (none _ _ shifted (by decide) (by decide))

theorem field_takes {ctx : ParseContext} (documented : ctx.Documented) (f : RequestField)
    (formed : f.WellFormed) : Takes (internalParse ctx) f.field := by
  have number (tag : UInt32) (set : UInt64 → WholeRequestMessage → WholeRequestMessage) :=
    @number_takes _ ctx (cases ctx) documented tag set
  cases f with
  | startTrigger value =>
      exact number 8 (fun value message => { message with startTrigger := value })
        (fun _ _ => rfl) value
  | nbrSamples value =>
      exact number 16 (fun value message => { message with nbrSamples := value })
        (fun _ _ => rfl) value
  | frameLength value =>
      exact number 24 (fun value message => { message with frameLength := value })
        (fun _ _ => rfl) value
  | nbrAccumulations value =>
      exact number 32 (fun value message => { message with nbrAccumulations := value })
        (fun _ _ => rfl) value
  | frameNumber value =>
      have takes := number 40 (fun value message => { message with frameNumber := value.toUInt32 })
        (fun _ _ => rfl) value.toUInt64
      simp only [UInt32.toNat_toUInt64, UInt32.toUInt32_toUInt64] at takes
      exact takes
  | offsetBins value =>
      have takes := number 48 (fun value message => { message with offsetBins := value.toUInt32 })
        (fun _ _ => rfl) value.toUInt64
      simp only [UInt32.toNat_toUInt64, UInt32.toUInt32_toUInt64] at takes
      exact takes
  | fileName value =>
      exact @text_takes _ ctx (cases ctx) documented 58
        (fun value message => { message with fileName := value }) (fun _ _ => rfl) _ formed
  | frameType value =>
      refine internalParse_takes documented fun message rest => ⟨varint_front _ _, ?_⟩
      have read := documented.number value.toInt64.toUInt64 rest
      have switched (ptr : List UInt8) : cases ctx 64 message ptr =
          .checked (ctx.readVarint ptr) message fun value =>
            { message with frameType := value.toUInt32.toInt32 } := rfl
      simp only [switched, signedVarint, read, Case.checked, extended_cut]
  | other tag bytes =>
      obtain ⟨unknown, numbered, value⟩ := formed
      exact internalParse_skips documented value numbered (other_unusual unknown)

end RequestField

namespace WholeRequestMessage

/-- The fields that are written. -/
def fields (message : WholeRequestMessage) : List RequestField :=
  optional (message.startTrigger ≠ 0) (RequestField.startTrigger message.startTrigger) ++
  optional (message.nbrSamples ≠ 0) (RequestField.nbrSamples message.nbrSamples) ++
  optional (message.frameLength ≠ 0) (RequestField.frameLength message.frameLength) ++
  optional (message.nbrAccumulations ≠ 0)
    (RequestField.nbrAccumulations message.nbrAccumulations) ++
  optional (message.frameNumber ≠ 0) (RequestField.frameNumber message.frameNumber) ++
  optional (message.offsetBins ≠ 0) (RequestField.offsetBins message.offsetBins) ++
  optional (message.fileName.length ≠ 0) (RequestField.fileName message.fileName) ++
  optional (message.frameType ≠ 0) (RequestField.frameType message.frameType)

theorem fields_formed {message : WholeRequestMessage}
    (named : (utf8 message.fileName).length < 2 ^ 31) : ∀ f ∈ message.fields, f.WellFormed := by
  intro f member
  simp only [fields, List.mem_append, or_assoc] at member
  rcases member with here | here | here | here | here | here | here | here
  case inr.inr.inr.inr.inr.inr.inl => rwa [optional_mem here]
  all_goals
    rw [optional_mem here]
    trivial

theorem writeTo_written {output : CodedOutputStream} (documented : output.Documented)
    (message : WholeRequestMessage) :
    message.writeTo output = written (message.fields.map RequestField.field) := by
  have rawTag (tag : UInt8) (small : tag.toNat < 128) :
      output.writeRawTag tag = varint tag.toUInt32.toNat := by
    rw [documented.rawTag, UInt8.toNat_toUInt32, varint_small small]
    simp
  simp only [fields, List.map_append, optional_map, written_append, written_optional, writeTo,
    documented.uint64, documented.uint32, documented.text, documented.enumeration,
    rawTag 8 (by decide), rawTag 16 (by decide), rawTag 24 (by decide), rawTag 32 (by decide),
    rawTag 40 (by decide), rawTag 48 (by decide), rawTag 58 (by decide), rawTag 64 (by decide)]
  rfl

theorem putAll_fields (message other : WholeRequestMessage) :
    putAll (other.fields.map RequestField.field) message = message.mergeFrom other := by
  have number (set : UInt64 → WholeRequestMessage → WholeRequestMessage)
      (get : WholeRequestMessage → UInt64) := @putAll_optional WholeRequestMessage UInt64 set get
  have count (set : UInt32 → WholeRequestMessage → WholeRequestMessage)
      (get : WholeRequestMessage → UInt32) := @putAll_optional WholeRequestMessage UInt32 set get
  simp only [fields, List.map_append, optional_map, putAll_append, RequestField.field, tagged]
  rw [number (fun v message => { message with startTrigger := v }) (·.startTrigger) fun _ => rfl,
    number (fun v message => { message with nbrSamples := v }) (·.nbrSamples) fun _ => rfl,
    number (fun v message => { message with frameLength := v }) (·.frameLength) fun _ => rfl,
    number (fun v message => { message with nbrAccumulations := v }) (·.nbrAccumulations)
      fun _ => rfl,
    count (fun v message => { message with frameNumber := v }) (·.frameNumber) fun _ => rfl,
    count (fun v message => { message with offsetBins := v }) (·.offsetBins) fun _ => rfl,
    @putAll_optional WholeRequestMessage String (fun v message => { message with fileName := v })
      (·.fileName) fun _ => rfl,
    @putAll_optional WholeRequestMessage Int32 (fun v message => { message with frameType := v })
      (·.frameType) fun _ => rfl]
  simp only [mergeFrom, Nat.pos_iff_ne_zero]

end WholeRequestMessage

section Parsed

variable {ctx : ParseContext}

theorem internalParse_fields (documented : ctx.Documented) {fields : List RequestField}
    (formed : ∀ f ∈ fields, f.WellFormed) (message : WholeRequestMessage) :
    WholeRequestMessage.internalParse ctx message (written (fields.map RequestField.field)) =
      (putAll (fields.map RequestField.field) message, .atEnd) := by
  have taken := @loop_written _ _ (WholeRequestMessage.internalParse ctx)
    (fields.map RequestField.field) (by
      intro field member
      obtain ⟨f, inside, rfl⟩ := List.mem_map.mp member
      exact RequestField.field_takes documented f (formed f inside)) message []
  rw [List.append_nil] at taken
  rw [taken, WholeRequestMessage.internalParse, internalParse_end]

/-- A `std::string` holds bytes, a character each. -/
def bytesOf (text : String) : List UInt8 := text.toList.map fun character => character.toNat.toUInt8

def textOf (bytes : List UInt8) : String :=
  String.ofList (bytes.map fun byte => Char.ofNat byte.toNat)

theorem bytesOf_textOf (bytes : List UInt8) : bytesOf (textOf bytes) = bytes := by
  rw [bytesOf, textOf, String.toList_ofList, List.map_map]
  refine (List.map_congr_left fun byte _ => ?_).trans (List.map_id bytes)
  have valid : byte.toNat.isValidChar := Or.inl (Nat.lt_trans byte.toNat_lt (by decide))
  rw [Function.comp_apply, Char.ofNat, dif_pos valid]
  exact UInt8.ofNat_toNat

/-- `MergeFromString` on a new message. -/
def mergeFromString (ctx : ParseContext) (text : String) : WholeRequestMessage × ParseEnd :=
  WholeRequestMessage.internalParse ctx .fresh (bytesOf text)

def requestDecoder (ctx : ParseContext) : Decoder UimfRequestMessage where
  decode text :=
    (decide ((mergeFromString ctx text).2 = .atEnd),
      (mergeFromString ctx text).1.toUimfRequestMessage)
  meaning text :=
    if (mergeFromString ctx text).2 = .atEnd then
      some (mergeFromString ctx text).1.toUimfRequestMessage
    else none
  refuses text unknown := by
    split at unknown
    · cases unknown
    · simpa using ‹_›
  decodes text message known := by
    split at known
    · cases known
      simpa using ‹_›
    · cases known

end Parsed

/-- What a client may send: requests it writes, and fields of a later version between them. -/
inductive RequestPart where
  | request (message : WholeRequestMessage)
  | other (tag : UInt32) (bytes : List UInt8)

namespace RequestPart

def bytes (output : CodedOutputStream) : RequestPart → List UInt8
  | .request message => message.writeTo output
  | .other tag bytes => varint tag.toNat ++ bytes

/-- A request is merged, and another field leaves the message as it is. -/
def merge (message : WholeRequestMessage) : RequestPart → WholeRequestMessage
  | .request sent => message.mergeFrom sent
  | .other _ _ => message

def WellFormed : RequestPart → Prop
  | .request message => (utf8 message.fileName).length < 2 ^ 31
  | .other tag bytes => RequestField.WellFormed (.other tag bytes)

def fields : RequestPart → List RequestField
  | .request message => message.fields
  | .other tag bytes => [.other tag bytes]

theorem fields_formed {part : RequestPart} (formed : part.WellFormed) :
    ∀ f ∈ part.fields, f.WellFormed := by
  cases part with
  | request message => exact WholeRequestMessage.fields_formed formed
  | other tag bytes =>
      intro f member
      rwa [List.mem_singleton.mp member]

theorem bytes_written {output : CodedOutputStream} (writes : output.Documented)
    (part : RequestPart) : part.bytes output = written (part.fields.map RequestField.field) := by
  cases part with
  | request message => exact WholeRequestMessage.writeTo_written writes message
  | other tag bytes => exact (List.flatMap_singleton ..).symm

theorem putAll_merge (part : RequestPart) (message : WholeRequestMessage) :
    putAll (part.fields.map RequestField.field) message = merge message part := by
  cases part with
  | request sent => exact WholeRequestMessage.putAll_fields message sent
  | other tag bytes => rfl

theorem parts_written {output : CodedOutputStream} (writes : output.Documented)
    (parts : List RequestPart) (message : WholeRequestMessage) :
    parts.flatMap (bytes output) = written ((parts.flatMap fields).map RequestField.field) ∧
      putAll ((parts.flatMap fields).map RequestField.field) message =
        parts.foldl merge message := by
  induction parts generalizing message with
  | nil => exact ⟨rfl, rfl⟩
  | cons part parts ih =>
      obtain ⟨later, rest⟩ := ih (merge message part)
      rw [List.flatMap_cons, List.flatMap_cons, List.map_append, written_append, putAll_append,
        later, bytes_written writes, putAll_merge, rest]
      exact ⟨rfl, rfl⟩

end RequestPart

/-- The frame of a request is the client's: whatever requests it writes, one behind the other
and with other fields between, the frame that starts has what the last of them that does not
leave it at its default says. -/
theorem request_started {ctx : ParseContext} (documented : ctx.Documented)
    {output : CodedOutputStream} (writes : output.Documented) (snappy : Decoder String)
    (controller : Option (UimfFrameParameters → Except Thrown Unit)) {parts : List RequestPart}
    (formed : ∀ part ∈ parts, part.WellFormed) {payload : String}
    (compressed : snappy.meaning payload =
      some (textOf (parts.flatMap (RequestPart.bytes output)))) :
    acquireFrame snappy (requestDecoder ctx) controller payload =
      controller.map fun start =>
        let merged := parts.foldl RequestPart.merge WholeRequestMessage.fresh
        let parameters := uimfMessageToParameters merged.toUimfRequestMessage
        ⟨[parameters], start parameters⟩ := by
  obtain ⟨bytes, put⟩ := RequestPart.parts_written writes parts .fresh
  have fields : ∀ f ∈ parts.flatMap RequestPart.fields, f.WellFormed := by
    intro f member
    obtain ⟨part, inside, held⟩ := List.mem_flatMap.mp member
    exact RequestPart.fields_formed (formed part inside) f held
  have parsed := internalParse_fields documented fields .fresh
  rw [← bytes, put] at parsed
  refine acquireFrame_decodes snappy (requestDecoder ctx) controller ⟨_, compressed, ?_⟩
  simp only [requestDecoder, mergeFromString, bytesOf_textOf, parsed, if_true]

/-- Two requests and a field of a later version between them: the second has a frame number of
its own and nothing else. -/
def laterParts : List RequestPart :=
  [.request ⟨⟨5, 0, 100, 1, 7, 0, "a.uimf"⟩, 1⟩, .other 80 (varint 300),
    .request ⟨⟨0, 0, 0, 0, 8, 0, ""⟩, 0⟩]

def laterBytes : List UInt8 := laterParts.flatMap (RequestPart.bytes base128Output)

/-- The bytes behind their length and the tag of one literal. -/
def laterPayload : String :=
  textOf (varint laterBytes.length ++ ((laterBytes.length - 1) * 4).toUInt8 :: laterBytes)

theorem request_started_later_field :
    acquireFrame (listed "" [(laterPayload, textOf laterBytes)]) (requestDecoder base128Context)
        (some fun _ => .ok ()) laterPayload =
      (some fun _ => .ok ()).map fun start =>
        let merged := laterParts.foldl RequestPart.merge WholeRequestMessage.fresh
        let parameters := uimfMessageToParameters merged.toUimfRequestMessage
        ⟨[parameters], start parameters⟩ := by
  refine request_started base128Context_documented base128Output_documented _ _ ?_ ?_
  · intro part member
    rcases List.mem_cons.mp member with rfl | member
    · exact (by decide : (utf8 "a.uimf").length < 2 ^ 31)
    rcases List.mem_cons.mp member with rfl | member
    · exact ⟨by decide, by decide, WireValue.number 300 (by decide)⟩
    · rw [List.mem_singleton.mp member]
      exact (by decide : (utf8 "").length < 2 ^ 31)
  · simp [listed, laterBytes]

end AqMD3.Acquisition
