import AqMD3.LiveFrame
import AqMD3.ProtobufRuntime

/-!
The messages the console publishes, from `ByteSizeLong` and
`InternalSerializeWithCachedSizesToArray` to the `MergeFrom` of its clients. Sizes are counted
ahead of the bytes, and the values of a list stand behind their size, which is kept as an int.
What a client reads of a frame is then what was recorded.
-/

namespace AqMD3.Acquisition

open FixedWidth CellMemory AcquisitionBuffer TaggedFields

/-- A size as the int it is kept in. -/
def toCachedSize (size : Nat) : Int32 := (UInt64.ofNat size).toUInt32.toInt32

theorem cachedSize_exact {size : Nat} (fits : size < 2 ^ 31) : (toCachedSize size).toInt = size := by
  have whole : (UInt64.ofNat size).toNat = size :=
    UInt64.toNat_ofNat_of_lt' (Nat.lt_trans fits (by decide))
  rw [toCachedSize, uint64_narrow_exact _ (by omega), whole]

/-- A repeated field in `ByteSizeLong`. -/
def packedSize (lite : WireFormatLite) (dataSize : Nat) : Nat :=
  (if 0 < dataSize then 1 + lite.int32Size (toCachedSize dataSize) else 0) + dataSize

/-- A repeated field in `InternalSerializeWithCachedSizesToArray`. -/
def packedBytes {Value : Type} (lite : WireFormatLite) (fieldNumber : UInt32) (dataSize : Nat)
    (writeNoTag : List Value → List UInt8) (values : List Value) : List UInt8 :=
  if 0 < values.length then
    lite.writeTagToArray fieldNumber 2 ++
      lite.writeVarint32ToArray (toCachedSize dataSize).toUInt32 ++ writeNoTag values
  else []

section Packed

variable {Message Value : Type} {lite : WireFormatLite}

/-- The values of a repeated field, behind their size and its tag. -/
def packed (tag : UInt32) (codec : FieldCodec Value) (values : List Value)
    (put : Message → Message) : WireField Message :=
  tagged tag (delimited (values.flatMap codec.bytes)) put

theorem codec_present (codec : FieldCodec Value) {values : List Value} (present : values ≠ []) :
    0 < (values.flatMap codec.bytes).length := by
  obtain ⟨value, rest, rfl⟩ := List.exists_cons_of_ne_nil present
  obtain ⟨n, _, bytes⟩ := codec_number codec value
  have first := varint_present n
  rw [List.flatMap_cons, List.length_append, bytes]
  omega

theorem packed_written (writes : lite.Documented) (codec : FieldCodec Value)
    (fieldNumber tag : UInt32) (combined : tag.toNat = 8 * fieldNumber.toNat + 2)
    (small : tag.toNat < 128) {dataSize : Nat} {writeNoTag : List Value → List UInt8}
    {values : List Value} (bytes : writeNoTag values = values.flatMap codec.bytes)
    (size : dataSize = (values.flatMap codec.bytes).length) (fits : dataSize < 2 ^ 31)
    (put : Message → Message) :
    packedBytes lite fieldNumber dataSize writeNoTag values =
        written (optional (values ≠ []) (packed tag codec values put)) ∧
      (packedBytes lite fieldNumber dataSize writeNoTag values).length =
        packedSize lite dataSize := by
  have number := cachedSize_exact fits
  have unsigned := int32_unsigned_exact (toCachedSize dataSize) (by omega)
  have widened := int32_widen_exact (toCachedSize dataSize) (by omega)
  have cached : (toCachedSize dataSize).toUInt32.toNat = dataSize := by omega
  have extended : signedVarint (toCachedSize dataSize) = varint dataSize :=
    congrArg varint (by omega)
  rw [written_optional]
  by_cases none : values = []
  · subst none
    simp only [List.flatMap_nil, List.length_nil] at size
    simp [packedBytes, packedSize, size]
  · have entries := codec_present codec none
    have shape : packedBytes lite fieldNumber dataSize writeNoTag values =
        varint tag.toNat ++ delimited (values.flatMap codec.bytes) := by
      rw [packedBytes, if_pos (List.length_pos_iff.mpr none), bytes, writes.varint32, cached,
        writes.tag fieldNumber 2 (by omega) (by decide), delimited, ← size, List.append_assoc,
        combined]
      rfl
    refine ⟨by rw [shape, if_pos none]; rfl, ?_⟩
    rw [shape, packedSize, if_pos (by omega), writes.int32Size, extended, delimited, ← size,
      varint_small small]
    simp only [List.length_append, List.length_singleton, ← size]
    omega

theorem packed_takes {input : CodedInputStream} (reads : input.Documented)
    {cases : UInt32 → Message → (left : List UInt8) → Option (Except String (Message × Behind left))}
    (codec : FieldCodec Value) {tag : UInt32} (add : List Value → Message → Message)
    (packs : tag.toNat % 8 = 2) (numbered : 8 ≤ tag.toNat)
    (switched : ∀ message left, cases tag message left =
      some ((input.addEntriesFrom codec tag left).map fun read => (add read.1 message, read.2)))
    {values : List Value} (fits : (values.flatMap codec.bytes).length < 2 ^ 31) :
    Takes (input.mergeFrom cases) (packed tag codec values (add values)) := by
  refine mergeFrom_takes reads numbered fun message rest => ⟨delimited_front _ _, ?_⟩
  rw [switched, reads.packed codec tag values rest packs fits]
  rfl

end Packed

namespace Message

def byteSizeLong (lite : WireFormatLite) (message : Message) : Nat :=
  packedSize lite (lite.int32Sizes message.mz) + packedSize lite (lite.uint32Sizes message.tic) +
    packedSize lite (lite.uint64Sizes message.timeStamps)

def internalSerialize (lite : WireFormatLite) (message : Message) : List UInt8 :=
  packedBytes lite 1 (lite.int32Sizes message.mz) lite.writeInt32NoTagToArray message.mz ++
  packedBytes lite 2 (lite.uint32Sizes message.tic) lite.writeUInt32NoTagToArray message.tic ++
  packedBytes lite 3 (lite.uint64Sizes message.timeStamps) lite.writeUInt64NoTagToArray
    message.timeStamps

/-- The clients' switch over the tag, packed or not. -/
def cases (input : CodedInputStream) (tag : UInt32) (message : Message) (left : List UInt8) :
    Option (Except String (Message × Behind left)) :=
  match tag with
  | 10 | 8 =>
      some ((input.addEntriesFrom (.forInt32 10) tag left).map fun read =>
        ({ message with mz := message.mz ++ read.1 }, read.2))
  | 18 | 16 =>
      some ((input.addEntriesFrom (.forUInt32 18) tag left).map fun read =>
        ({ message with tic := message.tic ++ read.1 }, read.2))
  | 26 | 24 =>
      some ((input.addEntriesFrom (.forUInt64 26) tag left).map fun read =>
        ({ message with timeStamps := message.timeStamps ++ read.1 }, read.2))
  | _ => none

/-- The clients' `MergeFrom` of a stream. -/
def mergeFromStream (input : CodedInputStream) (message : Message) (left : List UInt8) :
    Except String Message :=
  input.mergeFrom (cases input) message left

def mergeFrom (message other : Message) : Message where
  mz := message.mz ++ other.mz
  tic := message.tic ++ other.tic
  timeStamps := message.timeStamps ++ other.timeStamps

def fresh : Message := ⟨[], [], []⟩

def addMz (values : List Int32) (message : Message) : Message :=
  { message with mz := message.mz ++ values }

def addTic (values : List UInt32) (message : Message) : Message :=
  { message with tic := message.tic ++ values }

def addTimeStamps (values : List UInt64) (message : Message) : Message :=
  { message with timeStamps := message.timeStamps ++ values }

/-- The fields that are written. -/
def fields (message : Message) : List (WireField Message) :=
  optional (message.mz ≠ []) (packed 10 (.forInt32 10) message.mz (addMz message.mz)) ++
  optional (message.tic ≠ []) (packed 18 (.forUInt32 18) message.tic (addTic message.tic)) ++
  optional (message.timeStamps ≠ [])
    (packed 26 (.forUInt64 26) message.timeStamps (addTimeStamps message.timeStamps))

theorem putAll_fields (message other : Message) :
    putAll other.fields message = message.mergeFrom other := by
  rw [fields, putAll_append, putAll_append, putAll_default, putAll_default, putAll_default]
  · rfl
  all_goals
    intro absent message
    rw [Classical.not_not.mp absent]
    simp only [packed, tagged, addMz, addTic, addTimeStamps, List.append_nil]

section Wire

variable {lite : WireFormatLite} (writes : lite.Documented)
include writes

theorem sizes_fit {message : Message} (fits : message.byteSizeLong lite < 2 ^ 31) :
    (message.mz.flatMap signedVarint).length < 2 ^ 31 ∧
      (message.tic.flatMap fun count => varint count.toNat).length < 2 ^ 31 ∧
      (message.timeStamps.flatMap fun stamp => varint stamp.toNat).length < 2 ^ 31 := by
  simp only [byteSizeLong, packedSize, writes.int32Sizes, writes.uint32Sizes,
    writes.uint64Sizes] at fits
  omega

theorem internalSerialize_written {message : Message}
    (fits : message.byteSizeLong lite < 2 ^ 31) :
    message.internalSerialize lite = written message.fields ∧
      (message.internalSerialize lite).length = message.byteSizeLong lite := by
  obtain ⟨mzFits, ticFits, stampsFit⟩ := sizes_fit writes fits
  have mz := packed_written writes (.forInt32 10) 1 10 rfl (by decide)
    (writes.int32s message.mz) (writes.int32Sizes message.mz)
    (by rwa [writes.int32Sizes]) (addMz message.mz)
  have tic := packed_written writes (.forUInt32 18) 2 18 rfl (by decide)
    (writes.uint32s message.tic) (writes.uint32Sizes message.tic)
    (by rwa [writes.uint32Sizes]) (addTic message.tic)
  have stamps := packed_written writes (.forUInt64 26) 3 26 rfl (by decide)
    (writes.uint64s message.timeStamps) (writes.uint64Sizes message.timeStamps)
    (by rwa [writes.uint64Sizes]) (addTimeStamps message.timeStamps)
  constructor
  · rw [internalSerialize, mz.1, tic.1, stamps.1, fields, written_append, written_append]
  · rw [internalSerialize, List.length_append, List.length_append, mz.2, tic.2, stamps.2]
    rfl

end Wire

theorem fields_take {input : CodedInputStream} (reads : input.Documented) {message : Message}
    (mzFits : (message.mz.flatMap signedVarint).length < 2 ^ 31)
    (ticFits : (message.tic.flatMap fun count => varint count.toNat).length < 2 ^ 31)
    (stampsFit : (message.timeStamps.flatMap fun stamp => varint stamp.toNat).length < 2 ^ 31) :
    ∀ field ∈ message.fields, Takes (mergeFromStream input) field := by
  intro field member
  rw [fields, List.mem_append, List.mem_append] at member
  rcases member with (mz | tic) | stamps
  · rw [optional_mem mz]
    exact packed_takes reads (.forInt32 10) addMz rfl (by decide) (fun _ _ => rfl) mzFits
  · rw [optional_mem tic]
    exact packed_takes reads (.forUInt32 18) addTic rfl (by decide) (fun _ _ => rfl) ticFits
  · rw [optional_mem stamps]
    exact packed_takes reads (.forUInt64 26) addTimeStamps rfl (by decide) (fun _ _ => rfl)
      stampsFit

theorem serialized_read {lite : WireFormatLite} (writes : lite.Documented) {input : CodedInputStream}
    (reads : input.Documented) (before : Message) {message : Message}
    (fits : message.byteSizeLong lite < 2 ^ 31) :
    mergeFromStream input before (message.internalSerialize lite) =
      .ok (before.mergeFrom message) := by
  obtain ⟨mzFits, ticFits, stampsFit⟩ := sizes_fit writes fits
  have taken := loop_written (fields_take reads mzFits ticFits stampsFit) before []
  rw [List.append_nil, putAll_fields] at taken
  rw [(internalSerialize_written writes fits).1, taken, mergeFromStream, mergeFrom_end reads]

end Message

/-- What is written is as long as it was said to be, and a client reads what was sent. -/
theorem message_read {lite : WireFormatLite} (writes : lite.Documented) {input : CodedInputStream}
    (reads : input.Documented) (before message : Message)
    (fits : message.byteSizeLong lite < 2 ^ 31) :
    (message.internalSerialize lite).length = message.byteSizeLong lite ∧
      Message.mergeFromStream input before (message.internalSerialize lite) =
        .ok (before.mergeFrom message) :=
  ⟨(Message.internalSerialize_written writes fits).2,
    Message.serialized_read writes reads before fits⟩

/-- A negative sum takes ten bytes; the message has no totals. -/
def negativeSum : Message := ⟨[-1, 300], [], [2 ^ 40]⟩

theorem message_read_negative_sum :
    (negativeSum.internalSerialize base128Lite).length = negativeSum.byteSizeLong base128Lite ∧
      Message.mergeFromStream base128Input .fresh (negativeSum.internalSerialize base128Lite) =
        .ok (Message.fresh.mergeFrom negativeSum) :=
  message_read base128Lite_documented base128Input_documented .fresh negativeSum (by decide +kernel)

theorem packedSize_bound {Value : Type} {lite : WireFormatLite} (writes : lite.Documented)
    (codec : FieldCodec Value) (values : List Value) :
    packedSize lite (values.flatMap codec.bytes).length ≤ 11 + 10 * values.length := by
  have bytes (n : Nat) (wide : n < 2 ^ 64) : (varint n).length ≤ 10 :=
    varint_length (Nat.lt_trans wide (by decide))
  have content : (values.flatMap codec.bytes).length ≤ 10 * values.length := by
    induction values with
    | nil => exact Nat.le_refl 0
    | cons value values ih =>
        obtain ⟨n, wide, same⟩ := codec_number codec value
        have first := bytes n wide
        rw [List.flatMap_cons, List.length_append, same, List.length_cons]
        omega
  have front := bytes _ (toCachedSize (values.flatMap codec.bytes).length).toInt64.toUInt64.toNat_lt
  rw [packedSize, writes.int32Size, signedVarint]
  split <;> omega

theorem Message.byteSizeLong_bound {lite : WireFormatLite} (writes : lite.Documented)
    (message : Message) : message.byteSizeLong lite ≤
      33 + 10 * (message.mz.length + message.tic.length + message.timeStamps.length) := by
  have mz := packedSize_bound writes (.forInt32 10) message.mz
  have tic := packedSize_bound writes (.forUInt32 18) message.tic
  have stamps := packedSize_bound writes (.forUInt64 26) message.timeStamps
  rw [byteSizeLong, writes.int32Sizes, writes.uint32Sizes, writes.uint64Sizes]
  change packedSize lite (message.mz.flatMap signedVarint).length ≤ _ at mz
  change packedSize lite (message.tic.flatMap fun count => varint count.toNat).length ≤ _ at tic
  change packedSize lite (message.timeStamps.flatMap fun v => varint v.toNat).length ≤ _ at stamps
  omega

/-- What is between a message and the socket on the two sides of it: the string it is serialised
to, and snappy. -/
structure Transport where
  serializeToString : Message → List UInt8
  compress : List UInt8 → List UInt8
  decode : List UInt8 → Except String (List UInt8)

namespace Transport

structure Documented (lite : WireFormatLite) (transport : Transport) : Prop where
  serialized : ∀ message, message.byteSizeLong lite < 2 ^ 31 →
    transport.serializeToString message = message.internalSerialize lite
  decoded : ∀ bytes, bytes.length < 2 ^ 31 → transport.decode (transport.compress bytes) = .ok bytes

/-- What `on_notify` hands to `send` of its message. -/
def publish (transport : Transport) (message : Message) : Except Thrown (List UInt8) :=
  .ok (transport.compress (transport.serializeToString message))

/-- What a client parses from it. -/
def receive (transport : Transport) (input : CodedInputStream) (content : List UInt8) :
    Except String Message :=
  match transport.decode content with
  | .error what => .error what
  | .ok bytes => Message.mergeFromStream input .fresh bytes

theorem received {lite : WireFormatLite} {transport : Transport}
    (documented : transport.Documented lite) (writes : lite.Documented) {input : CodedInputStream}
    (reads : input.Documented) {message : Message} (fits : message.byteSizeLong lite < 2 ^ 31) :
    transport.receive input (transport.compress (transport.serializeToString message)) =
      .ok message := by
  have length := (Message.internalSerialize_written writes fits).2
  rw [receive, documented.serialized message fits, documented.decoded _ (by omega)]
  exact Message.serialized_read writes reads .fresh fits

end Transport

/-- From the streams to the client's message: it holds the sums of the record's triggers. -/
theorem frame_read (c : CstZs1Context) (calls : List AcquireCall) (markers : List FetchReply)
    (hunks : List Hunk) (groups : List (List RecordedTrigger)) (b : Behaviour)
    (segmentSize : UInt64) (parameters : UimfFrameParameters) (steps : Nat)
    (served : StreamsServed c calls markers hunks groups)
    (answered : AnswersFrom b c calls markers (Frame.after b segmentSize parameters steps).events)
    (positive : 1 ≤ segmentSize) (few : segmentSize.toNat ≤ 32768)
    (fits : ∀ t ∈ groups.flatten, TriggerFits parameters.offsetBins t)
    (counted : groups.flatten.length < 2 ^ 31) (sampleCount : UInt32) (floor : Int32)
    (inside : ∀ t ∈ groups.flatten, ∀ g ∈ t.gates,
      parameters.offsetBins.toNat + g.past ≤ sampleCount.toNat)
    (above : ∀ t ∈ groups.flatten, OpensAbove floor t) (small : sampleCount.toNat ≤ 2 ^ 27)
    (before : List ((Message → Except Thrown (List UInt8)) × UimfFrame)) {lite : WireFormatLite}
    (writes : lite.Documented) {input : CodedInputStream} (reads : input.Documented)
    {transport : Transport} (documented : transport.Documented lite) :
    ∀ (i : Nat) (record : UimfAcquisitionRecord),
      (records (Frame.after b segmentSize parameters steps).events)[i]? = some record →
        ∃ group frame content msg, groups[i]? = some group ∧ record.toFrame = .ok frame ∧
          (((ZmqAcquiredDataSubscriber.create sampleCount floor).notifyAll before).onNotify
            transport.publish frame).sends = [⟨dataSubject, .bytes content, 100⟩] ∧
          transport.receive input content = .ok msg ∧
          LiveMessage sampleCount parameters.offsetBins group msg := by
  intro i record at_i
  obtain ⟨group, frame, msg, place, short, made, live, sent⟩ :=
    record_sent served answered positive few fits counted inside above before transport.publish at_i
  have tics := congrArg List.length live.tic
  have stamps := congrArg List.length live.timeStamps
  rw [List.length_map, List.length_map] at tics
  rw [List.length_map] at stamps
  have bytes := msg.byteSizeLong_bound writes
  rw [live.length] at bytes
  exact ⟨group, frame, _, msg, place, made, sent _ rfl,
    Transport.received documented writes reads (by omega), live⟩

def sampleHunk : Hunk := (gateHunk 1 2).setIfInBounds 3 ((1 : Int32) <<< 24)

def oneSample (value : Int32) : RecordedGate where
  marker := ⟨1, 0, 2, 1⟩
  elements := List.replicate 16 value
  startBlock := by decide
  startPos := by decide
  stopPos := by decide
  nonempty := by decide
  counted := List.length_replicate

def sampleHunks : List Hunk :=
  [triggerHunk 5, sampleHunk, triggerHunk 6, sampleHunk, triggerHunk 7]

def sampleFetches : List FetchReply :=
  [answered 16 0 [triggerHunk 5], answered 16 2 [sampleHunk], answered 16 0 [triggerHunk 6],
    answered 16 0 [sampleHunk], answered 16 1 [triggerHunk 7]]

def sampleCalls : List AcquireCall :=
  [⟨1, 0, 0, .ofSize 64, [⟨none, 16, 5, List.replicate 16 7, 0⟩]⟩,
    ⟨1, 0, 0, .ofSize 64, [⟨none, 16, 0, List.replicate 16 9, 0⟩]⟩]

def sampleGroups : List (List RecordedTrigger) :=
  [[⟨5, 0, (triggerHunk 5).trigger.subsamplePos, [oneSample 7], by unfold Increasing; decide⟩],
    [⟨6, 0, (triggerHunk 6).trigger.subsamplePos, [oneSample 9], by unfold Increasing; decide⟩]]

def sampleBehaviour : Behaviour :=
  { frameBehaviour with
    acquire := fun i => answerOf ((frameContext.start.acquireAll sampleCalls sampleFetches).map
      AcquireResult.ending)[i]? }

theorem sampleCalls_served :
    StreamsServed frameContext sampleCalls sampleFetches sampleHunks sampleGroups where
  idle := ⟨rfl, rfl, rfl⟩
  size := by decide +kernel
  stream := by decide +kernel
  kinds h member := (Bool.or_eq_true _ _).mp (List.all_eq_true.mp
    (by decide +kernel : sampleHunks.all (fun h => h.isTrigger || h.isGate) = true) h member)
  askable call member := askable_of_lt call.triggersToRead
    ((by decide +kernel : ∀ call ∈ sampleCalls, 0 < call.triggersToRead.toNat) call member)
    ((by decide +kernel : ∀ call ∈ sampleCalls, call.triggersToRead.toNat < 2 ^ 24) call member)
  enough := by decide +kernel
  fresh := by decide +kernel
  undisturbed := ⟨by decide +kernel, by decide +kernel, trivial⟩
  recorded := ⟨_, _, rfl, by decide +kernel,
    ⟨⟨rfl, rfl, rfl⟩, by decide +kernel, by decide +kernel, by decide +kernel,
      by simp [Gapless], by decide +kernel⟩,
    _, _, rfl, by decide +kernel,
    ⟨⟨rfl, rfl, rfl⟩, by decide +kernel, by decide +kernel, by decide +kernel,
      by simp [Gapless], by decide +kernel⟩, rfl⟩

theorem sampleCalls_answered : AnswersFrom sampleBehaviour frameContext sampleCalls sampleFetches
    (Frame.after sampleBehaviour 1 frameParameters 9).events where
  answers i data returned := by
    have answer : sampleBehaviour.acquire i = answerOf (some (.returned data)) :=
      congrArg answerOf returned
    rw [answer, answerOf]
  asked := by decide +kernel

theorem sampleCalls_fit : ∀ t ∈ sampleGroups.flatten, TriggerFits frameParameters.offsetBins t := by
  intro t member
  rcases List.mem_cons.mp member with rfl | member
  · exact ⟨by decide +kernel, ⟨by decide, by decide⟩, by decide⟩
  · rw [List.mem_singleton.mp member]
    exact ⟨by decide +kernel, ⟨by decide, by decide⟩, by decide⟩

/-- A stream of one literal, which is what snappy makes of fewer than 15 bytes. -/
def literalTransport : Transport where
  serializeToString message := message.internalSerialize base128Lite
  compress bytes := varint bytes.length ++
    if bytes.length = 0 then []
    else if bytes.length ≤ 60 then ((bytes.length - 1) * 4).toUInt8 :: bytes
    else 252 :: spectraBytes [Int32.ofNat (bytes.length - 1)] ++ bytes
  decode content :=
    match readVarint content with
    | some (0, []) => .ok []
    | some (length, tag :: rest) =>
        let literal := if tag = 252 then rest.drop 4 else rest
        if literal.length = length then .ok literal else .error "corrupt"
    | _ => .error "corrupt"

theorem literalTransport_documented : literalTransport.Documented base128Lite where
  serialized message _ := rfl
  decoded bytes _ := by
    simp only [literalTransport, readVarint_varint]
    by_cases none : bytes.length = 0
    · rw [List.length_eq_zero_iff.mp none]
      rfl
    · rw [if_neg none]
      by_cases short : bytes.length ≤ 60
      · have tag : ((bytes.length - 1) * 4).toUInt8 ≠ 252 := fun same => by
          have value := congrArg UInt8.toNat same
          rw [byte_exact (by omega)] at value
          change (bytes.length - 1) * 4 = 252 at value
          omega
        simp only [if_pos short, if_neg tag, if_true]
      · have literal : (spectraBytes [Int32.ofNat (bytes.length - 1)] ++ bytes).drop 4 = bytes :=
          rfl
        rw [if_neg short, List.cons_append]
        simp only [literal, if_true]

/-- A frame of two records of one sample each. -/
theorem frame_read_two_samples :
    (records (Frame.after sampleBehaviour 1 frameParameters 9).events).length = 2 ∧
      ∀ (i : Nat) (record : UimfAcquisitionRecord),
        (records (Frame.after sampleBehaviour 1 frameParameters 9).events)[i]? = some record →
          ∃ group frame content msg, sampleGroups[i]? = some group ∧
            record.toFrame = .ok frame ∧
            (((ZmqAcquiredDataSubscriber.create 1 32775).notifyAll
              [(fun _ => .ok [], refusedFrame)]).onNotify literalTransport.publish frame).sends =
                [⟨dataSubject, .bytes content, 100⟩] ∧
            literalTransport.receive base128Input content = .ok msg ∧
            LiveMessage 1 frameParameters.offsetBins group msg :=
  ⟨by decide +kernel, frame_read frameContext sampleCalls sampleFetches sampleHunks sampleGroups
    sampleBehaviour 1 frameParameters 9 sampleCalls_served sampleCalls_answered (by decide) (by decide)
    sampleCalls_fit (by decide) 1 32775 (by decide +kernel) (by unfold OpensAbove; decide +kernel)
    (by decide) [(fun _ => .ok [], refusedFrame)] base128Lite_documented base128Input_documented
    literalTransport_documented⟩

structure TofWidthMessage where
  pusherPulseWidth : UInt64
  numSamples : UInt64
  deriving DecidableEq

namespace TofWidthMessage

def byteSizeLong (lite : WireFormatLite) (message : TofWidthMessage) : Nat :=
  (if message.pusherPulseWidth ≠ 0 then 1 + lite.uint64Size message.pusherPulseWidth else 0) +
    if message.numSamples ≠ 0 then 1 + lite.uint64Size message.numSamples else 0

def internalSerialize (lite : WireFormatLite) (message : TofWidthMessage) : List UInt8 :=
  (if message.pusherPulseWidth ≠ 0 then lite.writeUInt64ToArray 1 message.pusherPulseWidth
    else []) ++
  if message.numSamples ≠ 0 then lite.writeUInt64ToArray 2 message.numSamples else []

def cases (input : CodedInputStream) (tag : UInt32) (message : TofWidthMessage)
    (left : List UInt8) : Option (Except String (TofWidthMessage × Behind left)) :=
  match tag with
  | 8 => some ((input.readUInt64 left).map fun read =>
      ({ message with pusherPulseWidth := read.1 }, read.2))
  | 16 => some ((input.readUInt64 left).map fun read =>
      ({ message with numSamples := read.1 }, read.2))
  | _ => none

def mergeFromStream (input : CodedInputStream) (message : TofWidthMessage) (left : List UInt8) :
    Except String TofWidthMessage :=
  input.mergeFrom (cases input) message left

def mergeFrom (message other : TofWidthMessage) : TofWidthMessage where
  pusherPulseWidth :=
    if other.pusherPulseWidth ≠ 0 then other.pusherPulseWidth else message.pusherPulseWidth
  numSamples := if other.numSamples ≠ 0 then other.numSamples else message.numSamples

def setPusherPulseWidth (value : UInt64) (message : TofWidthMessage) : TofWidthMessage :=
  { message with pusherPulseWidth := value }

def setNumSamples (value : UInt64) (message : TofWidthMessage) : TofWidthMessage :=
  { message with numSamples := value }

def fields (message : TofWidthMessage) : List (WireField TofWidthMessage) :=
  optional (message.pusherPulseWidth ≠ 0)
    (tagged 8 (varint message.pusherPulseWidth.toNat) (setPusherPulseWidth message.pusherPulseWidth)) ++
  optional (message.numSamples ≠ 0)
    (tagged 16 (varint message.numSamples.toNat) (setNumSamples message.numSamples))

theorem putAll_fields (message other : TofWidthMessage) :
    putAll other.fields message = message.mergeFrom other := by
  have number (set : UInt64 → TofWidthMessage → TofWidthMessage) (get : TofWidthMessage → UInt64) :=
    @putAll_optional TofWidthMessage UInt64 set get
  rw [fields, putAll_append, tagged, tagged,
    number setPusherPulseWidth (·.pusherPulseWidth) fun _ => rfl,
    number setNumSamples (·.numSamples) fun _ => rfl]
  rfl

theorem internalSerialize_written {lite : WireFormatLite} (writes : lite.Documented)
    (message : TofWidthMessage) :
    message.internalSerialize lite = written message.fields ∧
      (message.internalSerialize lite).length = message.byteSizeLong lite := by
  have first (value : UInt64) := writes.uint64 1 value (by decide)
  have second (value : UInt64) := writes.uint64 2 value (by decide)
  constructor
  · simp only [internalSerialize, first, second, fields, written_append, written_optional]
    rfl
  · rw [internalSerialize, byteSizeLong, List.length_append]
    congr 1
    · split
      · rw [first, writes.uint64Size, List.length_append, varint_small (by decide)]
        rfl
      · rfl
    · split
      · rw [second, writes.uint64Size, List.length_append, varint_small (by decide)]
        rfl
      · rfl

theorem fields_take {input : CodedInputStream} (reads : input.Documented)
    (message : TofWidthMessage) :
    ∀ field ∈ message.fields, Takes (mergeFromStream input) field := by
  have number (tag : UInt32) (set : UInt64 → TofWidthMessage → TofWidthMessage)
      (numbered : 8 ≤ tag.toNat) (switched : ∀ message left, cases input tag message left =
        some ((input.readUInt64 left).map fun read => (set read.1 message, read.2)))
      (value : UInt64) :
      Takes (mergeFromStream input) (tagged tag (varint value.toNat) (set value)) := by
    refine mergeFrom_takes reads numbered fun message rest => ⟨varint_front _ _, ?_⟩
    rw [switched, reads.number value rest]
    rfl
  intro field member
  rw [fields, List.mem_append] at member
  rcases member with width | samples
  · rw [optional_mem width]
    exact number 8 setPusherPulseWidth (by decide) (fun _ _ => rfl) _
  · rw [optional_mem samples]
    exact number 16 setNumSamples (by decide) (fun _ _ => rfl) _

end TofWidthMessage

/-- The answer to `tof width`, as a client reads it. -/
theorem tofWidth_read {lite : WireFormatLite} (writes : lite.Documented) {input : CodedInputStream}
    (reads : input.Documented) (before message : TofWidthMessage) :
    (message.internalSerialize lite).length = message.byteSizeLong lite ∧
      TofWidthMessage.mergeFromStream input before (message.internalSerialize lite) =
        .ok (before.mergeFrom message) := by
  obtain ⟨bytes, length⟩ := TofWidthMessage.internalSerialize_written writes message
  have taken := loop_written (TofWidthMessage.fields_take reads message) before []
  rw [List.append_nil, TofWidthMessage.putAll_fields] at taken
  refine ⟨length, ?_⟩
  rw [bytes, taken, TofWidthMessage.mergeFromStream, mergeFrom_end reads]

theorem tofWidth_read_no_samples :
    ((⟨99000, 0⟩ : TofWidthMessage).internalSerialize base128Lite).length =
        (⟨99000, 0⟩ : TofWidthMessage).byteSizeLong base128Lite ∧
      TofWidthMessage.mergeFromStream base128Input ⟨0, 0⟩
          ((⟨99000, 0⟩ : TofWidthMessage).internalSerialize base128Lite) =
        .ok ((⟨0, 0⟩ : TofWidthMessage).mergeFrom ⟨99000, 0⟩) :=
  tofWidth_read base128Lite_documented base128Input_documented ⟨0, 0⟩ ⟨99000, 0⟩

end AqMD3.Acquisition
