import AqMD3.MarkersSession

/-!
Where the markers walk reads. Over any calls and any words the markers buffer holds what
the most recent fetch returned, or nothing, and the walk has whole hunks of it before it;
so no hunk read reaches past that fetch, and no request is refused.
-/

namespace AqMD3.Acquisition

open AcquisitionBuffer FixedWidth Overwrite Transitions

/-- The buffer is empty, or it holds the whole of one answer, passed over by whole hunks. -/
structure Loaded (size : Nat) (latest : Option FetchReply) (b : AcquisitionBuffer) : Prop where
  sound : Sound b
  size : b.data.length = size
  acquired : (16 : Int) ∣ b.acquiredIndex.toInt
  processed : (16 : Int) ∣ b.processedIndex.toInt
  content : b.acquiredIndex.toInt = 0 ∨ ∃ reply, latest = some reply ∧
    b.offset.toInt = reply.first ∧ b.acquiredIndex.toInt = reply.elements.length ∧
    window b.data reply.first reply.elements.length = reply.elements

section Loaded

variable {size : Nat} {latest : Option FetchReply} {b : AcquisitionBuffer}

theorem loaded_empty (empty : Empty b) (length : b.data.length = size) :
    Loaded size latest b where
  sound := empty_sound empty
  size := length
  acquired := by
    rw [empty.1, Int32.toInt_zero]
    exact Int.dvd_zero 16
  processed := by
    rw [empty.2.1, Int32.toInt_zero]
    exact Int.dvd_zero 16
  content := Or.inl (by rw [empty.1, Int32.toInt_zero])

theorem loaded_filled (empty : Empty b) (length : b.data.length = size) (bound : size < 2 ^ 31)
    (reply : FetchReply) (whole : 16 ∣ reply.elements.length)
    (fits : reply.first + reply.elements.length ≤ size) :
    let filled := ((b.store (b.getRawUnaquired + reply.first) reply.elements).advanceOffset
      (Int32.ofNat reply.first)).advanceAcquired (Int32.ofNat reply.elements.length)
    Loaded size (some reply) filled ∧ filled.processedIndex.toInt = 0 ∧
      filled.acquiredIndex.toInt = reply.elements.length := by
  intro filled
  obtain ⟨processed, acquired, shift, data⟩ :
      filled.processedIndex.toInt = 0 ∧ filled.acquiredIndex.toInt = reply.elements.length ∧
        filled.offset.toInt = reply.first ∧
        filled.data = overwrite b.data reply.first reply.elements :=
    empty_filled_positions empty reply.first reply.elements (by omega) (by omega)
  obtain ⟨sound, -, kept⟩ :=
    empty_filled empty reply.first reply.elements (by omega) (by omega)
  have stored : window filled.data reply.first reply.elements.length = reply.elements := by
    rw [data]
    exact window_overwrite b.data reply.first reply.elements (by omega)
  refine ⟨⟨sound, kept.trans length, ?_, ?_, Or.inr ⟨reply, rfl, shift, acquired, stored⟩⟩,
    processed, acquired⟩
  · omega
  · omega

theorem loaded_advance (loaded : Loaded size latest b)
    (left : b.processedIndex.toInt + 16 ≤ b.acquiredIndex.toInt) :
    Loaded size latest (b.advanceProcessed 16) ∧
      (b.advanceProcessed 16).processedIndex.toInt = b.processedIndex.toInt + 16 := by
  have length := pending_length loaded.sound
  obtain ⟨sound, -⟩ := advance_processed_pending loaded.sound 16 (by omega)
  have width := loaded.sound.width
  have shift := loaded.sound.shift
  have processed := loaded.sound.processed
  have moved : (b.advanceProcessed 16).processedIndex.toInt = b.processedIndex.toInt + 16 :=
    int32_add_exact _ 16 (by rw [show (16 : Int32).toInt = 16 from rfl]; omega)
      (by rw [show (16 : Int32).toInt = 16 from rfl]; omega)
  refine ⟨⟨sound, loaded.size, loaded.acquired, ?_, loaded.content⟩, moved⟩
  rw [moved]
  exact Int.dvd_add loaded.processed (Int.dvd_refl 16)

theorem loaded_pending {reply : FetchReply} (sound : Sound b)
    (shift : b.offset.toInt = reply.first)
    (acquired : b.acquiredIndex.toInt = reply.elements.length)
    (stored : window b.data reply.first reply.elements.length = reply.elements) :
    pending b = reply.elements.drop b.processedIndex.toInt.toNat := by
  have processed := sound.processed
  have order := sound.acquired
  have behind := window_drop b.data reply.first reply.elements.length
    b.processedIndex.toInt.toNat
  rw [stored] at behind
  rw [behind, pending, raw_unprocessed_exact sound, unprocessed_exact sound]
  congr 1
  · omega
  · omega

theorem segment_take {w : Walk} (sound : Sound w.buffer) (left : 16 ≤ (pending w.buffer).length) :
    w.segment.toList = (pending w.buffer).take 16 := by
  apply List.ext_getElem
  · rw [Vector.length_toList, List.length_take]
    omega
  · intro word inside within
    rw [Vector.length_toList] at inside
    have here := read_pending sound word (by omega)
    simp only [Walk.segment, Vector.getElem_toList, Vector.getElem_ofFn, here, List.getElem_take]

end Loaded

theorem noteTrigger_buffer (c : CstZs1Context) (timestamp : UInt64) (index : UInt32) :
    (c.noteTrigger timestamp index).1.markersBuffer = c.markersBuffer := by
  unfold CstZs1Context.noteTrigger
  dsimp only
  split
  · rfl
  · split
    · rfl
    · rfl

/-- What a hunk does to the buffer: whatever its words are, a walk that goes on has passed
it over once, and one that leaves the loop has not moved. -/
theorem walkHunk_buffer (triggersToRead : UInt64) (w : Walk) :
    (∃ next, walkHunk triggersToRead w = .walked next ∧
        next.buffer = w.buffer.advanceProcessed 16 ∧
        next.activeMultiplier = w.activeMultiplier ∧
        next.markersToAcquire = w.markersToAcquire) ∨
      (∃ last, walkHunk triggersToRead w = .lookAhead last ∧ last.buffer = w.buffer) ∨
      (∃ thrown last, walkHunk triggersToRead w = .threw thrown last ∧ last.buffer = w.buffer) := by
  rcases walkHunk_cases triggersToRead w with
    ⟨_, _, step⟩ | ⟨_, context, damaged, noted, step⟩ | ⟨_, _, context, noted, step⟩ |
      ⟨_, _, step⟩ | ⟨_, _, thrown, step⟩
  · exact Or.inr (Or.inl ⟨_, step, rfl⟩)
  · have kept := noteTrigger_buffer w.context w.segment.timestamp w.segment.index
    rw [noted] at kept
    exact Or.inr (Or.inr ⟨_, _, step, kept⟩)
  · have kept := noteTrigger_buffer w.context w.segment.timestamp w.segment.index
    rw [noted] at kept
    refine Or.inl ⟨_, step, ?_, rfl, rfl⟩
    exact congrArg (fun b => b.advanceProcessed 16) kept
  · obtain ⟨context, _, request, multiplier, _⟩ := walkGate_kept w w.segment
    exact Or.inl ⟨_, step, congrArg CstZs1Context.markersBuffer context, multiplier, request⟩
  · exact Or.inr (Or.inr ⟨_, _, step, rfl⟩)

/-- The elements of the markers buffer of a context for so many triggers. -/
def markersSize (maxTriggersPerRead : UInt64) : Nat := maxTriggersPerRead.toNat * 128 + 15

theorem create_size (channel : String) (maxTriggersPerRead : UInt64)
    (bound : markersSize maxTriggersPerRead < 2 ^ 31) :
    (CstZs1Context.create channel maxTriggersPerRead).markersBuffer.data.length =
      markersSize maxTriggersPerRead := by
  rw [markersSize] at bound ⊢
  simp only [CstZs1Context.create, AcquisitionBuffer.ofSize, List.length_replicate, UInt64.toNat_add,
    UInt64.toNat_mul, show markersHunkSize.toNat = 16 from rfl, show (8 : UInt64).toNat = 8 from rfl,
    show (15 : UInt64).toNat = 15 from rfl]
  omega

/-- A call for a number of triggers the buffer is made for, and the request it makes next. -/
structure AsksWithin (maxTriggersPerRead triggersToRead : UInt64) (w : Walk) : Prop where
  positive : 1 ≤ triggersToRead.toNat
  most : triggersToRead.toNat ≤ maxTriggersPerRead.toNat
  request : ∃ m : Nat, 1 ≤ m ∧ m ≤ 8 ∧ w.activeMultiplier = Int32.ofNat m ∧
    w.markersToAcquire = requested triggersToRead m

section AsksWithin

variable {maxTriggersPerRead triggersToRead : UInt64} {w : Walk}

theorem asks_begin (c : CstZs1Context) (positive : 1 ≤ triggersToRead.toNat)
    (most : triggersToRead.toNat ≤ maxTriggersPerRead.toNat) :
    AsksWithin maxTriggersPerRead triggersToRead (Walk.begin c triggersToRead) where
  positive := positive
  most := most
  request := ⟨1, by omega, by omega, rfl, by
    rw [requested]
    exact congrArg (fun size : UInt64 => size.toUInt32.toInt32) (UInt64.mul_one _).symm⟩

theorem asks_of_same {next : Walk} (asks : AsksWithin maxTriggersPerRead triggersToRead w)
    (multiplier : next.activeMultiplier = w.activeMultiplier)
    (request : next.markersToAcquire = w.markersToAcquire) :
    AsksWithin maxTriggersPerRead triggersToRead next where
  positive := asks.positive
  most := asks.most
  request := by
    rw [multiplier, request]
    exact asks.request

theorem asks_request (bound : markersSize maxTriggersPerRead < 2 ^ 31)
    (asks : AsksWithin maxTriggersPerRead triggersToRead w) :
    0 < w.markersToAcquire.toInt ∧ (16 : Int) ∣ w.markersToAcquire.toInt ∧
      w.markersToAcquire.toInt + 15 ≤ markersSize maxTriggersPerRead := by
  obtain ⟨m, low, high, -, request⟩ := asks.request
  have positive := asks.positive
  have most := asks.most
  have whole := requested_hunks triggersToRead m
  have lower : 1 ≤ triggersToRead.toNat * m := Nat.mul_pos positive low
  have upper : triggersToRead.toNat * m ≤ maxTriggersPerRead.toNat * 8 := Nat.mul_le_mul most high
  rw [markersSize] at bound ⊢
  have exact : (requested triggersToRead m).toInt = 16 * (triggersToRead.toNat * m : Nat) := by
    rw [requested_toInt, Int.bmod_def]
    omega
  rw [request]
  refine ⟨by omega, whole, by omega⟩

theorem asks_aligned (bound : markersSize maxTriggersPerRead < 2 ^ 31)
    (asks : AsksWithin maxTriggersPerRead triggersToRead w) (stream : String) :
    checkFetchAlignment stream w.markersToAcquire.toInt = .ok () := by
  obtain ⟨positive, whole, -⟩ := asks_request bound asks
  rw [checkFetchAlignment, if_pos ((aligned_iff _).mpr ⟨positive, whole⟩)]

theorem asks_grown (asks : AsksWithin maxTriggersPerRead triggersToRead w) (available : Int) :
    AsksWithin maxTriggersPerRead triggersToRead (w.grown triggersToRead available) ∧
      (w.grown triggersToRead available).context = w.context := by
  obtain ⟨multiplier, request, grown, raised⟩ :=
    grown_request w triggersToRead available asks.request
  rw [grown]
  exact ⟨⟨asks.positive, asks.most, raised⟩, rfl⟩

end AsksWithin

/-- What holds of the walk at each statement. -/
def Control.InPlace (maxTriggersPerRead triggersToRead : UInt64) (latest : Option FetchReply) :
    Control → Prop
  | idle c => Loaded (markersSize maxTriggersPerRead) latest c.markersBuffer
  | walking w count =>
      Loaded (markersSize maxTriggersPerRead) latest w.buffer ∧
        w.buffer.processedIndex.toInt + 16 * count = w.buffer.acquiredIndex.toInt ∧
        AsksWithin maxTriggersPerRead triggersToRead w
  | checking w | fetching w =>
      Empty w.buffer ∧ w.buffer.data.length = markersSize maxTriggersPerRead ∧
        AsksWithin maxTriggersPerRead triggersToRead w
  | processing w => Loaded (markersSize maxTriggersPerRead) latest w.buffer

namespace Session

/-- No call has left by the sanity check or by the alignment check. -/
structure InPlace (maxTriggersPerRead : UInt64) (s : Session) : Prop where
  control : s.control.InPlace maxTriggersPerRead s.triggersToRead s.latest
  unrefused : ∀ place thrown, s.left = some (place, thrown) →
    place ≠ .sanityCheck ∧ place ≠ .fetchAlignment

theorem inPlace_here {maxTriggersPerRead : UInt64} {s : Session} {control : Control}
    (placed : s.InPlace maxTriggersPerRead) (here : s.control = control) :
    control.InPlace maxTriggersPerRead s.triggersToRead s.latest := by
  rw [← here]
  exact placed.control

theorem throws_inPlace {maxTriggersPerRead : UInt64} {s : Session} {w : Walk} {place : Place}
    (loaded : Loaded (markersSize maxTriggersPerRead) s.latest w.buffer)
    (elsewhere : place ≠ .sanityCheck ∧ place ≠ .fetchAlignment) (thrown : Thrown) :
    (s.throws place thrown w).InPlace maxTriggersPerRead where
  control := loaded
  unrefused := by
    rintro other _ left
    cases left
    exact elsewhere

/-- A call asks for as many triggers as the buffer is made for at most, and the driver
answers a fetch that succeeds with whole hunks, as many as asked for at most, where they fit
the space given. -/
def Allows (maxTriggersPerRead : UInt64) (s : Session) : SessionLabel → Prop
  | .calls triggersToRead _ =>
      1 ≤ triggersToRead.toNat ∧ triggersToRead.toNat ≤ maxTriggersPerRead.toNat
  | .fetches reply =>
      ∀ w ∈ s.control.asking, reply.error = none →
        FetchCall.Served ⟨.markers, w.markersToAcquire.toInt, w.buffer.getSize, reply⟩
  | _ => True

instance (maxTriggersPerRead : UInt64) (s : Session) (label : SessionLabel) :
    Decidable (s.Allows maxTriggersPerRead label) :=
  match label with
  | .calls _ _ => inferInstanceAs (Decidable (_ ∧ _))
  | .fetches reply =>
      inferInstanceAs (Decidable (∀ w ∈ s.control.asking, reply.error = none →
        FetchCall.Served ⟨.markers, w.markersToAcquire.toInt, w.buffer.getSize, reply⟩))
  | .starts _ | .stops _ | .walks | .checks | .finishes => instDecidableTrue

section Steps

variable {maxTriggersPerRead : UInt64} {s : Session} {w : Walk}
  (bound : markersSize maxTriggersPerRead < 2 ^ 31) (placed : s.InPlace maxTriggersPerRead)
include placed

theorem enter_inPlace {c : CstZs1Context} (control : s.control = .idle c)
    {triggersToRead : UInt64} (positive : 1 ≤ triggersToRead.toNat)
    (most : triggersToRead.toNat ≤ maxTriggersPerRead.toNat) (finish : Option Int) :
    (s.enter c triggersToRead finish).InPlace maxTriggersPerRead := by
  have loaded : Loaded (markersSize maxTriggersPerRead) s.latest c.markersBuffer :=
    inPlace_here placed control
  have order := loaded.sound.acquired
  have unprocessed := unprocessed_exact loaded.sound
  have whole : (16 : Int) ∣ c.markersBuffer.getUnprocessed.toInt := by
    rw [unprocessed]
    exact Int.dvd_sub loaded.acquired loaded.processed
  -- the calls before have left whole hunks, so the sanity check passes
  have passes : ¬c.markersBuffer.getUnprocessed.toInt.tmod 16 ≠ 0 := by
    rw [not_not]
    exact Int.dvd_iff_tmod_eq_zero.mp whole
  have count : (((c.markersBuffer.getUnprocessed.toInt.tdiv 16).toNat : Nat) : Int) * 16 =
      c.markersBuffer.getUnprocessed.toInt := by
    rw [Int.tdiv_eq_ediv_of_nonneg (by omega)]
    omega
  unfold enter
  dsimp only
  rw [if_neg passes]
  refine ⟨⟨loaded, ?_, asks_begin c positive most⟩, fun place thrown left => by cases left⟩
  change c.markersBuffer.processedIndex.toInt + _ = c.markersBuffer.acquiredIndex.toInt
  omega

theorem walk_inPlace {count : Nat} (control : s.control = .walking w count) :
    (s.walk w count).InPlace maxTriggersPerRead := by
  obtain ⟨loaded, position, asks⟩ := inPlace_here placed control
  cases count with
  | zero =>
      refine ⟨⟨reset_empty w.buffer, loaded.size, asks_of_same asks rfl rfl⟩, placed.unrefused⟩
  | succ count =>
      unfold walk
      rcases walkHunk_buffer s.triggersToRead w with
        ⟨next, step, moved, multiplier, request⟩ | ⟨last, step, same⟩ | ⟨thrown, last, step, same⟩
      · obtain ⟨advanced, processed⟩ := loaded_advance loaded (by omega)
        rw [step]
        refine ⟨⟨?_, ?_, asks_of_same asks multiplier request⟩, placed.unrefused⟩
        · rw [moved]
          exact advanced
        · rw [moved, processed]
          change _ = w.buffer.acquiredIndex.toInt
          omega
      · rw [step]
        refine ⟨?_, placed.unrefused⟩
        change Loaded _ _ last.buffer
        rw [same]
        exact loaded
      · rw [step]
        apply throws_inPlace _ ⟨by decide, by decide⟩
        rw [same]
        exact loaded

include bound

theorem check_inPlace (control : s.control = .checking w) :
    (s.check w).InPlace maxTriggersPerRead := by
  obtain ⟨empty, size, asks⟩ := inPlace_here placed control
  unfold check
  rw [asks_aligned bound asks]
  exact ⟨⟨empty, size, asks⟩, placed.unrefused⟩

theorem fetch_inPlace {reply : FetchReply} (control : s.control = .fetching w)
    (served : reply.error = none →
      FetchCall.Served ⟨.markers, w.markersToAcquire.toInt, w.buffer.getSize, reply⟩) :
    (s.fetch w reply).InPlace maxTriggersPerRead := by
  obtain ⟨empty, size, asks⟩ := inPlace_here placed control
  have stored : (w.fetched reply).buffer.data.length = markersSize maxTriggersPerRead :=
    (overwrite_length _ _ _).trans size
  have nothing : Loaded (markersSize maxTriggersPerRead) (some reply) (w.fetched reply).buffer :=
    loaded_empty empty stored
  unfold fetch
  dsimp only
  cases failed : reply.error with
  | some text =>
      -- what was stored is not advanced past, so the buffer stays empty
      exact throws_inPlace nothing ⟨by decide, by decide⟩ _
  | none =>
      obtain ⟨-, whole, -, space⟩ := served failed
      have whole : 16 ∣ reply.elements.length := whole
      dsimp only
      split
      · exact throws_inPlace nothing ⟨by decide, by decide⟩ _
      · split
        · exact ⟨⟨empty, stored, asks_of_same asks rfl rfl⟩, placed.unrefused⟩
        · have fits : reply.first + reply.elements.length ≤ markersSize maxTriggersPerRead := by
            simp only [getSize] at space
            omega
          have again : AsksWithin maxTriggersPerRead s.triggersToRead (w.fetched reply) :=
            asks_of_same asks rfl rfl
          obtain ⟨raised, context⟩ := asks_grown again reply.available
          obtain ⟨loaded, processed, acquired⟩ := loaded_filled empty size bound reply whole fits
          have buffer : (((w.fetched reply).grown s.triggersToRead reply.available).advanced
              reply).buffer = ((w.buffer.store (w.buffer.getRawUnaquired + reply.first)
                reply.elements).advanceOffset (Int32.ofNat reply.first)).advanceAcquired
                  (Int32.ofNat reply.elements.length) := by
            exact congrArg (fun c : CstZs1Context => (c.markersBuffer.advanceOffset
              (Int32.ofNat reply.first)).advanceAcquired (Int32.ofNat reply.elements.length)) context
          refine ⟨⟨?_, ?_, asks_of_same raised rfl rfl⟩, placed.unrefused⟩
          · rw [buffer]
            exact loaded
          · rw [buffer, processed, acquired]
            omega

end Steps

theorem step_inPlace {maxTriggersPerRead : UInt64}
    (bound : markersSize maxTriggersPerRead < 2 ^ 31) (s : Session) (label : SessionLabel)
    (next : Session) (placed : s.InPlace maxTriggersPerRead)
    (allowed : s.Allows maxTriggersPerRead label) (stepped : s.step label = some next) :
    next.InPlace maxTriggersPerRead := by
  cases step_cases stepped with
  | @starts c control fails =>
      have here := inPlace_here placed control
      refine ⟨?_, placed.unrefused⟩
      cases fails with
      | true => exact here
      | false => exact here
  | @stops c control fails =>
      have here := inPlace_here placed control
      refine ⟨?_, placed.unrefused⟩
      cases fails with
      | true => exact here
      | false => exact loaded_empty (reset_empty c.markersBuffer) here.size
  | calls control triggersToRead finish =>
      exact enter_inPlace placed control allowed.1 allowed.2 finish
  | walks control => exact walk_inPlace placed control
  | checks control => exact check_inPlace bound placed control
  | fetches control reply =>
      apply fetch_inPlace bound placed control
      apply allowed
      rw [control]
      rfl
  | finishes control =>
      have here := inPlace_here placed control
      exact ⟨here, placed.unrefused⟩

theorem begin_inPlace (channel : String) {maxTriggersPerRead : UInt64}
    (bound : markersSize maxTriggersPerRead < 2 ^ 31) :
    (begin (.create channel maxTriggersPerRead)).InPlace maxTriggersPerRead where
  control := loaded_empty ⟨rfl, rfl, rfl⟩ (create_size channel maxTriggersPerRead bound)
  unrefused := fun place thrown left => by cases left

/-- The sixteen words of the hunk read are the next ones of the answer to the last fetch. -/
def ReadsLatest (s : Session) (w : Walk) : Prop :=
  ∃ reply, s.latest = some reply ∧ w.buffer.offset.toInt = reply.first ∧
    w.buffer.acquiredIndex.toInt = reply.elements.length ∧
    w.segment.toList = (reply.elements.drop w.buffer.processedIndex.toInt.toNat).take 16

/-- What the markers buffer and the fetches owe each other in every state. -/
structure Orderly (s : Session) : Prop where
  positions : 0 ≤ s.buffer.processedIndex.toInt ∧
    s.buffer.processedIndex.toInt ≤ s.buffer.acquiredIndex.toInt ∧
    s.buffer.acquiredIndex.toInt + s.buffer.offset.toInt ≤ s.buffer.getSize
  hunks : (16 : Int) ∣ s.buffer.acquiredIndex.toInt - s.buffer.processedIndex.toInt
  reads : ∀ w count, s.control = .walking w (count + 1) →
    w.buffer.offset.toInt ≤ w.buffer.getRawUnprocessed ∧
      w.buffer.getRawUnprocessed + 16 ≤ w.buffer.offset.toInt + w.buffer.acquiredIndex.toInt ∧
      s.ReadsLatest w
  requests : ∀ w, s.control = .checking w ∨ s.control = .fetching w →
    0 < w.markersToAcquire.toInt ∧ (16 : Int) ∣ w.markersToAcquire.toInt ∧
      w.markersToAcquire.toInt + 15 ≤ w.buffer.getSize
  unrefused : ∀ place thrown, s.left = some (place, thrown) →
    place ≠ .sanityCheck ∧ place ≠ .fetchAlignment

theorem inPlace_loaded {maxTriggersPerRead : UInt64} {s : Session}
    (placed : s.InPlace maxTriggersPerRead) :
    Loaded (markersSize maxTriggersPerRead) s.latest s.buffer := by
  rw [buffer]
  cases control : s.control with
  | idle c => exact inPlace_here placed control
  | walking w count =>
      obtain ⟨loaded, -, -⟩ := inPlace_here placed control
      exact loaded
  | checking w =>
      obtain ⟨empty, size, -⟩ := inPlace_here placed control
      exact loaded_empty empty size
  | fetching w =>
      obtain ⟨empty, size, -⟩ := inPlace_here placed control
      exact loaded_empty empty size
  | processing w => exact inPlace_here placed control

theorem inPlace_reads {maxTriggersPerRead : UInt64} {s : Session}
    (placed : s.InPlace maxTriggersPerRead) {w : Walk} {count : Nat}
    (control : s.control = .walking w (count + 1)) :
    w.buffer.offset.toInt ≤ w.buffer.getRawUnprocessed ∧
      w.buffer.getRawUnprocessed + 16 ≤ w.buffer.offset.toInt + w.buffer.acquiredIndex.toInt ∧
      s.ReadsLatest w := by
  obtain ⟨loaded, position, -⟩ := inPlace_here placed control
  have processed := loaded.sound.processed
  have raw := raw_unprocessed_exact loaded.sound
  refine ⟨by omega, by omega, ?_⟩
  obtain nothing | ⟨reply, latest, shift, acquired, stored⟩ := loaded.content
  · omega
  · have length := pending_length loaded.sound
    refine ⟨reply, latest, shift, acquired, ?_⟩
    rw [segment_take loaded.sound (by omega), loaded_pending loaded.sound shift acquired stored]

theorem inPlace_orderly {maxTriggersPerRead : UInt64} {s : Session}
    (bound : markersSize maxTriggersPerRead < 2 ^ 31) (placed : s.InPlace maxTriggersPerRead) :
    s.Orderly where
  positions := by
    have loaded := inPlace_loaded placed
    exact ⟨loaded.sound.processed, loaded.sound.acquired, loaded.sound.inside⟩
  hunks := by
    have loaded := inPlace_loaded placed
    exact Int.dvd_sub loaded.acquired loaded.processed
  reads := fun w count control => inPlace_reads placed control
  requests := by
    rintro w (control | control)
    · obtain ⟨-, size, asks⟩ := inPlace_here placed control
      rw [getSize, size]
      exact asks_request bound asks
    · obtain ⟨-, size, asks⟩ := inPlace_here placed control
      rw [getSize, size]
      exact asks_request bound asks
  unrefused := placed.unrefused

/-- Over every order of calls, every word of the stream and every driver that answers a
fetch with whole hunks where they fit, calls that end by an exception included. -/
theorem markers_orderly (channel : String) (maxTriggersPerRead : UInt64)
    (bound : markersSize maxTriggersPerRead < 2 ^ 31) {labels : List SessionLabel} {s : Session}
    (allowed : Meets step (Allows maxTriggersPerRead)
      (begin (.create channel maxTriggersPerRead)) labels)
    (ran : run step (begin (.create channel maxTriggersPerRead)) labels = some s) : s.Orderly :=
  inPlace_orderly bound
    (run_keeps (step_inPlace bound) (begin_inPlace channel bound) allowed ran)

def triggerWords : List Int32 := 1 :: List.replicate 15 0

/-- A trigger in each of two fetches, the second one twice as large for the backlog the
first one told of; the look-ahead trigger is left over, and the next call reads it first. -/
def leftOver : List SessionLabel :=
  [.starts false, .calls 1 none, .walks, .checks,
    .fetches ⟨none, 48, 3, triggerWords, 0⟩, .walks, .walks, .checks,
    .fetches ⟨none, 32, 0, triggerWords ++ triggerWords, 0⟩, .walks, .finishes,
    .calls 1 none, .walks, .walks]

theorem markers_orderly_left_over :
    ∃ s, run step (begin (.create "Channel1" 1)) leftOver = some s ∧ s.Orderly := by
  have possible : (runAllowed step (fun s label => decide (s.Allows 1 label))
      (begin (.create "Channel1" 1)) leftOver).isSome = true := by decide +kernel
  obtain ⟨s, allowed⟩ := Option.isSome_iff_exists.mp possible
  obtain ⟨ran, meets⟩ := runAllowed_meets allowed
  simp only [decide_eq_true_eq] at meets
  exact ⟨s, ran, markers_orderly "Channel1" 1 (by decide) meets ran⟩

end Session
end AqMD3.Acquisition
