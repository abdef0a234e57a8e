import AqMD3.MarkerWalk

/-!
A markers stream the driver serves: every fetch returns whole hunks, and the
elements returned are the stream, in order. Over such a stream the walk keeps
its place: `Tracks` holds after every hunk of a call, `Caught` when the
look-ahead trigger stops it, `Holds` between two calls.
-/

namespace AqMD3.Acquisition

open FixedWidth Segments AcquisitionBuffer

def flat (hunks : List Hunk) : List Int32 := hunks.flatMap Vector.toList

theorem flat_cons (h : Hunk) (rest : List Hunk) : flat (h :: rest) = h.toList ++ flat rest := rfl

theorem flat_append (first second : List Hunk) : flat (first ++ second) = flat first ++ flat second :=
  List.flatMap_append

theorem flat_length (hunks : List Hunk) : (flat hunks).length = 16 * hunks.length := by
  induction hunks with
  | nil => rfl
  | cons h rest ih =>
      rw [flat_cons, List.length_append, Vector.length_toList, ih, List.length_cons]
      omega

theorem flat_empty {hunks : List Hunk} (stream : [] = flat hunks) : hunks = [] := by
  apply List.eq_nil_of_length_eq_zero
  have length := congrArg List.length stream
  rw [flat_length, List.length_nil] at length
  omega

theorem flat_split (hunks : List Hunk) (front back : List Int32)
    (stream : front ++ back = flat hunks) (whole : 16 ∣ front.length) :
    ∃ first rest, hunks = first ++ rest ∧ front = flat first ∧ back = flat rest := by
  refine ⟨hunks.take (front.length / 16), hunks.drop (front.length / 16),
    (List.take_append_drop _ _).symm, ?_⟩
  have total := congrArg List.length stream
  rw [List.length_append, flat_length] at total
  have cut : flat (hunks.take (front.length / 16)) ++ flat (hunks.drop (front.length / 16)) =
      front ++ back := by
    rw [← flat_append, List.take_append_drop, stream]
  have size : (flat (hunks.take (front.length / 16))).length = front.length := by
    rw [flat_length, List.length_take]
    omega
  exact ⟨(List.append_inj_left cut size).symm, (List.append_inj_right cut size).symm⟩

/-- The request for `m` times as many hunks as triggers, narrowed to an int. -/
def requested (triggersToRead : UInt64) (m : Nat) : Int32 :=
  (triggersToRead * markersHunkSize * UInt64.ofNat m).toUInt32.toInt32

/-- The counts of triggers a call can be asked for: `trig_count` can reach one
past it, and none of the requests made for it is refused. -/
structure Askable (triggersToRead : UInt64) : Prop where
  positive : 0 < triggersToRead.toNat
  counted : triggersToRead.toNat + 1 < 2 ^ 31
  requests : ∀ m, 1 ≤ m → m ≤ 8 → 0 < (requested triggersToRead m).toInt

theorem requested_toInt (triggersToRead : UInt64) (m : Nat) :
    (requested triggersToRead m).toInt =
      ((16 * (triggersToRead.toNat * m) % 2 ^ 32 : Nat) : Int).bmod (2 ^ 32) := by
  have narrow : (triggersToRead * markersHunkSize * UInt64.ofNat m).toUInt32.toNat =
      16 * (triggersToRead.toNat * m) % 2 ^ 32 := by
    rw [UInt64.toNat_toUInt32, UInt64.toNat_mul, UInt64.toNat_mul]
    have factor : (UInt64.ofNat m).toNat = m % 2 ^ 64 := UInt64.toNat_ofNat'
    rw [factor, show markersHunkSize.toNat = 16 from rfl]
    rw [Nat.mod_mod_of_dvd _ (by decide : 2 ^ 32 ∣ 2 ^ 64)]
    rw [Nat.mul_mod, Nat.mod_mod_of_dvd _ (by decide : 2 ^ 32 ∣ 2 ^ 64),
      Nat.mod_mod_of_dvd _ (by decide : 2 ^ 32 ∣ 2 ^ 64), ← Nat.mul_mod]
    congr 1
    rw [Nat.mul_right_comm, Nat.mul_comm]
  rw [requested, uint32_reinterpret, narrow]

theorem requested_hunks (triggersToRead : UInt64) (m : Nat) :
    (16 : Int) ∣ (requested triggersToRead m).toInt := by
  rw [requested_toInt, Int.bmod_def]
  omega

theorem askable_of_lt (triggersToRead : UInt64) (positive : 0 < triggersToRead.toNat)
    (bound : triggersToRead.toNat < 2 ^ 24) : Askable triggersToRead := by
  refine ⟨positive, by omega, fun m low high => ?_⟩
  have lower : 1 ≤ triggersToRead.toNat * m := Nat.mul_pos positive low
  have upper : triggersToRead.toNat * m ≤ triggersToRead.toNat * 8 := Nat.mul_le_mul_left _ high
  rw [requested_toInt, Int.bmod_def]
  omega

/-- The first trigger of the frame is past the last one of the frame before. -/
def NoReplay (c : CstZs1Context) (hunks : List Hunk) : Prop :=
  c.frameFirstTriggerChecked = false → c.frameLastTrigger.valid = true →
    ∀ h ∈ hunks.find? Hunk.isTrigger, c.frameLastTrigger.timestamp < h.timestamp

instance (c : CstZs1Context) (hunks : List Hunk) : Decidable (NoReplay c hunks) :=
  inferInstanceAs (Decidable (_ → _ → ∀ h ∈ hunks.find? Hunk.isTrigger,
    c.frameLastTrigger.timestamp < h.timestamp))

theorem noteTrigger_fresh (c : CstZs1Context) (timestamp : UInt64) (index : UInt32)
    (fresh : c.frameFirstTriggerChecked = false → c.frameLastTrigger.valid = true →
      c.frameLastTrigger.timestamp < timestamp) :
    ∃ next, c.noteTrigger timestamp index = (next, none) ∧
      next.markersBuffer = c.markersBuffer ∧ next.frameLastTrigger = c.frameLastTrigger ∧
      next.frameFirstTriggerChecked = true := by
  have passes : (!c.frameFirstTriggerChecked && c.frameLastTrigger.valid &&
      decide (timestamp ≤ c.frameLastTrigger.timestamp)) = false := by
    cases checked : c.frameFirstTriggerChecked with
    | true => rfl
    | false =>
        cases valid : c.frameLastTrigger.valid with
        | false => rfl
        | true => simpa using fresh checked valid
  unfold CstZs1Context.noteTrigger
  simp only [passes, Bool.false_eq_true, ↓reduceIte]
  split
  · exact ⟨_, rfl, rfl, rfl, rfl⟩
  · exact ⟨_, rfl, rfl, rfl, rfl⟩

/-- Inside a call: `seen` has been walked, and no trigger of it was one too many. -/
structure Tracks (c : CstZs1Context) (triggersToRead : UInt64) (seen : List Hunk)
    (w : Walk) : Prop where
  parsed : Parsed seen w
  counted : w.trigCount = Int32.ofNat (seen.countP Hunk.isTrigger)
  room : seen.countP Hunk.isTrigger ≤ triggersToRead.toNat
  sound : Sound w.buffer
  size : w.buffer.data.length = c.markersBuffer.data.length
  frame : w.context.frameLastTrigger = c.frameLastTrigger
  checked : w.context.frameFirstTriggerChecked = true ↔
    c.frameFirstTriggerChecked = true ∨ 0 < seen.countP Hunk.isTrigger
  request : ∃ m : Nat, 1 ≤ m ∧ m ≤ 8 ∧ w.activeMultiplier = Int32.ofNat m ∧
    w.markersToAcquire = requested triggersToRead m

/-- At the `process` label: all triggers asked for are parsed, and the look-ahead
trigger and what follows it lie unprocessed. -/
structure Caught (c : CstZs1Context) (triggersToRead : UInt64) (seen left : List Hunk)
    (w : Walk) : Prop where
  parsed : Parsed seen w
  full : seen.countP Hunk.isTrigger = triggersToRead.toNat
  sound : Sound w.buffer
  size : w.buffer.data.length = c.markersBuffer.data.length
  checked : w.context.frameFirstTriggerChecked = true ↔
    c.frameFirstTriggerChecked = true ∨ 0 < seen.countP Hunk.isTrigger
  held : pending w.buffer = flat left

theorem tracks_begin (c : CstZs1Context) (triggersToRead : UInt64)
    (sound : Sound c.markersBuffer) : Tracks c triggersToRead [] (Walk.begin c triggersToRead) where
  parsed := parsed_begin c triggersToRead
  counted := rfl
  room := Nat.zero_le _
  sound := sound
  size := rfl
  frame := rfl
  checked := by simp [Walk.begin]
  request := ⟨1, by omega, by omega, rfl, by
    rw [requested]
    exact congrArg (fun size : UInt64 => size.toUInt32.toInt32) (UInt64.mul_one _).symm⟩

theorem segment_pending (w : Walk) (sound : Sound w.buffer) (h : Hunk) (more : List Int32)
    (held : pending w.buffer = h.toList ++ more) : w.segment = h := by
  apply Vector.ext
  intro word inside
  have length := congrArg List.length held
  rw [List.length_append, Vector.length_toList] at length
  have here := read_pending sound word (by omega)
  simp only [Walk.segment, Vector.getElem_ofFn, here, held]
  rw [List.getElem_append_left (by simpa using inside), Vector.getElem_toList]

theorem advance_hunk (b : AcquisitionBuffer) (sound : Sound b) (h : Hunk) (more : List Int32)
    (held : pending b = h.toList ++ more) :
    Sound (b.advanceProcessed 16) ∧ pending (b.advanceProcessed 16) = more := by
  have length := congrArg List.length held
  rw [List.length_append, Vector.length_toList] at length
  obtain ⟨next, rest⟩ := advance_processed_pending sound 16 (by omega)
  refine ⟨next, rest.trans ?_⟩
  rw [held, List.drop_append_of_le_length (by simp), List.drop_of_length_le (by simp),
    List.nil_append]

theorem overshoots_iff {c : CstZs1Context} {triggersToRead : UInt64} {seen : List Hunk} {w : Walk}
    (askable : Askable triggersToRead) (tracks : Tracks c triggersToRead seen w) :
    triggersToRead + 1 ≤ (w.trigCount + 1).toInt64.toUInt64 ↔
      seen.countP Hunk.isTrigger = triggersToRead.toNat := by
  have counted := askable.counted
  have room := tracks.room
  have count : (Int32.ofNat (seen.countP Hunk.isTrigger)).toInt = seen.countP Hunk.isTrigger :=
    int32_ofNat_exact _ (by omega)
  have next : (w.trigCount + 1).toInt = seen.countP Hunk.isTrigger + 1 := by
    rw [tracks.counted, int32_add_exact _ _ (by rw [count, Int32.toInt_one]; omega)
      (by rw [count, Int32.toInt_one]; omega), count, Int32.toInt_one]
  have wide := int32_widen_exact (w.trigCount + 1) (by omega)
  have limit : (triggersToRead + 1).toNat = triggersToRead.toNat + 1 :=
    uint64_add_exact _ _ (by rw [UInt64.toNat_one]; omega)
  rw [UInt64.le_iff_toNat_le, limit]
  omega

theorem countP_trigger (seen : List Hunk) (h : Hunk) (trigger : h.isTrigger = true) :
    (seen ++ [h]).countP Hunk.isTrigger = seen.countP Hunk.isTrigger + 1 := by
  simp [List.countP_append, trigger]

theorem countP_gate (seen : List Hunk) (h : Hunk) (gate : h.isTrigger = false) :
    (seen ++ [h]).countP Hunk.isTrigger = seen.countP Hunk.isTrigger := by
  simp [List.countP_append, gate]

theorem find_first (seen rest : List Hunk) (h : Hunk) (trigger : h.isTrigger = true)
    (none : seen.countP Hunk.isTrigger = 0) :
    (seen ++ h :: rest).find? Hunk.isTrigger = some h := by
  rw [List.find?_append, List.find?_eq_none.mpr (fun x member => by
    simpa using List.countP_eq_zero.mp none x member)]
  simp [trigger]

theorem tracks_trigger {c : CstZs1Context} {triggersToRead : UInt64} {seen rest : List Hunk}
    {w : Walk} {h : Hunk} {more : List Int32} (tracks : Tracks c triggersToRead seen w)
    (held : pending w.buffer = h.toList ++ more) (trigger : h.isTrigger = true)
    (room : seen.countP Hunk.isTrigger < triggersToRead.toNat)
    (short : ¬ triggersToRead + 1 ≤ (w.trigCount + 1).toInt64.toUInt64)
    (fresh : NoReplay c (seen ++ h :: rest)) :
    ∃ next, walkHunk triggersToRead w = .walked next ∧
      Tracks c triggersToRead (seen ++ [h]) next ∧ pending next.buffer = more := by
  have segment := segment_pending w tracks.sound h more held
  obtain ⟨context, noted, buffer, frame, checked⟩ :=
      noteTrigger_fresh w.context h.timestamp h.index (by
    -- The first trigger of a frame is compared only if no trigger has been seen yet.
    intro unchecked valid
    rw [tracks.frame] at valid ⊢
    have neither : ¬ (c.frameFirstTriggerChecked = true ∨ 0 < seen.countP Hunk.isTrigger) := by
      rw [← tracks.checked, unchecked]
      exact Bool.false_ne_true
    rw [not_or, Bool.not_eq_true] at neither
    exact fresh neither.1 valid h (find_first seen rest h trigger (by omega)))
  have step : walkHunk triggersToRead w =
      .walked ((w.stamped context h).onBuffer fun b => b.advanceProcessed 16) := by
    rcases walkHunk_cases triggersToRead w with
      ⟨_, overshoots, _⟩ | ⟨_, _, damaged, replayed, _⟩ | ⟨_, _, context', passed, step⟩ |
        ⟨gate, _, _⟩ | ⟨other, _, _⟩
    · exact absurd overshoots short
    · rw [segment, noted] at replayed
      cases replayed
    · rw [segment, noted] at passed
      cases passed
      rw [step, segment]
    · simp [segment, trigger] at gate
    · simp [segment, trigger] at other
  obtain ⟨sound, rest⟩ := advance_hunk w.buffer tracks.sound h more held
  have moved : ((w.stamped context h).onBuffer fun b => b.advanceProcessed 16).buffer =
      w.buffer.advanceProcessed 16 := congrArg (fun b => b.advanceProcessed 16) buffer
  refine ⟨_, step, ?_, by rw [moved, rest]⟩
  constructor
  case parsed => exact parsed_trigger tracks.parsed h trigger rfl rfl
  case counted =>
    change w.trigCount + 1 = _
    rw [tracks.counted, countP_trigger seen h trigger, Int32.ofNat_add]
    rfl
  case room =>
    rw [countP_trigger seen h trigger]
    omega
  case sound => rwa [moved]
  case size => exact (congrArg (fun b => b.data.length) moved).trans tracks.size
  case frame => exact frame.trans tracks.frame
  case checked =>
    rw [countP_trigger seen h trigger]
    exact ⟨fun _ => Or.inr (Nat.succ_pos _), fun _ => checked⟩
  case request => exact tracks.request

theorem tracks_gate {c : CstZs1Context} {triggersToRead : UInt64} {seen : List Hunk}
    {w : Walk} {h : Hunk} {more : List Int32} (tracks : Tracks c triggersToRead seen w)
    (held : pending w.buffer = h.toList ++ more) (other : h.isTrigger = false)
    (gate : h.isGate = true) :
    walkHunk triggersToRead w = .walked (walkGate w h) ∧
      Tracks c triggersToRead (seen ++ [h]) (walkGate w h) ∧
      pending (walkGate w h).buffer = more := by
  have segment := segment_pending w tracks.sound h more held
  obtain ⟨context, trigCount, markersToAcquire, activeMultiplier, _⟩ := walkGate_kept w h
  obtain ⟨sound, rest⟩ := advance_hunk w.buffer tracks.sound h more held
  have moved : (walkGate w h).buffer = w.buffer.advanceProcessed 16 :=
    congrArg CstZs1Context.markersBuffer context
  refine ⟨by simp [walkHunk, segment, other, gate], ?_, by rw [moved, rest]⟩
  constructor
  case parsed => exact parsed_gate tracks.parsed h other
  case counted => rw [trigCount, tracks.counted, countP_gate seen h other]
  case room =>
    rw [countP_gate seen h other]
    exact tracks.room
  case sound => rwa [moved]
  case size => exact (congrArg (fun b => b.data.length) moved).trans tracks.size
  case frame => exact (congrArg CstZs1Context.frameLastTrigger context).trans tracks.frame
  case checked =>
    rw [countP_gate seen h other, ← tracks.checked, context]
  case request =>
    rw [activeMultiplier, markersToAcquire]
    exact tracks.request

/-- One fetch's hunks, or the ones left over: all walked, or stopped at the
look-ahead trigger. -/
theorem walkHunks_tracks {c : CstZs1Context} {triggersToRead : UInt64}
    (askable : Askable triggersToRead) (hunks rest seen : List Hunk) (w : Walk)
    (tracks : Tracks c triggersToRead seen w) (held : pending w.buffer = flat hunks)
    (kinds : ∀ h ∈ hunks, h.isTrigger = true ∨ h.isGate = true)
    (fresh : NoReplay c (seen ++ hunks ++ rest)) :
    (∃ next, walkHunks triggersToRead hunks.length w = .walked next ∧
        Tracks c triggersToRead (seen ++ hunks) next) ∨
      ∃ before t after last, hunks = before ++ t :: after ∧ t.isTrigger = true ∧
        walkHunks triggersToRead hunks.length w = .lookAhead last ∧
        Caught c triggersToRead (seen ++ before) (t :: after) last := by
  induction hunks generalizing seen w with
  | nil => exact Or.inl ⟨w, rfl, by rwa [List.append_nil]⟩
  | cons h hunks ih =>
      rw [flat_cons] at held
      have segment := segment_pending w tracks.sound h _ held
      -- Once this hunk is walked, the rest is the same question from one hunk further.
      have onward : ∀ next, walkHunk triggersToRead w = .walked next →
          Tracks c triggersToRead (seen ++ [h]) next → pending next.buffer = flat hunks →
          (∃ last, walkHunks triggersToRead (h :: hunks).length w = .walked last ∧
              Tracks c triggersToRead (seen ++ h :: hunks) last) ∨
            ∃ before t after last, h :: hunks = before ++ t :: after ∧ t.isTrigger = true ∧
              walkHunks triggersToRead (h :: hunks).length w = .lookAhead last ∧
              Caught c triggersToRead (seen ++ before) (t :: after) last := by
        intro next step tracked remaining
        simp only [List.length_cons, walkHunks, step]
        rcases ih (seen ++ [h]) next tracked remaining
            (fun x member => kinds x (List.mem_cons_of_mem h member))
            (by simpa using fresh) with ⟨last, walked, tail⟩ | ⟨before, t, after, last, cut, found⟩
        · exact Or.inl ⟨last, walked, by simpa using tail⟩
        · exact Or.inr ⟨h :: before, t, after, last, by rw [cut, List.cons_append], by
            simpa using found⟩
      by_cases trigger : h.isTrigger = true
      · by_cases full : seen.countP Hunk.isTrigger = triggersToRead.toNat
        · right
          have overshoots := (overshoots_iff askable tracks).mpr full
          refine ⟨[], h, hunks, { w with trigCount := w.trigCount + 1 }, rfl, trigger, ?_, ?_⟩
          · simp [walkHunks, walkHunk, walkTrigger, segment, trigger, overshoots]
          · rw [List.append_nil]
            exact ⟨parsed_of_same tracks.parsed rfl rfl, full, tracks.sound, tracks.size,
              tracks.checked, held⟩
        · have room := tracks.room
          have beyond : NoReplay c (seen ++ h :: (hunks ++ rest)) := by simpa using fresh
          obtain ⟨next, step, tracked, remaining⟩ := tracks_trigger tracks held trigger (by omega)
            (fun overshoots => full ((overshoots_iff askable tracks).mp overshoots)) beyond
          exact onward next step tracked remaining
      · rw [Bool.not_eq_true] at trigger
        have gate : h.isGate = true := by
          rcases kinds h List.mem_cons_self with other | gate
          · simp [trigger] at other
          · exact gate
        obtain ⟨step, tracked, remaining⟩ := tracks_gate tracks held trigger gate
        exact onward _ step tracked remaining

/-- Every markers fetch of a trace is served, and none comes back past the deadline. -/
def Fed (deadline : Option Int) (fetches : List FetchCall) : Prop :=
  ∀ fetch ∈ fetches, fetch.channel = .markers →
    fetch.Served ∧ deadline.any (fun finish => finish < fetch.reply.now) = false

instance (deadline : Option Int) (fetches : List FetchCall) : Decidable (Fed deadline fetches) :=
  inferInstanceAs (Decidable (∀ fetch ∈ fetches, fetch.channel = .markers →
    fetch.Served ∧ deadline.any (fun finish => finish < fetch.reply.now) = false))

theorem request_aligned {c : CstZs1Context} {triggersToRead : UInt64} {seen : List Hunk} {w : Walk}
    (askable : Askable triggersToRead) (tracks : Tracks c triggersToRead seen w) :
    Aligned w.markersToAcquire.toInt := by
  obtain ⟨m, low, high, _, request⟩ := tracks.request
  rw [aligned_iff, request]
  exact ⟨askable.requests m low high, requested_hunks triggersToRead m⟩

theorem grown_request (w : Walk) (triggersToRead : UInt64) (available : Int)
    (request : ∃ m : Nat, 1 ≤ m ∧ m ≤ 8 ∧ w.activeMultiplier = Int32.ofNat m ∧
      w.markersToAcquire = requested triggersToRead m) :
    ∃ activeMultiplier markersToAcquire,
      w.grown triggersToRead available =
        { w with activeMultiplier := activeMultiplier, markersToAcquire := markersToAcquire } ∧
      ∃ m : Nat, 1 ≤ m ∧ m ≤ 8 ∧ activeMultiplier = Int32.ofNat m ∧
        markersToAcquire = requested triggersToRead m := by
  unfold Walk.grown
  split
  · rename_i backlog
    obtain ⟨m, low, high, multiplier, _⟩ := request
    have exact8 : multiplierMax.toInt = 8 := rfl
    have same : w.activeMultiplier.toInt = m := by
      rw [multiplier, int32_ofNat_exact m (by omega)]
    have below : m < 8 := by
      have order := Int32.lt_iff_toInt_lt.mp backlog.2
      omega
    have next : w.activeMultiplier + 1 = Int32.ofNat (m + 1) := by
      rw [multiplier, Int32.ofNat_add]
      rfl
    have wide : (Int32.ofNat (m + 1)).toInt64.toUInt64 = UInt64.ofNat (m + 1) := by
      apply UInt64.toNat_inj.mp
      have value := int32_widen_exact (Int32.ofNat (m + 1)) (by
        rw [int32_ofNat_exact _ (by omega)]
        omega)
      rw [int32_ofNat_exact _ (by omega)] at value
      rw [UInt64.toNat_ofNat_of_lt' (show m + 1 < 2 ^ 64 by omega)]
      omega
    exact ⟨_, _, rfl, m + 1, by omega, by omega, next, by rw [next, wide, requested]⟩
  · exact ⟨_, _, rfl, request⟩

theorem tracks_fetched {c : CstZs1Context} {triggersToRead : UInt64} {seen : List Hunk} {w : Walk}
    (tracks : Tracks c triggersToRead seen w) (empty : Empty w.buffer) (reply : FetchReply) :
    Empty (w.fetched reply).buffer ∧ Tracks c triggersToRead seen (w.fetched reply) := by
  refine ⟨empty, ?_⟩
  constructor
  case parsed => exact parsed_of_same tracks.parsed rfl rfl
  case counted => exact tracks.counted
  case room => exact tracks.room
  case sound => exact empty_sound (b := (w.fetched reply).buffer) empty
  case size =>
    refine Eq.trans ?_ tracks.size
    exact Overwrite.overwrite_length _ _ _
  case frame => exact tracks.frame
  case checked => exact tracks.checked
  case request => exact tracks.request

theorem tracks_advanced {c : CstZs1Context} {triggersToRead : UInt64} {seen : List Hunk} {w : Walk}
    (tracks : Tracks c triggersToRead seen w) (empty : Empty w.buffer) (reply : FetchReply)
    (fits : reply.first + reply.elements.length ≤ w.buffer.data.length)
    (size : w.buffer.data.length < 2 ^ 31) :
    let next := ((w.fetched reply).grown triggersToRead reply.available).advanced reply
    Tracks c triggersToRead seen next ∧ pending next.buffer = reply.elements := by
  obtain ⟨activeMultiplier, markersToAcquire, grown, request⟩ :=
    grown_request (w.fetched reply) triggersToRead reply.available tracks.request
  rw [grown]
  obtain ⟨sound, held, length⟩ := empty_filled empty reply.first reply.elements fits size
  intro next
  refine ⟨?_, held⟩
  constructor
  case parsed => exact parsed_of_same tracks.parsed rfl rfl
  case counted => exact tracks.counted
  case room => exact tracks.room
  case sound => exact sound
  case size => exact length.trans tracks.size
  case frame => exact tracks.frame
  case checked => exact tracks.checked
  case request => exact request

theorem tracks_reset {c : CstZs1Context} {triggersToRead : UInt64} {seen : List Hunk} {w : Walk}
    (tracks : Tracks c triggersToRead seen w) :
    Tracks c triggersToRead seen (w.onBuffer fun b => b.reset) where
  parsed := parsed_of_same tracks.parsed rfl rfl
  counted := tracks.counted
  room := tracks.room
  sound := empty_sound (reset_empty w.buffer)
  size := tracks.size
  frame := tracks.frame
  checked := tracks.checked
  request := tracks.request

/-- However the stream is cut into fetches, the loop stops at the look-ahead
trigger with everything before it walked. -/
theorem markersLoop_tracks {c : CstZs1Context} {triggersToRead : UInt64}
    (askable : Askable triggersToRead) (deadline : Option Int)
    (size : c.markersBuffer.data.length < 2 ^ 31) (replies : List FetchReply)
    (todo seen : List Hunk) (w : Walk) (tracks : Tracks c triggersToRead seen w)
    (empty : Empty w.buffer) (stream : replies.flatMap FetchReply.elements = flat todo)
    (kinds : ∀ h ∈ todo, h.isTrigger = true ∨ h.isGate = true)
    (fresh : NoReplay c (seen ++ todo))
    (enough : triggersToRead.toNat < (seen ++ todo).countP Hunk.isTrigger)
    (fed : Fed deadline (markersLoop triggersToRead deadline replies w).walk.fetches) :
    ∃ before t after later last rest,
      todo = before ++ t :: (after ++ later) ∧ t.isTrigger = true ∧
      markersLoop triggersToRead deadline replies w = .lookAhead last rest ∧
      Caught c triggersToRead (seen ++ before) (t :: after) last ∧
      rest.flatMap FetchReply.elements = flat later := by
  induction replies generalizing todo seen w with
  | nil =>
      -- The look-ahead trigger is still to come, so the stream cannot have run out.
      have none : todo = [] := flat_empty stream
      have room := tracks.room
      rw [none, List.append_nil] at enough
      omega
  | cons reply replies ih =>
      have aligned := request_aligned askable tracks
      obtain ⟨served, timely⟩ := fed ⟨.markers, w.markersToAcquire.toInt, w.buffer.getSize, reply⟩ (by
        obtain ⟨more, fetches⟩ := markersLoop_call triggersToRead deadline reply replies w
          (markersLoop_fetches triggersToRead deadline replies) aligned
        rw [fetches, Walk.fetched]
        simp) rfl
      have asked : checkFetchAlignment w.context.markersChannel w.markersToAcquire.toInt = .ok () := by
        rw [checkFetchAlignment, if_pos aligned]
      have unfolds := markersLoop_served triggersToRead deadline reply replies w asked
        served.succeeded timely
      rw [unfolds] at fed ⊢
      rw [List.flatMap_cons] at stream
      by_cases none : reply.elements.length = 0
      · -- A fetch of nothing leaves the stream as it was.
        rw [if_pos none] at fed ⊢
        rw [List.eq_nil_of_length_eq_zero none, List.nil_append] at stream
        obtain ⟨still, fetched⟩ := tracks_fetched tracks empty reply
        exact ih todo seen _ fetched still stream kinds fresh enough fed
      · rw [if_neg none] at fed ⊢
        obtain ⟨hunks, later, cut, block, remaining⟩ := flat_split todo _ _ stream served.hunks
        have space := served.space
        have length := flat_length hunks
        rw [← block] at length
        have count : reply.elements.length / 16 = hunks.length := by omega
        obtain ⟨filled, held⟩ := tracks_advanced tracks empty reply
          (by simpa [getSize] using Int.ofNat_le.mp space) (by rw [tracks.size]; exact size)
        rw [cut] at kinds fresh enough
        rw [← List.append_assoc] at fresh enough
        rw [count] at fed ⊢
        rcases walkHunks_tracks askable hunks later seen _ filled (held.trans block)
            (fun h member => kinds h (List.mem_append_left later member)) fresh with
          ⟨next, walked, tracked⟩ | ⟨before, t, after, last, split, trigger, caught, place⟩
        · rw [walked] at fed ⊢
          obtain ⟨before, t, after, rest, last, replies', split, trigger, caught, place, tail⟩ :=
            ih later (seen ++ hunks) _ (tracks_reset tracked) (reset_empty next.buffer) remaining
              (fun h member => kinds h (List.mem_append_right hunks member)) fresh enough fed
          refine ⟨hunks ++ before, t, after, rest, last, replies', ?_, trigger, caught, ?_, tail⟩
          · rw [cut, split, List.append_assoc]
          · rw [← List.append_assoc]
            exact place
        · rw [caught]
          exact ⟨before, t, after, later, last, replies, by rw [cut, split]; simp, trigger, rfl,
            place, remaining.symm ▸ rfl⟩

end AqMD3.Acquisition
