import AqMD3.MarkerWalk

/-!
The triggers one `acquire` walks, and what `note_trigger` keeps of them. A trigger is
walked when it gets a stamp; the look-ahead trigger that ends a call is not, and the one
on which the replay check throws is walked but not accepted.
-/

namespace AqMD3.Acquisition

/-- The maximum of a list of timestamps, none where the list is empty. -/
def Highest (seen : List UInt64) : Option UInt64 → Prop
  | none => seen = []
  | some top => top ∈ seen ∧ ∀ timestamp ∈ seen, timestamp ≤ top

theorem highest_unique {seen : List UInt64} {first second : Option UInt64}
    (one : Highest seen first) (other : Highest seen second) : first = second := by
  cases first with
  | none =>
      cases second with
      | none => rfl
      | some top =>
          rw [show seen = [] from one] at other
          exact absurd other.1 List.not_mem_nil
  | some top =>
      cases second with
      | none =>
          rw [show seen = [] from other] at one
          exact absurd one.1 List.not_mem_nil
      | some top' => rw [UInt64.le_antisymm (other.2 top one.1) (one.2 top' other.1)]

theorem highest_perm {first second : List UInt64} {top : Option UInt64}
    (same : ∀ timestamp, timestamp ∈ first ↔ timestamp ∈ second) (highest : Highest first top) :
    Highest second top := by
  cases top with
  | none =>
      refine List.eq_nil_iff_forall_not_mem.mpr fun timestamp member => ?_
      rw [← same, show first = [] from highest] at member
      exact List.not_mem_nil member
  | some top =>
      exact ⟨(same top).mp highest.1, fun timestamp member =>
        highest.2 timestamp ((same timestamp).mpr member)⟩

theorem highest_raised {seen : List UInt64} {top : Option UInt64} (highest : Highest seen top)
    {timestamp : UInt64} (higher : ∀ last ∈ top, last < timestamp) :
    Highest (seen ++ [timestamp]) (some timestamp) := by
  refine ⟨List.mem_append_right seen (List.mem_singleton_self timestamp), fun other member => ?_⟩
  rcases List.mem_append.mp member with earlier | last
  · cases top with
    | none =>
        rw [show seen = [] from highest] at earlier
        exact absurd earlier List.not_mem_nil
    | some top =>
        exact UInt64.le_of_lt (UInt64.lt_of_le_of_lt (highest.2 other earlier) (higher top rfl))
  · rw [List.mem_singleton.mp last]
    exact UInt64.le_refl timestamp

theorem highest_kept {seen : List UInt64} {top : UInt64} (highest : Highest seen (some top))
    {timestamp : UInt64} (lower : timestamp ≤ top) : Highest (seen ++ [timestamp]) (some top) := by
  refine ⟨List.mem_append_left _ highest.1, fun other member => ?_⟩
  rcases List.mem_append.mp member with earlier | last
  · exact highest.2 other earlier
  · rw [List.mem_singleton.mp last]
    exact lower

def TriggerSeen.latest (t : TriggerSeen) : Option UInt64 := if t.valid then some t.timestamp else none

/-- The check of a frame's first trigger, against the latest one when the frame started. -/
def CstZs1Context.Replays (c : CstZs1Context) (timestamp : UInt64) : Prop :=
  c.frameFirstTriggerChecked = false ∧ ∃ last ∈ c.frameLastTrigger.latest, timestamp ≤ last

theorem noteTrigger_replayed {c : CstZs1Context} {timestamp : UInt64} (index : UInt32)
    (replays : c.Replays timestamp) :
    c.noteTrigger timestamp index =
      ({ c with frameFirstTriggerChecked := true }, some (.frameDamaged "markers replayed")) := by
  obtain ⟨unchecked, last, known, late⟩ := replays
  simp only [TriggerSeen.latest, Option.mem_def, Option.ite_none_right_eq_some,
    Option.some.injEq] at known
  obtain ⟨valid, rfl⟩ := known
  simp [CstZs1Context.noteTrigger, unchecked, valid, late]

/-- What an accepted trigger leaves: the check is made and the maximum is raised to it. -/
theorem noteTrigger_accepted {c : CstZs1Context} {timestamp : UInt64} (index : UInt32)
    (fresh : ¬ c.Replays timestamp) {seen : List UInt64} (highest : Highest seen c.lastTrigger.latest) :
    ∃ lastTrigger, c.noteTrigger timestamp index =
        ({ c with frameFirstTriggerChecked := true, lastTrigger := lastTrigger }, none) ∧
      Highest (seen ++ [timestamp]) lastTrigger.latest := by
  have passed : (!c.frameFirstTriggerChecked && c.frameLastTrigger.valid &&
      decide (timestamp ≤ c.frameLastTrigger.timestamp)) = false := by
    by_contra failed
    simp only [Bool.not_eq_false, Bool.and_eq_true, Bool.not_eq_eq_eq_not, Bool.not_true,
      decide_eq_true_eq] at failed
    exact fresh ⟨failed.1.1, _, by simp [TriggerSeen.latest, failed.1.2], failed.2⟩
  by_cases raised : (!c.lastTrigger.valid || decide (c.lastTrigger.timestamp < timestamp)) = true
  · refine ⟨⟨true, timestamp, index⟩, ?_, highest_raised highest fun last known => ?_⟩
    · simp only [CstZs1Context.noteTrigger, passed, raised, Bool.false_eq_true, ↓reduceIte]
    · simp only [TriggerSeen.latest, Option.mem_def, Option.ite_none_right_eq_some,
        Option.some.injEq] at known
      obtain ⟨valid, rfl⟩ := known
      simpa [valid] using raised
  · refine ⟨c.lastTrigger, ?_, ?_⟩
    · simp only [CstZs1Context.noteTrigger, passed, raised, Bool.false_eq_true, ↓reduceIte]
    · simp only [Bool.or_eq_true, Bool.not_eq_true', decide_eq_true_eq, not_or,
        Bool.not_eq_false, UInt64.not_lt] at raised
      have known : c.lastTrigger.latest = some c.lastTrigger.timestamp := by
        simp [TriggerSeen.latest, raised.1]
      rw [known] at highest ⊢
      exact highest_kept highest raised.2

def Stage.Meets (Kept Caught : Walk → Prop) (Threw : Thrown → Walk → Prop) : Stage → Prop
  | .walked w => Kept w
  | .lookAhead w => Caught w
  | .threw thrown w => Threw thrown w

def MarkersEnd.Meets (Kept Caught : Walk → Prop) (Threw : Thrown → Walk → Prop) : MarkersEnd → Prop
  | .lookAhead w _ => Caught w
  | .threw thrown w _ => Threw thrown w
  | .waiting w => Kept w

/-- What every part of a call keeps, what the look-ahead trigger leaves, and what an
exception does. -/
structure WalkRule (triggersToRead : UInt64) (Kept Caught : Walk → Prop)
    (Threw : Thrown → Walk → Prop) : Prop where
  hunk : ∀ w, Kept w → (walkHunk triggersToRead w).Meets Kept Caught Threw
  fetched : ∀ w reply, Kept w → Kept (w.fetched reply)
  grown : ∀ w available, Kept w → Kept (w.grown triggersToRead available)
  onBuffer : ∀ w change, Kept w → Kept (w.onBuffer change)
  refused : ∀ w what, Kept w → Threw (.exception what) w

section WalkRule

variable {triggersToRead : UInt64} {Kept Caught : Walk → Prop} {Threw : Thrown → Walk → Prop}

theorem walkHunks_meets (rule : WalkRule triggersToRead Kept Caught Threw) (count : Nat) (w : Walk)
    (kept : Kept w) : (walkHunks triggersToRead count w).Meets Kept Caught Threw := by
  induction count generalizing w with
  | zero => exact kept
  | succ count ih =>
      have head := rule.hunk w kept
      unfold walkHunks
      cases step : walkHunk triggersToRead w with
      | walked next =>
          rw [step] at head
          exact ih next head
      | lookAhead last =>
          rw [step] at head
          exact head
      | threw thrown last =>
          rw [step] at head
          exact head

theorem markersLoop_meets (rule : WalkRule triggersToRead Kept Caught Threw) (deadline : Option Int)
    (replies : List FetchReply) (w : Walk) (kept : Kept w) :
    (markersLoop triggersToRead deadline replies w).Meets Kept Caught Threw := by
  induction replies generalizing w with
  | nil =>
      by_cases aligned : Aligned w.markersToAcquire.toInt
      · simp only [markersLoop, checkFetchAlignment, aligned, ↓reduceIte]
        exact kept
      · simp only [markersLoop, checkFetchAlignment, aligned, ↓reduceIte]
        exact rule.refused w _ kept
  | cons reply replies ih =>
      by_cases aligned : Aligned w.markersToAcquire.toInt
      · have asked := rule.fetched w reply kept
        simp only [markersLoop, checkFetchAlignment, aligned, ↓reduceIte]
        cases reply.error with
        | some text => exact rule.refused _ _ asked
        | none =>
            simp only
            split
            · exact rule.refused _ _ asked
            · split
              · exact ih _ asked
              · have walked := walkHunks_meets rule (reply.elements.length / 16)
                  (((w.fetched reply).grown triggersToRead reply.available).advanced reply)
                  (rule.onBuffer _ _ (rule.grown _ reply.available asked))
                split
                · rename_i last stage
                  rw [stage] at walked
                  exact walked
                · rename_i thrown last stage
                  rw [stage] at walked
                  exact walked
                · rename_i next stage
                  rw [stage] at walked
                  exact ih _ (rule.onBuffer next _ walked)
      · simp only [markersLoop, checkFetchAlignment, aligned, ↓reduceIte]
        exact rule.refused w _ kept

theorem walkMarkers_meets {c : CstZs1Context} {call : AcquireCall}
    (rule : WalkRule call.triggersToRead Kept Caught Threw) (markers : List FetchReply)
    (start : Kept (Walk.begin c call.triggersToRead)) :
    (c.walkMarkers call markers).Meets Kept Caught Threw := by
  by_cases whole : c.markersBuffer.getUnprocessed.toInt.tmod 16 ≠ 0
  · simp only [CstZs1Context.walkMarkers, if_pos whole]
    exact rule.refused _ _ start
  · rw [walkMarkers_aligned c call markers whole]
    have walked := walkHunks_meets rule (c.markersBuffer.getUnprocessed.toInt.tdiv 16).toNat _ start
    split
    · rename_i last stage
      rw [stage] at walked
      exact walked
    · rename_i thrown last stage
      rw [stage] at walked
      exact walked
    · rename_i next stage
      rw [stage] at walked
      exact markersLoop_meets rule call.deadline markers _ (rule.onBuffer next _ walked)

end WalkRule

def Walk.timestamps (w : Walk) : List UInt64 := w.stamps.map TriggerData.timestamp

/-- A gate hunk adds to the last stamp, or to the orphans where there is none. -/
theorem walkGate_timestamps (w : Walk) (seg : Hunk) :
    (walkGate w seg).timestamps = w.timestamps ∧
      (w.timestamps = [] → (walkGate w seg).toAcquire = w.toAcquire) := by
  rcases List.eq_nil_or_concat w.stamps with none | ⟨front, last, split⟩
  · obtain ⟨stamps, toAcquire⟩ := walkBlocks_orphans seg (List.finRange 4) w none
    refine ⟨?_, fun _ => toAcquire⟩
    simp only [Walk.timestamps, walkGate, Walk.onBuffer, stamps, none]
  · rw [List.concat_eq_append] at split
    obtain ⟨stamps, _⟩ := walkBlocks_attached seg (List.finRange 4) w front last split
    refine ⟨?_, fun empty => ?_⟩
    · simp only [Walk.timestamps, walkGate, Walk.onBuffer, stamps, split, List.map_append,
        List.map_cons, List.map_nil]
    · simp [Walk.timestamps, split] at empty

/-- The triggers of a call that begins on `c`, after the ones accepted `before` it. -/
structure Noted (c : CstZs1Context) (before : List UInt64) (w : Walk) : Prop where
  frame : w.context.frameLastTrigger = c.frameLastTrigger
  checked : w.context.frameFirstTriggerChecked = true ↔
    c.frameFirstTriggerChecked = true ∨ w.timestamps ≠ []
  highest : Highest (before ++ w.timestamps) w.context.lastTrigger.latest
  fresh : ∀ first ∈ w.timestamps.head?, ¬ c.Replays first
  empty : w.timestamps = [] → w.toAcquire = 0
  fetches : ∀ call ∈ w.fetches, call.channel = .markers

/-- The call that the replay check ended: its first trigger is its last. -/
structure Replayed (c : CstZs1Context) (before : List UInt64) (w : Walk) : Prop where
  frame : w.context.frameLastTrigger = c.frameLastTrigger
  checked : w.context.frameFirstTriggerChecked = true
  highest : Highest before w.context.lastTrigger.latest
  first : ∃ first, w.timestamps = [first] ∧ c.Replays first
  fetches : ∀ call ∈ w.fetches, call.channel = .markers

/-- An exception of the call: the replay check's, or one that leaves the triggers as they were. -/
def ThrewNoted (c : CstZs1Context) (before : List UInt64) (thrown : Thrown) (w : Walk) : Prop :=
  (∃ what, thrown = .frameDamaged what) ∧ Replayed c before w ∨
    (∃ what, thrown = .exception what) ∧ Noted c before w

section Noted

variable {c : CstZs1Context} {before : List UInt64} {w : Walk}

/-- Only these parts of a walk matter to `Noted`. -/
theorem noted_of_same {next : Walk} (noted : Noted c before w) (timestamps : next.timestamps = w.timestamps)
    (frame : next.context.frameLastTrigger = w.context.frameLastTrigger)
    (checked : next.context.frameFirstTriggerChecked = w.context.frameFirstTriggerChecked)
    (last : next.context.lastTrigger = w.context.lastTrigger)
    (toAcquire : w.timestamps = [] → next.toAcquire = w.toAcquire)
    (fetches : ∀ call ∈ next.fetches, call.channel = .markers) : Noted c before next where
  frame := frame.trans noted.frame
  checked := by rw [checked, timestamps, noted.checked]
  highest := by rw [timestamps, last]; exact noted.highest
  fresh := by rw [timestamps]; exact noted.fresh
  empty := fun none => by
    rw [timestamps] at none
    rw [toAcquire none, noted.empty none]
  fetches := fetches

theorem noted_gate (noted : Noted c before w) (seg : Hunk) : Noted c before (walkGate w seg) := by
  obtain ⟨context, _, _, _, fetches⟩ := walkGate_kept w seg
  obtain ⟨timestamps, toAcquire⟩ := walkGate_timestamps w seg
  refine noted_of_same noted timestamps (by rw [context]) (by rw [context]) (by rw [context])
    toAcquire ?_
  rw [fetches]
  exact noted.fetches

/-- A replay is noticed on the first trigger of the call, and only where none of the frame
came before the call. -/
theorem replays_iff (noted : Noted c before w) (timestamp : UInt64) :
    w.context.Replays timestamp ↔ c.Replays timestamp ∧ w.timestamps = [] := by
  have unchecked : w.context.frameFirstTriggerChecked = false ↔
      c.frameFirstTriggerChecked = false ∧ w.timestamps = [] := by
    rw [← Bool.not_eq_true, noted.checked, not_or, Bool.not_eq_true, Classical.not_not]
  simp only [CstZs1Context.Replays, unchecked, noted.frame]
  tauto

theorem noted_replayed (noted : Noted c before w) (seg : Hunk)
    (replays : w.context.Replays seg.timestamp) :
    Replayed c before (w.stamped { w.context with frameFirstTriggerChecked := true } seg) := by
  obtain ⟨replayed, none⟩ := (replays_iff noted _).mp replays
  have highest := noted.highest
  rw [none, List.append_nil] at highest
  refine ⟨noted.frame, rfl, highest, ⟨seg.timestamp, ?_, replayed⟩, noted.fetches⟩
  rw [Walk.timestamps, Walk.stamped, List.map_append, ← Walk.timestamps, none]
  rfl

theorem noted_accepted (noted : Noted c before w) (seg : Hunk)
    (fresh : ¬ w.context.Replays seg.timestamp) {lastTrigger : TriggerSeen}
    (highest : Highest (before ++ w.timestamps ++ [seg.timestamp]) lastTrigger.latest)
    (change : AcquisitionBuffer → AcquisitionBuffer) :
    Noted c before ((w.stamped { w.context with
      frameFirstTriggerChecked := true, lastTrigger := lastTrigger } seg).onBuffer change) := by
  have grown : ((w.stamped { w.context with
      frameFirstTriggerChecked := true, lastTrigger := lastTrigger } seg).onBuffer change).timestamps =
        w.timestamps ++ [seg.timestamp] := by
    rw [Walk.timestamps, Walk.onBuffer, Walk.stamped, List.map_append, ← Walk.timestamps]
    rfl
  refine ⟨noted.frame, ?_, ?_, ?_, ?_, noted.fetches⟩
  · rw [grown]
    exact ⟨fun _ => Or.inr (by simp), fun _ => rfl⟩
  · rw [grown, ← List.append_assoc]
    exact highest
  · rw [grown]
    intro first isFirst replayed
    -- Only the first timestamp of a frame can end it as a replay.
    cases earlier : w.timestamps with
    | nil =>
        rw [earlier] at isFirst
        cases isFirst
        exact fresh ((replays_iff noted _).mpr ⟨replayed, earlier⟩)
    | cons other rest =>
        rw [earlier] at isFirst
        cases isFirst
        exact noted.fresh first (by rw [earlier]; rfl) replayed
  · rw [grown]
    exact fun none => absurd none (by simp)

theorem walkHunk_neither (triggersToRead : UInt64) (w : Walk) (trigger : w.segment.isTrigger = false)
    (gate : w.segment.isGate = false) :
    ∃ what, walkHunk triggersToRead w = .threw (.exception what) w := by
  by_cases dummy : w.segment.kind = 0x08
  · exact ⟨"dummy gate error", by
      simp only [walkHunk, trigger, gate, dummy, Bool.false_eq_true, ↓reduceIte]⟩
  · exact ⟨unexpectedHeader w w.segment, by
      simp only [walkHunk, trigger, gate, dummy, Bool.false_eq_true, ↓reduceIte]⟩

theorem noted_hunk (triggersToRead : UInt64) (noted : Noted c before w) :
    (walkHunk triggersToRead w).Meets (Noted c before) (Noted c before) (ThrewNoted c before) := by
  rcases walkHunk_cases triggersToRead w with
    ⟨_, _, step⟩ | ⟨_, context, damaged, outcome, step⟩ | ⟨_, _, context, outcome, step⟩ |
      ⟨_, _, step⟩ | ⟨trigger, gate, _⟩
  · rw [step]
    exact noted_of_same noted rfl rfl rfl rfl (fun _ => rfl) noted.fetches
  · -- A replayed trigger ends the frame, and any other one is noted.
    by_cases replays : w.context.Replays w.segment.timestamp
    · rw [noteTrigger_replayed _ replays] at outcome
      cases outcome
      rw [step]
      exact Or.inl ⟨⟨_, rfl⟩, noted_replayed noted w.segment replays⟩
    · obtain ⟨lastTrigger, accepted, _⟩ := noteTrigger_accepted w.segment.index replays noted.highest
      rw [accepted] at outcome
      cases outcome
  · by_cases replays : w.context.Replays w.segment.timestamp
    · rw [noteTrigger_replayed _ replays] at outcome
      cases outcome
    · obtain ⟨lastTrigger, accepted, highest⟩ :=
        noteTrigger_accepted w.segment.index replays noted.highest
      rw [accepted] at outcome
      cases outcome
      rw [step]
      exact noted_accepted noted w.segment replays highest _
  · rw [step]
    exact noted_gate noted w.segment
  · obtain ⟨what, step⟩ := walkHunk_neither triggersToRead w trigger gate
    rw [step]
    exact Or.inr ⟨⟨what, rfl⟩, noted⟩

theorem noted_rule (triggersToRead : UInt64) :
    WalkRule triggersToRead (Noted c before) (Noted c before) (ThrewNoted c before) where
  hunk := fun _ noted => noted_hunk triggersToRead noted
  fetched := fun w reply noted => by
    refine noted_of_same noted rfl rfl rfl rfl (fun _ => rfl) fun call member => ?_
    rcases List.mem_append.mp member with earlier | last
    · exact noted.fetches call earlier
    · rw [List.mem_singleton.mp last]
  grown := fun w available noted => by
    unfold Walk.grown
    split
    · exact noted_of_same noted rfl rfl rfl rfl (fun _ => rfl) noted.fetches
    · exact noted
  onBuffer := fun w change noted =>
    noted_of_same noted rfl rfl rfl rfl (fun _ => rfl) noted.fetches
  refused := fun _ what noted => Or.inr ⟨⟨what, rfl⟩, noted⟩

theorem noted_begin (triggersToRead : UInt64) (highest : Highest before c.lastTrigger.latest) :
    Noted c before (Walk.begin c triggersToRead) where
  frame := rfl
  checked := by simp [Walk.begin, Walk.timestamps]
  highest := by simpa [Walk.begin, Walk.timestamps] using highest
  fresh := by simp [Walk.begin, Walk.timestamps]
  empty := fun _ => rfl
  fetches := by simp [Walk.begin]

end Noted

/-- What one call of `acquire` did: the timestamps it walked, whether it ended in a
`FrameDamaged`, and its fetches from the samples stream. -/
structure CallSeen where
  walked : List UInt64
  damaged : Bool
  samplesFetches : List FetchCall

/-- The trigger the check threw on is the last one walked, and is not accepted. -/
def CallSeen.accepted (seen : CallSeen) : List UInt64 :=
  if seen.damaged then seen.walked.dropLast else seen.walked

def Thrown.isFrameDamaged : Thrown → Bool
  | .frameDamaged _ => true
  | _ => false

def AcquireResult.damaged (result : AcquireResult) : Bool :=
  match result.ending with
  | .threw thrown => thrown.isFrameDamaged
  | _ => false

def CstZs1Context.sees (c : CstZs1Context) (call : AcquireCall) (markers : List FetchReply) : CallSeen :=
  { walked := (c.walkMarkers call markers).walk.timestamps
    damaged := (c.acquire call markers).damaged
    samplesFetches := (c.acquire call markers).fetches.filter fun fetch => fetch.channel == .samples }

/-- What a call that saw this did to the context it was made on, after the triggers
accepted `before` it. -/
structure Sees (c : CstZs1Context) (before : List UInt64) (seen : CallSeen)
    (after : CstZs1Context) : Prop where
  frame : after.frameLastTrigger = c.frameLastTrigger
  checked : after.frameFirstTriggerChecked = true ↔
    c.frameFirstTriggerChecked = true ∨ seen.walked ≠ []
  highest : Highest (before ++ seen.accepted) after.lastTrigger.latest
  damaged : seen.damaged = true ↔ ∃ first ∈ seen.walked.head?, c.Replays first
  unfetched : seen.walked = [] ∨ seen.damaged = true → seen.samplesFetches = []

theorem markers_only {fetches : List FetchCall} (markers : ∀ call ∈ fetches, call.channel = .markers) :
    (fetches.filter fun fetch => fetch.channel == .samples) = [] := by
  rw [List.filter_eq_nil_iff]
  intro fetch member
  rw [markers fetch member]
  decide

/-- The samples fetch throws what the driver reports, or refuses what it is asked. -/
theorem samplesLoop_threw (samplesChannel : String) (toAcquire : UInt64) (replies : List FetchReply)
    (fetched : UInt64) (b : AcquisitionBuffer) (thrown : Thrown)
    (threw : (samplesLoop samplesChannel toAcquire replies fetched b).ending = .threw thrown) :
    thrown.isFrameDamaged = false := by
  induction replies generalizing fetched b with
  | nil =>
      unfold samplesLoop checkFetchAlignment at threw
      by_cases wanted : fetched < toAcquire
      · by_cases aligned : Aligned (toAcquire - fetched).toInt64.toInt
        · simp only [wanted, aligned, ↓reduceIte, reduceCtorEq] at threw
        · simp only [wanted, aligned, ↓reduceIte, Ending.threw.injEq] at threw
          rw [← threw]
          rfl
      · simp [wanted] at threw
  | cons reply replies ih =>
      unfold samplesLoop checkFetchAlignment at threw
      by_cases wanted : fetched < toAcquire
      · by_cases aligned : Aligned (toAcquire - fetched).toInt64.toInt
        · simp only [wanted, aligned, ↓reduceIte] at threw
          cases failed : reply.error with
          | some text =>
              simp only [failed, Ending.threw.injEq] at threw
              rw [← threw]
              rfl
          | none =>
              simp only [failed, SamplesResult.after] at threw
              exact ih _ _ threw
        · simp only [wanted, aligned, ↓reduceIte, Ending.threw.injEq] at threw
          rw [← threw]
          rfl
      · simp [wanted] at threw

theorem processLabel_damaged (w : Walk) (samplesBuffer : AcquisitionBuffer)
    (markers samples : List FetchReply) :
    (processLabel w samplesBuffer markers samples).damaged = false := by
  unfold processLabel AcquireResult.damaged
  cases ending : (samplesLoop w.context.samplesChannel w.toAcquire samples 0 samplesBuffer).ending with
  | returned value => simp only [ending]
  | threw thrown =>
      simp only [ending]
      exact samplesLoop_threw _ _ _ _ _ thrown ending
  | waiting => simp only [ending]

theorem samplesLoop_nothing (samplesChannel : String) (replies : List FetchReply)
    (b : AcquisitionBuffer) : (samplesLoop samplesChannel 0 replies 0 b).fetches = [] := by
  cases replies with
  | nil => simp [samplesLoop]
  | cons reply rest => simp [samplesLoop]

section Sees

variable {c : CstZs1Context} {before : List UInt64} {w : Walk}

/-- A call that the check did not end. -/
theorem sees_noted (noted : Noted c before w) {samplesFetches : List FetchCall}
    (unfetched : w.timestamps = [] → samplesFetches = []) :
    Sees c before ⟨w.timestamps, false, samplesFetches⟩ w.context where
  frame := noted.frame
  checked := noted.checked
  highest := noted.highest
  damaged := by
    constructor
    · intro damaged
      cases damaged
    · rintro ⟨first, isFirst, replays⟩
      exact absurd replays (noted.fresh first isFirst)
  unfetched := by
    rintro (none | damaged)
    · exact unfetched none
    · cases damaged

theorem sees_replayed (replayed : Replayed c before w) :
    Sees c before ⟨w.timestamps, true, []⟩ w.context where
  frame := replayed.frame
  checked := by
    obtain ⟨first, one, _⟩ := replayed.first
    exact ⟨fun _ => Or.inr (by simp [one]), fun _ => replayed.checked⟩
  highest := by
    obtain ⟨first, one, _⟩ := replayed.first
    simpa [CallSeen.accepted, one] using replayed.highest
  damaged := by
    obtain ⟨first, one, replays⟩ := replayed.first
    exact ⟨fun _ => ⟨first, by simp [one], replays⟩, fun _ => rfl⟩
  unfetched := fun _ => rfl

theorem acquire_sees (call : AcquireCall) (markers : List FetchReply)
    (highest : Highest before c.lastTrigger.latest) :
    Sees c before (c.sees call markers) (c.acquire call markers).context := by
  have meets := walkMarkers_meets (noted_rule call.triggersToRead) markers
    (noted_begin call.triggersToRead highest)
  unfold CstZs1Context.sees CstZs1Context.acquire AcquireResult.damaged
  cases ending : c.walkMarkers call markers with
  | lookAhead w rest =>
      rw [ending] at meets
      change Sees c before ⟨w.timestamps,
        (processLabel w call.samplesBuffer rest call.samples).damaged, _⟩ w.context
      rw [processLabel_damaged]
      refine sees_noted meets fun none => ?_
      have nothing := samplesLoop_nothing w.context.samplesChannel call.samples call.samplesBuffer
      simp only [processLabel, meets.empty none, nothing, List.append_nil]
      exact markers_only meets.fetches
  | threw thrown w rest =>
      rw [ending] at meets
      rcases meets with ⟨⟨what, rfl⟩, replayed⟩ | ⟨⟨what, rfl⟩, noted⟩
      · have none := markers_only replayed.fetches
        simp only [MarkersEnd.walk, none]
        exact sees_replayed replayed
      · have none := markers_only noted.fetches
        simp only [MarkersEnd.walk, none]
        exact sees_noted noted fun _ => rfl
  | waiting w =>
      rw [ending] at meets
      have none := markers_only (show ∀ call ∈ w.fetches, call.channel = .markers from meets.fetches)
      simp only [MarkersEnd.walk, none]
      exact sees_noted meets fun _ => rfl

end Sees

end AqMD3.Acquisition
