import Mathlib.Algebra.BigOperators.Group.List.Basic
import AqMD3.GateReads
import AqMD3.LostBatches
import AqMD3.ScanPieces

/-!
Amounts added to the cells of a list one after another. The order does not matter: a cell
ends with what it held and the sum of what was put into it, and where no cell is named
twice that sum is the one amount, or nothing.
-/

namespace AqMD3.BinTotals

variable {Amount : Type} [AddCommMonoid Amount]

def deposit (totals : List Amount) (place : Nat × Amount) : List Amount :=
  totals.modify place.1 fun total => total + place.2

def amountAt (cell : Nat) (places : List (Nat × Amount)) : Amount :=
  ((places.filter fun place => place.1 = cell).map Prod.snd).sum

theorem deposits_length (places : List (Nat × Amount)) (totals : List Amount) :
    (places.foldl deposit totals).length = totals.length := by
  induction places generalizing totals with
  | nil => rfl
  | cons place rest ih => rw [List.foldl_cons, ih, deposit, List.length_modify]

theorem amountAt_cons (cell : Nat) (place : Nat × Amount) (rest : List (Nat × Amount)) :
    amountAt cell (place :: rest) =
      (if place.1 = cell then place.2 else 0) + amountAt cell rest := by
  by_cases here : place.1 = cell
  · simp [amountAt, here]
  · simp [amountAt, here]

theorem amountAt_append (cell : Nat) (first second : List (Nat × Amount)) :
    amountAt cell (first ++ second) = amountAt cell first + amountAt cell second := by
  simp [amountAt]

theorem amountAt_flatMap {Item : Type} (cell : Nat) (places : Item → List (Nat × Amount))
    (items : List Item) :
    amountAt cell (items.flatMap places) = (items.map fun item => amountAt cell (places item)).sum := by
  induction items with
  | nil => rfl
  | cons item rest ih => rw [List.flatMap_cons, amountAt_append, ih, List.map_cons, List.sum_cons]

theorem deposits_cell (places : List (Nat × Amount)) (totals : List Amount) (cell : Nat) :
    (places.foldl deposit totals)[cell]? =
      totals[cell]?.map fun total => total + amountAt cell places := by
  induction places generalizing totals with
  | nil => simp [amountAt]
  | cons place rest ih =>
      rw [List.foldl_cons, ih, amountAt_cons, deposit, List.getElem?_modify]
      by_cases here : place.1 = cell
      · simp [here, Function.comp_def, add_assoc]
      · simp [here]

theorem amountAt_once (cell : Nat) {places : List (Nat × Amount)}
    (once : places.Pairwise fun before after => before.1 < after.1) :
    amountAt cell places = (places.lookup cell).getD 0 := by
  induction places with
  | nil => rfl
  | cons place rest ih =>
      obtain ⟨later, tail⟩ := List.pairwise_cons.mp once
      rw [amountAt_cons, List.lookup_cons]
      by_cases here : place.1 = cell
      · have others : rest.filter (fun other => other.1 = cell) = [] := by
          rw [List.filter_eq_nil_iff]
          intro other member
          have behind := later other member
          simp only [decide_eq_true_eq]
          omega
        simp [here, amountAt, others]
      · have different : (cell == place.1) = false := beq_false_of_ne fun same => here same.symm
        simp [here, different, ih tail]

end AqMD3.BinTotals

/-!
The published sum of a frame. `data_vector` is shared by all frames but filled with zeros
first; a scan adds each of its values to one bin, and what a 32-bit bin holds in the end
is the sum itself as long as there are no more scans than fit it.
-/

namespace AqMD3.Acquisition

open FixedWidth CountedLoop RunLength BinTotals

def BinStep.bin : BinStep → Nat
  | .store bin => bin
  | .land bin => bin

/-- What a scan stores, bin by bin. -/
def EncodedResult.expansion (er : EncodedResult) : List (Nat × Int) :=
  expandFrom 0 (er.encodedSpectra.map Int32.toInt)

/-- The value at a bin, nothing where the scan stores none. -/
def EncodedResult.valueAt (er : EncodedResult) (bin : Nat) : Int := (er.expansion.lookup bin).getD 0

theorem skips_iff (val : Int32) : val < 0 ↔ val.toInt < 0 := by
  rw [Int32.lt_iff_toInt_lt, Int32.toInt_zero]

theorem indexOf_exact (bin : Nat) (narrow : bin < 2 ^ 31) : indexOf bin = bin := by
  have wide := int32_widen_exact (Int32.ofNat bin) (by rw [int32_ofNat_exact bin narrow]; omega)
  rw [int32_ofNat_exact bin narrow] at wide
  exact Int.ofNat.inj wide

theorem getLast?_tail {Item : Type} (head : Item) {rest : List Item} {last : Item}
    (member : last ∈ rest.getLast?) : last ∈ (head :: rest).getLast? := by
  rw [List.getLast?_cons, Option.mem_def.mp member]
  rfl

theorem expandFrom_present (spectrum : List Int32) (bin : Nat) (present : spectrum ≠ [])
    (ends : ∀ val ∈ spectrum.getLast?, ¬ val < 0) :
    ∃ place ∈ expandFrom bin (spectrum.map Int32.toInt), bin ≤ place.1 := by
  induction spectrum generalizing bin with
  | nil => exact absurd rfl present
  | cons val rest ih =>
      by_cases skip : val < 0
      · -- A skip is not the last entry.
        have more : rest ≠ [] := by
          rintro rfl
          exact ends val rfl skip
        obtain ⟨place, member, behind⟩ := ih (bin + val.toInt.natAbs) more
          fun last member => ends last (getLast?_tail val member)
        refine ⟨place, ?_, by omega⟩
        rw [List.map_cons, expandFrom, if_pos ((skips_iff val).mp skip)]
        exact member
      · refine ⟨(bin, val.toInt), ?_, Nat.le_refl bin⟩
        rw [List.map_cons, expandFrom, if_neg fun low => skip ((skips_iff val).mpr low)]
        exact List.mem_cons_self

theorem steps_before_stored (spectrum : List Int32) (bin : Nat)
    (ends : ∀ val ∈ spectrum.getLast?, ¬ val < 0) :
    ∀ step ∈ binSteps bin spectrum,
      ∃ place ∈ expandFrom bin (spectrum.map Int32.toInt), step.bin ≤ place.1 := by
  induction spectrum generalizing bin with
  | nil => exact fun step member => absurd member List.not_mem_nil
  | cons val rest ih =>
      have tail : ∀ last ∈ rest.getLast?, ¬ last < 0 :=
        fun last member => ends last (getLast?_tail val member)
      intro step member
      unfold binSteps at member
      by_cases skip : val < 0
      · rw [if_pos skip] at member
        rw [List.map_cons, expandFrom, if_pos ((skips_iff val).mp skip)]
        rcases List.mem_cons.mp member with here | later
        · have more : rest ≠ [] := by
            rintro rfl
            exact ends val rfl skip
          rw [here]
          exact expandFrom_present rest _ more tail
        · exact ih _ tail step later
      · rw [if_neg skip] at member
        rw [List.map_cons, expandFrom, if_neg fun low => skip ((skips_iff val).mpr low)]
        rcases List.mem_cons.mp member with here | later
        · rw [here]
          exact ⟨_, List.mem_cons_self, Nat.le_refl bin⟩
        · obtain ⟨place, inside, behind⟩ := ih _ tail step later
          exact ⟨place, List.mem_cons_of_mem _ inside, behind⟩

theorem modify_ofInt (totals : List Int) (bin : Nat) (val : Int32) :
    (totals.map Int32.ofInt).modify bin (fun sum => sum + val) =
      (deposit totals (bin, val.toInt)).map Int32.ofInt := by
  apply List.ext_getElem?
  intro cell
  rw [deposit, List.getElem?_modify, List.getElem?_map, List.getElem?_map, List.getElem?_modify]
  by_cases here : bin = cell
  · simp [here, Function.comp_def, Int32.ofInt_add]
  · simp [here]

theorem sumSpectrum_totals (spectrum : List Int32) (s : Summing) (bin : Nat) (totals : List Int)
    (place : s.index = Int32.ofNat bin) (data : s.data = totals.map Int32.ofInt)
    (inside : ∀ step ∈ binSteps bin spectrum, step.bin < s.data.length ∧ step.bin < 2 ^ 31) :
    ∃ last, sumSpectrum s spectrum = .ok last ∧ last.data =
      ((expandFrom bin (spectrum.map Int32.toInt)).foldl deposit totals).map Int32.ofInt := by
  induction spectrum generalizing s bin totals with
  | nil => exact ⟨s, rfl, data⟩
  | cons val rest ih =>
      unfold binSteps at inside
      unfold sumSpectrum
      by_cases skip : val < 0
      · rw [if_pos skip] at inside
        obtain ⟨within, narrow⟩ := inside _ List.mem_cons_self
        simp only [BinStep.bin] at within narrow
        have landing : s.index + (-1 * val) = Int32.ofNat (bin + val.toInt.natAbs) := by
          rw [place, skip_index bin val skip]
        -- The skip lands inside, so the guard lets it by.
        have passed : ¬ s.data.length ≤ sizeOfInt (s.index + (-1 * val)) := by
          rw [landing, ← indexOf, indexOf_exact _ narrow]
          omega
        rw [if_pos skip, List.map_cons, expandFrom, if_pos ((skips_iff val).mp skip)]
        simp only
        rw [if_neg passed]
        exact ih { s with index := s.index + (-1 * val) } _ totals landing data
          fun step member => inside step (List.mem_cons_of_mem _ member)
      · rw [if_neg skip] at inside
        obtain ⟨_, narrow⟩ := inside _ List.mem_cons_self
        have here : sizeOfInt s.index = bin := by
          rw [place]
          exact indexOf_exact bin narrow
        rw [if_neg skip, List.map_cons, expandFrom,
          if_neg fun low => skip ((skips_iff val).mpr low), List.foldl_cons]
        apply ih
        · rw [place, value_index]
        · rw [here, data, modify_ofInt]
        · intro step member
          rw [List.length_modify]
          exact inside step (List.mem_cons_of_mem _ member)

theorem sumFrame_totals (data : List EncodedResult) (s : Summing) (totals : List Int)
    (sums : s.data = totals.map Int32.ofInt)
    (inside : ∀ er ∈ data, ∀ step ∈ binSteps 0 er.encodedSpectra,
      step.bin < s.data.length ∧ step.bin < 2 ^ 31) :
    ∃ last, sumFrame s data = .summed last ∧ last.data =
      ((data.flatMap EncodedResult.expansion).foldl deposit totals).map Int32.ofInt := by
  induction data generalizing s totals with
  | nil => exact ⟨s, rfl, sums⟩
  | cons er rest ih =>
      obtain ⟨next, ran, added⟩ := sumSpectrum_totals er.encodedSpectra { s with index := 0 } 0 totals
        rfl sums (inside er List.mem_cons_self)
      have length : next.data.length = s.data.length := by
        rw [added, sums, List.length_map, deposits_length, List.length_map]
      obtain ⟨last, later, total⟩ := ih next _ added fun other member step stepped => by
        rw [length]
        exact inside other (List.mem_cons_of_mem er member) step stepped
      refine ⟨last, ?_, ?_⟩
      · simp only [sumFrame, ran]
        exact later
      · rw [total, List.flatMap_cons, List.foldl_append]
        rfl

/-- A gate as `acquire` decodes one. -/
def Decoded (g : GateData) : Prop := ∃ m : GateMarker, m.Fields ∧ g = m.gateData

/-- Gates in order, by their sample indexes as `process` takes them for signed ones. Two
may touch, and one may be empty. -/
def InOrder : Int → List GateData → Prop
  | _, [] => True
  | low, g :: rest =>
      low ≤ g.getStartSampleIndex.toInt64.toInt ∧
        g.getStartSampleIndex.toInt64.toInt ≤ g.getStopSampleIndex.toInt64.toInt ∧
        InOrder g.getStopSampleIndex.toInt64.toInt rest

instance decidableInOrder : (low : Int) → (gates : List GateData) → Decidable (InOrder low gates)
  | _, [] => inferInstanceAs (Decidable True)
  | _, g :: rest =>
      have := decidableInOrder g.getStopSampleIndex.toInt64.toInt rest
      inferInstanceAs (Decidable (_ ≤ _ ∧ _ ≤ _ ∧ _))

theorem gateValues_present {g : GateData} (decoded : Decoded g) (kept : g.skipped = false)
    (low : 0 ≤ g.getStartSampleIndex.toInt64.toInt)
    (ordered : g.getStartSampleIndex.toInt64.toInt ≤ g.getStopSampleIndex.toInt64.toInt)
    (buffer : AcquisitionBuffer) (offset : Int32) : gateValues buffer offset g ≠ [] := by
  obtain ⟨m, fields, rfl⟩ := decoded
  obtain ⟨bound, range, wide⟩ := readBound_exact m fields
  have small := (8 - m.endBlockSampleIndx).toNat_lt
  have startPos := fields.startPos
  have start : m.gateData.gateStartSamplePos.toInt32.toInt = m.startBlockSampleIndx.toNat :=
    uint32_signed_exact m.startBlockSampleIndx (by omega)
  have position : m.gateData.gateStartSamplePos.toUInt64.toInt64.toInt =
      m.startBlockSampleIndx.toNat := by
    have same : m.gateData.gateStartSamplePos.toUInt64.toNat = m.startBlockSampleIndx.toNat :=
      UInt32.toNat_toUInt64 _
    rw [uint64_signed_exact _ (by omega), same]
  have different : m.gateData.getStopSampleIndex.toInt64.toInt ≠
      m.gateData.getStartSampleIndex.toInt64.toInt := by
    intro same
    have equal := congrArg Int64.toUInt64 (Int64.toInt_inj.mp same)
    rw [UInt64.toUInt64_toInt64, UInt64.toUInt64_toInt64] at equal
    simp [GateData.skipped, equal] at kept
  have limit := m.gateData.getStopSampleIndex.toInt64.toInt_lt
  -- The count of samples is positive, and its sum with the position does not wrap.
  have enters : m.gateData.gateStartSamplePos.toInt32.toInt < m.gateData.readBound.toInt := by
    have sum : m.gateData.readBound.toInt = (m.startBlockSampleIndx.toNat +
        (m.gateData.getStopSampleIndex.toInt64.toInt -
          m.gateData.getStartSampleIndex.toInt64.toInt).bmod (2 ^ 64)).bmod (2 ^ 64) := by
      rw [GateData.readBound, GateData.samples, Int64.toInt_add, Int64.toInt_sub, position]
    rw [Int.bmod_def, Int.bmod_def] at sum
    omega
  intro none
  have count := congrArg List.length none
  rw [gateValues, List.length_map, CountedLoop.indices, List.length_map, List.length_range,
    List.length_nil] at count
  omega

theorem scanPieces_present {buffer : AcquisitionBuffer} {offsetBins : UInt32} {gates : List GateData}
    {prev : Option GateData} {offset : Int32} {low : Int} (nonneg : 0 ≤ low)
    (decoded : ∀ g ∈ gates, Decoded g) (ordered : InOrder low gates) :
    ∀ p ∈ scanPieces buffer offsetBins prev gates offset, p.values ≠ [] := by
  induction gates generalizing prev offset low with
  | nil => exact fun p member => absurd member List.not_mem_nil
  | cons g rest ih =>
      obtain ⟨behind, forward, later⟩ := ordered
      intro p member
      rw [scanPieces] at member
      rcases List.mem_append.mp member with here | tail
      · by_cases skipped : g.skipped = true
        · simp [skipped] at here
        · rw [if_neg skipped] at here
          rw [List.mem_singleton.mp here]
          exact gateValues_present (decoded g List.mem_cons_self) (by simpa using skipped)
            (Int.le_trans nonneg behind) forward buffer offset
      · exact ih (by omega) (fun other inside => decoded other (List.mem_cons_of_mem g inside)) later
          p tail

theorem encoding_ends {pieces : List ScanPiece} (stored : Stored pieces)
    (present : ∀ p ∈ pieces, p.values ≠ []) : ∀ val ∈ (encoding pieces).getLast?, ¬ val < 0 := by
  rcases List.eq_nil_or_concat pieces with empty | ⟨front, last, split⟩
  · rw [empty]
    exact fun val member => absurd member (by simp [encoding])
  · rw [List.concat_eq_append] at split
    have inside : last ∈ pieces := by
      rw [split]
      exact List.mem_append_right front (List.mem_singleton_self last)
    intro val member
    have ends : val ∈ last.values.getLast? := by
      rw [split, encoding, List.flatMap_append, List.flatMap_singleton,
        List.getLast?_append_of_ne_nil _ (by simp [present last inside]),
        List.getLast?_append_of_ne_nil _ (present last inside)] at member
      exact member
    rw [skips_iff]
    exact Int.not_lt.mpr (stored last inside val (List.mem_of_getLast? ends)).1

theorem encoding_bound {pieces : List ScanPiece} (stored : Stored pieces) :
    ∀ val ∈ encoding pieces, val.toInt ≤ 65535 := by
  intro val member
  obtain ⟨p, inside, here⟩ := List.mem_flatMap.mp member
  rcases List.mem_append.mp here with gap | value
  · have negative := (gapCode_negative p.gap).1 _ (List.mem_map_of_mem gap)
    omega
  · exact (stored p inside val value).2

theorem valueAt_bounds {er : EncodedResult} (bound : ∀ val ∈ er.encodedSpectra, val.toInt ≤ 65535)
    (bin : Nat) : 0 ≤ er.valueAt bin ∧ er.valueAt bin ≤ 65535 := by
  unfold EncodedResult.valueAt
  cases found : er.expansion.lookup bin with
  | none => exact ⟨Int.le_refl 0, by decide⟩
  | some value =>
      obtain ⟨front, back, split, _⟩ := List.lookup_eq_some_iff.mp found
      have member : (bin, value) ∈ er.expansion := by
        rw [split]
        simp
      obtain ⟨_, entry, stored⟩ := expandFrom_stored _ 0 _ member
      obtain ⟨val, inside, same⟩ := List.mem_map.mp entry
      have high := bound val inside
      rw [same] at high
      exact ⟨stored, high⟩

theorem sumSpectrum_length (spectrum : List Int32) (s : Summing) :
    match sumSpectrum s spectrum with
    | .ok last => last.data.length = s.data.length
    | .error (_, last) => last.data.length = s.data.length := by
  induction spectrum generalizing s with
  | nil => rfl
  | cons val rest ih =>
      unfold sumSpectrum
      by_cases skip : val < 0
      · rw [if_pos skip]
        simp only
        by_cases outside : s.data.length ≤ sizeOfInt (s.index + (-1 * val))
        · rw [if_pos outside]
        · rw [if_neg outside]
          exact ih { s with index := s.index + (-1 * val) }
      · rw [if_neg skip]
        have tail := ih
          { index := s.index + 1
            data := s.data.modify (sizeOfInt s.index) (fun sum => sum + val)
            writes := s.writes ++ [sizeOfInt s.index] }
        rw [List.length_modify] at tail
        exact tail

def SumEnd.data : SumEnd → List Int32
  | .summed s => s.data
  | .refused _ _ s => s.data

theorem sumFrame_length (data : List EncodedResult) (s : Summing) :
    (sumFrame s data).data.length = s.data.length := by
  induction data generalizing s with
  | nil => rfl
  | cons er rest ih =>
      have here := sumSpectrum_length er.encodedSpectra { s with index := 0 }
      unfold sumFrame
      cases ran : sumSpectrum { s with index := 0 } er.encodedSpectra with
      | ok next =>
          rw [ran] at here
          exact (ih next).trans here
      | error refusal =>
          rw [ran] at here
          exact here

namespace ZmqAcquiredDataSubscriber

/-- A frame, published or refused, leaves the next one a vector of the same size. -/
theorem onNotify_kept (encode : Message → Except Thrown (List UInt8)) (z : ZmqAcquiredDataSubscriber)
    (frame : UimfFrame) :
    (z.onNotify encode frame).subscriber.dataVector.length = z.dataVector.length ∧
      (z.onNotify encode frame).subscriber.firstSampleFloor = z.firstSampleFloor := by
  have length := sumFrame_length frame.data ⟨0, List.replicate z.dataVector.length (0 : Int32), []⟩
  rw [List.length_replicate] at length
  unfold onNotify
  cases ending : sumFrame ⟨0, List.replicate z.dataVector.length (0 : Int32), []⟩ frame.data with
  | refused scan what last =>
      rw [ending] at length
      simp only [ending]
      exact ⟨length, trivial⟩
  | summed last =>
      rw [ending] at length
      simp only [ending]
      split
      · exact ⟨length, rfl⟩
      · exact ⟨length, rfl⟩

/-- The subscriber behind some frames, each with what serialising does to it. -/
def notifyAll (z : ZmqAcquiredDataSubscriber) :
    List ((Message → Except Thrown (List UInt8)) × UimfFrame) → ZmqAcquiredDataSubscriber
  | [] => z
  | (encode, frame) :: rest => (z.onNotify encode frame).subscriber.notifyAll rest

theorem notifyAll_kept (z : ZmqAcquiredDataSubscriber)
    (frames : List ((Message → Except Thrown (List UInt8)) × UimfFrame)) :
    (z.notifyAll frames).dataVector.length = z.dataVector.length ∧
      (z.notifyAll frames).firstSampleFloor = z.firstSampleFloor := by
  induction frames generalizing z with
  | nil => exact ⟨rfl, rfl⟩
  | cons first rest ih =>
      obtain ⟨encode, frame⟩ := first
      obtain ⟨length, floor⟩ := z.onNotify_kept encode frame
      exact ⟨(ih _).1.trans length, (ih _).2.trans floor⟩

end ZmqAcquiredDataSubscriber

/-- The message of a frame: every entry of `mz` is the sum of its bin over the scans. -/
structure SumsOf (sampleCount : UInt32) (frame : UimfFrame) (msg : Message) : Prop where
  length : msg.mz.length = sampleCount.toNat
  exact : ∀ bin entry, msg.mz[bin]? = some entry →
    entry.toInt = (frame.data.map fun er => er.valueAt bin).sum
  timeStamps : msg.timeStamps = frame.data.map EncodedResult.timestamp

/-- The frame is published as this message, or what serialising it throws is. -/
def PublishedAs (encode : Message → Except Thrown (List UInt8)) (floor : Int32) (frame : UimfFrame)
    (msg : Message) (sends : List Send) : Prop :=
  sends = checkAlignment floor frame ++
    [match encode msg with
      | .ok content => ⟨dataSubject, .bytes content, 100⟩
      | .error thrown => ZmqAcquiredDataSubscriber.encodeError frame thrown]

theorem amountAt_scans (data : List EncodedResult) (bin : Nat) :
    amountAt bin (data.flatMap EncodedResult.expansion) =
      (data.map fun er => er.valueAt bin).sum := by
  rw [amountAt_flatMap]
  congr 1
  apply List.map_congr_left
  intro er _
  exact amountAt_once bin (expandFrom_once _ 0)

theorem scans_bounds (data : List EncodedResult) (bin : Nat)
    (bound : ∀ er ∈ data, ∀ val ∈ er.encodedSpectra, val.toInt ≤ 65535) :
    0 ≤ (data.map fun er => er.valueAt bin).sum ∧
      (data.map fun er => er.valueAt bin).sum ≤ 65535 * data.length := by
  induction data with
  | nil => simp
  | cons er rest ih =>
      have here := valueAt_bounds (bound er List.mem_cons_self) bin
      have later := ih fun other member => bound other (List.mem_cons_of_mem er member)
      rw [List.map_cons, List.sum_cons, List.length_cons]
      omega

theorem stampPieces_present {r : UimfAcquisitionRecord} {stamps : List TriggerData} {offset : Int32}
    (decoded : ∀ trig ∈ stamps, ∀ g ∈ trig.gateData, Decoded g)
    (ordered : ∀ trig ∈ stamps, InOrder 0 trig.gateData) :
    ∀ pieces ∈ r.stampPieces stamps offset, ∀ p ∈ pieces, p.values ≠ [] := by
  induction stamps generalizing offset with
  | nil => exact fun pieces member => absurd member List.not_mem_nil
  | cons trig rest ih =>
      intro pieces member
      rcases List.mem_cons.mp member with here | later
      · rw [here]
        exact scanPieces_present (Int.le_refl 0) (decoded trig List.mem_cons_self)
          (ordered trig List.mem_cons_self)
      · exact ih (fun other inside => decoded other (List.mem_cons_of_mem trig inside))
          (fun other inside => ordered other (List.mem_cons_of_mem trig inside)) pieces later

/-- A frame whose steps all stay inside the vector, handed to any subscriber of its size. -/
theorem onNotify_sums (encode : Message → Except Thrown (List UInt8)) (z : ZmqAcquiredDataSubscriber)
    (sampleCount : UInt32) (size : z.dataVector.length = sampleCount.toNat) (frame : UimfFrame)
    (few : frame.data.length ≤ 32768)
    (bound : ∀ er ∈ frame.data, ∀ val ∈ er.encodedSpectra, val.toInt ≤ 65535)
    (inside : ∀ er ∈ frame.data, ∀ step ∈ binSteps 0 er.encodedSpectra,
      step.bin < sampleCount.toNat ∧ step.bin < 2 ^ 31) :
    ∃ msg, SumsOf sampleCount frame msg ∧
      PublishedAs encode z.firstSampleFloor frame msg (z.onNotify encode frame).sends := by
  have zeros : List.replicate z.dataVector.length (0 : Int32) =
      (List.replicate sampleCount.toNat (0 : Int)).map Int32.ofInt := by
    rw [List.map_replicate, size]
    rfl
  obtain ⟨last, ran, total⟩ := sumFrame_totals frame.data
    ⟨0, List.replicate z.dataVector.length (0 : Int32), []⟩ _ zeros (by
      rw [List.length_replicate, size]
      exact inside)
  refine ⟨⟨last.data, frame.data.map fun er => er.tic.toUInt64.toUInt32,
    frame.data.map EncodedResult.timestamp⟩, ⟨?_, ?_, rfl⟩, ?_⟩
  · rw [total, List.length_map, deposits_length, List.length_replicate]
  · intro bin entry found
    simp only [total, List.getElem?_map, deposits_cell, Option.map_map] at found
    obtain ⟨zero, held, sum⟩ := Option.map_eq_some_iff.mp found
    have nothing : zero = 0 := (List.mem_replicate.mp (List.mem_of_getElem? held)).2
    rw [nothing, Function.comp_apply, Int.zero_add, amountAt_scans] at sum
    -- A scan adds at most 65535 to a bin, so 32768 scans do not wrap an int32.
    obtain ⟨low, high⟩ := scans_bounds frame.data bin bound
    rw [← sum, Int32.toInt_ofInt, Int.bmod_def]
    simp only [Int32.size]
    omega
  · unfold PublishedAs ZmqAcquiredDataSubscriber.onNotify
    cases encoded : encode ⟨last.data, frame.data.map fun er => er.tic.toUInt64.toUInt32,
        frame.data.map EncodedResult.timestamp⟩ with
    | ok content => simp only [ran, encoded]
    | error thrown => simp only [ran, encoded]

/-- The scans of a frame whose gates are in order: none ends on a skip, and no entry is
larger than a sample. -/
theorem toFrame_scans {r : UimfAcquisitionRecord} {frame : UimfFrame} (made : r.toFrame = .ok frame)
    (decoded : ∀ trig ∈ r.acquiredData.stamps, ∀ g ∈ trig.gateData, Decoded g)
    (ordered : ∀ trig ∈ r.acquiredData.stamps, InOrder 0 trig.gateData) :
    ∀ er ∈ frame.data, (∀ val ∈ er.encodedSpectra.getLast?, ¬ val < 0) ∧
      ∀ val ∈ er.encodedSpectra, val.toInt ≤ 65535 := by
  unfold UimfAcquisitionRecord.toFrame at made
  split at made
  · cases made
  · rename_i results ran
    cases made
    intro er member
    have all := UimfAcquisitionRecord.processStamps_pieces ran
    obtain ⟨pieces, inside, stored, trigIndex, trig, rfl⟩ := forall₂_right all member
    have present := stampPieces_present decoded ordered pieces inside
    have encoded : (r.result trigIndex trig (pieces.foldl Scan.add .begin)).encodedSpectra =
        encoding pieces := encoded_scan pieces
    rw [encoded]
    exact ⟨encoding_ends stored present, encoding_bound stored⟩

/-- Whatever frames came before: the bins a frame stores to are inside `mz`, and ints. -/
theorem mz_sums (sampleCount : UInt32) (floor : Int32)
    (frames : List ((Message → Except Thrown (List UInt8)) × UimfFrame))
    (encode : Message → Except Thrown (List UInt8)) (r : UimfAcquisitionRecord) (frame : UimfFrame)
    (made : r.toFrame = .ok frame) (few : frame.data.length ≤ 32768)
    (decoded : ∀ trig ∈ r.acquiredData.stamps, ∀ g ∈ trig.gateData, Decoded g)
    (ordered : ∀ trig ∈ r.acquiredData.stamps, InOrder 0 trig.gateData)
    (within : ∀ er ∈ frame.data, ∀ place ∈ er.expansion,
      place.1 < sampleCount.toNat ∧ place.1 < 2 ^ 31) :
    ∃ msg, SumsOf sampleCount frame msg ∧ PublishedAs encode floor frame msg
      ((((ZmqAcquiredDataSubscriber.create sampleCount floor).notifyAll frames).onNotify encode
        frame).sends) := by
  obtain ⟨length, kept⟩ :=
    (ZmqAcquiredDataSubscriber.create sampleCount floor).notifyAll_kept frames
  have scans := toFrame_scans made decoded ordered
  have sums := onNotify_sums encode
    ((ZmqAcquiredDataSubscriber.create sampleCount floor).notifyAll frames) sampleCount
    (length.trans List.length_replicate) frame few (fun er member => (scans er member).2)
    (by
      intro er member step stepped
      obtain ⟨place, stored, behind⟩ :=
        steps_before_stored er.encodedSpectra 0 (scans er member).1 step stepped
      obtain ⟨inside, narrow⟩ := within er member place stored
      exact ⟨by omega, by omega⟩)
  rw [kept] at sums
  exact sums

/-- A scan that is summed in part and then refused. -/
def refusedFrame : UimfFrame := ⟨⟨0, 0, 0, 0, 1, 0, ""⟩, [⟨0, 1, [-3, 40000, -900], 40000, 40000, 3, 5⟩]⟩

def twoScans : UimfAcquisitionRecord :=
  recordOf [twoGates, oneGate] 0 ([twoGates, oneGate].flatMap RecordedTrigger.elements)

/-- Two scans on the bins that a refused frame has left a value in. -/
theorem mz_sums_two_scans : ∃ frame, twoScans.toFrame = .ok frame ∧
    ∃ msg, SumsOf 64 frame msg ∧ PublishedAs (fun _ => .ok []) 0 frame msg
      ((((ZmqAcquiredDataSubscriber.create 64 0).notifyAll
        [(fun _ => .ok [], refusedFrame)]).onNotify (fun _ => .ok []) frame).sends) := by
  cases made : twoScans.toFrame with
  | error fault =>
      have ends : twoScans.toFrame.isOk = true := by decide +kernel
      rw [made] at ends
      cases ends
  | ok frame =>
      have few : twoScans.toFrame.toOption.all (fun frame => frame.data.length ≤ 32768) = true := by
        decide +kernel
      have within : twoScans.toFrame.toOption.all (fun frame => frame.data.all fun er =>
          er.expansion.all fun place => place.1 < 64 ∧ place.1 < 2 ^ 31) = true := by decide +kernel
      rw [made] at few within
      refine ⟨frame, rfl, mz_sums 64 0 [(fun _ => .ok [], refusedFrame)] (fun _ => .ok []) twoScans
        frame made (of_decide_eq_true few) ?_ ?_ ?_⟩
      · intro trig member g inside
        obtain ⟨t, recorded, rfl⟩ := List.mem_map.mp member
        obtain ⟨gate, held, rfl⟩ := List.mem_map.mp inside
        have fields : ∀ t ∈ [twoGates, oneGate], ∀ gate ∈ t.gates, gate.marker.Fields := by
          decide +kernel
        exact ⟨gate.marker, fields t recorded gate held, rfl⟩
      · intro trig member
        have ordered : ∀ trig ∈ twoScans.acquiredData.stamps, InOrder 0 trig.gateData := by
          decide +kernel
        exact ordered trig member
      · intro er member place stored
        exact of_decide_eq_true (List.all_eq_true.mp (List.all_eq_true.mp within er member) place stored)

/-- Two gates of one sample, the second one past bin 2^31. -/
def farScan : UimfAcquisitionRecord where
  parameters := ⟨0, 0, 0, 0, 1, 0, ""⟩
  acquiredData := ⟨⟨List.replicate 32 0, 32, 0, 0, 0, 0⟩,
    [⟨7, 1, 0, [GateMarker.gateData ⟨2 ^ 27 + 1, 0, 2 ^ 27 + 2, 1⟩,
      GateMarker.gateData ⟨2 ^ 28 + 2, 0, 2 ^ 28 + 3, 1⟩]⟩], 0⟩
  startScanIndex := 0

def farFrame : UimfFrame :=
  ⟨farScan.parameters, [⟨0, 2, [-1073741824, 32768, -1073741831, 32768], 65536, 32768, 1073741824, 7⟩]⟩

/-- The int it is skipped to wraps, and a frame that fits the vector is refused. -/
theorem mz_sums_far :
    ¬ ∀ (sampleCount : UInt32) (floor : Int32)
      (frames : List ((Message → Except Thrown (List UInt8)) × UimfFrame))
      (encode : Message → Except Thrown (List UInt8)) (r : UimfAcquisitionRecord) (frame : UimfFrame),
      r.toFrame = .ok frame → frame.data.length ≤ 32768 →
      (∀ trig ∈ r.acquiredData.stamps, ∀ g ∈ trig.gateData, Decoded g) →
      (∀ trig ∈ r.acquiredData.stamps, InOrder 0 trig.gateData) →
      (∀ er ∈ frame.data, ∀ place ∈ er.expansion, place.1 < sampleCount.toNat) →
      ∃ msg, SumsOf sampleCount frame msg ∧ PublishedAs encode floor frame msg
        ((((ZmqAcquiredDataSubscriber.create sampleCount floor).notifyAll frames).onNotify encode
          frame).sends) := by
  intro sums
  obtain ⟨sampleCount, size⟩ : ∃ sampleCount : UInt32, sampleCount.toNat = 2147483664 :=
    ⟨2147483664, rfl⟩
  obtain ⟨msg, _, published⟩ := sums sampleCount 0 [] (fun _ => .ok []) farScan farFrame
    (by decide +kernel) (by decide +kernel)
    (by
      intro trig member g inside
      rw [List.mem_singleton.mp member] at inside
      rcases List.mem_cons.mp inside with rfl | second
      · exact ⟨_, by decide +kernel, rfl⟩
      · rw [List.mem_singleton.mp second]
        exact ⟨_, by decide +kernel, rfl⟩)
    (by decide +kernel)
    (by
      rw [size]
      decide +kernel)
  have steps := sumFrame_steps farFrame.data ⟨0, List.replicate sampleCount.toNat (0 : Int32), []⟩
  have length : (ZmqAcquiredDataSubscriber.create sampleCount 0).dataVector.length =
      sampleCount.toNat := List.length_replicate
  rw [PublishedAs, ZmqAcquiredDataSubscriber.notifyAll, ZmqAcquiredDataSubscriber.onNotify,
    length] at published
  cases ending : sumFrame ⟨0, List.replicate sampleCount.toNat (0 : Int32), []⟩ farFrame.data with
  | summed last =>
      rw [ending, List.length_replicate, size] at steps
      have refused := steps.1 (.land 2147483656) (by decide +kernel)
      exact absurd refused (by decide +kernel)
  | refused scan what last =>
      simp only [ending, ZmqAcquiredDataSubscriber.create, List.append_cancel_left_eq,
        List.cons.injEq, and_true] at published
      have subjects := congrArg Send.subject published
      exact absurd subjects (by decide : statusSubject ≠ dataSubject)

end AqMD3.Acquisition
