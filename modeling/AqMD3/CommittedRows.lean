import AqMD3.UimfWriter

/-!
A connection to a table of rows, with at most one transaction open on it. Rows inserted in
a transaction are in the table once it has ended; closing the connection drops them before.
A statement that throws changes nothing.
-/

namespace AqMD3.Transactions

inductive SqlStatement (Row : Type) where
  | pragma
  | beginTransaction
  | insert (row : Row)
  | endTransaction
  deriving DecidableEq

structure Connection (Row : Type) where
  committed : List Row
  pending : Option (List Row)
  deriving DecidableEq

variable {Row : Type}

def Connection.opened (file : List Row) : Connection Row := ⟨file, none⟩

def Connection.exec (c : Connection Row) : SqlStatement Row → Connection Row
  | .pragma => c
  | .beginTransaction => { c with pending := some (c.pending.getD []) }
  | .insert row =>
      match c.pending with
      | some rows => { c with pending := some (rows ++ [row]) }
      | none => { c with committed := c.committed ++ [row] }
  | .endTransaction => ⟨c.committed ++ c.pending.getD [], none⟩

def Connection.close (c : Connection Row) : Connection Row := { c with pending := none }

/-- The rows in the table once a connection that ran some statements is closed. -/
def rowsLeft (statements : List (SqlStatement Row)) (file : List Row) : List Row :=
  (statements.foldl Connection.exec (.opened file)).close.committed

theorem exec_inserts (rows : List Row) (c : Connection Row) (before : List Row)
    (inside : c.pending = some before) :
    (rows.map SqlStatement.insert).foldl Connection.exec c =
      { c with pending := some (before ++ rows) } := by
  induction rows generalizing c before with
  | nil =>
      rw [List.append_nil, ← inside]
      rfl
  | cons row rest ih =>
      have step : c.exec (.insert row) = { c with pending := some (before ++ [row]) } := by
        rw [Connection.exec, inside]
      rw [List.map_cons, List.foldl_cons, step, ih _ (before ++ [row]) rfl, List.append_assoc]
      rfl

theorem rowsLeft_unended (rows file : List Row) :
    rowsLeft ([.pragma, .beginTransaction] ++ rows.map SqlStatement.insert) file = file := by
  rw [rowsLeft, List.foldl_append, exec_inserts rows _ [] rfl]
  rfl

theorem rowsLeft_ended (rows file : List Row) :
    rowsLeft ([.pragma, .beginTransaction] ++ rows.map SqlStatement.insert ++ [.endTransaction]) file =
      file ++ rows := by
  rw [rowsLeft, List.foldl_append, List.foldl_append, exec_inserts rows _ [] rfl]
  rfl

end AqMD3.Transactions

/-!
The rows a batch leaves in the file. Which scans get one is decided from the length of
their encodings, so that a single stored sample counts for nothing; and the last statement
of a batch stands behind the end of its transaction.
-/

namespace AqMD3.Acquisition

open FixedWidth Transactions

/-- The statements of `write_scan_data`, in order. -/
def batch (frame : UimfFrame) : List (SqlStatement FrameScansRow) :=
  [.pragma, .beginTransaction] ++ (writeScanData frame).map .insert ++ [.endTransaction] ++ [.pragma]

/-- The file once the writer is destroyed: a statement that throws is the first not to run. -/
def fileLeft (frame : UimfFrame) (throws : Option (Fin (batch frame).length))
    (file : List FrameScansRow) : List FrameScansRow :=
  match throws with
  | none => rowsLeft (batch frame) file
  | some index => rowsLeft ((batch frame).take index) file

/-- A scan that is to have a row: not before the start trigger, and it stores a sample or
is the first of the frame. -/
def Due (parameters : UimfFrameParameters) (er : EncodedResult) : Prop :=
  (parameters.startTrigger.toNat : Int) ≤ er.scan.toInt ∧
    (storedSamples er.encodedSpectra ≠ [] ∨ er.scan = 0)

instance (parameters : UimfFrameParameters) (er : EncodedResult) : Decidable (Due parameters er) :=
  inferInstanceAs (Decidable (_ ∧ (_ ∨ _)))

def RowRight (parameters : UimfFrameParameters) (er : EncodedResult) : Prop :=
  (scanRow parameters er).map FrameScansRow.scanNum =
    if Due parameters er then some (er.scan.toInt - parameters.startTrigger.toNat) else none

/-- What is asked of a batch: its rows are those of the scans that are due, and a batch
that throws leaves none. -/
structure BatchRight (frame : UimfFrame) (throws : Option (Fin (batch frame).length))
    (file : List FrameScansRow) : Prop where
  committed : throws = none →
    fileLeft frame throws file = file ++ frame.data.filterMap (scanRow frame.parameters)
  rows : throws = none → ∀ er ∈ frame.data, RowRight frame.parameters er
  rolledBack : throws.isSome → fileLeft frame throws file = file

/-- A due scan with a single stored sample for its whole encoding. -/
def Overlooked (parameters : UimfFrameParameters) (er : EncodedResult) : Prop :=
  er.scan ≠ 0 ∧ (parameters.startTrigger.toNat : Int) ≤ er.scan.toInt ∧
    ∃ val, er.encodedSpectra = [val] ∧ 0 ≤ val.toInt

/-- A scan of run lengths alone, or before the first one, that is taken for due. -/
def Spurious (parameters : UimfFrameParameters) (er : EncodedResult) : Prop :=
  er.scan ≠ 0 ∧ parameters.startTrigger ≤ er.scan.toInt64.toUInt64 ∧ 1 < er.encodedSpectra.length ∧
    (storedSamples er.encodedSpectra = [] ∨ er.scan.toInt < 0)

theorem scanNum_exact {parameters : UimfFrameParameters} {er : EncodedResult}
    (due : (parameters.startTrigger.toNat : Int) ≤ er.scan.toInt) :
    printed (er.scan.toInt64.toUInt64 - parameters.startTrigger) =
      er.scan.toInt - parameters.startTrigger.toNat := by
  have wide := int32_widen_exact er.scan (by omega)
  have bounds := int32_bounds er.scan
  have difference := uint64_sub_exact er.scan.toInt64.toUInt64 parameters.startTrigger (by omega)
  rw [printed, uint64_narrow_exact _ (by omega), difference]
  omega

theorem scanRow_map (parameters : UimfFrameParameters) (er : EncodedResult) :
    (scanRow parameters er).map FrameScansRow.scanNum =
      if parameters.startTrigger ≤ er.scan.toInt64.toUInt64 ∧
          (1 < er.encodedSpectra.length ∨ er.scan = 0)
      then some (printed (er.scan.toInt64.toUInt64 - parameters.startTrigger)) else none := by
  unfold scanRow
  by_cases before : er.scan.toInt64.toUInt64 < parameters.startTrigger
  · rw [if_pos before, if_neg fun kept => UInt64.not_lt.mpr kept.1 before]
    rfl
  · rw [if_neg before]
    by_cases kept : 1 < er.encodedSpectra.length ∨ er.scan = 0
    · rw [if_pos kept, if_pos ⟨UInt64.not_lt.mp before, kept⟩]
      rfl
    · rw [if_neg kept, if_neg fun both => kept both.2]
      rfl

theorem storedSamples_present (encoded : List Int32) :
    storedSamples encoded ≠ [] ↔ ∃ val ∈ encoded, 0 ≤ val.toInt := by
  rw [storedSamples, ne_eq, List.filter_eq_nil_iff]
  simp

theorem single_sample {encoded : List Int32} (short : encoded.length ≤ 1) :
    storedSamples encoded ≠ [] ↔ ∃ val, encoded = [val] ∧ 0 ≤ val.toInt := by
  rw [storedSamples_present]
  constructor
  · rintro ⟨val, member, stored⟩
    cases encoded with
    | nil => cases member
    | cons first rest =>
        have alone : rest = [] := List.eq_nil_of_length_eq_zero (by
          rw [List.length_cons] at short
          omega)
        rw [alone, List.mem_singleton] at member
        exact ⟨first, by rw [alone], member ▸ stored⟩
  · rintro ⟨val, rfl, stored⟩
    exact ⟨val, List.mem_singleton_self val, stored⟩

section Row

variable (parameters : UimfFrameParameters) {er : EncodedResult}

theorem rowRight_first (first : er.scan = 0) : RowRight parameters er := by
  rw [RowRight, scanRow_map]
  have same : parameters.startTrigger ≤ er.scan.toInt64.toUInt64 ↔
      (parameters.startTrigger.toNat : Int) ≤ er.scan.toInt := by
    rw [first, UInt64.le_iff_toNat_le]
    exact Int.ofNat_le.symm
  by_cases due : (parameters.startTrigger.toNat : Int) ≤ er.scan.toInt
  · rw [if_pos ⟨same.mpr due, Or.inr first⟩, if_pos ⟨due, Or.inr first⟩, scanNum_exact due]
  · rw [if_neg fun kept => due (same.mp kept.1), if_neg fun kept => due kept.1]

/-- A negative scan is before every start trigger, and after most of them as a `uint64_t`. -/
theorem rowRight_negative (later : er.scan ≠ 0) (negative : er.scan.toInt < 0) :
    RowRight parameters er ↔ ¬ Overlooked parameters er ∧ ¬ Spurious parameters er := by
  have before : ¬ (parameters.startTrigger.toNat : Int) ≤ er.scan.toInt := by omega
  rw [RowRight, scanRow_map, if_neg (fun due : Due parameters er => before due.1)]
  by_cases kept : parameters.startTrigger ≤ er.scan.toInt64.toUInt64 ∧
      (1 < er.encodedSpectra.length ∨ er.scan = 0)
  · rw [if_pos kept]
    refine iff_of_false nofun fun right => right.2 ?_
    exact ⟨later, kept.1, kept.2.resolve_right later, Or.inr negative⟩
  · rw [if_neg kept]
    exact iff_of_true rfl ⟨fun missed => before missed.2.1,
      fun spurious => kept ⟨spurious.2.1, Or.inl spurious.2.2.1⟩⟩

theorem rowRight_positive (later : er.scan ≠ 0) (positive : 0 ≤ er.scan.toInt) :
    RowRight parameters er ↔ ¬ Overlooked parameters er ∧ ¬ Spurious parameters er := by
  rw [RowRight, scanRow_map]
  have wide := int32_widen_exact er.scan positive
  have same : parameters.startTrigger ≤ er.scan.toInt64.toUInt64 ↔
      (parameters.startTrigger.toNat : Int) ≤ er.scan.toInt := by
    rw [UInt64.le_iff_toNat_le]
    omega
  by_cases due : (parameters.startTrigger.toNat : Int) ≤ er.scan.toInt
  · by_cases long : 1 < er.encodedSpectra.length
    · rw [if_pos ⟨same.mpr due, Or.inl long⟩, scanNum_exact due]
      have whole : ¬ Overlooked parameters er := by
        rintro ⟨_, _, val, single, _⟩
        rw [single] at long
        exact Nat.lt_irrefl 1 long
      by_cases stored : storedSamples er.encodedSpectra = []
      · rw [if_neg fun all : Due parameters er => all.2.elim (fun sample => sample stored) later]
        exact iff_of_false nofun fun right => right.2 ⟨later, same.mpr due, long, Or.inl stored⟩
      · rw [if_pos ⟨due, Or.inl stored⟩]
        refine iff_of_true rfl ⟨whole, fun spurious => ?_⟩
        exact spurious.2.2.2.elim stored fun negative => absurd positive (Int.not_le.mpr negative)
    · have single := single_sample (Nat.le_of_not_lt long)
      rw [if_neg fun kept => kept.2.elim long later]
      by_cases stored : storedSamples er.encodedSpectra = []
      · rw [if_neg fun all : Due parameters er => all.2.elim (fun sample => sample stored) later]
        refine iff_of_true rfl ⟨fun missed => ?_, fun spurious => long spurious.2.2.1⟩
        exact single.mpr missed.2.2 stored
      · rw [if_pos ⟨due, Or.inl stored⟩]
        exact iff_of_false nofun fun right => right.1 ⟨later, due, single.mp stored⟩
  · rw [if_neg fun kept => due (same.mp kept.1), if_neg fun all : Due parameters er => due all.1]
    exact iff_of_true rfl ⟨fun missed => due missed.2.1, fun spurious => due (same.mp spurious.2.1)⟩

end Row

theorem rowRight_iff (parameters : UimfFrameParameters) (er : EncodedResult) :
    RowRight parameters er ↔ ¬ Overlooked parameters er ∧ ¬ Spurious parameters er := by
  by_cases first : er.scan = 0
  · apply iff_of_true (rowRight_first parameters first)
    exact ⟨fun missed => missed.1 first, fun spurious => spurious.1 first⟩
  · by_cases negative : er.scan.toInt < 0
    · exact rowRight_negative parameters first negative
    · exact rowRight_positive parameters first (Int.not_lt.mp negative)

theorem batch_length (frame : UimfFrame) :
    (batch frame).length = (writeScanData frame).length + 4 := by
  simp [batch]

theorem thrown_left (frame : UimfFrame) (file : List FrameScansRow) (index : Nat)
    (inside : index < (batch frame).length) : rowsLeft ((batch frame).take index) file =
      if index + 1 = (batch frame).length then file ++ writeScanData frame else file := by
  rw [batch_length] at inside ⊢
  -- Only the last statement stands behind the end of the transaction.
  by_cases last : index + 1 = (writeScanData frame).length + 4
  · have cut : (batch frame).take index = [.pragma, .beginTransaction] ++
        (writeScanData frame).map .insert ++ [.endTransaction] := by
      rw [batch, List.take_append_of_le_length (by simp; omega), List.take_of_length_le (by simp; omega)]
    rw [if_pos last, cut, rowsLeft_ended]
  · have cut : (batch frame).take index = (SqlStatement.pragma :: .beginTransaction ::
        (writeScanData frame).map SqlStatement.insert).take index := by
      rw [batch, List.take_append_of_le_length (by simp; omega),
        List.take_append_of_le_length (by simp; omega)]
      rfl
    rw [if_neg last, cut]
    match index with
    | 0 => rfl
    | 1 => rfl
    | inserted + 2 =>
        rw [List.take_succ_cons, List.take_succ_cons, ← List.map_take]
        exact rowsLeft_unended _ file

/-- Every frame, and every statement of its batch that may throw. -/
theorem committed_rows_iff (frame : UimfFrame) (throws : Option (Fin (batch frame).length))
    (file : List FrameScansRow) :
    BatchRight frame throws file ↔
      (throws = none → ∀ er ∈ frame.data,
        ¬ Overlooked frame.parameters er ∧ ¬ Spurious frame.parameters er) ∧
      ∀ index, throws = some index → index.val + 1 = (batch frame).length →
        writeScanData frame = [] := by
  have whole : rowsLeft (batch frame) file = file ++ writeScanData frame := by
    have ended := rowsLeft_ended (writeScanData frame) file
    rw [rowsLeft] at ended ⊢
    rw [batch, List.foldl_append]
    exact ended
  cases throws with
  | none =>
      constructor
      · intro right
        exact ⟨fun _ er member => (rowRight_iff _ er).mp (right.rows rfl er member),
          fun _ chosen => by cases chosen⟩
      · rintro ⟨fine, _⟩
        exact ⟨fun _ => whole, fun _ er member => (rowRight_iff _ er).mpr (fine rfl er member),
          fun thrown => by cases thrown⟩
  | some index =>
      have left := thrown_left frame file index index.isLt
      constructor
      · intro right
        refine ⟨fun completed => (by cases completed), fun same chosen last => ?_⟩
        cases chosen
        have kept : rowsLeft ((batch frame).take index) file = file := right.rolledBack rfl
        rw [left, if_pos last] at kept
        exact List.append_right_eq_self.mp kept
      · rintro ⟨_, last⟩
        refine ⟨fun completed => (by cases completed), fun completed => (by cases completed),
          fun _ => left.trans ?_⟩
        by_cases behind : index.val + 1 = (batch frame).length
        · rw [if_pos behind, last index rfl behind, List.append_nil]
        · rw [if_neg behind]

def loneSample : UimfAcquisitionRecord where
  parameters := ⟨0, 0, 0, 0, 1, 0, ""⟩
  acquiredData := ⟨⟨List.replicate 16 0, 16, 0, 0, 0, 0⟩,
    [⟨7, 1, 0, [GateMarker.gateData ⟨1, 0, 2, 1⟩]⟩], 0⟩
  startScanIndex := 1

def loneFrame : UimfFrame := ⟨loneSample.parameters, [⟨1, 1, [32768], 32768, 32768, 0, 7⟩]⟩

/-- Its encoding is the sample alone, and the scan gets no row. -/
theorem committed_rows_lone :
    ¬ ∀ (r : UimfAcquisitionRecord) (frame : UimfFrame)
      (throws : Option (Fin (batch frame).length)) (file : List FrameScansRow),
      r.toFrame = .ok frame → BatchRight frame throws file := by
  intro right
  have made : loneSample.toFrame = .ok loneFrame := by decide +kernel
  have row := (right loneSample loneFrame none [] made).rows rfl _ List.mem_cons_self
  rw [RowRight] at row
  exact absurd row (by decide +kernel)

end AqMD3.Acquisition
