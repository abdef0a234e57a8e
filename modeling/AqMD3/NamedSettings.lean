import AqMD3.ConfigSettings

/-!
Which line of `config.txt` an integer setting comes from. A setting is right when it is the
number that all the text behind the '=' of the first line with its name denotes, and the
compiled-in number when no line has its name.
-/

namespace AqMD3

open KeyedLines NumberText

inductive IntSetting where
  | zeroSuppressThreshold
  | zeroSuppressHysteresis
  | controlIoPort
  | markerDiagnostics

namespace IntSetting

def key : IntSetting → List Char
  | zeroSuppressThreshold => "ZeroSuppressThreshold".toList
  | zeroSuppressHysteresis => "ZeroSuppressHysteresis".toList
  | controlIoPort => "ControlIoPort".toList
  | markerDiagnostics => "MarkerDiagnostics".toList

def value {Double : Type} (s : Settings Double) : IntSetting → Int
  | zeroSuppressThreshold => s.zeroSuppressThreshold
  | zeroSuppressHysteresis => s.zeroSuppressHysteresis
  | controlIoPort => s.controlIoPort
  | markerDiagnostics => s.markerDiagnostics

end IntSetting

/-- The text up to the first '='. -/
def keyText (line : List Char) : List Char := line.takeWhile fun symbol => symbol ≠ '='

/-- The text behind the first '='. -/
def valueText (line : List Char) : List Char :=
  (line.dropWhile fun symbol => symbol ≠ '=').tail

/-- The line is no comment, and the text up to its '=' is the key with blanks around it at most. -/
def names (key line : List Char) : Bool :=
  line.length ≠ 0 && line.head? ≠ some '#' &&
    ((keyText line).dropWhile isspace).rdropWhile isspace = key

/-- What one setting owes to the lines: the first one with its name is read, to its end. -/
def FromFirst (lines : List (List Char)) (key : List Char) (initial number : Int) : Prop :=
  match lines.find? (names key) with
  | none => number = initial
  | some line =>
      (∃ value, Config.readLine line = some (key, value)) ∧ Denotes (valueText line) number

variable {Double : Type}

/-- Whatever settings the file gives without being refused, each integer one is right. -/
def IntSettingsRight (d : Doubles Double) (s : Settings Double) (text : List Char) : Prop :=
  ∀ settings record, configureSettings d s (some text) = .ok (settings, record) →
    ∀ setting : IntSetting,
      FromFirst (Config.lines text) setting.key (setting.value s) (setting.value settings)

section Lines

variable {line key value : List Char} {number : Int}

theorem readLine_pieces (taken : Config.readLine line = some (key, value)) :
    line.length ≠ 0 ∧ line.head? ≠ some '#' ∧ pieces '=' line = [key, value] := by
  unfold Config.readLine at taken
  split at taken
  · cases taken
  · rename_i present
    split at taken
    · cases taken
    · rename_i noComment
      split at taken
      · rename_i cut
        cases taken
        exact ⟨present, noComment, cut⟩
      · cases taken

theorem readLine_keyText (taken : Config.readLine line = some (key, value)) :
    keyText line = key := pieces_head (readLine_pieces taken).2.2

theorem key_trimmed (setting : IntSetting) :
    (setting.key.dropWhile isspace).rdropWhile isspace = setting.key := by
  cases setting <;> decide

theorem readLine_names {setting : IntSetting}
    (taken : Config.readLine line = some (setting.key, value)) :
    names setting.key line = true := by
  obtain ⟨present, noComment, -⟩ := readLine_pieces taken
  rw [names, readLine_keyText taken, key_trimmed]
  simp [present, noComment]

/-- A whole number has no '=' in it, so the line is cut into two pieces. -/
theorem readLine_whole (named : names key line = true) (exact : keyText line = key)
    (denoted : Denotes (valueText line) number) :
    Config.readLine line = some (key, valueText line) := by
  obtain ⟨present, symbols⟩ := denotes_symbols denoted
  have noDelim : '=' ∉ valueText line := by
    intro member
    exact absurd (symbols '=' member) (by decide)
  have keyOutside : '=' ∉ key := by
    rw [← exact]
    intro member
    simpa using List.mem_takeWhile_imp member
  -- the value text is not empty, so a '=' stands in front of it
  have cut : line = key ++ '=' :: valueText line := by
    have whole := List.takeWhile_append_dropWhile (p := fun symbol => symbol ≠ '=') (l := line)
    have boundary := run_boundary (fun symbol => symbol ≠ '=') line
    rw [valueText] at present ⊢
    cases behind : line.dropWhile fun symbol => symbol ≠ '=' with
    | nil => exact absurd (by rw [behind]; rfl) present
    | cons symbol rest =>
        have delim : symbol = '=' := by simpa using boundary symbol (by rw [behind]; rfl)
        rw [behind, delim] at whole
        rw [← exact]
        exact whole.symm
  have two : pieces '=' line = [key, valueText line] := by
    have pair := pieces_pair keyOutside noDelim present
    rwa [← cut] at pair
  simp only [names, Bool.and_eq_true, decide_eq_true_eq] at named
  obtain ⟨⟨present, noComment⟩, -⟩ := named
  rw [Config.readLine, if_neg present, if_neg noComment, two]

theorem stoi_denotes {text : List Char} {found : Int} (denoted : Denotes text number)
    (converts : stoi text = .ok found) : found = number := by
  obtain ⟨rest, taken, -⟩ := denotes_prefix denoted
  rw [stoi, converted, taken] at converts
  dsimp only at converts
  split at converts
  · cases converts
    rfl
  · cases converts

/-- What is read is the number that a beginning of the text denotes. -/
theorem stoi_beginning {text : List Char} (converts : stoi text = .ok number) :
    ∃ front rest, text = front ++ rest ∧ Denotes front number := by
  unfold stoi converted at converts
  cases taken : integerPrefix text with
  | none =>
      rw [taken] at converts
      cases converts
  | some found =>
      rw [taken] at converts
      dsimp only at converts
      split at converts
      · cases converts
        obtain ⟨before, sign, digits, factor, cut, signed, blanks, present, allDigits, sum⟩ :=
          integerPrefix_taken taken
        refine ⟨before ++ (sign ++ (digits ++ [])), found.2, by simp [cut], before, sign, digits,
          [], factor, rfl, signed, blanks, fun _ none => absurd none List.not_mem_nil, present,
          allDigits, sum⟩
      · cases converts

end Lines

section Entries

variable {text line : List Char} {setting : IntSetting}

theorem read_lookup (text key : List Char) :
    (Config.read text).configMap.lookup key =
      ((Config.lines text).filterMap Config.readLine).lookup key := by
  unfold Config.read
  rw [lookup_inserted, List.lookup_nil, Option.none_or]

theorem read_unnamed (unnamed : (Config.lines text).find? (names setting.key) = none) :
    (Config.read text).configMap.lookup setting.key = none := by
  rw [read_lookup]
  exact lookup_unnamed (fun _ _ taken => readLine_names taken) unnamed

theorem read_first {value : List Char}
    (first : (Config.lines text).find? (names setting.key) = some line)
    (taken : Config.readLine line = some (setting.key, value)) :
    (Config.read text).configMap.lookup setting.key = some value := by
  rw [read_lookup]
  exact lookup_first (fun _ _ taken => readLine_names taken) first taken

end Entries

/-- `configure_settings` does not refuse the file: what is present can be converted, and the
numbers are in their ranges. -/
structure Accepted (d : Doubles Double) (s : Settings Double) (config : Config) : Prop where
  postTriggerDelay : ∃ delay,
    Gives config "PostTriggerDelay".toList d.stod s.postTriggerDelay delay
  estimatedTriggerRearmTime : ∃ time,
    Gives config "TriggerRearmDeadTime".toList d.stod s.estimatedTriggerRearmTime time
  notifyOnScansCount : ∃ count,
    Gives config "NotifyOnScansCount".toList stoull s.notifyOnScansCount count
  acquisitionTimeoutMs : ∃ timeout,
    Gives config "AcquisitionTimeoutMs".toList stoll s.acquisitionTimeoutMs timeout
  acquisitionInitialBufferCount : ∃ count,
    Gives config "AcquisitionInitialBufferCount".toList stoull
      s.acquisitionInitialBufferCount count
  acquisitionMaxBufferCount : ∃ count,
    Gives config "AcquisitionMaxBufferCount".toList stoull s.acquisitionMaxBufferCount count
  acquisitionBufferReserveElementsCount : ∃ count,
    Gives config "AcquisitionBufferReserveElementsCount".toList stoull
      s.acquisitionBufferReserveElementsCount count
  triggerLevel : ∃ level, Gives config "TriggerLevel".toList d.stod s.triggerLevel level
  fullScaleRange : ∃ range, Gives config "FullScaleRange".toList d.stod s.fullScaleRange range ∧
    (d.equals range (d.literal (1 / 2)) ∨ d.equals range (d.literal (5 / 2)))
  zeroSuppressThreshold : ∃ threshold,
    Gives config "ZeroSuppressThreshold".toList stoi s.zeroSuppressThreshold threshold ∧
      -32768 ≤ threshold ∧ threshold ≤ 32767
  zeroSuppressHysteresis : ∃ hysteresis,
    Gives config "ZeroSuppressHysteresis".toList stoi s.zeroSuppressHysteresis hysteresis ∧
      100 ≤ hysteresis ∧ hysteresis ≤ 1023
  controlIoPort : ∃ port, Gives config "ControlIoPort".toList stoi s.controlIoPort port ∧
    1 ≤ port ∧ port ≤ 3
  markerDiagnostics : ∃ marker,
    Gives config "MarkerDiagnostics".toList stoi s.markerDiagnostics marker ∧
      (marker = 0 ∨ marker = 1)
  triggerSlope : ∃ rising, Gives config "TriggerSlope".toList slopeRising s.triggerRising rising

section Acceptance

variable (d : Doubles Double) (s : Settings Double) (config : Config)

theorem rejectBadSettings_passes : rejectBadSettings d s = .ok () ↔
    (-32768 ≤ s.zeroSuppressThreshold ∧ s.zeroSuppressThreshold ≤ 32767) ∧
    (100 ≤ s.zeroSuppressHysteresis ∧ s.zeroSuppressHysteresis ≤ 1023) ∧
    (d.equals s.fullScaleRange (d.literal (1 / 2)) ∨
      d.equals s.fullScaleRange (d.literal (5 / 2))) ∧
    (1 ≤ s.controlIoPort ∧ s.controlIoPort ≤ 3) := by
  unfold rejectBadSettings
  constructor
  · intro passes
    split at passes
    · cases passes
    split at passes
    · cases passes
    split at passes
    · cases passes
    split at passes
    · cases passes
    rename_i threshold hysteresis range port
    refine ⟨by omega, by omega, ?_, by omega⟩
    by_contra neither
    rw [not_or, Bool.not_eq_true, Bool.not_eq_true] at neither
    rw [neither.1, neither.2] at range
    exact range rfl
  · rintro ⟨threshold, hysteresis, range, port⟩
    rw [if_neg (by omega), if_neg (by omega), if_neg ?_, if_neg (by omega)]
    rcases range with half | twoAndHalf
    · rw [half, Bool.not_true, Bool.false_and]
      exact Bool.false_ne_true
    · rw [twoAndHalf, Bool.not_true, Bool.and_false]
      exact Bool.false_ne_true

theorem gives_entry (key : List Char) (fallback : List Char) :
    ∃ value, Gives config key .ok fallback value := by
  unfold Gives
  cases config.configMap.lookup key with
  | none => exact ⟨fallback, rfl⟩
  | some value => exact ⟨value, rfl⟩

theorem accepted_iff : Accepted d s config ↔ ∃ settings, Taken d s config settings := by
  constructor
  · rintro ⟨⟨delay, delayed⟩, ⟨time, timed⟩, ⟨scans, scanned⟩, ⟨timeout, timeouts⟩,
      ⟨initial, initials⟩, ⟨most, mosts⟩, ⟨reserve, reserved⟩, ⟨level, leveled⟩,
      ⟨range, ranged, full⟩, ⟨threshold, thresholds, inThreshold⟩,
      ⟨hysteresis, hystereses, inHysteresis⟩, ⟨port, ports, inPort⟩,
      ⟨marker, markers, binary⟩, ⟨rising, risen⟩⟩
    obtain ⟨name, named⟩ := gives_entry config "ResourceName".toList s.resourceName
    obtain ⟨log, logged⟩ := gives_entry config "LogLevel".toList s.logLevel
    let settings : Settings Double :=
      { postTriggerDelay := delay, estimatedTriggerRearmTime := time,
        notifyOnScansCount := scans, resourceName := name, acquisitionTimeoutMs := timeout,
        acquisitionInitialBufferCount := initial, acquisitionMaxBufferCount := most,
        acquisitionBufferReserveElementsCount := reserve, logLevel := log,
        triggerLevel := level, triggerRising := rising, fullScaleRange := range,
        zeroSuppressThreshold := threshold, zeroSuppressHysteresis := hysteresis,
        controlIoPort := port, markerDiagnostics := marker, diagnostics := marker == 1 }
    have passes : rejectBadSettings d settings = .ok () :=
      (rejectBadSettings_passes d settings).mpr ⟨inThreshold, inHysteresis, full, inPort⟩
    exact ⟨settings, ⟨delayed, timed, named, scanned, timeouts, initials, mosts, reserved, logged,
      leveled, ranged, thresholds, hystereses, ports, markers, binary, rfl, risen, passes⟩⟩
  · rintro ⟨settings, taken⟩
    obtain ⟨inThreshold, inHysteresis, full, inPort⟩ :=
      (rejectBadSettings_passes d settings).mp taken.allowed
    exact ⟨⟨_, taken.postTriggerDelay⟩, ⟨_, taken.estimatedTriggerRearmTime⟩,
      ⟨_, taken.notifyOnScansCount⟩, ⟨_, taken.acquisitionTimeoutMs⟩,
      ⟨_, taken.acquisitionInitialBufferCount⟩, ⟨_, taken.acquisitionMaxBufferCount⟩,
      ⟨_, taken.acquisitionBufferReserveElementsCount⟩, ⟨_, taken.triggerLevel⟩,
      ⟨_, taken.fullScaleRange, full⟩, ⟨_, taken.zeroSuppressThreshold, inThreshold⟩,
      ⟨_, taken.zeroSuppressHysteresis, inHysteresis⟩, ⟨_, taken.controlIoPort, inPort⟩,
      ⟨_, taken.markerDiagnostics, taken.binary⟩, ⟨_, taken.triggerRising⟩⟩

theorem taken_value {settings : Settings Double} (taken : Taken d s config settings)
    (setting : IntSetting) :
    Gives config setting.key stoi (setting.value s) (setting.value settings) := by
  cases setting with
  | zeroSuppressThreshold => exact taken.zeroSuppressThreshold
  | zeroSuppressHysteresis => exact taken.zeroSuppressHysteresis
  | controlIoPort => exact taken.controlIoPort
  | markerDiagnostics => exact taken.markerDiagnostics

end Acceptance

/-- In a file that is not refused every first line with a setting's name has no blanks around
the name, and only a whole number behind the '='. -/
theorem configureSettings_right_iff (d : Doubles Double) (s : Settings Double)
    (text : List Char) :
    IntSettingsRight d s text ↔
      (Accepted d s (Config.read text) → ∀ (setting : IntSetting) (line : List Char),
        (Config.lines text).find? (names setting.key) = some line →
          keyText line = setting.key ∧ ∃ number, Denotes (valueText line) number) := by
  constructor
  · intro right accepted setting line first
    obtain ⟨settings, taken⟩ := (accepted_iff d s _).mp accepted
    -- the file is not refused, so the setting is owed to this line
    have returned := (configureSettings_returned d s settings text _).mpr ⟨taken, rfl⟩
    have owed := right settings _ returned setting
    rw [FromFirst, first] at owed
    obtain ⟨⟨value, read⟩, denoted⟩ := owed
    exact ⟨readLine_keyText read, _, denoted⟩
  · intro whole settings record returned setting
    obtain ⟨taken, -⟩ := (configureSettings_returned d s settings text record).mp returned
    have accepted := (accepted_iff d s _).mpr ⟨settings, taken⟩
    have given := taken_value d s _ taken setting
    unfold FromFirst
    cases first : (Config.lines text).find? (names setting.key) with
    | none =>
        rw [Gives, read_unnamed first] at given
        exact given
    | some line =>
        -- the line is an entry, the first one of its key, and `stoi` reads all of it
        obtain ⟨exact, number, denoted⟩ := whole accepted setting line first
        have read := readLine_whole (List.find?_some first) exact denoted
        rw [Gives, read_first first read] at given
        rw [stoi_denotes denoted given]
        exact ⟨⟨_, read⟩, denoted⟩

/-- Rationals for doubles. Only whole numbers are read, which is enough for a file that names
no double. -/
def wholeDoubles : Doubles Rat where
  literal := id
  equals first second := first = second
  stod text := (stoi text).map fun value => (value : Rat)
  toString value := toString value

/-- "3x" becomes port 3. -/
theorem port_misread :
    ¬IntSettingsRight wholeDoubles (compiledIn wholeDoubles) "ControlIoPort=3x".toList := by
  intro right
  cases returned : configureSettings wholeDoubles (compiledIn wholeDoubles)
      (some "ControlIoPort=3x".toList) with
  | error message =>
      have accepted : (configureSettings wholeDoubles (compiledIn wholeDoubles)
          (some "ControlIoPort=3x".toList)).isOk = true := by decide +kernel
      rw [returned] at accepted
      cases accepted
  | ok result =>
      have owed := right result.1 result.2 returned .controlIoPort
      have first : (Config.lines "ControlIoPort=3x".toList).find?
          (names IntSetting.controlIoPort.key) = some "ControlIoPort=3x".toList := by
        decide +kernel
      rw [FromFirst, first] at owed
      have unwhole : ¬∃ number, Denotes (valueText "ControlIoPort=3x".toList) number := by
        decide +kernel
      exact unwhole ⟨_, owed.2⟩

end AqMD3
