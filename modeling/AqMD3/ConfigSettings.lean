import Mathlib.Data.Rat.Defs
import Mathlib.Data.List.DropRight
import AqMD3.KeyedLines
import AqMD3.NumberText

/-!
`config.txt` and the settings the console takes from it (`config.h`, `aqmd3_console.cpp`).
A line is taken when '=' cuts it into two pieces, and a number is read with `std::stoi`,
which asks only for a number at the beginning of the text.
-/

namespace AqMD3

open KeyedLines NumberText

structure Config where
  configMap : List (List Char × List Char)

namespace Config

/-- One line of the file: the key and the value it gives, if it gives them. -/
def readLine (line : List Char) : Option (List Char × List Char) :=
  if line.length = 0 then none
  else if line.head? = some '#' then none
  else
    match pieces '=' line with
    | [key, value] => some (key, value)
    -- config.txt is malformed: a line on std::cerr, and the next line is read
    | _ => none

def lines (text : List Char) : List (List Char) := pieces '\n' text

def read (text : List Char) : Config :=
  { configMap := ((lines text).filterMap readLine).foldl insert [] }

def hasKey (config : Config) (key : List Char) : Bool := (config.configMap.lookup key).isSome

def getValue (config : Config) (key : List Char) : Except String (List Char) :=
  match config.configMap.lookup key with
  | none => .error ("key " ++ String.ofList key ++ " not found\n")
  | some value => .ok value

end Config

section Conversions

variable {Number : Type}

/-- The conversions to integers of the standard library. `fits` is the range of the type. -/
def converted (name : String) (fits : Int → Bool) (store : Int → Number) (text : List Char) :
    Except String Number :=
  match integerPrefix text with
  | none => .error ("invalid " ++ name ++ " argument")
  | some (value, _) =>
      if fits value then .ok (store value) else .error (name ++ " argument out of range")

def stoi (text : List Char) : Except String Int :=
  converted "stoi" (fun value => -2 ^ 31 ≤ value && value < 2 ^ 31) id text

def stoll (text : List Char) : Except String Int :=
  converted "stoll" (fun value => -2 ^ 63 ≤ value && value < 2 ^ 63) id text

/-- A negative number is taken and wraps around. -/
def stoull (text : List Char) : Except String UInt64 :=
  converted "stoull" (fun value => value.natAbs < 2 ^ 64) (fun value => UInt64.ofInt value) text

/-- What the console asks of `double`. The literals of the source are given as rationals. -/
structure Doubles (Double : Type) where
  literal : Rat → Double
  equals : Double → Double → Bool
  stod : List Char → Except String Double
  toString : Double → String

end Conversions

/-- The settings `configure_settings` writes. -/
structure Settings (Double : Type) where
  postTriggerDelay : Double
  estimatedTriggerRearmTime : Double
  notifyOnScansCount : UInt64
  resourceName : List Char
  acquisitionTimeoutMs : Int
  acquisitionInitialBufferCount : UInt64
  acquisitionMaxBufferCount : UInt64
  acquisitionBufferReserveElementsCount : UInt64
  logLevel : List Char
  triggerLevel : Double
  triggerRising : Bool
  fullScaleRange : Double
  zeroSuppressThreshold : Int
  zeroSuppressHysteresis : Int
  controlIoPort : Int
  markerDiagnostics : Int
  /-- `CstZs1Context::diagnostics`. -/
  diagnostics : Bool

variable {Double : Type}

/-- The values the console is compiled with. -/
def compiledIn (d : Doubles Double) : Settings Double where
  postTriggerDelay := d.literal (1 / 100000)
  estimatedTriggerRearmTime := d.literal (2048 / 1000000000)
  notifyOnScansCount := 500
  resourceName := "PXI0::0::0::INSTR".toList
  acquisitionTimeoutMs := 100
  acquisitionInitialBufferCount := 40
  acquisitionMaxBufferCount := 100
  acquisitionBufferReserveElementsCount := 2048
  logLevel := "info".toList
  triggerLevel := d.literal 2
  triggerRising := true
  fullScaleRange := d.literal (1 / 2)
  zeroSuppressThreshold := -32667
  zeroSuppressHysteresis := 100
  controlIoPort := 2
  markerDiagnostics := 0
  diagnostics := false

section Readers

variable {Number : Type} (config : Config) (key : List Char)

/-- `config.has_key(key) ? convert(config.get_value(key)) : fallback`. -/
def valueOr (convert : List Char → Except String Number) (fallback : Number) :
    Except String Number :=
  if config.hasKey key then (config.getValue key).bind convert else .ok fallback

/-- The text of the key replaces what the conversion says. -/
def configNumber (kind : String) (convert : List Char → Except String Number)
    (fallback : Number) : Except String Number :=
  if !config.hasKey key then .ok fallback
  else
    (config.getValue key).bind fun value =>
      match convert value with
      | .ok number => .ok number
      | .error _ =>
          .error (String.ofList key ++ " must be " ++ kind ++ ", got \"" ++ String.ofList value
            ++ "\"")

def configDouble (d : Doubles Double) (fallback : Double) : Except String Double :=
  configNumber config key "a number" d.stod fallback

def configInt (fallback : Int) : Except String Int :=
  configNumber config key "a whole number" stoi fallback

end Readers

/-- Blanks at the end do not count, and neither does the case. -/
def slopeRising (value : List Char) : Except String Bool :=
  let slope := (value.rdropWhile fun c => c ∈ [' ', '\t', '\r', '\n']).map Char.toLower
  if slope = "rising".toList then .ok true
  else if slope = "falling".toList then .ok false
  else .error ("TriggerSlope must be rising or falling, got " ++ String.ofList slope)

def rejectBadSettings (d : Doubles Double) (s : Settings Double) : Except String Unit :=
  if s.zeroSuppressThreshold < -32768 ∨ s.zeroSuppressThreshold > 32767 then
    .error ("ZeroSuppressThreshold must be between -32768 and 32767, got "
      ++ toString s.zeroSuppressThreshold)
  else if s.zeroSuppressHysteresis < 100 ∨ s.zeroSuppressHysteresis > 1023 then
    .error ("ZeroSuppressHysteresis must be between 100 and 1023, got "
      ++ toString s.zeroSuppressHysteresis)
  else if !d.equals s.fullScaleRange (d.literal (1 / 2))
      && !d.equals s.fullScaleRange (d.literal (5 / 2)) then
    .error ("FullScaleRange must be 0.5 or 2.5, got " ++ d.toString s.fullScaleRange)
  else if s.controlIoPort < 1 ∨ s.controlIoPort > 3 then
    .error ("ControlIoPort must be 1, 2 or 3, got " ++ toString s.controlIoPort)
  else .ok ()

/-- The settings after `configure_settings`, for the text of `config.txt` if there is one. -/
def configureSettings (d : Doubles Double) (s : Settings Double) :
    Option (List Char) → Except String (Settings Double × Option Config)
  | none => .ok (s, none)
  | some text => do
      let config := Config.read text
      let postTriggerDelay ←
        valueOr config "PostTriggerDelay".toList d.stod s.postTriggerDelay
      let estimatedTriggerRearmTime ←
        valueOr config "TriggerRearmDeadTime".toList d.stod s.estimatedTriggerRearmTime
      let resourceName ← valueOr config "ResourceName".toList .ok s.resourceName
      let notifyOnScansCount ←
        valueOr config "NotifyOnScansCount".toList stoull s.notifyOnScansCount
      let acquisitionTimeoutMs ←
        valueOr config "AcquisitionTimeoutMs".toList stoll s.acquisitionTimeoutMs
      let acquisitionInitialBufferCount ←
        valueOr config "AcquisitionInitialBufferCount".toList stoull
          s.acquisitionInitialBufferCount
      let acquisitionMaxBufferCount ←
        valueOr config "AcquisitionMaxBufferCount".toList stoull s.acquisitionMaxBufferCount
      let acquisitionBufferReserveElementsCount ←
        valueOr config "AcquisitionBufferReserveElementsCount".toList stoull
          s.acquisitionBufferReserveElementsCount
      let logLevel ← valueOr config "LogLevel".toList .ok s.logLevel
      let triggerLevel ← configDouble config "TriggerLevel".toList d s.triggerLevel
      let fullScaleRange ← configDouble config "FullScaleRange".toList d s.fullScaleRange
      let zeroSuppressThreshold ←
        configInt config "ZeroSuppressThreshold".toList s.zeroSuppressThreshold
      let zeroSuppressHysteresis ←
        configInt config "ZeroSuppressHysteresis".toList s.zeroSuppressHysteresis
      let controlIoPort ← configInt config "ControlIoPort".toList s.controlIoPort
      let markerDiagnostics ← configInt config "MarkerDiagnostics".toList s.markerDiagnostics
      if markerDiagnostics ≠ 0 ∧ markerDiagnostics ≠ 1 then
        throw ("MarkerDiagnostics must be 0 or 1, got " ++ toString markerDiagnostics)
      let triggerRising ← valueOr config "TriggerSlope".toList slopeRising s.triggerRising
      let settings : Settings Double :=
        { postTriggerDelay, estimatedTriggerRearmTime, notifyOnScansCount, resourceName,
          acquisitionTimeoutMs, acquisitionInitialBufferCount, acquisitionMaxBufferCount,
          acquisitionBufferReserveElementsCount, logLevel, triggerLevel, triggerRising,
          fullScaleRange, zeroSuppressThreshold, zeroSuppressHysteresis, controlIoPort,
          markerDiagnostics, diagnostics := markerDiagnostics == 1 }
      rejectBadSettings d settings
      return (settings, some config)

section Returned

variable {Number : Type} {config : Config} {key : List Char}
  {convert : List Char → Except String Number} {fallback number : Number}

/-- What a setting becomes: the fallback without an entry, else the entry's text converted. -/
def Gives (config : Config) (key : List Char) (convert : List Char → Except String Number)
    (fallback number : Number) : Prop :=
  match config.configMap.lookup key with
  | none => number = fallback
  | some value => convert value = .ok number

theorem bind_returned {First Second : Type} {first : Except String First}
    {next : First → Except String Second} {result : Second} :
    (first >>= next) = .ok result ↔ ∃ value, first = .ok value ∧ next value = .ok result := by
  cases first with
  | error message => simp [Bind.bind, Except.bind]
  | ok value => simp [Bind.bind, Except.bind]

theorem valueOr_returned :
    valueOr config key convert fallback = .ok number ↔
      Gives config key convert fallback number := by
  unfold valueOr Gives Config.hasKey Config.getValue
  cases config.configMap.lookup key with
  | none => simp [eq_comm]
  | some value => simp [Except.bind]

theorem configNumber_returned (kind : String) :
    configNumber config key kind convert fallback = .ok number ↔
      Gives config key convert fallback number := by
  unfold configNumber Gives Config.hasKey Config.getValue
  cases config.configMap.lookup key with
  | none => simp [eq_comm]
  | some value =>
      simp only [Option.isSome_some, Bool.not_true, Bool.false_eq_true, if_false, Except.bind]
      cases convert value with
      | error message => simp
      | ok found => simp

theorem configNumber_refused (kind : String) {value : List Char} {message : String}
    (entry : config.configMap.lookup key = some value) (fails : convert value = .error message) :
    configNumber config key kind convert fallback =
      .error (String.ofList key ++ " must be " ++ kind ++ ", got \"" ++ String.ofList value
        ++ "\"") := by
  simp [configNumber, Config.hasKey, Config.getValue, entry, Except.bind, fails]

end Returned

/-- The settings a file that is not refused gives, one condition for each. -/
structure Taken (d : Doubles Double) (s : Settings Double) (config : Config)
    (settings : Settings Double) : Prop where
  postTriggerDelay : Gives config "PostTriggerDelay".toList d.stod s.postTriggerDelay
    settings.postTriggerDelay
  estimatedTriggerRearmTime : Gives config "TriggerRearmDeadTime".toList d.stod
    s.estimatedTriggerRearmTime settings.estimatedTriggerRearmTime
  resourceName : Gives config "ResourceName".toList .ok s.resourceName settings.resourceName
  notifyOnScansCount : Gives config "NotifyOnScansCount".toList stoull s.notifyOnScansCount
    settings.notifyOnScansCount
  acquisitionTimeoutMs : Gives config "AcquisitionTimeoutMs".toList stoll
    s.acquisitionTimeoutMs settings.acquisitionTimeoutMs
  acquisitionInitialBufferCount : Gives config "AcquisitionInitialBufferCount".toList stoull
    s.acquisitionInitialBufferCount settings.acquisitionInitialBufferCount
  acquisitionMaxBufferCount : Gives config "AcquisitionMaxBufferCount".toList stoull
    s.acquisitionMaxBufferCount settings.acquisitionMaxBufferCount
  acquisitionBufferReserveElementsCount :
    Gives config "AcquisitionBufferReserveElementsCount".toList stoull
      s.acquisitionBufferReserveElementsCount settings.acquisitionBufferReserveElementsCount
  logLevel : Gives config "LogLevel".toList .ok s.logLevel settings.logLevel
  triggerLevel : Gives config "TriggerLevel".toList d.stod s.triggerLevel settings.triggerLevel
  fullScaleRange : Gives config "FullScaleRange".toList d.stod s.fullScaleRange
    settings.fullScaleRange
  zeroSuppressThreshold : Gives config "ZeroSuppressThreshold".toList stoi
    s.zeroSuppressThreshold settings.zeroSuppressThreshold
  zeroSuppressHysteresis : Gives config "ZeroSuppressHysteresis".toList stoi
    s.zeroSuppressHysteresis settings.zeroSuppressHysteresis
  controlIoPort : Gives config "ControlIoPort".toList stoi s.controlIoPort
    settings.controlIoPort
  markerDiagnostics : Gives config "MarkerDiagnostics".toList stoi s.markerDiagnostics
    settings.markerDiagnostics
  binary : settings.markerDiagnostics = 0 ∨ settings.markerDiagnostics = 1
  diagnostics : settings.diagnostics = (settings.markerDiagnostics == 1)
  triggerRising : Gives config "TriggerSlope".toList slopeRising s.triggerRising
    settings.triggerRising
  allowed : rejectBadSettings d settings = .ok ()

/-- `configure_settings` returns exactly the settings the file gives. -/
theorem configureSettings_returned (d : Doubles Double) (s settings : Settings Double)
    (text : List Char) (record : Option Config) :
    configureSettings d s (some text) = .ok (settings, record) ↔
      Taken d s (Config.read text) settings ∧ record = some (Config.read text) := by
  simp only [configureSettings, bind_returned, valueOr_returned, configDouble, configInt,
    configNumber_returned]
  constructor
  · rintro ⟨delay, delayed, rearm, rearmed, name, named, scans, scanned, timeout, timed, initial,
      initials, most, mosts, reserve, reserved, level, leveled, trigger, triggered, full, fulls,
      threshold, thresholds, hysteresis, hystereses, port, ports, marker, markers, rest⟩
    split at rest
    · cases rest
    · rename_i binary
      simp only [bind_returned, valueOr_returned] at rest
      obtain ⟨rising, risen, _, allowed, returned⟩ := rest
      cases returned
      have binary : marker = 0 ∨ marker = 1 := by omega
      exact ⟨⟨delayed, rearmed, named, scanned, timed, initials, mosts, reserved, leveled,
        triggered, fulls, thresholds, hystereses, ports, markers, binary, rfl, risen, allowed⟩, rfl⟩
  · rintro ⟨taken, rfl⟩
    refine ⟨_, taken.postTriggerDelay, _, taken.estimatedTriggerRearmTime, _, taken.resourceName,
      _, taken.notifyOnScansCount, _, taken.acquisitionTimeoutMs, _,
      taken.acquisitionInitialBufferCount, _, taken.acquisitionMaxBufferCount, _,
      taken.acquisitionBufferReserveElementsCount, _, taken.logLevel, _, taken.triggerLevel, _,
      taken.fullScaleRange, _, taken.zeroSuppressThreshold, _, taken.zeroSuppressHysteresis, _,
      taken.controlIoPort, _, taken.markerDiagnostics, ?_⟩
    have binary := taken.binary
    rw [if_neg (by omega)]
    simp only [bind_returned, valueOr_returned]
    refine ⟨_, taken.triggerRising, (), ?_, ?_⟩
    · rw [← taken.diagnostics]
      exact taken.allowed
    · rw [← taken.diagnostics]
      rfl

end AqMD3
