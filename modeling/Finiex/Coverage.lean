import Finiex.Preparation
import Finiex.Lib.Rounding
import Mathlib.Tactic.Ring

/-!
# Gap coverage and scenario validation

The market calendar, the gaps detected in bars and in signal series, and the checks of a
scenario against them once its data is loaded.
-/

namespace Finiex.Coverage

open Finiex.Types
open Finiex.Lib
open Finiex.Lib.Rounding
open Finiex.Fees
open Finiex.Bars
open Finiex.Preparation

section Calendar

def microsecondsPerHour : ℤ := 3600000000

def hourOf (t : Instant) : ℤ := (t - dayStart t) / microsecondsPerHour

def atHour (day hour : ℤ) : Instant := day * microsecondsPerDay + hour * microsecondsPerHour

def monthDay (day : ℤ) : ℤ × ℤ :=
  -- counted in years from March, in eras of 400 years
  let shifted := day + 719468
  let dayOfEra := shifted % 146097
  let yearOfEra := (dayOfEra - dayOfEra / 1460 + dayOfEra / 36524 - dayOfEra / 146096) / 365
  let dayOfYear := dayOfEra - (365 * yearOfEra + yearOfEra / 4 - yearOfEra / 100)
  let monthFromMarch := (5 * dayOfYear + 2) / 153
  (if monthFromMarch < 10 then monthFromMarch + 3 else monthFromMarch - 9,
    dayOfYear - (153 * monthFromMarch + 2) / 5 + 1)

example : monthDay 19716 = (12, 25) := by decide

def marketHolidays : List (ℤ × ℤ) := [(12, 25), (1, 1)]

structure WeekendClosureWindow where
  fridayStartHour : ℤ := 20
  sundayEndHour : ℤ := 22
  minDurationHours : ℚ := 40
  maxDurationHours : ℚ := 80
  altMinDurationHours : ℚ := 24
  altMaxDurationHours : ℚ := 50

def weekendClosure : WeekendClosureWindow := {}

inductive GapCategory
  | seamless | weekend | holiday | short | moderate | large
  deriving DecidableEq, Repr

structure GapThresholds where
  short : ℚ := 1 / 2
  moderate : ℚ := 4

def WeekendClosureWindow.matchesPrimaryPattern (closure : WeekendClosureWindow)
    (startWeekday startHour endWeekday endHour : ℤ) (gapHours : ℚ) : Bool :=
  decide (startWeekday = 4 ∧ closure.fridayStartHour ≤ startHour) &&
    decide (endWeekday = 6 ∧ endHour ≤ closure.sundayEndHour) &&
    decide (closure.minDurationHours ≤ gapHours ∧ gapHours ≤ closure.maxDurationHours)

def WeekendClosureWindow.matchesAlternativePattern (closure : WeekendClosureWindow)
    (startWeekday endWeekday endHour : ℤ) (gapHours : ℚ) : Bool :=
  decide (startWeekday = 5) &&
    decide (endWeekday = 6 ∧ endHour ≤ closure.sundayEndHour) &&
    decide (closure.altMinDurationHours ≤ gapHours ∧ gapHours ≤ closure.altMaxDurationHours)

def gapContainsHoliday (start «end» : Instant) : Bool :=
  (List.range (dayOf «end» - dayOf start + 1).toNat).any fun n =>
    decide (monthDay (dayOf start + n) ∈ marketHolidays)

def isMarketOpen (t : Instant) : Bool := decide (0 ≤ weekday (dayOf t) ∧ weekday (dayOf t) ≤ 4)

def classifyGap (start «end» : Instant) (gapSeconds : ℚ) (thresholds : GapThresholds)
    (closes : Bool) : GapCategory × String :=
  let gapHours := gapSeconds / 3600
  let startDay := weekday (dayOf start)
  let endDay := weekday (dayOf «end»)
  let hours := fun digits => fixedPoint digits gapHours ++ "h)"
  if gapSeconds < 5 then (.seamless, "✅ Perfect continuity")
  else if closes && weekendClosure.matchesPrimaryPattern startDay (hourOf start) endDay
      (hourOf «end») gapHours then (.weekend, "✅ Normal weekend gap (" ++ hours 1)
  else if closes && weekendClosure.matchesAlternativePattern startDay endDay (hourOf «end»)
      gapHours then (.weekend, "✅ Weekend gap (Sat→Mon, " ++ hours 1)
  else if closes && decide (20 ≤ gapHours) && gapContainsHoliday start «end» then
    (.holiday, "✅ Holiday gap (" ++ hours 1)
  else if gapHours < thresholds.short then
    (.short, "⚠️  Short interruption (" ++ ⌊gapSeconds / 60⌋.repr ++ " min - restart/connection?)")
  else if gapHours < thresholds.moderate then
    (.moderate,
      (if !closes then "⚠️  Moderate gap ("
        else if isMarketOpen start then "⚠️  Moderate gap during trading hours ("
        else "ℹ️  Moderate gap outside trading hours (") ++ hours 2)
  else (.large, "🔴 Large gap - check data collection (" ++ hours 2)

def isInWeekendClosure (t : Instant) : Bool :=
  decide (weekday (dayOf t) = 4 ∧ weekendClosure.fridayStartHour ≤ hourOf t) ||
    decide (weekday (dayOf t) = 5) ||
    decide (weekday (dayOf t) = 6 ∧ hourOf t < weekendClosure.sundayEndHour)

def getWeekendEnd (t : Instant) : Instant :=
  let daysToSunday := if weekday (dayOf t) = 4 then 2 else if weekday (dayOf t) = 5 then 1 else 0
  atHour (dayOf t + daysToSunday) weekendClosure.sundayEndHour

def getNextFridayClose (t : Instant) : Instant :=
  if weekday (dayOf t) = 4 then atHour (dayOf t) weekendClosure.fridayStartHour
  else atHour (dayOf t + (4 - weekday (dayOf t)) % 7) weekendClosure.fridayStartHour

def segmentEnd (current «end» : Instant) : Instant :=
  if isInWeekendClosure current then min (getWeekendEnd current) «end»
  else if getNextFridayClose current < «end» then getNextFridayClose current
  else «end»

theorem exists_dayTime (t : ℤ) :
    ∃ day rest : ℤ, t = day * 86400000000 + rest ∧ 0 ≤ rest ∧ rest < 86400000000 ∧
      dayOf t = day ∧ hourOf t = rest / 3600000000 := by
  have hday : dayOf t = t / 86400000000 := Int.fdiv_eq_ediv_of_nonneg _ (by decide)
  have hrest : t - t / 86400000000 * 86400000000 = t % 86400000000 := by
    rw [Int.emod_def, mul_comm]
  refine ⟨t / 86400000000, t % 86400000000, ?_, Int.emod_nonneg _ (by decide),
    Int.emod_lt_of_pos _ (by decide), hday, ?_⟩
  · rw [← hrest]
    ring
  · rw [hourOf, dayStart, hday, ← hrest]
    rfl

theorem lt_boundary (t : ℤ) :
    (isInWeekendClosure t = true → t < getWeekendEnd t) ∧
      (isInWeekendClosure t = false → t < getNextFridayClose t) := by
  obtain ⟨day, rest, ht, hlow, hhigh, hday, hhour⟩ := exists_dayTime t
  have hweekday : 0 ≤ weekday day ∧ weekday day < 7 :=
    ⟨Int.emod_nonneg _ (by decide), Int.emod_lt_of_pos _ (by decide)⟩
  constructor
  · intro hclosed
    simp only [isInWeekendClosure, hday, hhour, weekendClosure, Bool.or_eq_true,
      decide_eq_true_eq] at hclosed
    show t < getWeekendEnd t
    simp only [getWeekendEnd, hday, atHour, weekendClosure, microsecondsPerDay,
      microsecondsPerHour]
    split
    · omega
    · split <;> omega
  · intro hopen
    simp only [isInWeekendClosure, hday, hhour, weekendClosure, Bool.or_eq_false_iff,
      decide_eq_false_iff_not, not_and, not_le, not_lt] at hopen
    simp only [getNextFridayClose, hday, atHour, weekendClosure, microsecondsPerDay,
      microsecondsPerHour]
    split <;> omega

theorem lt_segmentEnd {current «end» : Instant} (h : current < «end») :
    current < segmentEnd current «end» := by
  unfold segmentEnd
  split
  · next hclosed => exact lt_min ((lt_boundary current).1 hclosed) h
  · next hopen =>
      split
      · exact (lt_boundary current).2 (by simpa using hopen)
      · exact h

/-- The segments of a gap from an instant on, cut at the market's closes and opens. -/
def splitFrom («end» : Instant) (current : Instant) : List (Instant × Instant) :=
  if h : current < «end» then
    have := lt_segmentEnd h
    (current, segmentEnd current «end») :: splitFrom «end» (segmentEnd current «end»)
  else []
termination_by («end» - current).toNat
decreasing_by
  exact (Int.toNat_lt_toNat (sub_pos.mpr h)).mpr (sub_lt_sub_left (lt_segmentEnd h) _)

def secondsBetween (start «end» : Instant) : ℚ := («end» - start : ℤ) / 1000000

def splitGapAtMarketBoundaries (start «end» : Instant) : List (Instant × Instant) :=
  if secondsBetween start «end» / 3600 ≤ weekendClosure.maxDurationHours then [(start, «end»)]
  else splitFrom «end» start

end Calendar

section Gaps

structure Gap where
  gapSeconds : ℚ
  category : GapCategory
  reason : String
  gapStart : Instant
  gapEnd : Instant
  deriving DecidableEq

structure CoverageConfig where
  granularity : Timeframe := .m5
  thresholds : GapThresholds := {}
  signalThresholds : GapThresholds := { moderate := 1 }

structure CoverageReport where
  gaps : List Gap
  deriving DecidableEq

def classified (thresholds : GapThresholds) (closes : Bool) (note : ℚ → String)
    (segment : Instant × Instant) : Gap where
  gapSeconds := secondsBetween segment.1 segment.2
  category := (classifyGap segment.1 segment.2 (secondsBetween segment.1 segment.2) thresholds
    closes).1
  reason := (classifyGap segment.1 segment.2 (secondsBetween segment.1 segment.2) thresholds
    closes).2 ++ " [" ++ note (secondsBetween segment.1 segment.2) ++ "]"
  gapStart := segment.1
  gapEnd := segment.2

def detectGapsFromBars (config : CoverageConfig) (closes : Bool) (bars : List Bar) : List Gap :=
  let timestamps := (bars.map Bar.timestamp).insertionSort (· ≤ ·)
  let jumps := (timestamps.zip timestamps.tail).filter fun (prevTs, currTs) =>
    decide ((config.granularity.minutes * 60 * 2 : ℚ) < secondsBetween prevTs currTs)
  jumps.flatMap fun (prevTs, currTs) =>
    (if closes then splitGapAtMarketBoundaries prevTs currTs else [(prevTs, currTs)]).map
      (classified config.thresholds closes fun _ =>
        "detected via " ++ timeframeName config.granularity)

def gapCategories : List GapCategory := [.seamless, .weekend, .holiday, .short, .moderate, .large]

def countGaps (gaps : List Gap) : List (GapCategory × ℕ) :=
  gapCategories.map fun category => (category, gaps.countP fun gap => gap.category = category)

structure DataCoverageReport extends CoverageReport where
  gapCounts : List (GapCategory × ℕ)
  startTime : Option Instant
  endTime : Option Instant
  deriving DecidableEq

/-- `analyze`; without a bar file there are no bars. -/
def analyze (config : CoverageConfig) (closes : Bool) (bars : List Bar) : DataCoverageReport where
  gaps := detectGapsFromBars config closes bars
  gapCounts := countGaps (detectGapsFromBars config closes bars)
  startTime := bars.head?.map Bar.timestamp
  endTime := bars.getLast?.map Bar.timestamp

def dataCoverageReport (archive : DataArchive) (config : CoverageConfig)
    (closes : String → Bool) (brokerType symbol : String) : CoverageReport :=
  (analyze config (closes brokerType)
    ((archive.barFile brokerType symbol config.granularity).getD [])).toCoverageReport

def median (distances : List ℚ) : ℚ :=
  let sorted := distances.insertionSort (· ≤ ·)
  let middle := sorted.length / 2
  if sorted.length % 2 = 1 then sorted.getD middle 0
  else (sorted.getD (middle - 1) 0 + sorted.getD middle 0) / 2

def measureCadence (snapshots : List Instant) : ℚ :=
  let measured := median ((snapshots.zip snapshots.tail).map fun (prevTs, currTs) =>
    secondsBetween prevTs currTs)
  if 0 < measured then measured else 600

/-- The coverage report of a signal series, from its ascending snapshot times. -/
def signalCoverageReport (config : CoverageConfig) (snapshots : List Instant) :
    CoverageReport where
  gaps :=
    (((snapshots.zip snapshots.tail).filter fun (prevTs, currTs) =>
        decide (measureCadence snapshots * 2 < secondsBetween prevTs currTs)).map
      (classified config.signalThresholds false fun gapSeconds =>
        "~" ++ (⌊gapSeconds / measureCadence snapshots⌋ - 1).toNat.repr ++ " snapshots missed"))

def CoverageReport.gapsInWindow (report : CoverageReport) (start «end» : Instant) : List Gap :=
  report.gaps.filter fun gap => decide (start ≤ gap.gapStart) && decide (gap.gapEnd ≤ «end»)

end Gaps

section Validation

variable {Series : Type}

def TransportTick.time (tick : TransportTick) : Instant := tick.row.timeMsc * 1000

def timeRangeFromTransportTicks (first : TransportTick) (rest : List TransportTick) :
    Instant × Instant :=
  (TransportTick.time first, TransportTick.time ((first :: rest).getLastD first))

structure ScenarioDataValidator where
  /-- The coverage reports by broker and symbol. -/
  dataCoverageReports : String → String → Option CoverageReport
  /-- The signal coverage reports by source and symbol. -/
  signalCoverageReports : String → String → Option CoverageReport
  isStandard : Bool := true
  allowedGapCategories : List GapCategory

inductive ValidationMessage
  | noCoverageReport (brokerType symbol : String)
  | startInGap (start : Instant) (gap : Gap)
  | startShifted (start : Instant) (gap : Gap)
  | gapInStretch (gap : Gap) (stretch : Instant × Instant)
  | insufficientWarmup (timeframe : Timeframe) (actual required : ℕ)
  | signalGapInStretch (gap : Gap) (stretch : Instant × Instant)
  deriving DecidableEq

structure ValidationResult where
  errors : List ValidationMessage := []
  warnings : List ValidationMessage := []
  deriving DecidableEq

namespace ScenarioDataValidator

variable (validator : ScenarioDataValidator)

/-- `_validate_start_date_not_in_gap`: a start inside a short gap moves to the gap's end. -/
def validateStartDateNotInGap (scenario : SingleScenario) (report : CoverageReport) :
    SingleScenario × ValidationResult :=
  match report.gaps.find? fun gap =>
      decide (gap.gapStart < scenario.startDate) && decide (scenario.startDate < gap.gapEnd) with
  | none => (scenario, {})
  | some gap =>
      if gap.category = .short then
        ({ scenario with startDate := gap.gapEnd },
          { warnings := [.startShifted scenario.startDate gap] })
      else (scenario, { errors := [.startInGap scenario.startDate gap] })

def validateTickStretch (scenario : SingleScenario) (report : CoverageReport)
    (package : ProcessDataPackage Series) : List ValidationMessage :=
  match package.ticks.get? scenario.name with
  | none | some [] => []
  | some (first :: rest) =>
      let stretch := timeRangeFromTransportTicks first rest
      (report.gaps.filter fun gap =>
          decide (stretch.1 ≤ gap.gapStart) && decide (gap.gapEnd ≤ stretch.2) &&
            decide (gap.category ∉ validator.allowedGapCategories)).map
        fun gap => .gapInStretch gap stretch

def validateSignalStretch (scenario : SingleScenario) (package : ProcessDataPackage Series) :
    List ValidationMessage :=
  if scenario.dataSentimentType = "" then []
  else
    match validator.signalCoverageReports scenario.dataSentimentType scenario.symbol with
    | none => []
    | some report =>
        match package.ticks.get? scenario.name with
        | none | some [] => []
        | some (first :: rest) =>
            let stretch := timeRangeFromTransportTicks first rest
            ((report.gapsInWindow stretch.1 stretch.2).filter fun gap =>
                decide (gap.category ∉ validator.allowedGapCategories)).map
              fun gap => .signalGapInStretch gap stretch

def validateWarmupQuality (scenario : SingleScenario) (package : ProcessDataPackage Series)
    (requirements : RequirementsMap) : ValidationResult :=
  let messages := (requirements.barRequirements.filter fun r =>
      r.scenarioName = scenario.name).filterMap fun r =>
    match package.bars.get? (r.symbol, r.timeframe, r.startTime) with
    | none | some [] => none
    | some bars =>
        if bars.length < r.warmupCount then
          some (.insufficientWarmup r.timeframe bars.length r.warmupCount)
        else none
  if validator.isStandard then { errors := messages } else { warnings := messages }

/-- `_validate_single_scenario`: the scenario, its start possibly moved, and the result. -/
def validateSingleScenario (scenario : SingleScenario) (package : ProcessDataPackage Series)
    (requirements : RequirementsMap) : SingleScenario × ValidationResult :=
  match validator.dataCoverageReports scenario.dataBrokerType scenario.symbol with
  | none =>
      (scenario, { errors := [.noCoverageReport scenario.dataBrokerType scenario.symbol] })
  | some report =>
      let (scenario, startDate) := validateStartDateNotInGap scenario report
      let warmup := validator.validateWarmupQuality scenario package requirements
      (scenario, {
        errors := startDate.errors ++ validator.validateTickStretch scenario report package ++
          warmup.errors ++ validator.validateSignalStretch scenario package
        warnings := startDate.warnings ++ warmup.warnings })

/-- `validate_loaded_data`: what each scenario of the list becomes, and the errors recorded for
it. A package is looked up under the scenario's place in the list; without one nothing is
recorded. -/
def validateLoadedData (scenarios : List SingleScenario)
    (packages : Dict ℕ (ProcessDataPackage Series)) (requirements : RequirementsMap) :
    List (SingleScenario × List ValidationMessage) :=
  scenarios.mapIdx fun idx scenario =>
    match packages.get? idx with
    | none => (scenario, [])
    | some package =>
        let (scenario, result) := validator.validateSingleScenario scenario package requirements
        (scenario, result.errors)

/-- The validator of a batch, with the reports its scenarios need: `snapshots` are the
ascending snapshot times of each signal source and symbol. -/
def build (archive : DataArchive) (config : CoverageConfig) (closes : String → Bool)
    (snapshots : String → String → List Instant) (scenarios : List SingleScenario)
    (isStandard : Bool) (allowedGapCategories : List GapCategory) : ScenarioDataValidator where
  dataCoverageReports brokerType symbol :=
    if (brokerType, symbol) ∈ scenarios.map fun s => (s.dataBrokerType, s.symbol) then
      some (dataCoverageReport archive config closes brokerType symbol)
    else none
  signalCoverageReports source symbol :=
    if source ≠ "" ∧ (source, symbol) ∈ scenarios.map fun s => (s.dataSentimentType, s.symbol) then
      some (signalCoverageReport config (snapshots source symbol))
    else none
  isStandard := isStandard
  allowedGapCategories := allowedGapCategories

end ScenarioDataValidator

end Validation

end Finiex.Coverage
