import Finiex.Bars
import Finiex.Lib.Dict
import Finiex.Lib.Grouping
import Mathlib.Data.List.Sort

/-!
# Preparing the data of a batch

The data requirements of the scenarios of a batch, and the data package each scenario is
given: its ticks, its warmup bars and its signal series.
-/

namespace Finiex.Preparation

open Finiex.Types
open Finiex.Lib
open Finiex.Bars

section Requirements

inductive WorkerRequirement
  | indicator (warmupBars : List (Timeframe × ℕ))
  | signal (kind : String) (dataPath : String)
  deriving DecidableEq

/-- A scenario of a batch. Its boundaries are validated before: it has an end or a number
of ticks. -/
structure SingleScenario where
  name : String
  scenarioIndex : ℕ
  symbol : String
  dataBrokerType : String
  startDate : Instant
  endDate : Option Instant := none
  maxTicks : Option ℕ := none
  dataSentimentType : String := ""
  workers : List WorkerRequirement := []
  tickProcessingBudgetMs : ℚ := 0
  /-- The data sources the enabled events of `stale_data_stress` name. -/
  staleDataSources : List String := []
  bounded : maxTicks.isSome ∨ endDate.isSome
  deriving DecidableEq

structure TickRequirement where
  scenarioName : String
  brokerType : String
  symbol : String
  startTime : Instant
  endTime : Option Instant
  maxTicks : Option ℕ
  bounded : maxTicks.isSome ∨ endTime.isSome
  deriving DecidableEq

structure BarRequirement where
  scenarioName : String
  brokerType : String
  symbol : String
  timeframe : Timeframe
  warmupCount : ℕ
  startTime : Instant
  deriving DecidableEq

structure SignalRequirement where
  scenarioName : String
  brokerType : String
  symbol : String
  signalKind : String
  dataSentimentType : String
  dataPath : String
  startTime : Instant
  endTime : Option Instant
  deriving DecidableEq

structure RequirementsMap where
  tickRequirements : List TickRequirement := []
  barRequirements : List BarRequirement := []
  signalRequirements : List SignalRequirement := []
  deriving DecidableEq

namespace SingleScenario

variable (scenario : SingleScenario)

def tickRequirement : TickRequirement where
  scenarioName := scenario.name
  brokerType := scenario.dataBrokerType
  symbol := scenario.symbol
  startTime := scenario.startDate
  endTime := scenario.endDate
  maxTicks := scenario.maxTicks
  bounded := scenario.bounded

def warmupByTimeframe : Dict Timeframe ℕ :=
  scenario.workers.foldl (fun warmup worker =>
    match worker with
    | .signal _ _ => warmup
    | .indicator bars => bars.foldl (fun warmup (timeframe, count) =>
        warmup.set timeframe (max (warmup.getD timeframe 0) count)) warmup) ∅

def barRequirements : List BarRequirement :=
  scenario.warmupByTimeframe.entries.map fun (timeframe, count) =>
    { scenarioName := scenario.name
      brokerType := scenario.dataBrokerType
      symbol := scenario.symbol
      timeframe := timeframe
      warmupCount := count
      startTime := scenario.startDate }

def signalRequirements : List SignalRequirement :=
  scenario.workers.filterMap fun
    | .indicator _ => none
    | .signal kind dataPath => some {
        scenarioName := scenario.name
        brokerType := scenario.dataBrokerType
        symbol := scenario.symbol
        signalKind := kind
        dataSentimentType := scenario.dataSentimentType
        dataPath := dataPath
        startTime := scenario.startDate
        endTime := scenario.endDate }

end SingleScenario

/-- `add_scenario`: the requirements of one scenario join those of the batch. -/
def RequirementsMap.addScenario (requirements : RequirementsMap) (scenario : SingleScenario) :
    RequirementsMap where
  tickRequirements := requirements.tickRequirements ++ [scenario.tickRequirement]
  barRequirements := requirements.barRequirements ++ scenario.barRequirements
  signalRequirements := requirements.signalRequirements ++ scenario.signalRequirements

def aggregateRequirements (scenarios : List SingleScenario) : RequirementsMap :=
  scenarios.foldl RequirementsMap.addScenario {}

end Requirements

section Archive

structure TickFile where
  startTime : Instant
  endTime : Instant
  rows : List TickRow
  deriving DecidableEq

structure SymbolFiles where
  files : List TickFile
  nonempty : files ≠ []

structure DataArchive where
  tickFiles : String → String → Option SymbolFiles
  barFile : String → String → Timeframe → Option (List Bar)

def TickFile.isRelevant (file : TickFile) (startDate endDate : Instant) : Bool :=
  decide (file.startTime ≤ endDate) && decide (startDate ≤ file.endTime)

def SymbolFiles.getRelevantFiles (symbolFiles : SymbolFiles) (startDate endDate : Instant) :
    List TickFile :=
  symbolFiles.files.filter fun file => file.isRelevant startDate endDate

end Archive

section Ticks

/-- The order of the loaded ticks: by timestamp, then by the millisecond. -/
def notAfter (row later : TickRow) : Prop :=
  row.timestamp < later.timestamp ∨ row.timestamp = later.timestamp ∧ row.timeMsc ≤ later.timeMsc

instance : DecidableRel notAfter := fun _ _ => inferInstanceAs (Decidable (_ ∨ _))

def unionStart (requirements : List TickRequirement) : Instant :=
  (requirements.map TickRequirement.startTime).min?.getD 0

/-- The latest end among requirements, or the end of the last file if none has one. -/
def unionEnd (symbolFiles : SymbolFiles) (requirements : List TickRequirement) : Instant :=
  (requirements.filterMap TickRequirement.endTime).max?.getD
    (symbolFiles.files.getLast symbolFiles.nonempty).endTime

def loadRows (symbolFiles : SymbolFiles) (requirements : List TickRequirement) : List TickRow :=
  ((symbolFiles.getRelevantFiles (unionStart requirements)
    (unionEnd symbolFiles requirements)).flatMap TickFile.rows).insertionSort notAfter

def searchsortedLeft (rows : List TickRow) (t : Instant) : ℕ :=
  rows.countP fun row => row.timestamp < t

def searchsortedRight (rows : List TickRow) (t : Instant) : ℕ :=
  rows.countP fun row => row.timestamp ≤ t

def sliceRows (rows : List TickRow) (requirement : TickRequirement) : List TickRow :=
  let startIdx := searchsortedLeft rows requirement.startTime
  match h : requirement.maxTicks with
  | some maxTicks => (rows.drop startIdx).take maxTicks
  | none =>
      let endTime := requirement.endTime.get (requirement.bounded.resolve_left (by simp [h]))
      (rows.drop startIdx).take (searchsortedRight rows endTime - startIdx)

/-- The ticks each requirement of a group gets; a requirement without ticks is skipped. -/
def loadGroup (archive : DataArchive) (brokerType symbol : String)
    (requirements : List TickRequirement) : List (String × List TickRow) :=
  match archive.tickFiles brokerType symbol with
  | none => []
  | some symbolFiles =>
      if symbolFiles.getRelevantFiles (unionStart requirements)
          (unionEnd symbolFiles requirements) = [] then []
      else
        let fullRows := loadRows symbolFiles requirements
        requirements.filterMap fun requirement =>
          let ticks := sliceRows fullRows requirement
          if ticks = [] then none else some (requirement.scenarioName, ticks)

/-- `prepare_ticks`: one load for each broker and symbol, then a slice for each scenario. -/
def prepareTicks (archive : DataArchive) (requirements : List TickRequirement) :
    Dict String (List TickRow) :=
  (∅ : Dict String (List TickRow)).assignAll
    ((groupBy (fun r : TickRequirement => (r.brokerType, r.symbol)) requirements).entries.flatMap
      fun (key, group) => loadGroup archive key.1 key.2 group)

end Ticks

section WarmupBars

/-- Warmup bars are stored by symbol, timeframe and start time. -/
abbrev BarKey := String × Timeframe × Instant

/-- `prepare_bars`: one bar file for each broker, symbol and timeframe; a missing file is
skipped. -/
def prepareBars (archive : DataArchive) (requirements : List BarRequirement) :
    Dict BarKey (List Bar) :=
  (∅ : Dict BarKey (List Bar)).assignAll
    ((groupBy (fun r : BarRequirement => (r.brokerType, r.symbol, r.timeframe))
        requirements).entries.flatMap
      fun (key, group) =>
        match archive.barFile key.1 key.2.1 key.2.2 with
        | none => []
        | some bars => group.map fun requirement =>
            ((key.2.1, key.2.2, requirement.startTime),
              warmupCut bars requirement.startTime requirement.warmupCount))

end WarmupBars

section Packages

variable {Series : Type}

structure TransportTick where
  row : TickRow
  isClipped : Option Bool := none
  deriving DecidableEq

structure ProcessDataPackage (Series : Type) where
  ticks : Dict String (List TransportTick)
  bars : Dict BarKey (List Bar)
  signalSeries : Dict String Series

inductive PreparationError
  | noTickData (scenarioName : String) (available : List String)
  | unknownDataSource (unknown : List String)
  | signalDataUnavailable (message : String)
  deriving DecidableEq

/-- A tick is clipped if it was collected before the virtual clock, which each kept tick sets
a budget ahead. -/
def flagClipped (budgetMs : ℚ) : ℚ → List TickRow → List TransportTick
  | _, [] => []
  | clock, row :: rows =>
      if clock ≤ row.collectedMsc then
        { row := row, isClipped := some false } ::
          flagClipped budgetMs (row.collectedMsc + budgetMs) rows
      else { row := row, isClipped := some true } :: flagClipped budgetMs clock rows

/-- `_apply_tick_budget`; data without a collection time is not flagged. -/
def applyTickBudget (budgetMs : ℚ) (rows : List TickRow) : List TransportTick :=
  match rows with
  | [] => []
  | first :: _ =>
      if first.collectedMsc = 0 then rows.map fun row => { row := row }
      else flagClipped budgetMs 0 rows

def internBars (symbol : String) (timeframe : Timeframe) (bars : List Bar) : List Bar :=
  bars.map fun bar => { bar with symbol := symbol, timeframe := timeframe }

def filterBarsForScenario (scenario : SingleScenario) (allBars : Dict BarKey (List Bar)) :
    Dict BarKey (List Bar) :=
  (∅ : Dict BarKey (List Bar)).assignAll
    ((allBars.entries.filter fun (key, _) =>
        decide (key.1 = scenario.symbol) && decide (key.2.2 = scenario.startDate)).map
      fun (key, bars) =>
        ((scenario.symbol, key.2.1, key.2.2), internBars scenario.symbol key.2.1 bars))

/-- `_resolve_stale_stress`: the named data sources the scenario does not bind. -/
def unknownStaleSources (scenario : SingleScenario) : List String :=
  let bound := scenario.dataBrokerType ::
    (if scenario.dataSentimentType = "" then [] else [scenario.dataSentimentType])
  scenario.staleDataSources.filter (· ∉ bound)

def loadSignalsForScenario
    (loadSeries : SingleScenario → SignalRequirement → Except String Series)
    (scenario : SingleScenario) (requirements : RequirementsMap) :
    Except String (Dict String Series) :=
  (requirements.signalRequirements.filter fun r => r.scenarioName = scenario.name).foldlM
    (fun series requirement => do
      let loaded ← loadSeries scenario requirement
      return series.set requirement.signalKind loaded) ∅

def packageFor (loadSeries : SingleScenario → SignalRequirement → Except String Series)
    (requirements : RequirementsMap) (allTicks : Dict String (List TickRow))
    (allBars : Dict BarKey (List Bar)) (scenario : SingleScenario) :
    Except PreparationError (ProcessDataPackage Series) :=
  match allTicks.get? scenario.name with
  | none => .error (.noTickData scenario.name allTicks.keys)
  | some rows =>
      let ticks := if 0 < scenario.tickProcessingBudgetMs
        then applyTickBudget scenario.tickProcessingBudgetMs rows
        else rows.map fun row => { row := row }
      let bars := filterBarsForScenario scenario allBars
      if unknownStaleSources scenario = [] then
        match loadSignalsForScenario loadSeries scenario requirements with
        | .error message => .error (.signalDataUnavailable message)
        | .ok signalSeries => .ok {
            ticks := (∅ : Dict String (List TransportTick)).set scenario.symbol ticks
            bars := bars
            signalSeries := signalSeries }
      else .error (.unknownDataSource (unknownStaleSources scenario))

def prepareScenarioPackages (archive : DataArchive)
    (loadSeries : SingleScenario → SignalRequirement → Except String Series)
    (requirements : RequirementsMap) (scenarios : List SingleScenario) :
    Dict ℕ (ProcessDataPackage Series) :=
  let allTicks := prepareTicks archive requirements.tickRequirements
  let allBars := prepareBars archive requirements.barRequirements
  (∅ : Dict ℕ (ProcessDataPackage Series)).assignAll
    (scenarios.filterMap fun scenario =>
      match packageFor loadSeries requirements allTicks allBars scenario with
      | .error _ => none
      | .ok package => some (scenario.scenarioIndex, package))

end Packages

end Finiex.Preparation
