import Finiex.DataIdentity
import Finiex.SweepGrid

namespace Finiex.SweepRuns

open Finiex.Types
open Finiex.Lib
open Finiex.Bars
open Finiex.Preparation
open Finiex.Coverage
open Finiex.Mounts
open Finiex.MountLookups
open Finiex.DataIdentity
open Finiex.SweepGrid

section Scenarios

/-- What `trade_simulator_config` says of the account; the balances by their currencies. -/
structure TradeSimulatorConfig where
  balances : List String := []
  accountCurrency : String := ""
  deriving DecidableEq

/-- A scenario with its strategy configuration and the verdict on it so far. -/
structure ConfiguredScenario where
  name : String
  scenarioIndex : ℕ
  symbol : String
  dataBrokerType : String
  startDate : Instant
  endDate : Option Instant := none
  maxTicks : Option ℕ := none
  dataSentimentType : String := ""
  strategyConfig : StrategyConfig := []
  tradeSimulatorConfig : TradeSimulatorConfig := {}
  tickProcessingBudgetMs : ℚ := 0
  staleDataSources : List String := []
  accountCurrency : String := ""
  isValid : Bool := true

def withOverrides (combo : Combination) (scenario : ConfiguredScenario) : ConfiguredScenario :=
  { scenario with strategyConfig := overridden combo scenario.strategyConfig }

/-- `apply_overrides`: a copy of each scenario, with the values of the combination. -/
def applyOverrides (combo : Combination) (base : List ConfiguredScenario) :
    List ConfiguredScenario :=
  base.map (withOverrides combo)

def excludeUnless (check : ConfiguredScenario → Bool) (scenario : ConfiguredScenario) :
    ConfiguredScenario :=
  { scenario with isValid := scenario.isValid && check scenario }

end Scenarios

section Environment

/-- A broker's configuration is read from its file, or from a runtime cache that knows some
symbols. -/
inductive ConfigMode
  | static
  | dynamic (cached : List String)
  deriving DecidableEq

structure SymbolSpecification where
  swapModeImplemented : Bool := true
  baseCurrency : String
  quoteCurrency : String
  deriving DecidableEq

structure Environment (Series : Type) where
  archive : DataArchive
  loadSeries : SingleScenario → SignalRequirement → Except String Series
  coverage : CoverageConfig
  closes : String → Bool
  snapshots : String → String → List Instant
  isStandard : Bool
  allowedGapCategories : List GapCategory
  configMode : String → ConfigMode
  symbolSpecification : String → String → Option SymbolSpecification
  isSpot : String → Bool
  schemas : Schemas
  /-- The requirements of the workers of a configuration. -/
  workers : StrategyConfig → List WorkerRequirement
  /-- The availability of the data of a scenario, apart from its workers. -/
  availability : SingleScenario → Bool
  /-- The outcome of the collection, for a broker and a configuration. -/
  collection : String → StrategyConfig → Collection

variable {Series : Type} (env : Environment Series)

/-- The scenario with what its workers ask for taken together. -/
def merged (scenario : SingleScenario) : SingleScenario :=
  { scenario with
    workers := .indicator scenario.warmupByTimeframe.entries :: scenario.workers.filter fun
      | .indicator _ => false
      | .signal _ _ => true }

/-- A scenario as the phases see it; `max_ticks` bounds it if it is positive. -/
def Environment.listed (scenario : ConfiguredScenario) : ListedScenario :=
  if h : scenario.maxTicks.any (0 < ·) = true ∨ scenario.endDate.isSome = true then
    .bounded (merged
      { name := scenario.name
        scenarioIndex := scenario.scenarioIndex
        symbol := scenario.symbol
        dataBrokerType := scenario.dataBrokerType
        startDate := scenario.startDate
        endDate := scenario.endDate
        maxTicks := scenario.maxTicks
        dataSentimentType := scenario.dataSentimentType
        workers := env.workers scenario.strategyConfig
        tickProcessingBudgetMs := scenario.tickProcessingBudgetMs
        staleDataSources := scenario.staleDataSources
        bounded := h.imp_left fun hany => by
          cases hmax : scenario.maxTicks with
          | none => rw [hmax] at hany; cases hany
          | some _ => rfl })
  else .unbounded scenario.name scenario.scenarioIndex

def Environment.entry (scenario : ConfiguredScenario) : BatchScenario where
  scenario := env.listed scenario
  isValid := scenario.isValid

def Environment.entries (scenarios : List ConfiguredScenario) : List BatchScenario :=
  scenarios.map env.entry

end Environment

section Validation

variable {Series : Type} (env : Environment Series)

def Environment.validateScenarioParameters (scenarios : List ConfiguredScenario) :
    List ConfiguredScenario :=
  scenarios.map (excludeUnless fun scenario =>
    parametersValid env.schemas scenario.strategyConfig)

/-- The characters `strip` removes. -/
def isSpace (c : Char) : Bool :=
  c.toNat ∈ List.range' 0x09 5 ++ List.range' 0x1c 5 ++ List.range' 0x2000 11 ++
    [0x85, 0xa0, 0x1680, 0x2028, 0x2029, 0x202f, 0x205f, 0x3000]

def Environment.brokerConfigured (scenarios : List ConfiguredScenario) (broker : String) : Bool :=
  match env.configMode broker with
  | .static => true
  | .dynamic cached => scenarios.all fun scenario =>
      decide (scenario.dataBrokerType = broker → scenario.symbol ∈ cached)

/-- `validate_scenario_names`. -/
def nameValid (scenarios : List ConfiguredScenario) (scenario : ConfiguredScenario) : Bool :=
  !scenario.name.toList.all isSpace &&
    decide (scenarios.countP (fun other => other.name = scenario.name) = 1)

def currencyValid (specification : SymbolSpecification) (config : TradeSimulatorConfig) : Bool :=
  let currencies := [specification.baseCurrency, specification.quoteCurrency]
  config.balances.any (· ∈ currencies) &&
    decide (config.accountCurrency = "" ∨ config.accountCurrency ∈ currencies)

def Environment.symbolValid (scenario : ConfiguredScenario) : Bool :=
  match env.symbolSpecification scenario.dataBrokerType scenario.symbol with
  | none => false
  | some specification => specification.swapModeImplemented &&
      currencyValid specification scenario.tradeSimulatorConfig

def Environment.accountCurrency (scenario : ConfiguredScenario) : String :=
  match env.symbolSpecification scenario.dataBrokerType scenario.symbol with
  | none => scenario.accountCurrency
  | some specification =>
      let config := scenario.tradeSimulatorConfig
      let derived :=
        if config.balances = [] then none
        else if config.accountCurrency ≠ "" then some config.accountCurrency
        else if specification.quoteCurrency ∈ config.balances then some specification.quoteCurrency
        else if specification.baseCurrency ∈ config.balances then some specification.baseCurrency
        else if config.balances.length = 1 then config.balances.head?
        else none
      match derived with
      | none => scenario.accountCurrency
      | some currency =>
          if env.isSpot scenario.dataBrokerType then specification.quoteCurrency else currency

def ConfiguredScenario.isBounded (scenario : ConfiguredScenario) : Bool :=
  scenario.maxTicks.any (0 < ·) || scenario.endDate.isSome

def Environment.brokered (scenarios : List ConfiguredScenario) : List ConfiguredScenario :=
  let valid := scenarios.filter ConfiguredScenario.isValid
  valid.filter fun scenario => env.brokerConfigured valid scenario.dataBrokerType

/-- The checks of phase 0: the brokers, the names among the scenarios that have theirs, the
boundaries, the symbols and the accounts. -/
def Environment.configured (scenarios : List ConfiguredScenario)
    (scenario : ConfiguredScenario) : Bool :=
  scenario.isValid &&
    env.brokerConfigured (scenarios.filter ConfiguredScenario.isValid) scenario.dataBrokerType &&
      nameValid (env.brokered scenarios) scenario && scenario.isBounded && env.symbolValid scenario

def Environment.prepareScenarios (scenarios : List ConfiguredScenario) :
    List ConfiguredScenario :=
  scenarios.map fun scenario =>
    if env.configured scenarios scenario then
      { scenario with accountCurrency := env.accountCurrency scenario }
    else { scenario with isValid := false }

end Validation

section Runs

variable {Series : Type} (env : Environment Series)

def Environment.collectionOf (scenarios : List ConfiguredScenario) (scenario : SingleScenario) :
    Collection :=
  match scenarios[scenario.scenarioIndex]? with
  | none => .added
  | some configured => env.collection configured.dataBrokerType configured.strategyConfig

def Environment.workspace (scenarios : List ConfiguredScenario) : Workspace Series where
  archive := env.archive
  loadSeries := env.loadSeries
  coverage := env.coverage
  closes := env.closes
  snapshots := env.snapshots
  isStandard := env.isStandard
  allowedGapCategories := env.allowedGapCategories
  validators :=
    { config := fun _ => true
      availability := fun scenario => env.availability { scenario with workers := [] }
      collection := env.collectionOf scenarios }

def settle (scenario : ConfiguredScenario) (entry : BatchScenario) : ConfiguredScenario :=
  { scenario with
    isValid := entry.isValid
    startDate := match entry.scenario with
      | .bounded checked => checked.startDate
      | .unbounded _ _ => scenario.startDate }

/-- `prepare_mount`, on a collector that already holds some requirements. -/
def Environment.prepareMount (held : RequirementsMap) (scenarios : List ConfiguredScenario) :
    MountPackage Series × List ConfiguredScenario :=
  let prepared := env.prepareScenarios scenarios
  let (mount, checked) :=
    Mounts.prepareMount (env.workspace prepared) held (env.entries prepared)
  (mount, List.zipWith settle prepared checked)

structure ProcessRun (Series : Type) where
  scenario : ConfiguredScenario
  package : ProcessDataPackage Series

def processRun? (scenario : ConfiguredScenario) :
    Option (ScenarioResult Series) → Option (ProcessRun Series)
  | some (.executed _ package) => some { scenario := scenario, package := package }
  | _ => none

/-- `execute`: what is run; nothing if the guard raises. -/
def Environment.execute (mount : MountPackage Series) (mode : ExecutionMode)
    (scenarios : List ConfiguredScenario) : List (ProcessRun Series) :=
  match Mounts.execute mount mode (env.entries scenarios) with
  | .error _ => []
  | .ok results => (List.zipWith processRun? scenarios results).reduceOption

/-- `collect_and_validate` marks the scenarios whose requirements it does not add. -/
def Environment.collected (scenarios : List ConfiguredScenario) : List ConfiguredScenario :=
  scenarios.map (excludeUnless fun scenario =>
    decide (env.collection scenario.dataBrokerType scenario.strategyConfig = .added))

/-- `run`: on data of its own, or on a shared mount as far as the identities match. -/
def Environment.run (mount? : Option (MountPackage Series)) (mode : ExecutionMode)
    (scenarios : List ConfiguredScenario) : List (ProcessRun Series) :=
  let validated := env.validateScenarioParameters scenarios
  match mount? with
  | none =>
      let (mount, prepared) := env.prepareMount {} validated
      env.execute mount mode prepared
  | some shared =>
      let prepared := env.prepareScenarios validated
      let valid := validScenarios (env.entries prepared)
      let collection := env.collectionOf prepared
      if matchesMount collection shared valid then
        env.execute shared mode (env.collected prepared)
      else
        -- the collector of the batch keeps what the comparison has collected
        let (mount, reloaded) :=
          env.prepareMount (collectAndValidate collection {} valid) (env.collected prepared)
        env.execute mount mode reloaded

def Environment.buildMount (base : List ConfiguredScenario) :
    MountPackage Series × List ConfiguredScenario :=
  env.prepareMount {} (env.validateScenarioParameters base)

/-- A combination of a sweep that reuses the mount: it is copied from what `build_mount` leaves of
the base, and nothing runs if the base has no data. -/
def Environment.warmRun (mode : ExecutionMode) (base : List ConfiguredScenario)
    (combo : Combination) : List (ProcessRun Series) :=
  let (mount, base) := env.buildMount base
  if mount.scenarioPackages.isEmpty then []
  else env.run (some mount) mode (applyOverrides combo base)

def Environment.coldRun (mode : ExecutionMode) (base : List ConfiguredScenario)
    (combo : Combination) : List (ProcessRun Series) :=
  env.run none mode (applyOverrides combo base)

end Runs

end Finiex.SweepRuns
