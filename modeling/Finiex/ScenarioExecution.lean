import Finiex.DataOutages
import Finiex.Reconciler
import Finiex.SweepGrid
import Finiex.Lib.Lists

/-!
# The execution of scenarios

The configuration that a process gets for its scenario, and the two loops of the execution
coordinator: one runs the scenarios in turn, the other submits them and collects the results as
they complete.
-/

namespace Finiex.ScenarioExecution

open Finiex.Types
open Finiex.Lib
open Finiex.Preparation
open Finiex.DataOutages
open Finiex.Reconciler
open Finiex.SweepGrid

section Configuration

inductive BrokerType
  | mt5Forex | mt5Cfd | mt5Crypto | krakenSpot | binanceFutures
  deriving DecidableEq, Repr

def BrokerType.value : BrokerType → String
  | .mt5Forex => "mt5"
  | .mt5Cfd => "mt5_cfd"
  | .mt5Crypto => "mt5_crypto"
  | .krakenSpot => "kraken_spot"
  | .binanceFutures => "binance_futures"

inductive MarketType
  | forex | crypto
  deriving DecidableEq, Repr

structure BrokerEntryConfig where
  marketType : MarketType
  tradingModel : TradingModel
  deriving DecidableEq

structure MarketRulesConfig where
  interTickGapThresholdS : ℚ
  deriving DecidableEq

structure MarketConfigManager where
  brokerLookup : Dict String BrokerEntryConfig
  marketRules : Dict MarketType MarketRulesConfig

/-- What the construction of a process configuration can raise. -/
inductive ConfigError
  | noneAttribute (name : String)
  | unknownBrokerType (brokerType : String) (available : List String)
  | noMarketRules (marketType : MarketType)
  | dataSourceRequired
  | unreadableDate (field : String)
  | emptyEvent (label : String)
  deriving DecidableEq

def getBrokerEntry (manager : MarketConfigManager) (brokerType : String) :
    Except ConfigError BrokerEntryConfig :=
  match manager.brokerLookup.get? brokerType with
  | none => .error (.unknownBrokerType brokerType manager.brokerLookup.keys)
  | some entry => .ok entry

def getMarketRules (manager : MarketConfigManager) (marketType : MarketType) :
    Except ConfigError MarketRulesConfig :=
  match manager.marketRules.get? marketType with
  | none => .error (.noMarketRules marketType)
  | some rules => .ok rules

structure PerformanceTracking where
  workerDecisionTracking : Option Bool := none
  tickLoopProfiling : Option Bool := none
  deriving DecidableEq

/-- The keys of an `execution_config`; a worker switch may be there without a value. -/
structure ExecutionConfig where
  parallelWorkers : Option (Option Bool) := none
  workerParallelThresholdMs : Option ℚ := none
  strictParameterValidation : Option Bool := none
  performanceTracking : Option PerformanceTracking := none
  tickProcessingBudgetMs : Option ℚ := none
  heartbeatIntervalMs : Option ℤ := none
  deriving DecidableEq

structure TradeSimulatorConfig where
  balances : Option (List (String × ℚ)) := none
  seeds : Option (List (String × ℤ)) := none
  inboundLatencyMinMs : Option ℤ := none
  inboundLatencyMaxMs : Option ℤ := none
  deriving DecidableEq

/-- An event of `stale_data_stress` as it is configured; a date may be missing or unreadable. -/
structure StaleDataEntry where
  label : Option String := none
  dataSource : Option String := none
  staleStartDate : Option Instant := none
  staleEndDate : Option Instant := none
  deriving DecidableEq

structure RejectOrderEntry where
  enabled : Option Bool := none
  seed : Option ℤ := none
  probability : Option ℚ := none
  deriving DecidableEq

structure StaleDataStressEntry where
  enabled : Option Bool := none
  events : Option (List StaleDataEntry) := none
  deriving DecidableEq

structure StressTestEntry where
  rejectOpenOrder : Option RejectOrderEntry := none
  staleDataStress : Option StaleDataStressEntry := none
  deriving DecidableEq

structure StressTestRejectOrderConfig where
  enabled : Bool := false
  seed : ℤ := 42
  probability : ℚ := 0
  deriving DecidableEq

structure StressTestStaleDataConfig where
  enabled : Bool := false
  events : List StressEvent := []
  deriving DecidableEq

structure StressTestConfig where
  rejectOpenOrder : Option StressTestRejectOrderConfig := none
  staleDataStress : Option StressTestStaleDataConfig := none
  deriving DecidableEq

def staleDataEventFromDict (data : StaleDataEntry) : Except ConfigError StressEvent :=
  if hnamed : data.dataSource.getD "" ≠ "" then
    match data.staleStartDate, data.staleEndDate with
    | none, _ => .error (.unreadableDate "stale_start_date")
    | _, none => .error (.unreadableDate "stale_end_date")
    | some start, some stop =>
        if hordered : start < stop then
          .ok {
            label := data.label.getD ""
            dataSource := data.dataSource.getD ""
            staleStartDate := start
            staleEndDate := stop
            named := hnamed
            ordered := hordered }
        else .error (.emptyEvent (data.label.getD ""))
  else .error .dataSourceRequired

def stressTestFromDict (data : Option StressTestEntry) : Except ConfigError StressTestConfig := do
  match data with
  | none => return {}
  | some data =>
      let rejectOpenOrder := data.rejectOpenOrder.map fun entry =>
        { enabled := entry.enabled.getD false
          seed := entry.seed.getD 42
          probability := entry.probability.getD 0 : StressTestRejectOrderConfig }
      match data.staleDataStress with
      | none => return { rejectOpenOrder := rejectOpenOrder }
      | some entry =>
          let events ← (entry.events.getD []).mapM staleDataEventFromDict
          return {
            rejectOpenOrder := rejectOpenOrder
            staleDataStress := some { enabled := entry.enabled.getD false, events := events } }

/-- The keys of an `order_guard_config`. -/
structure OrderGuardEntry where
  cooldownSeconds : Option ℚ := none
  maxConsecutiveRejections : Option ℤ := none
  blockStaleMarketData : Option Bool := none
  deriving DecidableEq

structure OrderGuardDefaults where
  cooldownSeconds : ℚ := 60
  maxConsecutiveRejections : ℤ := 2
  blockStaleMarketData : Bool := true
  deriving DecidableEq

structure LiveStatsExportConfig where
  enabled : Bool := true
  detailedMode : Bool := false
  exportPortfolioStats : Bool := false
  exportCurrentBars : Bool := false
  updateIntervalMs : ℚ := 300
  deriving DecidableEq

structure AppConfig where
  executionConfig : ExecutionConfig
  defaultWorkerDecisionTracking : Bool
  defaultTickLoopProfiling : Bool
  barMaxHistory : ℤ
  orderHistoryMax : ℤ
  tradeHistoryMax : ℤ

structure ValidationResult where
  isValid : Bool
  scenarioName : String
  errors : List String := []
  warnings : List String := []
  deriving DecidableEq

/-- A scenario of a batch with all that its process configuration is made of. An
`execution_config` without keys is none, as are the other sections. -/
structure ScenarioEntry where
  name : String
  symbol : String
  startDate : Option Instant
  endDate : Option Instant := none
  maxTicks : Option ℕ := none
  strategyConfig : StrategyConfig := []
  executionConfig : Option ExecutionConfig := none
  brokerType : Option BrokerType
  tradeSimulatorConfig : Option TradeSimulatorConfig
  stressTestConfig : Option StressTestEntry := none
  orderGuardConfig : Option OrderGuardEntry := none
  accountCurrency : String := ""
  validationResult : List ValidationResult := []
  isProfileRun : Bool := false

structure ProcessScenarioConfig where
  name : String
  symbol : String
  scenarioIndex : ℕ
  startTime : Option Instant
  endTime : Option Instant
  maxTicks : Option ℕ
  strategyConfig : StrategyConfig
  decisionLogicType : Json
  decisionLogicConfig : Json
  parallelWorkers : Option Bool
  parallelThreshold : ℚ
  strictParameterValidation : Bool
  workerDecisionTracking : Bool
  tickLoopProfiling : Bool
  scenarioSetName : String
  runTimestamp : String
  runGroup : Option String
  liveStatsConfig : LiveStatsExportConfig
  brokerType : BrokerType
  marketType : MarketType
  tradingModel : TradingModel
  balances : List (String × ℚ)
  accountCurrency : String
  seeds : Option (List (String × ℤ))
  stressTestConfig : StressTestConfig
  orderGuardConfig : OrderGuardDefaults
  barMaxHistory : ℤ
  orderHistoryMax : ℤ
  tradeHistoryMax : ℤ
  interTickGapThresholdS : ℚ
  heartbeatIntervalMs : ℤ
  tickProcessingBudgetMs : ℚ
  inboundLatencyMinMs : ℤ
  inboundLatencyMaxMs : ℤ
  isProfileRun : Bool

structure ExecutionCoordinator where
  scenarioSetName : String
  runTimestamp : String
  appConfig : AppConfig
  marketConfig : MarketConfigManager
  liveStatsConfig : Option LiveStatsExportConfig := none
  runGroup : Option String := none

def fromScenario (coordinator : ExecutionCoordinator) (runGroup : Option String)
    (scenario : ScenarioEntry) (scenarioIndex : ℕ) :
    Except ConfigError ProcessScenarioConfig := do
  let app := coordinator.appConfig
  let execConfig := scenario.executionConfig.getD app.executionConfig
  let perfTracking := execConfig.performanceTracking.getD {}
  match scenario.tradeSimulatorConfig, scenario.brokerType with
  | none, _ => throw (.noneAttribute "get")
  | _, none => throw (.noneAttribute "value")
  | some simulator, some brokerType =>
      let entry ← getBrokerEntry coordinator.marketConfig brokerType.value
      let rules ← getMarketRules coordinator.marketConfig entry.marketType
      let stressTestConfig ← stressTestFromDict scenario.stressTestConfig
      let guard := scenario.orderGuardConfig.getD {}
      return {
        name := scenario.name
        symbol := scenario.symbol
        scenarioIndex := scenarioIndex
        startTime := scenario.startDate
        endTime := scenario.endDate
        maxTicks := scenario.maxTicks
        strategyConfig := scenario.strategyConfig
        decisionLogicType :=
          (getField scenario.strategyConfig "decision_logic_type").getD (.text "")
        decisionLogicConfig :=
          (getField scenario.strategyConfig "decision_logic_config").getD (.object [])
        parallelWorkers := execConfig.parallelWorkers.getD (some false)
        parallelThreshold := execConfig.workerParallelThresholdMs.getD 1
        strictParameterValidation := execConfig.strictParameterValidation.getD true
        workerDecisionTracking :=
          perfTracking.workerDecisionTracking.getD app.defaultWorkerDecisionTracking
        tickLoopProfiling := perfTracking.tickLoopProfiling.getD app.defaultTickLoopProfiling
        scenarioSetName := coordinator.scenarioSetName
        runTimestamp := coordinator.runTimestamp
        runGroup := runGroup
        liveStatsConfig := coordinator.liveStatsConfig.getD { enabled := false }
        brokerType := brokerType
        marketType := entry.marketType
        tradingModel := entry.tradingModel
        balances := simulator.balances.getD []
        accountCurrency := scenario.accountCurrency
        seeds := simulator.seeds
        stressTestConfig := stressTestConfig
        orderGuardConfig := {
          cooldownSeconds := guard.cooldownSeconds.getD 60
          maxConsecutiveRejections := guard.maxConsecutiveRejections.getD 2
          blockStaleMarketData := guard.blockStaleMarketData.getD true }
        barMaxHistory := app.barMaxHistory
        orderHistoryMax := app.orderHistoryMax
        tradeHistoryMax := app.tradeHistoryMax
        interTickGapThresholdS := rules.interTickGapThresholdS
        heartbeatIntervalMs := execConfig.heartbeatIntervalMs.getD 1000
        tickProcessingBudgetMs := execConfig.tickProcessingBudgetMs.getD 0
        inboundLatencyMinMs := simulator.inboundLatencyMinMs.getD 20
        inboundLatencyMaxMs := simulator.inboundLatencyMaxMs.getD 80
        isProfileRun := scenario.isProfileRun }

end Configuration

section Execution

/-- The result of a process, with whatever the tick loop has returned. -/
structure ProcessResult (Payload : Type) where
  success : Bool := false
  scenarioName : String
  scenarioIndex : ℕ
  errorType : Option String := none
  errorMessage : Option String := none
  payload : Option Payload := none

def ScenarioEntry.isValid (scenario : ScenarioEntry) : Bool :=
  scenario.validationResult.all ValidationResult.isValid

/-- The lines of a report under their numbers. -/
def numbered (n : ℕ) : List String → List String
  | [] => []
  | error :: errors => (toString n ++ ". " ++ error) :: numbered (n + 1) errors

def ValidationResult.getFullReport (result : ValidationResult) : String :=
  if result.errors = [] then "No validation errors"
  else
    String.intercalate "\n" (
      ["Scenario '" ++ result.scenarioName ++ "' failed validation:", ""] ++
      numbered 1 result.errors ++
      if result.warnings = [] then []
      else ["", "Warnings:"] ++ result.warnings.map ("  • " ++ ·))

def getValidationListReport (results : List ValidationResult) : String :=
  if results = [] then "No validation results available"
  else
    let reports := (results.filter fun result => !result.isValid).map
      ValidationResult.getFullReport
    if reports = [] then "Scenario is valid - Errors may Remain in Scenario Log."
    else String.intercalate "\n\n" reports

variable {Payload Series : Type}

def createValidationFailedResult (scenario : ScenarioEntry) (scenarioIndex : ℕ)
    (additionalErrorMessage : Option String) : ProcessResult Payload :=
  let validationResult := scenario.validationResult ++
    additionalErrorMessage.toList.map fun message =>
      { isValid := false, scenarioName := scenario.name, errors := [message] }
  { scenarioName := scenario.name
    scenarioIndex := scenarioIndex
    errorType := some "ValidationError"
    errorMessage := some (getValidationListReport validationResult) }

/-- What a loop makes of a scenario: a failed result, or a process to run. -/
inductive Visit (Payload Series : Type)
  | failed (result : ProcessResult Payload)
  | run (config : ProcessScenarioConfig) (package : ProcessDataPackage Series)

/-- The body of both loops up to the start of a process. -/
def visit (coordinator : ExecutionCoordinator) (runGroup : Option String)
    (packages : Dict ℕ (ProcessDataPackage Series)) (idx : ℕ) (scenario : ScenarioEntry) :
    Except ConfigError (Visit Payload Series) :=
  if scenario.isValid then do
    let config ← fromScenario coordinator runGroup scenario idx
    match packages.get? idx with
    | none => return .failed (createValidationFailedResult scenario idx
        (some ("❌ No data package for scenario " ++ toString idx ++ ": " ++ scenario.name ++
          " - data packages: " ++ toString packages.entries.length)))
    | some package => return .run config package
  else return .failed (createValidationFailedResult scenario idx none)

/-- What is handed to `process_main`, with the place of its result. -/
structure Handed (Series : Type) where
  idx : ℕ
  config : ProcessScenarioConfig
  package : ProcessDataPackage Series

/-- What an execution has handed out, and the results in their places unless it raised. -/
structure Execution (Payload Series : Type) where
  handed : List (Handed Series)
  outcome : Except ConfigError (List (Option (ProcessResult Payload)))

variable (processMain : ProcessScenarioConfig → ProcessDataPackage Series → ProcessResult Payload)

/-- The loop of `execute_sequential` from a place on. -/
def sequentialFrom (coordinator : ExecutionCoordinator)
    (packages : Dict ℕ (ProcessDataPackage Series)) (idx : ℕ)
    (results : List (Option (ProcessResult Payload))) (handed : List (Handed Series)) :
    List ScenarioEntry → Execution Payload Series
  | [] => { handed := handed, outcome := .ok results }
  | scenario :: scenarios =>
      match visit coordinator coordinator.runGroup packages idx scenario with
      | .error error => { handed := handed, outcome := .error error }
      | .ok (.failed result) =>
          sequentialFrom coordinator packages (idx + 1) (results.set idx (some result)) handed
            scenarios
      | .ok (.run config package) =>
          sequentialFrom coordinator packages (idx + 1)
            (results.set idx (some (processMain config package)))
            (handed ++ [{ idx := idx, config := config, package := package }]) scenarios

def executeSequential (coordinator : ExecutionCoordinator)
    (packages : Dict ℕ (ProcessDataPackage Series)) (scenarios : List ScenarioEntry) :
    Execution Payload Series :=
  sequentialFrom processMain coordinator packages 0 (scenarios.map fun _ => none) [] scenarios

/-- The loop of `execute_parallel` that submits the scenarios: what is handed over are the
futures. The executor is made without the run group. -/
def submitFrom (coordinator : ExecutionCoordinator)
    (packages : Dict ℕ (ProcessDataPackage Series)) (idx : ℕ)
    (results : List (Option (ProcessResult Payload))) (futures : List (Handed Series)) :
    List ScenarioEntry → Execution Payload Series
  | [] => { handed := futures, outcome := .ok results }
  | scenario :: scenarios =>
      match visit coordinator none packages idx scenario with
      | .error error => { handed := futures, outcome := .error error }
      | .ok (.failed result) =>
          submitFrom coordinator packages (idx + 1) (results.set idx (some result)) futures
            scenarios
      | .ok (.run config package) =>
          submitFrom coordinator packages (idx + 1) results
            (futures ++ [{ idx := idx, config := config, package := package }]) scenarios

def submitAll (coordinator : ExecutionCoordinator)
    (packages : Dict ℕ (ProcessDataPackage Series)) (scenarios : List ScenarioEntry) :
    Execution Payload Series :=
  submitFrom coordinator packages 0 (scenarios.map fun _ => none) [] scenarios

def executeParallel (coordinator : ExecutionCoordinator)
    (packages : Dict ℕ (ProcessDataPackage Series)) (completed : List (Handed Series))
    (scenarios : List ScenarioEntry) : Execution Payload Series :=
  let submitted : Execution Payload Series := submitAll coordinator packages scenarios
  { handed := submitted.handed
    outcome := submitted.outcome.map fun results =>
      completed.foldl (fun results future =>
        results.set future.idx (some (processMain future.config future.package))) results }

end Execution

section Simulation

variable {Payload Series : Type} {coordinator : ExecutionCoordinator}
  {packages : Dict ℕ (ProcessDataPackage Series)}
  {processMain : ProcessScenarioConfig → ProcessDataPackage Series → ProcessResult Payload}

def Handed.withRunGroup (runGroup : Option String) (handed : Handed Series) : Handed Series :=
  { handed with config := { handed.config with runGroup := runGroup } }

def fill (processMain : ProcessScenarioConfig → ProcessDataPackage Series → ProcessResult Payload)
    (handed : List (Handed Series)) (results : List (Option (ProcessResult Payload))) :
    List (Option (ProcessResult Payload)) :=
  handed.foldl (fun results future =>
    results.set future.idx (some (processMain future.config future.package))) results

theorem fromScenario_runGroup (runGroup : Option String) (scenario : ScenarioEntry) (idx : ℕ) :
    fromScenario coordinator runGroup scenario idx =
      (fromScenario coordinator none scenario idx).map fun config =>
        { config with runGroup := runGroup } := by
  unfold fromScenario
  cases scenario.tradeSimulatorConfig with
  | none => rfl
  | some simulator =>
      cases scenario.brokerType with
      | none => rfl
      | some brokerType =>
          simp only [bind, Except.bind]
          cases getBrokerEntry coordinator.marketConfig brokerType.value with
          | error _ => rfl
          | ok entry =>
              simp only
              cases getMarketRules coordinator.marketConfig entry.marketType with
              | error _ => rfl
              | ok rules =>
                  simp only
                  cases stressTestFromDict scenario.stressTestConfig with
                  | error _ => rfl
                  | ok stressTestConfig => rfl

theorem fromScenario_none {scenario : ScenarioEntry} {idx : ℕ} {config : ProcessScenarioConfig}
    (h : fromScenario coordinator none scenario idx = .ok config) : config.runGroup = none := by
  rw [fromScenario_runGroup] at h
  obtain ⟨_, -, rfl⟩ := Run.exists_of_map_eq_ok h
  rfl

def Visit.withRunGroup (runGroup : Option String) : Visit Payload Series → Visit Payload Series
  | .failed result => .failed result
  | .run config package => .run { config with runGroup := runGroup } package

theorem visit_runGroup (runGroup : Option String) (idx : ℕ) (scenario : ScenarioEntry) :
    (visit coordinator runGroup packages idx scenario :
      Except ConfigError (Visit Payload Series)) =
      (visit coordinator none packages idx scenario).map (Visit.withRunGroup runGroup) := by
  unfold visit
  cases scenario.isValid with
  | false => rfl
  | true =>
      rw [fromScenario_runGroup runGroup]
      cases fromScenario coordinator none scenario idx with
      | error _ => rfl
      | ok config =>
          simp only [Except.map, bind, Except.bind, if_true]
          cases packages.get? idx with
          | none => rfl
          | some package => rfl

theorem visit_run {idx : ℕ} {scenario : ScenarioEntry} {config : ProcessScenarioConfig}
    {package : ProcessDataPackage Series} :
    (visit coordinator none packages idx scenario : Except ConfigError (Visit Payload Series)) =
        .ok (.run config package) ↔
      scenario.isValid = true ∧ fromScenario coordinator none scenario idx = .ok config ∧
        packages.get? idx = some package := by
  unfold visit
  cases scenario.isValid with
  | false => simp [pure, Except.pure]
  | true =>
      cases fromScenario coordinator none scenario idx with
      | error _ => simp [bind, Except.bind]
      | ok built =>
          cases packages.get? idx with
          | none => simp [bind, Except.bind, pure, Except.pure]
          | some found => simp [bind, Except.bind, pure, Except.pure]

theorem visit_error {idx : ℕ} {scenario : ScenarioEntry} {error : ConfigError}
    (h : (visit coordinator none packages idx scenario :
      Except ConfigError (Visit Payload Series)) = .error error) :
    scenario.isValid = true ∧ fromScenario coordinator none scenario idx = .error error := by
  unfold visit at h
  cases hvalid : scenario.isValid with
  | false => simp [hvalid, pure, Except.pure] at h
  | true =>
      refine ⟨rfl, ?_⟩
      cases hconfig : fromScenario coordinator none scenario idx with
      | error other => simpa [hvalid, hconfig, bind, Except.bind] using h
      | ok built =>
          cases hpackage : packages.get? idx with
          | none => simp [hvalid, hconfig, hpackage, bind, Except.bind, pure, Except.pure] at h
          | some found =>
          simp [hvalid, hconfig, hpackage, bind, Except.bind, pure, Except.pure] at h

theorem visit_failed {idx : ℕ} {scenario : ScenarioEntry} {result : ProcessResult Payload}
    (h : (visit coordinator none packages idx scenario :
      Except ConfigError (Visit Payload Series)) = .ok (.failed result))
    (hvalid : scenario.isValid = true) :
    (∃ config, fromScenario coordinator none scenario idx = .ok config) ∧
      packages.get? idx = none := by
  unfold visit at h
  cases hconfig : fromScenario coordinator none scenario idx with
  | error other => simp [hvalid, hconfig, bind, Except.bind] at h
  | ok built =>
      refine ⟨⟨built, rfl⟩, ?_⟩
      cases hpackage : packages.get? idx with
      | none => rfl
      | some found =>
          simp [hvalid, hconfig, hpackage, bind, Except.bind, pure, Except.pure] at h

theorem fill_set {handed : List (Handed Series)} {idx : ℕ} (h : ∀ future ∈ handed, future.idx ≠ idx)
    (results : List (Option (ProcessResult Payload))) (result : Option (ProcessResult Payload)) :
    fill processMain handed (results.set idx result) =
      (fill processMain handed results).set idx result := by
  induction handed generalizing results with
  | nil => rfl
  | cons future handed ih =>
      have hne : idx ≠ future.idx := (h future List.mem_cons_self).symm
      have hrest := ih fun later hlater => h later (List.mem_cons_of_mem _ hlater)
      simp only [fill, List.foldl_cons] at hrest ⊢
      rw [List.set_comm _ _ hne, hrest]

theorem before_append {idx : ℕ} {futures : List (Handed Series)}
    (hbefore : ∀ future ∈ futures, future.idx < idx) (config : ProcessScenarioConfig)
    (package : ProcessDataPackage Series) :
    ∀ future ∈ futures ++ [⟨idx, config, package⟩], future.idx < idx + 1 := by
  intro future hfuture
  rcases List.mem_append.mp hfuture with hmem | hmem
  · exact (hbefore future hmem).trans (Nat.lt_succ_self idx)
  · rw [List.mem_singleton.mp hmem]
    exact Nat.lt_succ_self idx

/-- The loops go hand in hand: with the run group put into what the one submits, and the results
of that filled in, it is where the other one is. -/
theorem sequentialFrom_eq {idx : ℕ} {results : List (Option (ProcessResult Payload))}
    {futures : List (Handed Series)} (hbefore : ∀ future ∈ futures, future.idx < idx)
    (scenarios : List ScenarioEntry) :
    sequentialFrom processMain coordinator packages idx
        (fill processMain (futures.map (Handed.withRunGroup coordinator.runGroup)) results)
        (futures.map (Handed.withRunGroup coordinator.runGroup)) scenarios =
      let submitted := submitFrom coordinator packages idx results futures scenarios
      let handed := submitted.handed.map (Handed.withRunGroup coordinator.runGroup)
      { handed := handed, outcome := submitted.outcome.map (fill processMain handed) } := by
  induction scenarios generalizing idx results futures with
  | nil => rfl
  | cons scenario scenarios ih =>
      have hmapped : ∀ future ∈ futures.map (Handed.withRunGroup coordinator.runGroup),
          future.idx ≠ idx := by
        intro future hfuture
        obtain ⟨before, hmem, rfl⟩ := List.mem_map.mp hfuture
        exact (hbefore before hmem).ne
      rw [sequentialFrom, submitFrom, visit_runGroup]
      cases visit coordinator none packages idx scenario with
      | error error => rfl
      | ok seen =>
          cases seen with
          | failed result =>
              simp only [Except.map, Visit.withRunGroup]
              rw [← fill_set hmapped]
              apply ih
              intro future hfuture
              exact (hbefore future hfuture).trans (Nat.lt_succ_self idx)
          | run config package =>
              have hrest := @ih (idx + 1) results _ (before_append hbefore config package)
              rw [List.map_append, fill, List.foldl_append] at hrest
              exact hrest

theorem executeSequential_eq (scenarios : List ScenarioEntry) :
    executeSequential processMain coordinator packages scenarios =
      let submitted := submitAll coordinator packages scenarios
      let handed := submitted.handed.map (Handed.withRunGroup coordinator.runGroup)
      { handed := handed, outcome := submitted.outcome.map (fill processMain handed) } :=
  sequentialFrom_eq (fun _ hfuture => absurd hfuture List.not_mem_nil) scenarios

/-- What is submitted comes from scenarios one behind the other, under no run group. -/
theorem submitFrom_handed {idx : ℕ} {results : List (Option (ProcessResult Payload))}
    {futures : List (Handed Series)} (hbefore : ∀ future ∈ futures, future.idx < idx)
    (hnone : ∀ future ∈ futures, future.config.runGroup = none)
    (hapart : futures.Pairwise fun future later => future.idx ≠ later.idx)
    (scenarios : List ScenarioEntry) :
    (∀ future ∈ (submitFrom coordinator packages idx results futures scenarios).handed,
      future.config.runGroup = none) ∧
    (submitFrom coordinator packages idx results futures scenarios).handed.Pairwise
      fun future later => future.idx ≠ later.idx := by
  induction scenarios generalizing idx results futures with
  | nil => exact ⟨hnone, hapart⟩
  | cons scenario scenarios ih =>
      have hahead : ∀ future ∈ futures, future.idx < idx + 1 := by
        intro future hfuture
        exact (hbefore future hfuture).trans (Nat.lt_succ_self idx)
      rw [submitFrom]
      cases hvisit : (visit coordinator none packages idx scenario :
          Except ConfigError (Visit Payload Series)) with
      | error error => exact ⟨hnone, hapart⟩
      | ok seen =>
          cases seen with
          | failed result => exact ih hahead hnone hapart
          | run config package =>
              have hgroup := fromScenario_none (visit_run.mp hvisit).2.1
              apply ih (before_append hbefore config package)
              · intro future hfuture
                rcases List.mem_append.mp hfuture with hmem | hmem
                · exact hnone future hmem
                · rw [List.mem_singleton.mp hmem]
                  exact hgroup
              · apply List.pairwise_append.mpr
                refine ⟨hapart, List.pairwise_singleton _ _, ?_⟩
                intro future hfuture later hlater
                rw [List.mem_singleton.mp hlater]
                exact (hbefore future hfuture).ne

/-- Results of distinct places may be filled in in any order. -/
theorem fill_perm {completed futures : List (Handed Series)} (hperm : completed.Perm futures)
    (hapart : futures.Pairwise fun future later => future.idx ≠ later.idx)
    (results : List (Option (ProcessResult Payload))) :
    fill processMain completed results = fill processMain futures results := by
  apply hperm.foldl_eq'
  intro future hfuture later hlater results
  by_cases hsame : future.idx = later.idx
  · have hinj := List.Nodup.of_map Handed.idx (List.pairwise_map.mpr hapart)
    have heq : future = later := List.inj_on_of_nodup_map (List.pairwise_map.mpr hapart)
      (hperm.mem_iff.mp hfuture) (hperm.mem_iff.mp hlater) hsame
    rw [heq]
  · exact List.set_comm _ _ hsame

end Simulation

section Interchange

variable {Payload Series : Type} {coordinator : ExecutionCoordinator}
  {packages : Dict ℕ (ProcessDataPackage Series)}

/-- Of the scenarios from a place on, a process is started for the k-th: it is valid and has a
package, and up to it the configuration of every valid scenario can be built. -/
def Started (coordinator : ExecutionCoordinator) (packages : Dict ℕ (ProcessDataPackage Series))
    (idx : ℕ) (scenarios : List ScenarioEntry) (k : ℕ) : Prop :=
  (∃ scenario, scenarios[k]? = some scenario ∧ scenario.isValid = true) ∧
    (packages.get? (idx + k)).isSome = true ∧
    ∀ j ≤ k, ∀ scenario, scenarios[j]? = some scenario → scenario.isValid = true →
      ∃ config, fromScenario coordinator none scenario (idx + j) = .ok config

theorem started_cons_succ {idx k : ℕ} {scenario : ScenarioEntry} {scenarios : List ScenarioEntry}
    (hhead : scenario.isValid = true →
      ∃ config, fromScenario coordinator none scenario idx = .ok config) :
    Started coordinator packages idx (scenario :: scenarios) (k + 1) ↔
      Started coordinator packages (idx + 1) scenarios k := by
  have hplace : ∀ j, idx + (j + 1) = idx + 1 + j := by
    intro j
    omega
  rw [Started, Started, List.getElem?_cons_succ, hplace k]
  apply and_congr_right
  intro _
  apply and_congr_right
  intro _
  constructor
  · intro hbuilt j hj other hother hvalid
    have hlater := hbuilt (j + 1) (Nat.succ_le_succ hj) other hother hvalid
    rwa [hplace] at hlater
  · intro hbuilt j hj other hother hvalid
    cases j with
    | zero =>
        obtain rfl : scenario = other := by simpa using hother
        exact hhead hvalid
    | succ j =>
        rw [hplace]
        exact hbuilt j (Nat.le_of_succ_le_succ hj) other hother hvalid

/-- A scenario that fails starts no process and keeps none from starting. -/
theorem not_started_cons {idx : ℕ} {scenario : ScenarioEntry} {scenarios : List ScenarioEntry}
    (hhead : scenario.isValid = true →
      (∃ config, fromScenario coordinator none scenario idx = .ok config) ∧
        packages.get? idx = none) :
    (∀ k, ¬Started coordinator packages idx (scenario :: scenarios) k) ↔
      ∀ k, ¬Started coordinator packages (idx + 1) scenarios k := by
  constructor
  · intro hnone k
    rw [← started_cons_succ fun hvalid => (hhead hvalid).1]
    exact hnone (k + 1)
  · intro hnone k
    cases k with
    | zero =>
        rintro ⟨⟨other, hother, hvalid⟩, hpackage, -⟩
        obtain rfl : scenario = other := by simpa using hother
        rw [Nat.add_zero, (hhead hvalid).2] at hpackage
        cases hpackage
    | succ k =>
        rw [started_cons_succ fun hvalid => (hhead hvalid).1]
        exact hnone k

theorem submitFrom_started {Payload : Type} {idx : ℕ}
    {results : List (Option (ProcessResult Payload))} {futures : List (Handed Series)}
    (scenarios : List ScenarioEntry) :
    ∃ started, (submitFrom coordinator packages idx results futures scenarios).handed =
      futures ++ started ∧
      (started = [] ↔ ∀ k, ¬Started coordinator packages idx scenarios k) := by
  induction scenarios generalizing idx results futures with
  | nil =>
      refine ⟨[], (List.append_nil _).symm, ?_⟩
      simp [Started]
  | cons scenario scenarios ih =>
      rw [submitFrom]
      cases hvisit : (visit coordinator none packages idx scenario :
          Except ConfigError (Visit Payload Series)) with
      | error error =>
          refine ⟨[], (List.append_nil _).symm, iff_of_true rfl ?_⟩
          obtain ⟨hvalid, hbroken⟩ := visit_error hvisit
          intro k hstarted
          obtain ⟨config, hconfig⟩ := hstarted.2.2 0 (Nat.zero_le k) scenario rfl hvalid
          rw [Nat.add_zero, hbroken] at hconfig
          cases hconfig
      | ok seen =>
          cases seen with
          | failed result =>
              obtain ⟨started, heq, hiff⟩ := @ih (idx + 1) (results.set idx (some result)) futures
              exact ⟨started, heq, hiff.trans (not_started_cons (visit_failed hvisit)).symm⟩
          | run config package =>
              obtain ⟨hvalid, hconfig, hpackage⟩ := visit_run.mp hvisit
              obtain ⟨started, heq, -⟩ := @ih (idx + 1) results
                (futures ++ [⟨idx, config, package⟩])
              refine ⟨⟨idx, config, package⟩ :: started, by simpa using heq,
                iff_of_false (List.cons_ne_nil _ _) ?_⟩
              intro hnone
              apply hnone 0
              refine ⟨⟨scenario, rfl, hvalid⟩, by simp [hpackage], ?_⟩
              intro j hj other hother _
              obtain rfl : j = 0 := Nat.le_zero.mp hj
              obtain rfl : scenario = other := by simpa using hother
              exact ⟨config, hconfig⟩

/-- The parallel execution hands over and returns what the sequential one does, in whatever order
the processes complete. -/
def Interchangeable {Payload : Type}
    (processMain : ProcessScenarioConfig → ProcessDataPackage Series → ProcessResult Payload)
    (coordinator : ExecutionCoordinator) (packages : Dict ℕ (ProcessDataPackage Series))
    (scenarios : List ScenarioEntry) : Prop :=
  ∀ completed : List (Handed Series),
    completed.Perm (submitAll coordinator packages scenarios : Execution Payload Series).handed →
    executeParallel processMain coordinator packages completed scenarios =
      executeSequential processMain coordinator packages scenarios

theorem map_withRunGroup_none {handed : List (Handed Series)}
    (h : ∀ future ∈ handed, future.config.runGroup = none) :
    handed.map (Handed.withRunGroup none) = handed := by
  conv_rhs => rw [← List.map_id handed]
  apply List.map_congr_left
  intro future hfuture
  rw [Handed.withRunGroup, ← h future hfuture]
  rfl

/-- The two executions are interchangeable exactly if no run group is lost on a process. -/
theorem interchangeable_iff {Payload : Type}
    (processMain : ProcessScenarioConfig → ProcessDataPackage Series → ProcessResult Payload)
    (coordinator : ExecutionCoordinator) (packages : Dict ℕ (ProcessDataPackage Series))
    (scenarios : List ScenarioEntry) :
    Interchangeable processMain coordinator packages scenarios ↔
      coordinator.runGroup = none ∨ ∀ k, ¬Started coordinator packages 0 scenarios k := by
  let submitted : Execution Payload Series := submitAll coordinator packages scenarios
  obtain ⟨hgroup, hapart⟩ : (∀ future ∈ submitted.handed, future.config.runGroup = none) ∧
      submitted.handed.Pairwise fun (future later : Handed Series) => future.idx ≠ later.idx := by
    apply submitFrom_handed
    · simp
    · simp
    · exact List.Pairwise.nil
  obtain ⟨started, hhanded, hstarted⟩ : ∃ started, submitted.handed = [] ++ started ∧
      (started = [] ↔ ∀ k, ¬Started coordinator packages 0 scenarios k) :=
    submitFrom_started scenarios
  rw [List.nil_append] at hhanded
  rw [← hstarted, ← hhanded]
  constructor
  · intro hsame
    have heq := congrArg Execution.handed (hsame submitted.handed (List.Perm.refl _))
    rw [executeSequential_eq] at heq
    change submitted.handed = submitted.handed.map (Handed.withRunGroup coordinator.runGroup)
      at heq
    cases hfutures : submitted.handed with
    | nil => exact .inr rfl
    | cons future futures =>
        left
        rw [hfutures, List.map_cons] at heq
        have hfirst := congrArg (fun future => future.config.runGroup) (List.cons.inj heq).1
        rw [← hgroup future (hfutures ▸ List.mem_cons_self)]
        exact hfirst.symm
  · intro hcondition completed hcompleted
    have hunchanged : submitted.handed.map (Handed.withRunGroup coordinator.runGroup) =
        submitted.handed := by
      rcases hcondition with hnone | hempty
      · rw [hnone, map_withRunGroup_none hgroup]
      · rw [hempty]
        rfl
    rw [executeSequential_eq]
    change _ = Execution.mk (submitted.handed.map (Handed.withRunGroup coordinator.runGroup))
      (submitted.outcome.map (fill processMain
        (submitted.handed.map (Handed.withRunGroup coordinator.runGroup))))
    rw [hunchanged]
    have hfill : fill processMain completed = fill processMain submitted.handed :=
      funext (fill_perm hcompleted hapart)
    rw [← hfill]
    rfl

def sweepCoordinator : ExecutionCoordinator where
  scenarioSetName := "btcusd"
  runTimestamp := "20260101_000000"
  appConfig := {
    executionConfig := {}, defaultWorkerDecisionTracking := true,
    defaultTickLoopProfiling := false, barMaxHistory := 1000, orderHistoryMax := 10000,
    tradeHistoryMax := 5000 }
  marketConfig := {
    brokerLookup := (∅ : Dict String BrokerEntryConfig).set "kraken_spot"
      { marketType := .crypto, tradingModel := .spot }
    marketRules := (∅ : Dict MarketType MarketRulesConfig).set .crypto
      { interTickGapThresholdS := 300 } }
  runGroup := some "sweeps/sweep_1"

def btcusdScenario : ScenarioEntry where
  name := "btcusd_1"
  symbol := "BTCUSD"
  startDate := some 0
  brokerType := some .krakenSpot
  tradeSimulatorConfig := some {}

def btcusdPackage : ProcessDataPackage Unit where
  ticks := ∅
  bars := ∅
  signalSeries := ∅

def succeed (config : ProcessScenarioConfig) (_ : ProcessDataPackage Unit) : ProcessResult Unit where
  success := true
  scenarioName := config.name
  scenarioIndex := config.scenarioIndex

/-- The process of a scenario of a sweep logs outside of the sweep in parallel. -/
theorem run_group_lost :
    ¬Interchangeable succeed sweepCoordinator
      ((∅ : Dict ℕ (ProcessDataPackage Unit)).set 0 btcusdPackage) [btcusdScenario] := by
  intro h
  have hsame := congrArg
    (fun execution => execution.handed.map fun future => future.config.runGroup)
    (h _ (List.Perm.refl _))
  exact absurd hsame (by decide)

end Interchange

end Finiex.ScenarioExecution
