import Finiex.Coverage
import Mathlib.Data.Prod.Lex
import Mathlib.Data.String.Basic

/-!
# The data mount of a batch

The phases that exclude scenarios and load their data, the mount they leave, and the
execution of the scenarios on it.
-/

namespace Finiex.Mounts

open Finiex.Types
open Finiex.Lib
open Finiex.Bars
open Finiex.Preparation
open Finiex.Coverage

section Identity

structure DataIdentityKey where
  dataBrokerType : String
  symbol : String
  start : Instant
  endDate : Option Instant
  maxTicks : Option ℕ
  warmupBars : List (String × ℕ)
  tickProcessingBudgetMs : ℚ
  deriving DecidableEq

/-- The order of `sorted` on pairs. -/
def pairLe (a b : String × ℕ) : Prop := toLex a ≤ toLex b

instance : DecidableRel pairLe := fun a b => inferInstanceAs (Decidable (toLex a ≤ toLex b))

def DataIdentityKey.fromScenario (scenario : SingleScenario)
    (barRequirements : List BarRequirement) : DataIdentityKey where
  dataBrokerType := scenario.dataBrokerType
  symbol := scenario.symbol
  start := scenario.startDate
  endDate := scenario.endDate
  maxTicks := scenario.maxTicks
  warmupBars := ((barRequirements.filter fun r => r.scenarioName = scenario.name).map fun r =>
    (timeframeName r.timeframe, r.warmupCount)).insertionSort pairLe
  tickProcessingBudgetMs := scenario.tickProcessingBudgetMs

end Identity

section Phases

/-- A scenario of the list; its boundaries may be missing. -/
inductive ListedScenario
  | bounded (scenario : SingleScenario)
  | unbounded (name : String) (scenarioIndex : ℕ)
  deriving DecidableEq

def ListedScenario.scenarioIndex : ListedScenario → ℕ
  | .bounded scenario => scenario.scenarioIndex
  | .unbounded _ scenarioIndex => scenarioIndex

structure BatchScenario where
  scenario : ListedScenario
  isValid : Bool := true
  deriving DecidableEq

def BatchScenario.valid? (entry : BatchScenario) : Option SingleScenario :=
  match entry.isValid, entry.scenario with
  | true, .bounded scenario => some scenario
  | _, _ => none

def validScenarios (entries : List BatchScenario) : List SingleScenario :=
  entries.filterMap BatchScenario.valid?

/-- How the collection of its requirements ends for a scenario: they are added, it is excluded
before, or adding them raises after so many of its workers. -/
inductive Collection
  | added
  | excluded
  | raised (workers : ℕ)
  deriving DecidableEq

/-- What the validators of the phases before the load say of each scenario. -/
structure Validators where
  /-- The parameters and the configuration (phase 0). -/
  config : ListedScenario → Bool
  /-- The availability of the data (phase 2). -/
  availability : SingleScenario → Bool
  /-- The collection of requirements (phase 3). -/
  collection : SingleScenario → Collection

def marked (check : ListedScenario → Bool) (entries : List BatchScenario) : List BatchScenario :=
  entries.map fun entry => { entry with isValid := entry.isValid && check entry.scenario }

/-- `validate_scenario_boundaries`, with the other checks of the configuration. -/
def configured (validators : Validators) (listed : ListedScenario) : Bool :=
  match listed with
  | .bounded _ => validators.config listed
  | .unbounded _ _ => false

def onBounded (check : SingleScenario → Bool) : ListedScenario → Bool
  | .bounded scenario => check scenario
  | .unbounded _ _ => true

/-- The requirements of a scenario join those of the batch, as far as they are collected. -/
def collect (collection : SingleScenario → Collection) (requirements : RequirementsMap)
    (scenario : SingleScenario) : RequirementsMap :=
  match collection scenario with
  | .added => requirements.addScenario scenario
  | .excluded => requirements
  | .raised workers => { requirements with
      tickRequirements := requirements.tickRequirements ++ [scenario.tickRequirement]
      signalRequirements := requirements.signalRequirements ++
        { scenario with workers := scenario.workers.take workers }.signalRequirements }

/-- `collect_and_validate`, on a collector that already holds some requirements. -/
def collectAndValidate (collection : SingleScenario → Collection) (held : RequirementsMap)
    (scenarios : List SingleScenario) : RequirementsMap :=
  scenarios.foldl (collect collection) held

/-- The checked scenarios take the place of the valid ones of the list, in order. -/
def absorb : List BatchScenario → List (SingleScenario × List ValidationMessage) →
    List BatchScenario
  | entry :: entries, checked =>
      match entry.valid?, checked with
      | some _, (scenario, errors) :: checked =>
          { scenario := .bounded scenario, isValid := decide (errors = []) } ::
            absorb entries checked
      | _, _ => entry :: absorb entries checked
  | [], _ => []

end Phases

section Mount

variable {Series : Type}

structure Workspace (Series : Type) where
  archive : DataArchive
  loadSeries : SingleScenario → SignalRequirement → Except String Series
  coverage : CoverageConfig
  closes : String → Bool
  snapshots : String → String → List Instant
  isStandard : Bool
  allowedGapCategories : List GapCategory
  validators : Validators

structure MountPackage (Series : Type) where
  scenarioPackages : Dict ℕ (ProcessDataPackage Series)
  requirementsMap : RequirementsMap
  dataIdentity : Dict ℕ DataIdentityKey

/-- The scenarios as the quality check finds them, with what it needs. -/
structure LoadedBatch (Series : Type) where
  entries : List BatchScenario
  validator : ScenarioDataValidator
  requirementsMap : RequirementsMap
  scenarioPackages : Dict ℕ (ProcessDataPackage Series)

/-- The phases up to the load, on a collector that already holds some requirements. -/
def loadBatch (workspace : Workspace Series) (held : RequirementsMap)
    (entries : List BatchScenario) : LoadedBatch Series :=
  let configuredEntries := marked (configured workspace.validators) entries
  let scenarios := validScenarios configuredEntries
  let available := marked (onBounded workspace.validators.availability) configuredEntries
  let requirements :=
    collectAndValidate workspace.validators.collection held (validScenarios available)
  let collected := marked
    (onBounded fun scenario => decide (workspace.validators.collection scenario = .added)) available
  let allTicks := prepareTicks workspace.archive requirements.tickRequirements
  let allBars := prepareBars workspace.archive requirements.barRequirements
  let loaded := marked (onBounded fun scenario =>
    (packageFor workspace.loadSeries requirements allTicks allBars scenario).isOk) collected
  { entries := loaded
    validator := ScenarioDataValidator.build workspace.archive workspace.coverage workspace.closes
      workspace.snapshots scenarios workspace.isStandard workspace.allowedGapCategories
    requirementsMap := requirements
    scenarioPackages :=
      prepareScenarioPackages workspace.archive workspace.loadSeries requirements scenarios }

def LoadedBatch.checkQuality (batch : LoadedBatch Series) : List BatchScenario :=
  absorb batch.entries (batch.validator.validateLoadedData (validScenarios batch.entries)
    batch.scenarioPackages batch.requirementsMap)

def identities (packages : Dict ℕ (ProcessDataPackage Series)) (requirements : RequirementsMap)
    (entries : List BatchScenario) : Dict ℕ DataIdentityKey :=
  (∅ : Dict ℕ DataIdentityKey).assignAll
    (((validScenarios entries).filter fun scenario => packages.contains scenario.scenarioIndex).map
      fun scenario => (scenario.scenarioIndex,
        DataIdentityKey.fromScenario scenario requirements.barRequirements))

def prepareMount (workspace : Workspace Series) (held : RequirementsMap)
    (entries : List BatchScenario) : MountPackage Series × List BatchScenario :=
  let batch := loadBatch workspace held entries
  let checked := batch.checkQuality
  ({ scenarioPackages := batch.scenarioPackages
     requirementsMap := batch.requirementsMap
     dataIdentity := identities batch.scenarioPackages batch.requirementsMap checked }, checked)

end Mount

section Execution

variable {Series : Type}

inductive ScenarioResult (Series : Type)
  | validationFailed (scenario : ListedScenario)
  | executed (scenario : SingleScenario) (package : ProcessDataPackage Series)

/-- The identity of a listed scenario. One without boundaries has no identity to compare. -/
def ListedScenario.identity? (listed : ListedScenario) (barRequirements : List BarRequirement) :
    Option DataIdentityKey :=
  match listed with
  | .bounded scenario => some (DataIdentityKey.fromScenario scenario barRequirements)
  | .unbounded _ _ => none

def passesGuard (mount : MountPackage Series) (entry : BatchScenario) : Bool :=
  !mount.scenarioPackages.contains entry.scenario.scenarioIndex ||
    decide (mount.dataIdentity.get? entry.scenario.scenarioIndex ≠ none ∧
      mount.dataIdentity.get? entry.scenario.scenarioIndex =
        entry.scenario.identity? mount.requirementsMap.barRequirements)

def resultAt (packages : Dict ℕ (ProcessDataPackage Series)) (idx : ℕ) (entry : BatchScenario) :
    ScenarioResult Series :=
  match entry.valid? with
  | none => .validationFailed entry.scenario
  | some scenario =>
      match packages.get? idx with
      | none => .validationFailed entry.scenario
      | some package => .executed scenario package

def executeSequential (packages : Dict ℕ (ProcessDataPackage Series))
    (entries : List BatchScenario) : List (ScenarioResult Series) :=
  entries.mapIdx (resultAt packages)

/-- `execute_parallel`: the results are put in their places as the scenarios complete. -/
def executeParallel (packages : Dict ℕ (ProcessDataPackage Series)) (completed : List ℕ)
    (entries : List BatchScenario) : List (Option (ScenarioResult Series)) :=
  completed.foldl
    (fun results idx => results.set idx (entries[idx]?.map (resultAt packages idx)))
    (entries.map fun _ => none)

/-- One after the other, or in parallel, with the order in which the places are filled. -/
inductive ExecutionMode
  | sequential
  | parallel (completed : List ℕ)
  deriving DecidableEq

inductive BatchError
  | mountIdentityMismatch
  deriving DecidableEq

def execute (mount : MountPackage Series) (mode : ExecutionMode) (entries : List BatchScenario) :
    Except BatchError (List (Option (ScenarioResult Series))) :=
  if entries.all (passesGuard mount) then
    .ok (match mode with
      | .sequential => (executeSequential mount.scenarioPackages entries).map some
      | .parallel completed => executeParallel mount.scenarioPackages completed entries)
  else .error .mountIdentityMismatch

end Execution

end Finiex.Mounts
