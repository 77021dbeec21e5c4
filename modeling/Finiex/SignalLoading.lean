import Finiex.PreparationIsolation
import Finiex.Signals
import Mathlib.Data.List.Dedup

namespace Finiex.SignalLoading

open Finiex.Types
open Finiex.Lib
open Finiex.Preparation
open Finiex.Signals

section Outages

structure StaleDataEvent where
  dataSource : String
  staleStartDate : Instant
  staleEndDate : Instant
  named : dataSource ≠ ""
  ordered : staleStartDate < staleEndDate
  deriving DecidableEq

def getReferencedSources (events : List StaleDataEvent) : List String :=
  ((events.map StaleDataEvent.dataSource).dedup).insertionSort (· ≤ ·)

def getWindowsForSource (events : List StaleDataEvent) (dataSource : String) :
    List (Instant × Instant) :=
  ((events.filter fun event => event.dataSource = dataSource).map fun event =>
    (event.staleStartDate, event.staleEndDate)).insertionSort fun window later =>
      toLex window ≤ toLex later

def inWindow (moment : Instant) (window : Instant × Instant) : Bool :=
  decide (window.1 ≤ moment) && decide (moment < window.2)

def carveSignalSeries (series : SignalSeries) (windows : List (Instant × Instant)) :
    SignalSeries :=
  if windows = [] then series
  else
    { series with
      snapshots := series.snapshots.filter fun snapshot =>
        !windows.any (inWindow snapshot.collectedMsc) }

/-- A scenario with the enabled events of its `stale_data_stress`. -/
structure StressedScenario extends SingleScenario where
  staleEvents : List StaleDataEvent := []
  referenced : staleDataSources = getReferencedSources staleEvents
  deriving DecidableEq

end Outages

section Archive

structure SignalFile where
  rows : List ParquetRow
  nonempty : rows ≠ []
  deriving DecidableEq

namespace SignalFile

def startTime (file : SignalFile) : Instant :=
  ofEpochMs (((file.rows.map ParquetRow.collectedMsc).min?).getD 0)

def endTime (file : SignalFile) : Instant :=
  ofEpochMs (((file.rows.map ParquetRow.collectedMsc).max?).getD 0)

def overlaps (file : SignalFile) (startDate endDate : Instant) : Bool :=
  decide (file.startTime ≤ endDate) && decide (startDate ≤ file.endTime)

end SignalFile

/-- The signal data: the indexed files of a source and symbol, and the snapshots that are read
of a JSONL file, or why it cannot be read. -/
structure SignalArchive where
  index : String → String → List SignalFile
  jsonl : String → Except String (List SignalSnapshot)
  sorted : ∀ source symbol,
    (index source symbol).Pairwise fun file later => file.startTime ≤ later.startTime

/-- `get_relevant_files`: the files that overlap a range. If none of them begins at or before
the range, the last file that ends before it comes first. -/
def getRelevantFiles (files : List SignalFile) (startDate endDate : Instant) : List SignalFile :=
  let relevant := files.filter fun file => file.overlaps startDate endDate
  let preceding := (files.filter fun file =>
    !file.overlaps startDate endDate && decide (file.endTime < startDate)).getLast?
  if relevant.any fun file => file.startTime ≤ startDate then relevant
  else preceding.toList ++ relevant

end Archive

section Loading

/-- How a path of the configuration is resolved, and how a moment is written. -/
structure LoadContext where
  resolvePath : String → String
  timeText : Option Instant → String

def farFuture : Instant := 4102444800000000

def orderedSeries (snapshots : List SignalSnapshot) (signalKind : String)
    (start stop : Option Instant) : SignalSeries where
  signalKind := signalKind
  snapshots := trimRange start stop (snapshots.insertionSort fun snapshot later =>
    snapshot.collectedMsc ≤ later.collectedMsc)

def noImportedData (context : LoadContext) (requirement : SignalRequirement)
    (scenarioName : String) : String :=
  "SIGNAL source '" ++ requirement.dataSentimentType ++ "' has no imported data for symbol '" ++
    requirement.symbol ++ "' in scenario '" ++ scenarioName ++ "' (range " ++
    context.timeText (some requirement.startTime) ++ " → " ++
    context.timeText requirement.endTime ++
    "). Run the signal import or check the scenario's 'data_sentiment_type'."

def noSourceConfigured (requirement : SignalRequirement) (scenarioName : String) : String :=
  "SIGNAL kind '" ++ requirement.signalKind ++ "' for scenario '" ++ scenarioName ++
    "' has neither a 'data_sentiment_type' nor a 'data_path' override configured."

/-- The series of one requirement: of the imported source, without the snapshots in its planned
outages, or else of the JSONL file of its path. -/
def loadSeries (context : LoadContext) (archive : SignalArchive) (scenario : StressedScenario)
    (requirement : SignalRequirement) : Except String SignalSeries :=
  if requirement.dataSentimentType ≠ "" then
    let files := getRelevantFiles
      (archive.index requirement.dataSentimentType requirement.symbol)
      requirement.startTime (requirement.endTime.getD farFuture)
    if files = [] then .error (noImportedData context requirement scenario.name)
    else
      let series := loadSignalSeriesFromParquet (files.map SignalFile.rows) requirement.signalKind
        requirement.symbol (some requirement.startTime) requirement.endTime
      .ok (carveSignalSeries series
        (getWindowsForSource scenario.staleEvents requirement.dataSentimentType))
  else if requirement.dataPath ≠ "" then
    (archive.jsonl (context.resolvePath requirement.dataPath)).map fun snapshots =>
      orderedSeries snapshots requirement.signalKind (some requirement.startTime)
        requirement.endTime
  else .error (noSourceConfigured requirement scenario.name)

end Loading

section Workers

def signalWorkers (scenario : SingleScenario) : List (String × String) :=
  scenario.workers.filterMap fun
    | .indicator _ => none
    | .signal kind dataPath => some (kind, dataPath)

def requirementOf (scenario : SingleScenario) (worker : String × String) : SignalRequirement where
  scenarioName := scenario.name
  brokerType := scenario.dataBrokerType
  symbol := scenario.symbol
  signalKind := worker.1
  dataSentimentType := scenario.dataSentimentType
  dataPath := worker.2
  startTime := scenario.startDate
  endTime := scenario.endDate

theorem signalRequirements_eq (scenario : SingleScenario) :
    scenario.signalRequirements = (signalWorkers scenario).map (requirementOf scenario) := by
  rw [SingleScenario.signalRequirements, signalWorkers, List.map_filterMap]
  apply congrArg (List.filterMap · scenario.workers)
  funext worker
  cases worker <;> rfl

def lastPath (scenario : SingleScenario) (kind : String) : Option String :=
  ((signalWorkers scenario).filter fun worker => worker.1 = kind).getLast?.map Prod.snd

variable {context : LoadContext} {archive : SignalArchive} {scenario : StressedScenario}

def signalFiles (archive : SignalArchive) (scenario : SingleScenario) : List SignalFile :=
  getRelevantFiles (archive.index scenario.dataSentimentType scenario.symbol) scenario.startDate
    (scenario.endDate.getD farFuture)

/-- A planned outage of the scenario's signal source covers a moment. -/
def isStale (scenario : StressedScenario) (moment : Instant) : Bool :=
  scenario.staleEvents.any fun event => decide (event.dataSource = scenario.dataSentimentType) &&
    inWindow moment (event.staleStartDate, event.staleEndDate)

def snapshotsFor (context : LoadContext) (archive : SignalArchive) (scenario : StressedScenario)
    (dataPath : String) : Option (List SignalSnapshot) :=
  if scenario.dataSentimentType ≠ "" then
    let files := signalFiles archive scenario.toSingleScenario
    if files = [] then none
    else some ((loadSignalSeriesFromParquet (files.map SignalFile.rows) "" scenario.symbol
      (some scenario.startDate) scenario.endDate).snapshots.filter fun snapshot =>
        !isStale scenario snapshot.collectedMsc)
  else if dataPath ≠ "" then
    (archive.jsonl (context.resolvePath dataPath)).toOption.map fun snapshots =>
      (orderedSeries snapshots "" (some scenario.startDate) scenario.endDate).snapshots
  else none

theorem any_windows (scenario : StressedScenario) (moment : Instant) :
    (getWindowsForSource scenario.staleEvents scenario.dataSentimentType).any (inWindow moment) =
      isStale scenario moment := by
  rw [getWindowsForSource, (List.perm_insertionSort _ _).any_eq, List.any_map, List.any_filter]
  rfl

theorem carveSignalSeries_snapshots (series : SignalSeries) (windows : List (Instant × Instant)) :
    carveSignalSeries series windows =
      { series with
        snapshots := series.snapshots.filter fun snapshot =>
          !windows.any (inWindow snapshot.collectedMsc) } := by
  unfold carveSignalSeries
  split
  · next hnone =>
      simp only [hnone, List.any_nil, Bool.not_false, List.filter_true]
  · rfl

theorem loadSeries_toOption (worker : String × String) :
    (loadSeries context archive scenario
        (requirementOf scenario.toSingleScenario worker)).toOption =
      (snapshotsFor context archive scenario worker.2).map (SignalSeries.mk worker.1) := by
  unfold loadSeries snapshotsFor
  simp only [requirementOf, signalFiles]
  by_cases hsource : scenario.dataSentimentType = ""
  · simp only [hsource, ne_eq, not_true_eq_false, if_false]
    by_cases hpath : worker.2 = ""
    · simp only [hpath, not_true_eq_false, if_false]
      rfl
    · simp only [hpath, not_false_eq_true, if_true]
      cases archive.jsonl (context.resolvePath worker.2) <;> rfl
  · simp only [hsource, ne_eq, not_false_eq_true, if_true]
    by_cases hfiles : getRelevantFiles (archive.index scenario.dataSentimentType scenario.symbol)
        scenario.startDate (scenario.endDate.getD farFuture) = []
    · simp only [hfiles, if_true]
      rfl
    · simp only [hfiles, if_false, carveSignalSeries_snapshots, any_windows]
      rfl

/-- The signals of a scenario that is prepared alone; none if it is excluded for them. -/
def loadedSignals (context : LoadContext) (archive : SignalArchive) (scenario : StressedScenario) :
    Option (Dict String SignalSeries) :=
  if unknownStaleSources scenario.toSingleScenario = [] then
    (loadSignalsForScenario (fun _ => loadSeries context archive scenario)
      scenario.toSingleScenario (aggregateRequirements [scenario.toSingleScenario])).toOption
  else none

def workerSeries (context : LoadContext) (archive : SignalArchive) (scenario : StressedScenario) :
    List (String × SignalSeries) :=
  (signalWorkers scenario.toSingleScenario).map fun worker =>
    (worker.1, { signalKind := worker.1
                 snapshots := (snapshotsFor context archive scenario worker.2).getD [] })

theorem loadSeries_of_some {worker : String × String} {snapshots : List SignalSnapshot}
    (h : snapshotsFor context archive scenario worker.2 = some snapshots) :
    loadSeries context archive scenario (requirementOf scenario.toSingleScenario worker) =
      .ok { signalKind := worker.1, snapshots := snapshots } := by
  have hloaded := @loadSeries_toOption context archive scenario worker
  rw [h] at hloaded
  cases hseries : loadSeries context archive scenario
      (requirementOf scenario.toSingleScenario worker) with
  | error message =>
      rw [hseries] at hloaded
      cases hloaded
  | ok loaded =>
      rw [hseries] at hloaded
      exact congrArg Except.ok (Option.some.inj hloaded)

theorem loadSeries_of_none {worker : String × String}
    (h : snapshotsFor context archive scenario worker.2 = none) :
    ∃ message, loadSeries context archive scenario
      (requirementOf scenario.toSingleScenario worker) = .error message := by
  have hloaded := @loadSeries_toOption context archive scenario worker
  rw [h] at hloaded
  cases hseries : loadSeries context archive scenario
      (requirementOf scenario.toSingleScenario worker) with
  | error message => exact ⟨message, rfl⟩
  | ok loaded =>
      rw [hseries] at hloaded
      cases hloaded

theorem loadedSignals_eq_some_iff {series : Dict String SignalSeries} :
    loadedSignals context archive scenario = some series ↔
      unknownStaleSources scenario.toSingleScenario = [] ∧
      (∀ worker ∈ signalWorkers scenario.toSingleScenario,
        (snapshotsFor context archive scenario worker.2).isSome) ∧
      series = (∅ : Dict String SignalSeries).assignAll (workerSeries context archive scenario) := by
  have hown : (aggregateRequirements [scenario.toSingleScenario]).signalRequirements.filter
      (fun r => r.scenarioName = scenario.name) =
        (signalWorkers scenario.toSingleScenario).map
          (requirementOf scenario.toSingleScenario) := by
    rw [← signalRequirements_eq]
    exact PreparationIsolation.signalRequirements_of_name (List.nodup_singleton _)
      List.mem_cons_self
  unfold loadedSignals
  split
  · next hknown =>
      rw [loadSignalsForScenario, hown]
      by_cases hall : ∀ worker ∈ signalWorkers scenario.toSingleScenario,
          (snapshotsFor context archive scenario worker.2).isSome
      · have hok : ∀ requirement ∈ (signalWorkers scenario.toSingleScenario).map
            (requirementOf scenario.toSingleScenario),
            loadSeries context archive scenario requirement = .ok
              { signalKind := requirement.signalKind
                snapshots :=
                  (snapshotsFor context archive scenario requirement.dataPath).getD [] } := by
          intro requirement hrequirement
          obtain ⟨worker, hworker, rfl⟩ := List.mem_map.mp hrequirement
          obtain ⟨snapshots, hsnapshots⟩ := Option.isSome_iff_exists.mp (hall worker hworker)
          rw [loadSeries_of_some hsnapshots]
          show _ = Except.ok (SignalSeries.mk worker.1
            ((snapshotsFor context archive scenario worker.2).getD []))
          rw [hsnapshots]
          rfl
        rw [Dict.foldlM_set_of_ok hok, List.map_map]
        constructor
        · intro h
          exact ⟨hknown, hall, (Option.some.inj h).symm⟩
        · rintro ⟨-, -, rfl⟩
          rfl
      · refine iff_of_false (fun h => hall fun worker hworker => ?_) fun h => hall h.2.1
        rw [Option.isSome_iff_ne_none]
        intro hnone
        obtain ⟨message, herror⟩ := loadSeries_of_none hnone
        obtain ⟨message', hstopped⟩ := @Dict.foldlM_set_of_error _ _ _ _ _ _
          SignalRequirement.signalKind _ _ _ (List.mem_map_of_mem hworker) herror ∅
        rw [hstopped] at h
        cases h
  · next hunknown => exact iff_of_false (by simp) fun h => hunknown h.1

theorem get?_workerSeries (kind : String) :
    ((∅ : Dict String SignalSeries).assignAll (workerSeries context archive scenario)).get? kind =
      (lastPath scenario.toSingleScenario kind).map fun path =>
        { signalKind := kind
          snapshots := (snapshotsFor context archive scenario path).getD [] } := by
  rw [Dict.get?_assignAll_empty, workerSeries, List.filter_map, List.getLast?_map, lastPath,
    Option.map_map, Option.map_map]
  show Option.map _ (List.filter (fun worker : String × String => decide (worker.1 = kind))
    (signalWorkers scenario.toSingleScenario)).getLast? = _
  cases hlast : ((signalWorkers scenario.toSingleScenario).filter fun worker =>
      decide (worker.1 = kind)).getLast? with
  | none => rfl
  | some worker =>
      have hkind := (List.mem_filter.mp (List.mem_of_mem_getLast? hlast)).2
      rw [decide_eq_true_eq] at hkind
      subst hkind
      rfl

theorem lastPath_isSome_iff {scenario : SingleScenario} {kind : String} :
    (lastPath scenario kind).isSome ↔ kind ∈ (signalWorkers scenario).map Prod.fst := by
  rw [lastPath, Option.isSome_map, List.getLast?_isSome, ne_eq, List.filter_eq_nil_iff, List.mem_map]
  simp

theorem mem_of_lastPath {scenario : SingleScenario} {kind path : String}
    (h : lastPath scenario kind = some path) : (kind, path) ∈ signalWorkers scenario := by
  obtain ⟨worker, hworker, rfl⟩ := Option.map_eq_some_iff.mp h
  obtain ⟨hmem, hkind⟩ := List.mem_filter.mp (List.mem_of_mem_getLast? hworker)
  rw [decide_eq_true_eq] at hkind
  rw [← hkind]
  exact hmem

end Workers

end Finiex.SignalLoading
