import Finiex.MountLookups
import Finiex.SignalLoading

namespace Finiex.DataIdentity

open Finiex.Types
open Finiex.Lib
open Finiex.Bars
open Finiex.Preparation
open Finiex.PreparationIsolation
open Finiex.Mounts
open Finiex.Signals
open Finiex.SignalLoading

section Loads

def preparedAlone (context : LoadContext) (archive : DataArchive) (signals : SignalArchive)
    (scenario : StressedScenario) : Option (ProcessDataPackage SignalSeries) :=
  (prepareScenarioPackages archive (fun _ => loadSeries context signals scenario)
    (aggregateRequirements [scenario.toSingleScenario]) [scenario.toSingleScenario]).get?
      scenario.scenarioIndex

def ownKey (scenario : StressedScenario) : DataIdentityKey :=
  .fromScenario scenario.toSingleScenario
    (aggregateRequirements [scenario.toSingleScenario]).barRequirements

structure SameData (package other : ProcessDataPackage SignalSeries) : Prop where
  ticks : ∀ symbol, package.ticks.get? symbol = other.ticks.get? symbol
  bars : ∀ key, package.bars.get? key = other.bars.get? key
  signals : ∀ kind, package.signalSeries.get? kind = other.signalSeries.get? kind

/-- A package is the data that a fresh load of a scenario gives. -/
def IsFresh (context : LoadContext) (archive : DataArchive) (signals : SignalArchive)
    (scenario : StressedScenario) (package : ProcessDataPackage SignalSeries) : Prop :=
  ∃ fresh ∈ preparedAlone context archive signals scenario, SameData package fresh

/-- Scenarios of one key are given the same data, or none either way. -/
def KeySound (context : LoadContext) (scenario other : StressedScenario) : Prop :=
  ownKey scenario = ownKey other → ∀ archive signals,
    Option.Rel SameData (preparedAlone context archive signals scenario)
      (preparedAlone context archive signals other)

/-- A mount holds the data of a scenario at a place, with its identity and its requirements. -/
structure Holds (context : LoadContext) (archive : DataArchive) (signals : SignalArchive)
    (mount : MountPackage SignalSeries) (place : ℕ) (scenario : StressedScenario) : Prop where
  package : mount.scenarioPackages.get? place = preparedAlone context archive signals scenario
  identity : ∀ key ∈ mount.dataIdentity.get? place, key = ownKey scenario
  requirements : mount.requirementsMap.barRequirements.filter
    (fun r => r.scenarioName = scenario.name) = scenario.barRequirements

/-- A scenario that the guard of a mount passes runs on the data of a fresh load. -/
def GuardSound (context : LoadContext) (scenario other : StressedScenario) : Prop :=
  ∀ archive signals mount, Holds context archive signals mount other.scenarioIndex scenario →
    passesGuard mount { scenario := .bounded other.toSingleScenario } = true →
      ∀ package ∈ mount.scenarioPackages.get? other.scenarioIndex,
        IsFresh context archive signals other package

/-- `matches_mount`, of the valid scenarios on a fresh collector. -/
def matchesMount {Series : Type} (collection : SingleScenario → Collection)
    (mount : MountPackage Series) (scenarios : List SingleScenario) : Bool :=
  let requirements := collectAndValidate collection {} scenarios
  (scenarios.filter fun scenario => collection scenario = .added).all fun scenario =>
    match mount.dataIdentity.get? scenario.scenarioIndex with
    | none => false
    | some key =>
        decide (DataIdentityKey.fromScenario scenario requirements.barRequirements = key)

/-- A scenario of a batch that matches a mount runs on the data of a fresh load. -/
def MatchSound (context : LoadContext) (scenario other : StressedScenario) : Prop :=
  ∀ archive signals mount, Holds context archive signals mount other.scenarioIndex scenario →
    ∀ collection scenarios, (scenarios.map SingleScenario.name).Nodup →
      other.toSingleScenario ∈ scenarios → collection other.toSingleScenario = .added →
        matchesMount collection mount scenarios = true →
          ∀ package ∈ mount.scenarioPackages.get? other.scenarioIndex,
            IsFresh context archive signals other package

end Loads

section Inputs

/-- The fields of a scenario that its identity key compares. -/
structure SameBasis (scenario other : StressedScenario) : Prop where
  broker : scenario.dataBrokerType = other.dataBrokerType
  symbol : scenario.symbol = other.symbol
  start : scenario.startDate = other.startDate
  stop : scenario.endDate = other.endDate
  maxTicks : scenario.maxTicks = other.maxTicks
  budget : scenario.tickProcessingBudgetMs = other.tickProcessingBudgetMs

theorem SameBasis.symm {scenario other : StressedScenario} (h : SameBasis scenario other) : SameBasis other scenario :=
  ⟨h.broker.symm, h.symbol.symm, h.start.symm, h.stop.symm, h.maxTicks.symm, h.budget.symm⟩

def SameWarmup (scenario other : StressedScenario) : Prop :=
  ∀ timeframe, scenario.warmupByTimeframe.get? timeframe = other.warmupByTimeframe.get? timeframe

/-- No tick lies in the window of a scenario. -/
def NeverTicks (scenario : StressedScenario) : Prop :=
  scenario.maxTicks = some 0 ∨
    scenario.maxTicks = none ∧ ∃ stop ∈ scenario.endDate, stop < scenario.startDate

/-- A scenario is excluded for its outages or its signal workers on every archive. -/
def Refused (scenario : StressedScenario) : Prop :=
  unknownStaleSources scenario.toSingleScenario ≠ [] ∨
    scenario.dataSentimentType = "" ∧
      ∃ worker ∈ signalWorkers scenario.toSingleScenario, worker.2 = ""

/-- The signals of a scenario cover those of another: the other is not refused, has workers of
the same kinds, and reads the same source with the same outages, or the same files. -/
structure Covers (resolvePath : String → String) (scenario other : StressedScenario) : Prop where
  accepted : ¬Refused other
  kinds : ∀ kind, (lastPath scenario.toSingleScenario kind).isSome =
    (lastPath other.toSingleScenario kind).isSome
  source : signalWorkers scenario.toSingleScenario ≠ [] →
    scenario.dataSentimentType = other.dataSentimentType
  outages : signalWorkers scenario.toSingleScenario ≠ [] → scenario.dataSentimentType ≠ "" →
    ∀ stamp : ℤ, (∀ stop ∈ scenario.endDate, ofEpochMs stamp ≤ stop) →
      isStale scenario (ofEpochMs stamp) = isStale other (ofEpochMs stamp)
  readable : scenario.dataSentimentType = "" →
    ∀ worker ∈ signalWorkers other.toSingleScenario,
      ∃ worker' ∈ signalWorkers scenario.toSingleScenario,
        resolvePath worker'.2 = resolvePath worker.2
  paths : scenario.dataSentimentType = "" → ∀ kind,
    (lastPath scenario.toSingleScenario kind).map resolvePath =
      (lastPath other.toSingleScenario kind).map resolvePath

/-- Nothing that is loaded for a scenario differs from what is loaded for another. -/
def LoadsTheSame (resolvePath : String → String) (scenario other : StressedScenario) : Prop :=
  NeverTicks scenario ∨ Refused scenario ∨
    SameWarmup scenario other ∧ Covers resolvePath scenario other

end Inputs

section Alone

variable {context : LoadContext} {archive : DataArchive} {signals : SignalArchive}
  {scenario other : StressedScenario}

def ownTicks (archive : DataArchive) (scenario : SingleScenario) : List TickRow :=
  ticksOf archive [scenario.tickRequirement] scenario.tickRequirement

theorem prepareTicks_alone (archive : DataArchive) (scenario : SingleScenario) :
    (prepareTicks archive (aggregateRequirements [scenario]).tickRequirements).get? scenario.name =
      if ownTicks archive scenario = [] then none else some (ownTicks archive scenario) := by
  have hgroup : groupOf [scenario.tickRequirement] scenario.tickRequirement =
      [scenario.tickRequirement] := List.filter_eq_self.mpr fun r hr => by
    rw [List.mem_singleton.mp hr]
    exact decide_eq_true rfl
  have hticks := @prepareTicks_get? archive [scenario.tickRequirement] (List.nodup_singleton _)
    scenario.tickRequirement List.mem_cons_self
  rw [hgroup] at hticks
  rw [aggregate_tickRequirements]
  exact hticks

theorem barRequirements_alone (scenario : SingleScenario) :
    (aggregateRequirements [scenario]).barRequirements = scenario.barRequirements := by
  rw [aggregate_barRequirements]
  exact List.append_nil _

theorem mem_preparedAlone {package : ProcessDataPackage SignalSeries} :
    package ∈ preparedAlone context archive signals scenario ↔
      ownTicks archive scenario.toSingleScenario ≠ [] ∧
        ∃ series, loadedSignals context signals scenario = some series ∧
          package =
            { ticks := (∅ : Dict String (List TransportTick)).set scenario.symbol
                (transported scenario.toSingleScenario
                  (ownTicks archive scenario.toSingleScenario))
              bars := filterBarsForScenario scenario.toSingleScenario
                (prepareBars archive scenario.barRequirements)
              signalSeries := series } := by
  have hindex : ([scenario.toSingleScenario].map SingleScenario.scenarioIndex).Nodup :=
    List.nodup_singleton _
  rw [preparedAlone, prepareScenarioPackages_get? hindex List.mem_cons_self,
    packageFor_toOption (prepareTicks_alone archive scenario.toSingleScenario),
    barRequirements_alone, Option.mem_def, loadedSignals]
  by_cases hticks : ownTicks archive scenario.toSingleScenario = []
  · rw [if_pos (Or.inl hticks)]
    exact iff_of_false (by simp) fun h => h.1 hticks
  · by_cases hknown : unknownStaleSources scenario.toSingleScenario = []
    · rw [if_neg (by simp [hticks, hknown]), if_pos hknown, Option.map_eq_some_iff]
      constructor
      · rintro ⟨series, hseries, rfl⟩
        exact ⟨hticks, series, hseries, rfl⟩
      · rintro ⟨-, series, hseries, rfl⟩
        exact ⟨series, hseries, rfl⟩
    · rw [if_pos (Or.inr hknown), if_neg hknown]
      refine iff_of_false (by simp) ?_
      rintro ⟨-, series, hseries, -⟩
      cases hseries

theorem ownTicks_eq (h : SameBasis scenario other) (archive : DataArchive) :
    ownTicks archive scenario.toSingleScenario = ownTicks archive other.toSingleScenario := by
  have hrequirement : other.tickRequirement =
      { scenario.tickRequirement with scenarioName := other.name } := by
    simp only [SingleScenario.tickRequirement, h.broker, h.symbol, h.start, h.stop, h.maxTicks]
  rw [ownTicks, ownTicks, hrequirement]
  rfl

theorem transported_eq (h : SameBasis scenario other) (rows : List TickRow) :
    transported scenario.toSingleScenario rows = transported other.toSingleScenario rows := by
  rw [transported, transported, h.budget]

theorem hasRows_not_neverTicks (h : HasRows archive scenario.tickRequirement) :
    ¬NeverTicks scenario := by
  obtain ⟨hmax, symbolFiles, -, x, -, -, hkeeps⟩ := h
  rintro (hzero | ⟨hnone, stop, hstop, hbefore⟩)
  · exact hmax hzero
  · rw [keeps, Bool.and_eq_true, decide_eq_true_eq] at hkeeps
    obtain ⟨hstart, hend⟩ := hkeeps
    have hmax' : scenario.tickRequirement.maxTicks = none := hnone
    have hend' : scenario.tickRequirement.endTime = some stop := hstop
    rw [hmax', hend', Option.isSome_none, Bool.false_or, Option.all_some,
      decide_eq_true_eq] at hend
    exact absurd (hbefore.trans_le hstart) (not_lt.mpr hend)

def tickAt (moment : Instant) : TickRow where
  timestamp := moment
  timeMsc := epochMs moment
  collectedMsc := epochMs moment
  bid := 1
  ask := 1

/-- One tick file for every symbol, with a tick at each of two moments, and the bar files
given. -/
def tickProbe (first last : Instant) (barFile : String → String → Timeframe → Option (List Bar)) :
    DataArchive where
  tickFiles _ _ := some
    { files := [{ startTime := first, endTime := last, rows := [tickAt first, tickAt last] }]
      nonempty := List.cons_ne_nil _ _ }
  barFile := barFile

/-- A scenario whose window can hold ticks has some on an archive with any bar files. -/
theorem exists_ticks (h : ¬NeverTicks scenario)
    (barFile : String → String → Timeframe → Option (List Bar)) :
    ∃ archive : DataArchive, archive.barFile = barFile ∧
      ownTicks archive scenario.toSingleScenario ≠ [] := by
  let first := min scenario.startDate (scenario.endDate.getD scenario.startDate)
  refine ⟨tickProbe first scenario.startDate barFile, rfl, ticksOf_ne_nil_iff.mpr ⟨?_, _, rfl,
    (_, tickAt scenario.startDate), List.mem_flatMap.mpr ⟨_, List.mem_cons_self,
      List.mem_map.mpr ⟨_, List.mem_cons_of_mem _ List.mem_cons_self, rfl⟩⟩, ?_, ?_⟩⟩
  · intro hzero
    exact h (.inl hzero)
  · rw [loads, TickFile.isRelevant, Bool.and_eq_true, decide_eq_true_eq, decide_eq_true_eq]
    constructor
    · show first ≤ (scenario.endDate.toList.max?).getD scenario.startDate
      cases hstop : scenario.endDate with
      | none => exact min_le_left _ _
      | some stop =>
          show min scenario.startDate (scenario.endDate.getD scenario.startDate) ≤ stop
          rw [hstop]
          exact min_le_right _ _
    · exact le_refl scenario.startDate
  · rw [keeps, Bool.and_eq_true, decide_eq_true_eq]
    refine ⟨le_refl scenario.startDate, ?_⟩
    show (scenario.maxTicks.isSome || scenario.endDate.all fun stop =>
      decide (scenario.startDate ≤ stop)) = true
    cases hmax : scenario.maxTicks with
    | some maxTicks => rfl
    | none =>
        rw [Option.isSome_none, Bool.false_or, Option.all_eq_true]
        intro stop hstop
        rw [decide_eq_true_eq, ← not_lt]
        intro hbefore
        exact h (.inr ⟨hmax, stop, hstop, hbefore⟩)

theorem ownTicks_of_neverTicks (h : NeverTicks scenario) (archive : DataArchive) :
    ownTicks archive scenario.toSingleScenario = [] := by
  by_contra hticks
  exact hasRows_not_neverTicks (ticksOf_ne_nil_iff.mp hticks) h

end Alone

section Warmup

variable {archive : DataArchive} {scenario other : StressedScenario}

theorem barRequirements_iff {scenario : SingleScenario} {requirement : BarRequirement} :
    requirement ∈ scenario.barRequirements ↔
      ∃ timeframe count, scenario.warmupByTimeframe.get? timeframe = some count ∧
        requirement =
          { scenarioName := scenario.name
            brokerType := scenario.dataBrokerType
            symbol := scenario.symbol
            timeframe := timeframe
            warmupCount := count
            startTime := scenario.startDate } := by
  rw [SingleScenario.barRequirements, List.mem_map]
  constructor
  · rintro ⟨⟨timeframe, count⟩, hentry, rfl⟩
    exact ⟨timeframe, count, (Dict.get?_eq_some_iff _).mpr hentry, rfl⟩
  · rintro ⟨timeframe, count, hcount, rfl⟩
    exact ⟨(timeframe, count), (Dict.get?_eq_some_iff _).mp hcount, rfl⟩

/-- The warmup bars of a scenario alone: of each of its timeframes that has a file, as many as it
asks for. -/
theorem ownBars_get? (archive : DataArchive) (scenario : SingleScenario) (timeframe : Timeframe) :
    (filterBarsForScenario scenario (prepareBars archive scenario.barRequirements)).get?
        (scenario.symbol, timeframe, scenario.startDate) =
      (scenario.warmupByTimeframe.get? timeframe).bind fun count =>
        (archive.barFile scenario.dataBrokerType scenario.symbol timeframe).map fun bars =>
          internBars scenario.symbol timeframe (warmupCut bars scenario.startDate count) := by
  rw [filterBarsForScenario_get?, if_pos ⟨rfl, rfl⟩, prepareBars_get?]
  cases hlast : lastLoaded archive scenario.barRequirements
      (scenario.symbol, timeframe, scenario.startDate) with
  | some stored =>
      obtain ⟨hmem, hfile, hkey⟩ := lastLoaded_some hlast
      obtain ⟨timeframe', count, hcount, rfl⟩ := barRequirements_iff.mp hmem
      obtain rfl : timeframe' = timeframe := congrArg (fun key => key.2.1) hkey
      obtain ⟨bars, hbars⟩ := Option.isSome_iff_exists.mp hfile
      rw [fileOf] at hbars
      rw [hcount, Option.map_some, cutOf, barsBefore, fileOf, hbars, Option.bind_some,
        Option.map_some, Option.map_some]
      rfl
  | none =>
      cases hcount : scenario.warmupByTimeframe.get? timeframe with
      | none => rfl
      | some count =>
          cases hbars : archive.barFile scenario.dataBrokerType scenario.symbol timeframe with
          | none => rfl
          | some bars =>
              have hmem := barRequirements_iff.mpr ⟨timeframe, count, hcount, rfl⟩
              obtain ⟨stored, hstored⟩ := lastLoaded_isSome hmem
                (show (fileOf archive _).isSome by rw [fileOf, hbars]; rfl)
              rw [barKey, hlast] at hstored
              cases hstored

theorem ownBars_outside (archive : DataArchive) (scenario : SingleScenario) {key : BarKey}
    (h : ¬(key.1 = scenario.symbol ∧ key.2.2 = scenario.startDate)) :
    (filterBarsForScenario scenario (prepareBars archive scenario.barRequirements)).get? key =
      none := by
  rw [filterBarsForScenario_get?, if_neg h]

theorem bars_of_warmup (hbasis : SameBasis scenario other) (h : SameWarmup scenario other)
    (archive : DataArchive) (key : BarKey) :
    (filterBarsForScenario scenario.toSingleScenario
        (prepareBars archive scenario.barRequirements)).get? key =
      (filterBarsForScenario other.toSingleScenario
        (prepareBars archive other.barRequirements)).get? key := by
  by_cases hkey : key.1 = scenario.symbol ∧ key.2.2 = scenario.startDate
  · obtain ⟨symbol, timeframe, start⟩ := key
    obtain ⟨rfl, rfl⟩ := hkey
    have hother := ownBars_get? archive other.toSingleScenario timeframe
    rw [← hbasis.symbol, ← hbasis.start] at hother
    rw [ownBars_get?, hother, h timeframe, hbasis.broker]
  · rw [ownBars_outside archive _ hkey, ownBars_outside archive]
    rw [← hbasis.symbol, ← hbasis.start]
    exact hkey

def barsBeforeMoment (n : ℕ) (symbol : String) (timeframe : Timeframe) (moment : Instant) :
    List Bar :=
  (List.range n).map fun k =>
    { symbol := symbol
      timeframe := timeframe
      timestamp := moment - ((n - k : ℕ) : ℤ) * timeframe.duration }

theorem length_warmupCut_barsBeforeMoment (n count : ℕ) (symbol : String) (timeframe : Timeframe)
    (moment : Instant) :
    (warmupCut (barsBeforeMoment n symbol timeframe moment) moment count).length =
      min count n := by
  have hbefore : (barsBeforeMoment n symbol timeframe moment).filter
      (fun bar => bar.timestamp < moment) = barsBeforeMoment n symbol timeframe moment := by
    refine List.filter_eq_self.mpr fun bar hbar => ?_
    obtain ⟨k, hk, rfl⟩ := List.mem_map.mp hbar
    rw [List.mem_range] at hk
    rw [decide_eq_true_eq]
    have hduration : (0 : ℤ) < timeframe.duration := by cases timeframe <;> decide
    have hplace : (0 : ℤ) < ((n - k : ℕ) : ℤ) := by omega
    exact sub_lt_self moment (mul_pos hplace hduration)
  have hlength : (barsBeforeMoment n symbol timeframe moment).length = n := by
    rw [barsBeforeMoment, List.length_map, List.length_range]
  rw [warmupCut, hbefore, tail, List.length_drop, hlength]
  omega

theorem warmup_of_bars (hbasis : SameBasis scenario other)
    (h : ∀ barFile, ∃ archive : DataArchive, archive.barFile = barFile ∧ ∀ key,
      (filterBarsForScenario scenario.toSingleScenario
          (prepareBars archive scenario.barRequirements)).get? key =
        (filterBarsForScenario other.toSingleScenario
          (prepareBars archive other.barRequirements)).get? key) :
    SameWarmup scenario other := by
  intro timeframe
  obtain ⟨archive, hfile, hsame⟩ := h fun _ symbol timeframe' => some (barsBeforeMoment
    ((scenario.warmupByTimeframe.get? timeframe).getD 0 +
      (other.warmupByTimeframe.get? timeframe).getD 0) symbol timeframe' scenario.startDate)
  have hown := hsame (scenario.symbol, timeframe, scenario.startDate)
  have hother := ownBars_get? archive other.toSingleScenario timeframe
  rw [← hbasis.symbol, ← hbasis.start] at hother
  rw [ownBars_get?, hother, hfile] at hown
  cases hcount : scenario.warmupByTimeframe.get? timeframe with
  | none =>
      cases hcount' : other.warmupByTimeframe.get? timeframe with
      | none => rfl
      | some count' =>
          rw [hcount, hcount'] at hown
          cases hown
  | some count =>
      cases hcount' : other.warmupByTimeframe.get? timeframe with
      | none =>
          rw [hcount, hcount'] at hown
          cases hown
      | some count' =>
          rw [hcount, hcount'] at hown
          have hlengths := congrArg (fun bars => (bars.getD []).length) hown
          simp only [Option.bind_some, Option.map_some, Option.getD_some, internBars,
            List.length_map, length_warmupCut_barsBeforeMoment] at hlengths
          rw [show count = count' by omega]

end Warmup

end Finiex.DataIdentity
