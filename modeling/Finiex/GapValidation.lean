import Finiex.Coverage
import Finiex.PreparationIsolation

namespace Finiex.GapValidation

open Finiex.Types
open Finiex.Lib
open Finiex.Bars
open Finiex.Preparation
open Finiex.PreparationIsolation
open Finiex.Coverage
open Finiex.Coverage.ScenarioDataValidator

section Detection

theorem segmentEnd_le {current «end» : Instant} : segmentEnd current «end» ≤ «end» := by
  unfold segmentEnd
  split
  · exact min_le_right _ _
  · split
    · next hlt => exact hlt.le
    · exact le_refl _

theorem splitFrom_inside {current «end» : Instant} {segment : Instant × Instant}
    (h : segment ∈ splitFrom «end» current) :
    current ≤ segment.1 ∧ segment.1 < segment.2 ∧ segment.2 ≤ «end» := by
  induction current using splitFrom.induct «end» with
  | case1 current hlt hstep ih =>
      rw [splitFrom, dif_pos hlt] at h
      rcases List.mem_cons.mp h with rfl | hlater
      · exact ⟨le_refl _, hstep, segmentEnd_le⟩
      · obtain ⟨hlow, hinside, hhigh⟩ := ih hlater
        exact ⟨hstep.le.trans hlow, hinside, hhigh⟩
  | case2 current hnot =>
      rw [splitFrom, dif_neg hnot] at h
      exact absurd h List.not_mem_nil

end Detection

section Checks

variable {Series : Type} {validator : ScenarioDataValidator} {scenario : SingleScenario}
  {package : ProcessDataPackage Series} {requirements : RequirementsMap}

def stretchOf : List TransportTick → Option (Instant × Instant)
  | [] => none
  | first :: rest => some (timeRangeFromTransportTicks first rest)

def Inside (stretch : Instant × Instant) (gap : Gap) : Prop :=
  stretch.1 ≤ gap.gapStart ∧ gap.gapEnd ≤ stretch.2

/-- Of two ticks in a row, one is at or before the bar that opens the gap, and the next comes
when the gap is over. -/
def LiesBetween (granularity : Timeframe) (ticks : List TransportTick) (gap : Gap) : Prop :=
  ∃ pair ∈ ticks.zip ticks.tail,
    getBarStartTime (TransportTick.time pair.1) granularity ≤ gap.gapStart ∧
      gap.gapEnd ≤ TransportTick.time pair.2

def DataGap (validator : ScenarioDataValidator) (scenario : SingleScenario) (gap : Gap) : Prop :=
  ∃ report ∈ validator.dataCoverageReports scenario.dataBrokerType scenario.symbol,
    gap ∈ report.gaps ∧ gap.category ∉ validator.allowedGapCategories

def SignalGap (validator : ScenarioDataValidator) (scenario : SingleScenario) (gap : Gap) : Prop :=
  scenario.dataSentimentType ≠ "" ∧
    ∃ report ∈ validator.signalCoverageReports scenario.dataSentimentType scenario.symbol,
      gap ∈ report.gaps ∧ gap.category ∉ validator.allowedGapCategories

/-- The ticks run over no gap that is not allowed. -/
def GapFree (validator : ScenarioDataValidator) (granularity : Timeframe)
    (scenario : SingleScenario) (ticks : List TransportTick) : Prop :=
  (∀ gap, DataGap validator scenario gap → ¬LiesBetween granularity ticks gap) ∧
    ∀ gap, SignalGap validator scenario gap → ∀ stretch ∈ stretchOf ticks, ¬Inside stretch gap

/-- A gap that is not allowed lies inside the stretch of these ticks. -/
def Found (validator : ScenarioDataValidator) (scenario : SingleScenario)
    (ticks : List TransportTick) : Prop :=
  ∃ stretch ∈ stretchOf ticks, ∃ gap,
    (DataGap validator scenario gap ∨ SignalGap validator scenario gap) ∧ Inside stretch gap

/-- The scenario fails a check that looks at no ticks. -/
def Rejected (validator : ScenarioDataValidator) (scenario : SingleScenario)
    (package : ProcessDataPackage Series) (requirements : RequirementsMap) : Prop :=
  match validator.dataCoverageReports scenario.dataBrokerType scenario.symbol with
  | none => True
  | some report =>
      (validateStartDateNotInGap scenario report).2.errors ≠ [] ∨
        (validator.validateWarmupQuality scenario package requirements).errors ≠ []

theorem map_filter_ne_nil_iff {α β : Type} {p : α → Bool} {f : α → β} {xs : List α} :
    (xs.filter p).map f ≠ [] ↔ ∃ x ∈ xs, p x = true := by
  rw [ne_eq, List.map_eq_nil_iff, List.filter_eq_nil_iff]
  push Not
  rfl

theorem validateTickStretch_iff {report : CoverageReport}
    (hreport : validator.dataCoverageReports scenario.dataBrokerType scenario.symbol =
      some report) :
    validator.validateTickStretch scenario report package ≠ [] ↔
      ∃ ticks ∈ package.ticks.get? scenario.name, ∃ stretch ∈ stretchOf ticks,
        ∃ gap, DataGap validator scenario gap ∧ Inside stretch gap := by
  unfold validateTickStretch DataGap
  rw [hreport]
  cases hticks : package.ticks.get? scenario.name with
  | none => simp
  | some ticks =>
      cases ticks with
      | nil => simp [stretchOf]
      | cons first rest =>
          simp only [map_filter_ne_nil_iff, Bool.and_eq_true, decide_eq_true_eq]
          constructor
          · rintro ⟨gap, hgap, ⟨hstart, hend⟩, hdisallowed⟩
            exact ⟨_, rfl, _, rfl, gap, ⟨report, rfl, hgap, hdisallowed⟩, hstart, hend⟩
          · rintro ⟨_, hsome, _, hstretch, gap, ⟨_, hsame, hgap, hdisallowed⟩, hinside⟩
            cases hsome
            cases hstretch
            cases hsame
            exact ⟨gap, hgap, hinside, hdisallowed⟩

theorem validateSignalStretch_iff :
    validator.validateSignalStretch scenario package ≠ [] ↔
      ∃ ticks ∈ package.ticks.get? scenario.name, ∃ stretch ∈ stretchOf ticks,
        ∃ gap, SignalGap validator scenario gap ∧ Inside stretch gap := by
  unfold validateSignalStretch SignalGap
  by_cases hsource : scenario.dataSentimentType = ""
  · simp [hsource]
  · rw [if_neg hsource]
    cases hreport : validator.signalCoverageReports scenario.dataSentimentType scenario.symbol with
    | none => simp
    | some report =>
        cases hticks : package.ticks.get? scenario.name with
        | none => simp
        | some ticks =>
            cases ticks with
            | nil => simp [stretchOf]
            | cons first rest =>
                simp only [map_filter_ne_nil_iff, CoverageReport.gapsInWindow, List.mem_filter,
                  Bool.and_eq_true, decide_eq_true_eq]
                constructor
                · rintro ⟨gap, ⟨hgap, hstart, hend⟩, hdisallowed⟩
                  exact ⟨_, rfl, _, rfl, gap, ⟨hsource, report, rfl, hgap, hdisallowed⟩,
                    hstart, hend⟩
                · rintro ⟨_, hsome, _, hstretch, gap, ⟨-, _, hsame, hgap, hdisallowed⟩, hinside⟩
                  cases hsome
                  cases hstretch
                  cases hsame
                  exact ⟨gap, ⟨hgap, hinside⟩, hdisallowed⟩

theorem validateStartDateNotInGap_keeps (scenario : SingleScenario) (report : CoverageReport) :
    ∃ start, (validateStartDateNotInGap scenario report).1 =
      { scenario with startDate := start } := by
  unfold validateStartDateNotInGap
  split
  · exact ⟨scenario.startDate, rfl⟩
  · split
    · exact ⟨_, rfl⟩
    · exact ⟨scenario.startDate, rfl⟩

/-- A scenario fails its validation for another check, or for a gap found in the ticks under
its name. -/
theorem validateSingleScenario_iff :
    (validator.validateSingleScenario scenario package requirements).2.errors ≠ [] ↔
      Rejected validator scenario package requirements ∨
        ∃ ticks ∈ package.ticks.get? scenario.name, Found validator scenario ticks := by
  unfold validateSingleScenario Rejected
  cases hreport : validator.dataCoverageReports scenario.dataBrokerType scenario.symbol with
  | none => simp
  | some report =>
      obtain ⟨start, hmoved⟩ := validateStartDateNotInGap_keeps scenario report
      have htick : validator.validateTickStretch scenario report package ≠ [] ↔
          ∃ ticks ∈ package.ticks.get? scenario.name, ∃ stretch ∈ stretchOf ticks,
            ∃ gap, DataGap validator scenario gap ∧ Inside stretch gap :=
        validateTickStretch_iff hreport
      have hsignal : validator.validateSignalStretch scenario package ≠ [] ↔
          ∃ ticks ∈ package.ticks.get? scenario.name, ∃ stretch ∈ stretchOf ticks,
            ∃ gap, SignalGap validator scenario gap ∧ Inside stretch gap :=
        validateSignalStretch_iff
      have hfound : (∃ ticks ∈ package.ticks.get? scenario.name, Found validator scenario ticks) ↔
          validator.validateTickStretch scenario report package ≠ [] ∨
            validator.validateSignalStretch scenario package ≠ [] := by
        rw [htick, hsignal]
        constructor
        · rintro ⟨ticks, hticks, stretch, hstretch, gap, hgap | hgap, hinside⟩
          · exact .inl ⟨ticks, hticks, stretch, hstretch, gap, hgap, hinside⟩
          · exact .inr ⟨ticks, hticks, stretch, hstretch, gap, hgap, hinside⟩
        · rintro (⟨ticks, hticks, stretch, hstretch, gap, hgap, hinside⟩ |
            ⟨ticks, hticks, stretch, hstretch, gap, hgap, hinside⟩)
          · exact ⟨ticks, hticks, stretch, hstretch, gap, .inl hgap, hinside⟩
          · exact ⟨ticks, hticks, stretch, hstretch, gap, .inr hgap, hinside⟩
      rw [hfound]
      simp only [hmoved]
      show (_ ++ validator.validateTickStretch scenario report package ++
        (validator.validateWarmupQuality scenario package requirements).errors ++
        validator.validateSignalStretch scenario package) ≠ [] ↔ _
      simp only [ne_eq, List.append_eq_nil_iff, not_and_or]
      exact (or_congr_left or_right_comm).trans or_assoc

end Checks

section Results

variable {Series : Type}

/-- The package looked up for a scenario shows a reason to reject it. -/
def Refused (validator : ScenarioDataValidator) (idx : ℕ) (scenario : SingleScenario)
    (packages : Dict ℕ (ProcessDataPackage Series)) (requirements : RequirementsMap) : Prop :=
  ∃ checked ∈ packages.get? idx, Rejected validator scenario checked requirements ∨
    ∃ ticks ∈ checked.ticks.get? scenario.name, Found validator scenario ticks

theorem leftValid_iff {validator : ScenarioDataValidator} {scenario : SingleScenario}
    {packages : Dict ℕ (ProcessDataPackage Series)} {requirements : RequirementsMap}
    {validated : List SingleScenario} {idx : ℕ} (hscenario : validated[idx]? = some scenario) :
    (∀ result ∈ (validator.validateLoadedData validated packages requirements)[idx]?,
        result.2 = []) ↔
      ¬Refused validator idx scenario packages requirements := by
  unfold validateLoadedData Refused
  rw [List.getElem?_mapIdx, hscenario]
  simp only [Option.map_some, Option.mem_def, Option.some.injEq, forall_eq']
  cases hchecked : packages.get? idx with
  | none => simp
  | some checked =>
      have herrors :
          (validator.validateSingleScenario scenario checked requirements).2.errors ≠ [] ↔
            Rejected validator scenario checked requirements ∨
              ∃ ticks ∈ checked.ticks.get? scenario.name, Found validator scenario ticks :=
        validateSingleScenario_iff
      constructor
      · rintro hvalid ⟨other, hother, hrefused⟩
        cases hother
        exact herrors.mpr hrefused hvalid
      · intro hnot
        by_contra hinvalid
        exact hnot ⟨checked, rfl, herrors.mp hinvalid⟩

/-- The inputs of a validation: the scenarios of a batch, numbered by their places and named
apart, of which those still valid are validated. -/
structure GapCheck (Series : Type) where
  archive : DataArchive
  config : CoverageConfig
  closes : String → Bool
  snapshots : String → String → List Instant
  loadSeries : SingleScenario → SignalRequirement → Except String Series
  isStandard : Bool
  allowed : List GapCategory
  scenarios : List SingleScenario
  validated : List SingleScenario
  indexed : scenarios.map SingleScenario.scenarioIndex = List.range scenarios.length
  named : (scenarios.map SingleScenario.name).Nodup
  kept : validated.Sublist scenarios

namespace GapCheck

variable (check : GapCheck Series)

def validator : ScenarioDataValidator :=
  build check.archive check.config check.closes check.snapshots check.validated check.isStandard
    check.allowed

def requirements : RequirementsMap := aggregateRequirements check.scenarios

def packages : Dict ℕ (ProcessDataPackage Series) :=
  prepareScenarioPackages check.archive check.loadSeries check.requirements check.scenarios

/-- Nothing is recorded for the scenario at a place of the validated list. -/
def LeavesValid (idx : ℕ) : Prop :=
  ∀ result ∈ (check.validator.validateLoadedData check.validated check.packages
    check.requirements)[idx]?, result.2 = []

/-- The ticks that the scenario runs on. -/
def Loaded (scenario : SingleScenario) (ticks : List TransportTick) : Prop :=
  ∃ package ∈ check.packages.get? scenario.scenarioIndex,
    ticks ∈ package.ticks.get? scenario.symbol

/-- A scenario that is left valid runs over no gap that is not allowed. -/
def Sound (idx : ℕ) (scenario : SingleScenario) : Prop :=
  check.LeavesValid idx → ∀ ticks, check.Loaded scenario ticks →
    GapFree check.validator check.config.granularity scenario ticks

/-- No gap that is not allowed opens in the bar of the first tick, before that tick. -/
def GapsInStretch (scenario : SingleScenario) : Prop :=
  ∀ ticks, check.Loaded scenario ticks → ∀ gap, DataGap check.validator scenario gap →
    LiesBetween check.config.granularity ticks gap →
      ∃ stretch ∈ stretchOf ticks, Inside stretch gap

/-- A scenario of this name, symbol and index stands at this place of the validated list. -/
structure Stands (idx index : ℕ) (name symbol : String) (scenario : SingleScenario) : Prop where
  place : check.validated[idx]? = some scenario
  named : scenario.name = name
  symbol : scenario.symbol = symbol
  indexed : scenario.scenarioIndex = index

variable {check}

theorem packages_get? {scenario : SingleScenario} (hmem : scenario ∈ check.scenarios) :
    check.packages.get? scenario.scenarioIndex =
      let rows := ticksOf check.archive
        (groupOf (check.scenarios.map SingleScenario.tickRequirement) scenario.tickRequirement)
        scenario.tickRequirement
      if rows = [] ∨ unknownStaleSources scenario ≠ [] then none
      else
        (loadSignalsForScenario check.loadSeries scenario check.requirements).toOption.map
          fun signalSeries =>
            { ticks := (∅ : Dict String (List TransportTick)).set scenario.symbol
                (transported scenario rows)
              bars := filterBarsForScenario scenario
                (prepareBars check.archive check.requirements.barRequirements)
              signalSeries := signalSeries } := by
  have hindices : (check.scenarios.map SingleScenario.scenarioIndex).Nodup := by
    rw [check.indexed]
    exact List.nodup_range
  have hnames : ((check.scenarios.map SingleScenario.tickRequirement).map
      TickRequirement.scenarioName).Nodup := by
    rw [List.map_map]
    exact check.named
  rw [packages, prepareScenarioPackages_get? hindices hmem]
  apply packageFor_toOption
  rw [requirements, aggregate_tickRequirements]
  exact prepareTicks_get? hnames (List.mem_map_of_mem hmem)

/-- A package holds ticks under its scenario's symbol, and under nothing else. -/
theorem ticks_of_package {scenario : SingleScenario} (hmem : scenario ∈ check.scenarios)
    {package : ProcessDataPackage Series}
    (hpackage : package ∈ check.packages.get? scenario.scenarioIndex) :
    package.ticks = (∅ : Dict String (List TransportTick)).set scenario.symbol
      (transported scenario (ticksOf check.archive
        (groupOf (check.scenarios.map SingleScenario.tickRequirement) scenario.tickRequirement)
        scenario.tickRequirement)) := by
  rw [packages_get? hmem, Option.mem_def] at hpackage
  simp only at hpackage
  split at hpackage
  · cases hpackage
  · obtain ⟨signalSeries, -, rfl⟩ := Option.map_eq_some_iff.mp hpackage
    rfl

/-- Where the check looks at the scenario's own ticks, it finds every gap in their stretch. -/
theorem Stands.sound {idx : ℕ} {name : String} {scenario : SingleScenario}
    (h : check.Stands idx idx name name scenario) (hinside : check.GapsInStretch scenario) :
    check.Sound idx scenario := by
  intro hvalid ticks hloaded
  have hnot : ¬Found check.validator scenario ticks := by
    intro hfound
    obtain ⟨package, hpackage, hticks⟩ := hloaded
    apply (leftValid_iff h.place).mp hvalid
    refine ⟨package, h.indexed ▸ hpackage, .inr ⟨ticks, ?_, hfound⟩⟩
    rw [h.named, ← h.symbol]
    exact hticks
  constructor
  · intro gap hgap hbetween
    obtain ⟨stretch, hstretch, hin⟩ := hinside ticks hloaded gap hgap hbetween
    exact hnot ⟨stretch, hstretch, gap, .inl hgap, hin⟩
  · intro gap hgap stretch hstretch hin
    exact hnot ⟨stretch, hstretch, gap, .inr hgap, hin⟩

end GapCheck

end Results

section Unseen

variable {Series : Type}

/-- Ticks at some minutes of a market that never closes, and the bars rendered from them. -/
def archiveOf (minutes : List ℤ) : DataArchive where
  tickFiles _ _ := some {
    files := [{ startTime := minute 0, endTime := minute 400, rows := minutes.map rowAt }]
    nonempty := by simp }
  barFile _ symbol timeframe := some (renderSingleTimeframe symbol timeframe (minutes.map rowAt))

def overnight (name symbol brokerType : String) (index : ℕ) : SingleScenario where
  name := name
  scenarioIndex := index
  symbol := symbol
  dataBrokerType := brokerType
  startDate := minute 0
  endDate := some (minute 400)
  bounded := .inr rfl

def batchEntry (name symbol : String) (index n : ℕ) : SingleScenario :=
  let own := name ++ String.ofList (List.replicate (index - n) 'x')
  if n = index then overnight name symbol "kraken_spot" index else overnight own own "mt5" n

theorem batchEntry_self (name symbol : String) (index : ℕ) :
    batchEntry name symbol index index = overnight name symbol "kraken_spot" index :=
  if_pos rfl

theorem batchEntry_name (name symbol : String) (index n : ℕ) :
    (batchEntry name symbol index n).name =
      name ++ String.ofList (List.replicate (index - n) 'x') := by
  unfold batchEntry
  split
  · next hlast =>
      subst hlast
      simp [overnight]
  · rfl

theorem batchEntry_index (name symbol : String) (index n : ℕ) :
    (batchEntry name symbol index n).scenarioIndex = n := by
  unfold batchEntry
  split
  · next hlast => exact hlast.symm
  · rfl

def overnightCheck (minutes : List ℤ) (idx index : ℕ) (name symbol : String) :
    GapCheck Series where
  archive := archiveOf minutes
  config := {}
  closes _ := false
  snapshots _ _ := []
  loadSeries _ _ := .error ""
  isStandard := true
  allowed := [.seamless, .weekend, .holiday, .short]
  scenarios := (List.range (index + 1)).map (batchEntry name symbol index)
  validated := ((List.range (index + 1)).map (batchEntry name symbol index)).drop (index - idx)
  indexed := by
    rw [List.map_map, List.length_map, List.length_range]
    exact (List.map_congr_left fun n _ => batchEntry_index name symbol index n).trans
      (List.map_id _)
  named := by
    rw [List.map_map]
    refine List.Nodup.map_on ?_ List.nodup_range
    intro m hm n hn heq
    have hlength := congrArg String.length heq
    simp only [Function.comp_apply, batchEntry_name, String.length_append, String.length_ofList,
      List.length_replicate] at hlength
    have := List.mem_range.mp hm
    have := List.mem_range.mp hn
    omega
  kept := List.drop_sublist _ _

variable {minutes : List ℤ} {idx index : ℕ} {name symbol : String}

theorem overnightCheck_stands (hplace : idx ≤ index) :
    (overnightCheck minutes idx index name symbol : GapCheck Series).Stands idx index name symbol
      (overnight name symbol "kraken_spot" index) where
  place := by
    show (((List.range (index + 1)).map (batchEntry name symbol index)).drop (index - idx))[idx]? =
      some _
    rw [List.getElem?_drop, List.getElem?_map, Nat.sub_add_cancel hplace,
      List.getElem?_range (Nat.lt_succ_self index), Option.map_some, batchEntry_self]
  named := rfl
  symbol := rfl
  indexed := rfl

theorem mem_batch : overnight name symbol "kraken_spot" index ∈
    (List.range (index + 1)).map (batchEntry name symbol index) :=
  List.mem_map.mpr ⟨index, List.mem_range.mpr (Nat.lt_succ_self index), batchEntry_self ..⟩

/-- The last scenario shares its load with no other. -/
theorem groupOf_batch :
    groupOf (((List.range (index + 1)).map (batchEntry name symbol index)).map
        SingleScenario.tickRequirement)
      (overnight name symbol "kraken_spot" index).tickRequirement =
      [(overnight name symbol "kraken_spot" index).tickRequirement] := by
  have hothers : ∀ r ∈ ((List.range index).map (batchEntry name symbol index)).map
      SingleScenario.tickRequirement,
      ¬decide ((r.brokerType, r.symbol) = ("kraken_spot", symbol)) = true := by
    intro r hr
    rw [List.map_map, List.mem_map] at hr
    obtain ⟨n, hn, rfl⟩ := hr
    have hne : n ≠ index := (List.mem_range.mp hn).ne
    simp [batchEntry, hne, overnight, SingleScenario.tickRequirement]
  rw [groupOf, List.range_succ, List.map_append, List.map_append, List.filter_append]
  show List.filter (fun r : TickRequirement =>
    decide ((r.brokerType, r.symbol) = ("kraken_spot", symbol))) _ ++ _ = _
  rw [List.filter_eq_nil_iff.mpr hothers, List.map_singleton, batchEntry_self]
  simp [overnight, SingleScenario.tickRequirement]

theorem ticksOf_overnight :
    ticksOf (archiveOf minutes) [(overnight name symbol "kraken_spot" index).tickRequirement]
        (overnight name symbol "kraken_spot" index).tickRequirement =
      ticksOf (archiveOf minutes) [(overnight "" "" "" 0).tickRequirement]
        (overnight "" "" "" 0).tickRequirement :=
  rfl

def night : Gap := ⟨17700, .large, "🔴 Large gap - check data collection (4.92h) [detected via M5]",
  minute 5, minute 300⟩

theorem detectGaps_symbol (config : CoverageConfig) (closes : Bool) (symbol other : String)
    (timeframe : Timeframe) (rows : List TickRow) :
    detectGapsFromBars config closes (renderSingleTimeframe symbol timeframe rows) =
      detectGapsFromBars config closes (renderSingleTimeframe other timeframe rows) := by
  have hstamps : (renderSingleTimeframe symbol timeframe rows).map Bar.timestamp =
      (renderSingleTimeframe other timeframe rows).map Bar.timestamp := by
    unfold renderSingleTimeframe
    cases rows.head? with
    | none => rfl
    | some first =>
        rw [List.map_map, List.map_map]
        rfl
  unfold detectGapsFromBars
  rw [hstamps]

/-- Minutes whose bars leave the night out, and which are all loaded. -/
structure OverNight (minutes : List ℤ) : Prop where
  gaps : detectGapsFromBars {} false (renderSingleTimeframe "" .m5 (minutes.map rowAt)) = [night]
  loaded : ticksOf (archiveOf minutes) [(overnight "" "" "" 0).tickRequirement]
    (overnight "" "" "" 0).tickRequirement = minutes.map rowAt
  nonempty : minutes ≠ []

theorem reports_overnight (h : OverNight minutes) (hplace : idx ≤ index) :
    (overnightCheck minutes idx index name symbol : GapCheck Series).validator.dataCoverageReports
      "kraken_spot" symbol = some ⟨[night]⟩ := by
  have hstands : (overnightCheck minutes idx index name symbol : GapCheck Series).Stands idx index
      name symbol (overnight name symbol "kraken_spot" index) := overnightCheck_stands hplace
  have hmem : ("kraken_spot", symbol) ∈ (overnightCheck minutes idx index name symbol : GapCheck
      Series).validated.map fun s => (s.dataBrokerType, s.symbol) :=
    List.mem_map_of_mem (f := fun s : SingleScenario => (s.dataBrokerType, s.symbol))
      (List.mem_of_getElem? hstands.place)
  have hgaps : dataCoverageReport (archiveOf minutes) {} (fun _ => false) "kraken_spot" symbol =
      ⟨[night]⟩ := by
    rw [← h.gaps, ← detectGaps_symbol {} false symbol]
    rfl
  show (if _ then some (dataCoverageReport _ _ _ _ _) else none) = _
  rw [if_pos hmem]
  exact congrArg some hgaps

theorem noBarRequirements : (overnightCheck minutes idx index name symbol : GapCheck
    Series).requirements.barRequirements = [] := by
  show (aggregateRequirements _).barRequirements = _
  rw [aggregate_barRequirements]
  apply List.flatMap_eq_nil_iff.mpr
  intro scenario hscenario
  obtain ⟨n, -, rfl⟩ := List.mem_map.mp hscenario
  unfold batchEntry
  split <;> rfl

theorem leavesValid_overnight (h : OverNight minutes) (hplace : idx ≤ index)
    (hunseen : ∀ package ∈ (overnightCheck minutes idx index name symbol : GapCheck
        Series).packages.get? idx, ∀ ticks ∈ package.ticks.get? name,
      ¬Found (overnightCheck minutes idx index name symbol : GapCheck Series).validator
        (overnight name symbol "kraken_spot" index) ticks) :
    (overnightCheck minutes idx index name symbol : GapCheck Series).LeavesValid idx := by
  apply (leftValid_iff (overnightCheck_stands hplace).place).mpr
  rintro ⟨package, hpackage, hrejected | ⟨ticks, hticks, hfound⟩⟩
  · rw [Rejected] at hrejected
    simp only [overnight, reports_overnight h hplace] at hrejected
    rcases hrejected with hstart | hwarmup
    · have hbefore : ¬night.gapStart < minute 0 := by decide +kernel
      apply hstart
      simp [validateStartDateNotInGap, hbefore]
    · apply hwarmup
      have hbars : (overnightCheck minutes idx index name symbol : GapCheck
          Series).requirements.barRequirements = [] := noBarRequirements
      unfold validateWarmupQuality
      rw [hbars]
      split <;> rfl
  · exact hunseen package hpackage ticks hticks hfound

theorem exists_ownPackage (h : OverNight minutes) :
    ∃ package, (overnightCheck minutes idx index name symbol : GapCheck Series).packages.get? index =
        some package ∧
      package.ticks = (∅ : Dict String (List TransportTick)).set symbol
        (minutes.map fun n => { row := rowAt n }) := by
  have hown : overnight name symbol "kraken_spot" index ∈
      (overnightCheck minutes idx index name symbol : GapCheck Series).scenarios := mem_batch
  have hrows : ticksOf (overnightCheck minutes idx index name symbol : GapCheck Series).archive
      (groupOf ((overnightCheck minutes idx index name symbol : GapCheck Series).scenarios.map
        SingleScenario.tickRequirement) (overnight name symbol "kraken_spot" index).tickRequirement)
      (overnight name symbol "kraken_spot" index).tickRequirement = minutes.map rowAt := by
    show ticksOf (archiveOf minutes) (groupOf (((List.range (index + 1)).map
      (batchEntry name symbol index)).map SingleScenario.tickRequirement) _) _ = _
    rw [groupOf_batch, ticksOf_overnight, h.loaded]
  have hsignals : loadSignalsForScenario
      (overnightCheck minutes idx index name symbol : GapCheck Series).loadSeries
      (overnight name symbol "kraken_spot" index)
      (overnightCheck minutes idx index name symbol : GapCheck Series).requirements = .ok ∅ := by
    rw [loadSignalsForScenario, GapCheck.requirements,
      signalRequirements_of_name (overnightCheck minutes idx index name symbol).named hown]
    rfl
  have hloaded : ¬(minutes.map rowAt = [] ∨
      unknownStaleSources (overnight name symbol "kraken_spot" index) ≠ []) := by
    simp [h.nonempty, unknownStaleSources, overnight]
  have hpackage := GapCheck.packages_get? hown
  simp only [hrows, hsignals, if_neg hloaded] at hpackage
  refine ⟨_, hpackage, ?_⟩
  show Dict.set ∅ symbol (transported _ (minutes.map rowAt)) = _
  rw [transported, if_neg (by simp [overnight]), List.map_map]
  rfl

theorem loaded_iff (h : OverNight minutes) {ticks : List TransportTick} :
    (overnightCheck minutes idx index name symbol : GapCheck Series).Loaded
      (overnight name symbol "kraken_spot" index) ticks ↔
      ticks = minutes.map fun n => { row := rowAt n } := by
  have hexists : ∃ own, (overnightCheck minutes idx index name symbol : GapCheck
      Series).packages.get? index = some own ∧ _ := exists_ownPackage h
  obtain ⟨own, hown, hticks⟩ := hexists
  constructor
  · rintro ⟨package, hpackage, hloaded⟩
    obtain rfl : own = package := Option.some.inj (hown.symm.trans hpackage)
    rw [hticks] at hloaded
    exact (Option.some.inj ((Dict.get?_set_self _ _ _).symm.trans hloaded)).symm
  · rintro rfl
    exact ⟨own, hown, by rw [hticks]; exact Dict.get?_set_self _ _ _⟩

/-- Without its ticks under its name, or with the night outside their stretch, the scenario is
left valid. -/
theorem leavesValid_of_unseen (h : OverNight minutes) (hplace : idx ≤ index)
    (hunseen : idx = index → name = symbol → ∀ stretch ∈ stretchOf
      (minutes.map fun n => { row := rowAt n }), ¬Inside stretch night) :
    (overnightCheck minutes idx index name symbol : GapCheck Series).LeavesValid idx := by
  apply leavesValid_overnight h hplace
  intro package hpackage ticks hticks hfound
  have hentry : batchEntry name symbol index idx ∈
      (overnightCheck minutes idx index name symbol : GapCheck Series).scenarios :=
    List.mem_map_of_mem (List.mem_range.mpr (Nat.lt_succ_of_le hplace))
  have hstored : package.ticks = (∅ : Dict String (List TransportTick)).set
      (batchEntry name symbol index idx).symbol _ :=
    GapCheck.ticks_of_package hentry (by rw [batchEntry_index]; exact hpackage)
  have hsymbol : name = (batchEntry name symbol index idx).symbol := by
    by_contra hne
    rw [hstored, Dict.get?_set_ne _ _ hne, Dict.get?_empty] at hticks
    cases hticks
  by_cases hlast : idx = index
  · subst hlast
    rw [batchEntry_self] at hsymbol
    have hexists : ∃ own, (overnightCheck minutes idx idx name symbol : GapCheck
        Series).packages.get? idx = some own ∧ _ := exists_ownPackage h
    obtain ⟨own, hown, hticksOwn⟩ := hexists
    obtain rfl : own = package := Option.some.inj (hown.symm.trans hpackage)
    have hsame : name = symbol := hsymbol
    rw [hticksOwn, hsame, Dict.get?_set_self] at hticks
    cases hticks
    obtain ⟨stretch, hstretch, gap, hgap | hgap, hinside⟩ := hfound
    · obtain ⟨report, hreport, hmem, -⟩ := hgap
      rw [show (overnight name symbol "kraken_spot" idx).dataBrokerType = "kraken_spot" from rfl,
        show (overnight name symbol "kraken_spot" idx).symbol = symbol from rfl,
        reports_overnight h le_rfl] at hreport
      cases hreport
      rw [List.mem_singleton.mp hmem] at hinside
      exact hunseen rfl hsame stretch hstretch hinside
    · exact hgap.1 rfl
  · have hlength := congrArg String.length hsymbol
    simp only [batchEntry, if_neg hlast, overnight, String.length_append, String.length_ofList,
      List.length_replicate] at hlength
    omega

theorem not_gapFree_overnight (h : OverNight minutes) (hplace : idx ≤ index)
    (hbetween : LiesBetween .m5 (minutes.map fun n => { row := rowAt n }) night)
    (hunseen : idx = index → name = symbol → ∀ stretch ∈ stretchOf
      (minutes.map fun n => { row := rowAt n }), ¬Inside stretch night) :
    ¬(overnightCheck minutes idx index name symbol : GapCheck Series).Sound idx
      (overnight name symbol "kraken_spot" index) := by
  intro hsound
  have hfree := hsound (leavesValid_of_unseen h hplace hunseen) _ ((loaded_iff h).mpr rfl)
  apply hfree.1 night ⟨⟨[night]⟩, reports_overnight h hplace, List.mem_singleton.mpr rfl, ?_⟩
    hbetween
  show night.category ∉ [GapCategory.seamless, .weekend, .holiday, .short]
  decide

theorem overNight_unseen : OverNight [1, 6, 300, 301] :=
  ⟨by decide +kernel, by decide +kernel, by simp⟩

theorem overNight_midBar : OverNight [6, 300, 301] :=
  ⟨by decide +kernel, by decide +kernel, by simp⟩

theorem gapsInStretch_unseen (hplace : idx ≤ index) :
    (overnightCheck [1, 6, 300, 301] idx index name symbol : GapCheck Series).GapsInStretch
      (overnight name symbol "kraken_spot" index) := by
  rintro ticks hticks gap ⟨report, hreport, hgap, -⟩ -
  have hown : (overnightCheck [1, 6, 300, 301] idx index name symbol : GapCheck
      Series).validator.dataCoverageReports "kraken_spot" symbol = some report := hreport
  rw [reports_overnight overNight_unseen hplace] at hown
  cases hown
  rw [(loaded_iff overNight_unseen).mp hticks, List.mem_singleton.mp hgap]
  refine ⟨_, rfl, ?_⟩
  constructor <;> decide +kernel

/-- The scenarios that the gap check protects, whatever the archive and the settings: those at
the place of their index that are named like their symbol, and of these only the ones where no
gap opens in the bar of the first tick before that tick. -/
theorem gapFree_of_valid_iff (hplace : idx ≤ index) (name symbol : String) :
    ((∀ (check : GapCheck Series) (scenario : SingleScenario),
        check.Stands idx index name symbol scenario → check.GapsInStretch scenario →
          check.Sound idx scenario) ↔
      idx = index ∧ name = symbol) ∧
    ¬∀ (check : GapCheck Series) (scenario : SingleScenario),
      check.Stands idx index name symbol scenario → check.Sound idx scenario := by
  refine ⟨⟨?_, ?_⟩, ?_⟩
  · intro hsound
    by_contra hother
    apply not_gapFree_overnight overNight_unseen hplace
      ⟨(⟨rowAt 6, none⟩, ⟨rowAt 300, none⟩), by decide +kernel⟩
      (fun hidx hname => absurd ⟨hidx, hname⟩ hother)
    exact hsound _ _ (overnightCheck_stands hplace) (gapsInStretch_unseen hplace)
  · rintro ⟨rfl, rfl⟩ check scenario hstands hinside
    exact hstands.sound hinside
  · intro hsound
    have hmidBar : ∀ stretch ∈ stretchOf ([6, 300, 301].map fun n => { row := rowAt n }),
        ¬Inside stretch night := by
      intro stretch hstretch hinside
      obtain rfl := Option.some.inj hstretch
      exact absurd hinside.1 (by decide +kernel)
    apply not_gapFree_overnight overNight_midBar hplace
      ⟨(⟨rowAt 6, none⟩, ⟨rowAt 300, none⟩), by decide +kernel⟩ (fun _ _ => hmidBar)
    exact hsound _ _ (overnightCheck_stands hplace)

def morningCheck : GapCheck Unit := overnightCheck [1, 6, 30, 31] 0 0 "BTCUSD" "BTCUSD"

theorem gapFree_of_valid_morning :
    morningCheck.LeavesValid 0 ∧
      morningCheck.Loaded (overnight "BTCUSD" "BTCUSD" "kraken_spot" 0)
        ([1, 6, 30, 31].map fun n => { row := rowAt n }) ∧
      ∀ ticks, morningCheck.Loaded (overnight "BTCUSD" "BTCUSD" "kraken_spot" 0) ticks →
        GapFree morningCheck.validator .m5 (overnight "BTCUSD" "BTCUSD" "kraken_spot" 0) ticks := by
  have hreport : (morningCheck.validator.dataCoverageReports "kraken_spot" "BTCUSD") =
      some ⟨[⟨1500, .short,
        "⚠️  Short interruption (25 min - restart/connection?) [detected via M5]",
        minute 5, minute 30⟩]⟩ := by decide +kernel
  have hresults : ((morningCheck.validator.validateLoadedData morningCheck.validated
      morningCheck.packages morningCheck.requirements)[0]?).map Prod.snd = some [] := by
    decide +kernel
  have hvalid : morningCheck.LeavesValid 0 := by
    intro result hresult
    rw [hresult, Option.map_some] at hresults
    exact Option.some.inj hresults
  have hticks : (morningCheck.packages.get? 0).bind (fun package => package.ticks.get? "BTCUSD") =
      some ([1, 6, 30, 31].map fun n => { row := rowAt n }) := by decide +kernel
  refine ⟨hvalid, Option.bind_eq_some_iff.mp hticks, ?_⟩
  refine (gapFree_of_valid_iff le_rfl "BTCUSD" "BTCUSD").1.mpr ⟨rfl, rfl⟩ morningCheck _
    (overnightCheck_stands le_rfl) ?_ hvalid
  rintro ticks - gap ⟨report, hother, hgap, hcategory⟩ -
  cases hreport.symm.trans hother
  rw [List.mem_singleton.mp hgap] at hcategory
  exact absurd hcategory (by decide)

/-- Under the name 'night' the hours between minutes 6 and 300 pass unseen. -/
theorem gap_unseen_otherName :
    (overnightCheck [1, 6, 300, 301] 0 0 "night" "BTCUSD" : GapCheck Unit).LeavesValid 0 ∧
      ¬∀ ticks, (overnightCheck [1, 6, 300, 301] 0 0 "night" "BTCUSD" : GapCheck Unit).Loaded
          (overnight "night" "BTCUSD" "kraken_spot" 0) ticks →
        GapFree (overnightCheck [1, 6, 300, 301] 0 0 "night" "BTCUSD" : GapCheck Unit).validator .m5
          (overnight "night" "BTCUSD" "kraken_spot" 0) ticks := by
  have hunseen : 0 = 0 → "night" = "BTCUSD" → ∀ stretch ∈ stretchOf
      ([1, 6, 300, 301].map fun n => { row := rowAt n }), ¬Inside stretch night :=
    fun _ hname => absurd hname (by decide)
  refine ⟨leavesValid_of_unseen overNight_unseen le_rfl hunseen, fun hfree => ?_⟩
  apply not_gapFree_overnight overNight_unseen le_rfl
    ⟨(⟨rowAt 6, none⟩, ⟨rowAt 300, none⟩), by decide +kernel⟩ hunseen
  exact fun _ => hfree

end Unseen

end Finiex.GapValidation
