import Finiex.BlockCoverage
import Finiex.VolatilityBounds

namespace Finiex.WindowSets

open Finiex.Types
open Finiex.Lib
open Finiex.Lib.Spans
open Finiex.Bars
open Finiex.Coverage
open Finiex.Regions
open Finiex.Splitters
open Finiex.BlockCoverage
open Finiex.VolatilityBounds

section Types

inductive GenerationStrategy
  | blocks | volatilitySplit | continuous | walkForward
  deriving DecidableEq, Repr

def GenerationStrategy.value : GenerationStrategy → String
  | .blocks => "blocks"
  | .volatilitySplit => "volatility_split"
  | .continuous => "continuous"
  | .walkForward => "walk_forward"

/-- `ProfileStrategyConfig` with what the choice of the split points reads. -/
structure ProfileConfig extends ProfileStrategyConfig where
  atrPercentileThreshold : ℕ := 10
  splitAlgorithm : String := "atr_minima"
  percentile_le : atrPercentileThreshold ≤ 100 := by decide

structure WindowSplitConfig where
  minBlockHours : ℤ
  maxBlockHours : ℤ
  atrPercentileThreshold : ℕ
  splitAlgorithm : String
  deriving DecidableEq

structure WindowSet where
  symbol : String
  brokerType : String
  strategy : GenerationStrategy
  windows : List GeneratedWindow
  generatedAt : Instant
  mode : String := ""
  splitConfig : Option WindowSplitConfig := none
  discoveryFingerprints : Dict String String := Dict.empty

def WindowSet.blockCount (windowSet : WindowSet) : ℕ := windowSet.windows.length

end Types

section Continuous

/-- The regime that most periods have, the one that comes first among equals. -/
def commonRegime (periods : List VolatilityPeriod) : Option VolatilityRegime :=
  let regimes := periods.map VolatilityPeriod.regime
  regimes.eraseDups.argmax fun regime => regimes.count regime

def distanceHours (stop next : Instant) : ℚ := Rounding.roundTo 2 (secondsBetween stop next / 3600)

def continuousWindow (periods : List VolatilityPeriod) (index : ℕ) (region : ContinuousRegion)
    (nextStart : Option Instant) : GeneratedWindow :=
  let regionPeriods := overlapping region.start region.end periods
  { blockIndex := index
    startTime := region.start
    endTime := region.end
    regime := (commonRegime regionPeriods).getD .medium
    session := (regionPeriods.head?.map VolatilityPeriod.session).getD .transition
    estimatedTicks := (regionPeriods.map VolatilityPeriod.tickCount).sum
    atr := Rounding.roundTo 6
      ((regionPeriods.map VolatilityPeriod.atr).sum / regionPeriods.length)
    splitReason := "continuous_region"
    distanceToNextBlockHours := nextStart.map (distanceHours region.end) }

/-- `ContinuousSplit._build_windows`. -/
def continuousWindows (periods : List VolatilityPeriod) :
    ℕ → List ContinuousRegion → List GeneratedWindow
  | _, [] => []
  | index, region :: regions =>
      continuousWindow periods index region (regions.head?.map ContinuousRegion.start) ::
        continuousWindows periods (index + 1) regions

theorem continuousWindows_spans (periods : List VolatilityPeriod) (index : ℕ)
    (regions : List ContinuousRegion) :
    (continuousWindows periods index regions).map GeneratedWindow.span =
      regions.map ContinuousRegion.span := by
  induction regions generalizing index with
  | nil => rfl
  | cons region regions ih =>
      rw [continuousWindows, List.map_cons, ih (index + 1)]
      rfl

end Continuous

section Volatility

/-- `np.percentile`, which interpolates between the two neighbours of the rank. -/
def percentile (values : List ℚ) (percent : ℕ) : ℚ :=
  let sorted := values.insertionSort (· ≤ ·)
  let rank : ℚ := (sorted.length - 1 : ℕ) * percent / 100
  let below := sorted.getD ⌊rank⌋.toNat 0
  let above := sorted.getD (⌊rank⌋.toNat + 1) below
  below + (above - below) * (rank - ⌊rank⌋)

variable (config : ProfileConfig) (periods : List VolatilityPeriod)

def noVolatilityWindow (blockIndex : ℕ) (region : ContinuousRegion) : GeneratedWindow where
  blockIndex := blockIndex
  startTime := region.start
  endTime := region.end
  regime := .medium
  session := .transition
  estimatedTicks := 0
  atr := 0
  splitReason := "no_volatility_data"

def regionWindows (blockIndex : ℕ) (region : ContinuousRegion) : List GeneratedWindow :=
  let regionPeriods := (overlapping region.start region.end periods).insertionSort
    fun period later => period.startTime ≤ later.startTime
  if regionPeriods = [] then [noVolatilityWindow blockIndex region]
  else
    let threshold :=
      percentile (regionPeriods.map VolatilityPeriod.atr) config.atrPercentileThreshold
    buildWindowsFromSplits blockIndex region.start region.end
      (config.findSplitPoints region.start region.end regionPeriods threshold) regionPeriods

def windowsOf : ℕ → List ContinuousRegion → List GeneratedWindow
  | _, [] => []
  | blockIndex, region :: regions =>
      let windows := regionWindows config periods blockIndex region
      windows ++ windowsOf (blockIndex + windows.length) regions

def withDistances : List GeneratedWindow → List GeneratedWindow
  | window :: next :: windows =>
      { window with
        distanceToNextBlockHours := some (distanceHours window.endTime next.startTime) } ::
          withDistances (next :: windows)
  | windows => windows

/-- `VolatilitySplit._build_windows`. -/
def volatilityWindows (regions : List ContinuousRegion) : List GeneratedWindow :=
  withDistances (windowsOf config periods 0 regions)

theorem withDistances_spans (windows : List GeneratedWindow) :
    (withDistances windows).map GeneratedWindow.span = windows.map GeneratedWindow.span := by
  induction windows using withDistances.induct with
  | case1 window next windows ih =>
      rw [withDistances, List.map_cons, ih]
      rfl
  | case2 windows hshort =>
      rw [withDistances]
      exact hshort

end Volatility

section Order

variable {regions : List ContinuousRegion}

def Following (spans : List (Instant × Instant)) : Prop :=
  spans.Pairwise fun span later => span.2 ≤ later.1

theorem start_of_mem_regionsBetween {finalEnd currentStart : Instant} {precedingGap : Option Gap}
    {gaps : List Gap} {region : ContinuousRegion}
    (h : region ∈ regionsBetween finalEnd currentStart precedingGap gaps) :
    region.start = currentStart ∨ ∃ gap ∈ gaps, region.start = gap.gapEnd := by
  induction gaps generalizing currentStart precedingGap with
  | nil =>
      rw [regionsBetween] at h
      split at h
      · obtain rfl := List.mem_singleton.mp h
        exact .inl rfl
      · cases h
  | cons gap gaps ih =>
      have hbehind (h : region ∈ regionsBetween finalEnd gap.gapEnd (some gap) gaps) :
          ∃ gap' ∈ gap :: gaps, region.start = gap'.gapEnd := by
        rcases ih h with hstart | ⟨gap', hgap', hstart⟩
        · exact ⟨gap, List.mem_cons_self, hstart⟩
        · exact ⟨gap', List.mem_cons_of_mem gap hgap', hstart⟩
      rw [regionsBetween] at h
      split at h
      · exact .inr (hbehind h)
      · rcases List.mem_cons.mp h with rfl | h
        · exact .inl rfl
        · exact .inr (hbehind h)

theorem following_regionsBetween {finalEnd currentStart : Instant} {precedingGap : Option Gap}
    {gaps : List Gap} (hlasting : ∀ gap ∈ gaps, gap.gapStart ≤ gap.gapEnd)
    (hgaps : gaps.Pairwise fun gap later => gap.gapEnd ≤ later.gapStart) :
    (regionsBetween finalEnd currentStart precedingGap gaps).Pairwise
      fun region later => region.end ≤ later.start := by
  induction gaps generalizing currentStart precedingGap with
  | nil =>
      rw [regionsBetween]
      split
      · exact List.pairwise_singleton _ _
      · exact List.Pairwise.nil
  | cons gap gaps ih =>
      obtain ⟨hgap, hrest⟩ := List.forall_mem_cons.mp hlasting
      obtain ⟨hbehind, hlater⟩ := List.pairwise_cons.mp hgaps
      rw [regionsBetween]
      split
      · exact ih hrest hlater
      · refine List.pairwise_cons.mpr ⟨?_, ih hrest hlater⟩
        intro region hregion
        rcases start_of_mem_regionsBetween hregion with hstart | ⟨gap', hgap', hstart⟩
        · exact hgap.trans hstart.ge
        · have hfar := (hbehind gap' hgap').trans (hrest gap' hgap')
          exact hgap.trans (hfar.trans hstart.ge)

/-- A jump of the bars goes forward, also where times repeat. -/
theorem lt_of_jump {config : CoverageConfig} {prevTs currTs : Instant}
    (h : (config.granularity.minutes * 60 * 2 : ℚ) < secondsBetween prevTs currTs) :
    prevTs < currTs := by
  have hminutes : (0 : ℚ) < config.granularity.minutes * 60 * 2 := by
    cases config.granularity <;> norm_num [Timeframe.minutes]
  have hseconds := hminutes.trans h
  unfold secondsBetween at hseconds
  have hpos := (div_pos_iff_of_pos_right (by norm_num)).mp hseconds
  exact sub_pos.mp (by exact_mod_cast hpos)

theorem separate_gaps (config : CoverageConfig) (closes : Bool) {bars : List Bar} (h : bars ≠ []) :
    ∃ first last, Separate last first ((detectGapsFromBars config closes bars).map span) := by
  have hsorted := List.pairwise_insertionSort (· ≤ ·) (bars.map Bar.timestamp)
  rw [detectGapsFromBars_eq, List.map_flatMap]
  unfold jumps
  cases htimes : (bars.map Bar.timestamp).insertionSort (· ≤ ·) with
  | nil =>
      have hlength := (List.perm_insertionSort (· ≤ ·) (bars.map Bar.timestamp)).length_eq
      rw [htimes, List.length_map] at hlength
      exact absurd (List.length_eq_zero_iff.mp hlength.symm) h
  | cons first times =>
      rw [htimes] at hsorted
      refine ⟨first, (first :: times).getLast (List.cons_ne_nil _ _),
        separate_flatMap_neighbours hsorted (List.getLast?_eq_some_getLast _) ?_⟩
      intro prevTs currTs _ hjump
      have hlt : (prevTs, currTs).1 < (prevTs, currTs).2 := lt_of_jump (of_decide_eq_true hjump)
      exact (tiles_pieces hlt).separate

theorem following_extractFull (config : CoverageConfig) (closes : Bool)
    (allowed : List GapCategory) {bars : List Bar}
    (h : extractFull allowed (analyze config closes bars) = some regions) :
    regions.Pairwise fun region later => region.end ≤ later.start := by
  unfold extractFull at h
  split at h
  · next start stop hstart hstop =>
      split at h
      · cases h
        exact List.pairwise_singleton _ _
      · cases h
        have hbars : bars ≠ [] := by
          rintro rfl
          cases hstart
        obtain ⟨first, last, hgaps⟩ := separate_gaps config closes hbars
        have hseparate : Separate last first
            ((interruptingGaps allowed (analyze config closes bars).gaps).map span) :=
          hgaps.sublist (List.filter_sublist.map span)
        have hlasting : ∀ gap ∈ interruptingGaps allowed (analyze config closes bars).gaps,
            gap.gapStart ≤ gap.gapEnd := by
          intro gap hgap
          exact (hseparate.inside (List.mem_map_of_mem hgap)).2.1.le
        have hpairwise := List.pairwise_map.mp hseparate.pairwise
        have hsorted : (interruptingGaps allowed (analyze config closes bars).gaps).Pairwise
            fun gap later => gap.gapStart ≤ later.gapStart := by
          refine hpairwise.imp_of_mem ?_
          intro gap later hgap _ hle
          exact (hlasting gap hgap).trans hle
        rw [hsorted.insertionSort_eq]
        exact following_regionsBetween hlasting hpairwise
  · cases h

theorem following_clip {startTime endTime : Option Instant}
    (h : regions.Pairwise fun region later => region.end ≤ later.start) :
    (clip startTime endTime regions).Pairwise fun region later => region.end ≤ later.start := by
  unfold clip
  refine List.Pairwise.filterMap _ ?_ h
  intro region later hle clipped hclipped clipped' hclipped'
  dsimp only at hclipped hclipped'
  have hend : clipped.end ≤ region.end := by
    split at hclipped
    · obtain rfl := Option.some.inj hclipped
      cases endTime with
      | none => exact le_rfl
      | some t => exact min_le_left _ _
    · cases hclipped
  have hstart : later.start ≤ clipped'.start := by
    split at hclipped'
    · obtain rfl := Option.some.inj hclipped'
      cases startTime with
      | none => exact le_rfl
      | some t => exact le_max_left _ _
    · cases hclipped'
  exact hend.trans (hle.trans hstart)

theorem following_extract (config : CoverageConfig) (closes : Bool) (allowed : List GapCategory)
    {bars : List Bar} {startTime endTime : Option Instant}
    (h : extract allowed (analyze config closes bars) startTime endTime = some regions) :
    regions.Pairwise fun region later => region.end ≤ later.start := by
  unfold extract at h
  split at h
  · exact following_extractFull config closes allowed h
  · obtain ⟨whole, hwhole, rfl⟩ := Option.map_eq_some_iff.mp h
    exact following_clip (following_extractFull config closes allowed hwhole)

/-- The spans of a region that is cut at split points lie in it and follow one another. -/
theorem following_regionWindows (config : ProfileConfig) (periods : List VolatilityPeriod)
    (blockIndex : ℕ) (region : ContinuousRegion) :
    Following ((regionWindows config periods blockIndex region).map GeneratedWindow.span) ∧
      ∀ span ∈ (regionWindows config periods blockIndex region).map GeneratedWindow.span,
        region.start ≤ span.1 ∧ span.2 ≤ region.end := by
  have hwhole : Following [region.span] ∧ ∀ span ∈ [region.span],
      region.start ≤ span.1 ∧ span.2 ≤ region.end := by
    refine ⟨List.pairwise_singleton _ _, ?_⟩
    intro span hspan
    obtain rfl := List.mem_singleton.mp hspan
    exact ⟨le_rfl, le_rfl⟩
  unfold regionWindows
  dsimp only
  split
  · exact hwhole
  · rw [findSplitPoints_eq, windows_spans _ _ _ _ (walk_points _ _ _ _ _).ascending]
    rcases lt_or_ge region.start region.end with hlt | hge
    · have hascending := (walk_points config.toProfileStrategyConfig region.end
        ((overlapping region.start region.end periods).insertionSort
          fun period later => period.startTime ≤ later.startTime)
        (percentile (((overlapping region.start region.end periods).insertionSort
          fun period later => period.startTime ≤ later.startTime).map VolatilityPeriod.atr)
            config.atrPercentileThreshold) region.start).cuts_ascending hlt
      have htiles := tiles_neighbours hascending (List.getLast?_concat (l := region.start :: _))
      refine ⟨htiles.separate.pairwise, ?_⟩
      intro span hspan
      obtain ⟨hstart, -, hend⟩ := htiles.separate.inside hspan
      exact ⟨hstart, hend⟩
    · rw [walk_fits]
      · exact hwhole
      · have hpos := hours_pos config.min_pos
        have hle := hours_le config.min_le
        linarith

end Order

section Splitting

structure SymbolData where
  brokerType : String
  symbol : String
  bars : List Bar
  coverage : CoverageConfig := {}
  closes : Bool
  allowed : List GapCategory
  periods : Option (List VolatilityPeriod) := none
  fingerprints : Dict String (Option String) := Dict.empty
  now : Instant

def cleanFingerprints (fingerprints : Dict String (Option String)) : Dict String String where
  entries := fingerprints.entries.filterMap fun entry => entry.2.map (Prod.mk entry.1)
  nodup := by
    have hsub : ((fingerprints.entries.filterMap fun entry => entry.2.map (Prod.mk entry.1)).map
        Prod.fst).Sublist (fingerprints.entries.map Prod.fst) := by
      induction fingerprints.entries with
      | nil => exact List.Sublist.slnil
      | cons entry entries ih =>
          rcases entry with ⟨name, fingerprint | fingerprint⟩
          · exact ih.cons name
          · exact ih.cons_cons name
    exact fingerprints.nodup.sublist hsub

inductive GenerationError
  | reportWithoutTimes
  | timesRequired
  | noContinuousRegions (brokerType symbol : String)
  | noVolatilityProfile (brokerType symbol : String)
  | noVolatilityPeriods (brokerType symbol : String)
  | notImplemented
  deriving DecidableEq

namespace SymbolData

variable (data : SymbolData)

def regions (startTime endTime : Option Instant) : Option (List ContinuousRegion) :=
  extract data.allowed (analyze data.coverage data.closes data.bars) startTime endTime

def splitBlocks (config : BlocksStrategyConfig) (startTime endTime : Option Instant)
    (countMax : Option ℕ) : Except GenerationError WindowSet :=
  match data.regions startTime endTime with
  | none => .error .reportWithoutTimes
  | some regions =>
      match blocksSplit config data.brokerType data.symbol data.closes countMax regions with
      | .error (.noContinuousRegions brokerType symbol) =>
          .error (.noContinuousRegions brokerType symbol)
      | .ok windows => .ok {
          symbol := data.symbol
          brokerType := data.brokerType
          strategy := .blocks
          windows := windows
          generatedAt := data.now
          mode := GenerationStrategy.blocks.value }

/-- `AbstractProfileSplitter.split`, by the windows that a strategy makes. -/
def splitProfile (config : ProfileConfig) (strategy : GenerationStrategy)
    (buildWindows : List ContinuousRegion → List VolatilityPeriod → List GeneratedWindow)
    (startTime endTime : Option Instant) : Except GenerationError WindowSet :=
  match startTime, endTime with
  | some start, some stop =>
      match data.regions (some start) (some stop), data.periods with
      | none, _ => .error .reportWithoutTimes
      | some [], _ => .error (.noContinuousRegions data.brokerType data.symbol)
      | some _, none => .error (.noVolatilityProfile data.brokerType data.symbol)
      | some regions, some periods =>
          if overlapping start stop periods = [] then
            .error (.noVolatilityPeriods data.brokerType data.symbol)
          else .ok {
            symbol := data.symbol
            brokerType := data.brokerType
            strategy := strategy
            windows := buildWindows regions (overlapping start stop periods)
            generatedAt := data.now
            mode := strategy.value
            splitConfig := some {
              minBlockHours := config.minBlockHours
              maxBlockHours := config.maxBlockHours
              atrPercentileThreshold := config.atrPercentileThreshold
              splitAlgorithm := config.splitAlgorithm }
            discoveryFingerprints := cleanFingerprints data.fingerprints }
  | _, _ => .error .timesRequired

end SymbolData

/-- The splitters of `SplitterFactory`. -/
inductive Splitter
  | blocks (config : BlocksStrategyConfig)
  | volatilitySplit (config : ProfileConfig)
  | continuous (config : ProfileConfig)
  | walkForward (config : ProfileConfig)

def Splitter.split (splitter : Splitter) (data : SymbolData) (startTime endTime : Option Instant)
    (countMax : Option ℕ) : Except GenerationError WindowSet :=
  match splitter with
  | .blocks config => data.splitBlocks config startTime endTime countMax
  | .volatilitySplit config =>
      data.splitProfile config .volatilitySplit
        (fun regions periods => volatilityWindows config periods regions) startTime endTime
  | .continuous config =>
      data.splitProfile config .continuous
        (fun regions periods => continuousWindows periods 0 regions) startTime endTime
  | .walkForward _ => .error .notImplemented

variable {data : SymbolData} {startTime endTime : Option Instant} {windowSet : WindowSet}

theorem windowsOf_spans (config : ProfileConfig) (periods : List VolatilityPeriod)
    (blockIndex : ℕ) {regions : List ContinuousRegion}
    (h : regions.Pairwise fun region later => region.end ≤ later.start) :
    Following ((windowsOf config periods blockIndex regions).map GeneratedWindow.span) ∧
      ∀ span ∈ (windowsOf config periods blockIndex regions).map GeneratedWindow.span,
        ∃ region ∈ regions, region.start ≤ span.1 ∧ span.2 ≤ region.end := by
  induction regions generalizing blockIndex with
  | nil => exact ⟨List.Pairwise.nil, fun span hspan => (nomatch hspan)⟩
  | cons region regions ih =>
      obtain ⟨hbehind, hrest⟩ := List.pairwise_cons.mp h
      obtain ⟨hfirst, hinside⟩ := following_regionWindows config periods blockIndex region
      obtain ⟨hlater, hinside'⟩ :=
        ih (blockIndex + (regionWindows config periods blockIndex region).length) hrest
      rw [windowsOf, List.map_append]
      constructor
      · refine List.pairwise_append.mpr ⟨hfirst, hlater, ?_⟩
        intro span hspan later hspan'
        obtain ⟨region', hregion', hstart, -⟩ := hinside' later hspan'
        exact (hinside span hspan).2.trans ((hbehind region' hregion').trans hstart)
      · intro span hspan
        rcases List.mem_append.mp hspan with hspan | hspan
        · exact ⟨region, List.mem_cons_self, hinside span hspan⟩
        · obtain ⟨region', hregion', hbounds⟩ := hinside' span hspan
          exact ⟨region', List.mem_cons_of_mem region hregion', hbounds⟩

theorem splitBlocks_following {config : BlocksStrategyConfig} {countMax : Option ℕ}
    (h : data.splitBlocks config startTime endTime countMax = .ok windowSet) :
    Following (windowSet.windows.map GeneratedWindow.span) ∧ windowSet.symbol = data.symbol ∧
      windowSet.mode = windowSet.strategy.value := by
  unfold SymbolData.splitBlocks at h
  split at h
  · cases h
  · next regions hregions =>
      split at h
      · cases h
      · next windows hwindows =>
          obtain rfl := Except.ok.inj h
          have hfollowing := following_extract data.coverage data.closes data.allowed hregions
          exact ⟨(blockSpans_pairwise config data.closes hfollowing).sublist
            (blocksSplit_limited hwindows).sublist, rfl, rfl⟩

theorem splitProfile_following {config : ProfileConfig} {strategy : GenerationStrategy}
    {buildWindows : List ContinuousRegion → List VolatilityPeriod → List GeneratedWindow}
    (hbuild : ∀ regions periods,
      (regions.Pairwise fun region later => region.end ≤ later.start) →
        Following ((buildWindows regions periods).map GeneratedWindow.span))
    (h : data.splitProfile config strategy buildWindows startTime endTime = .ok windowSet) :
    Following (windowSet.windows.map GeneratedWindow.span) ∧ windowSet.symbol = data.symbol ∧
      windowSet.mode = windowSet.strategy.value := by
  unfold SymbolData.splitProfile at h
  split at h
  · split at h
    · cases h
    · cases h
    · cases h
    · next hregions _ =>
        split at h
        · cases h
        · obtain rfl := Except.ok.inj h
          have hfollowing := following_extract data.coverage data.closes data.allowed hregions
          exact ⟨hbuild _ _ hfollowing, rfl, rfl⟩
  · cases h

/-- The windows of a set follow one another, whatever the bars and the volatility periods are. -/
theorem split_following {splitter : Splitter} {countMax : Option ℕ}
    (h : splitter.split data startTime endTime countMax = .ok windowSet) :
    Following (windowSet.windows.map GeneratedWindow.span) ∧ windowSet.symbol = data.symbol ∧
      windowSet.mode = windowSet.strategy.value := by
  cases splitter with
  | blocks config => exact splitBlocks_following h
  | volatilitySplit config =>
      rw [Splitter.split] at h
      refine splitProfile_following ?_ h
      intro regions periods hregions
      rw [volatilityWindows, withDistances_spans]
      exact (windowsOf_spans config periods 0 hregions).1
  | continuous config =>
      rw [Splitter.split] at h
      refine splitProfile_following ?_ h
      intro regions periods hregions
      rw [continuousWindows_spans]
      exact List.pairwise_map.mpr hregions
  | walkForward config => cases h

end Splitting

end Finiex.WindowSets
