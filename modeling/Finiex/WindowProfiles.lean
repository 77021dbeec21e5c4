import Finiex.WindowMaterializer
import Finiex.Lib.IsoTime
import Finiex.Lib.PythonJson

namespace Finiex.WindowProfiles

open Finiex.Types
open Finiex.Lib
open Finiex.Lib.Run
open Finiex.Lib.PythonJson
open Finiex.Lib.IsoTime
open Finiex.Coverage
open Finiex.Splitters
open Finiex.WindowSets
open Finiex.WindowMaterializer

section Values

def regimeValue : VolatilityRegime → String
  | .veryLow => "very_low"
  | .low => "low"
  | .medium => "medium"
  | .high => "high"
  | .veryHigh => "very_high"

def sessionValue : TradingSession → String
  | .sydneyTokyo => "sydney_tokyo"
  | .london => "london"
  | .newYork => "new_york"
  | .transition => "transition"

def ofValue {α : Type} (members : List α) (value : α → String) (text : String) : Option α :=
  members.find? fun member => decide (value member = text)

def regimes : List VolatilityRegime := [.veryLow, .low, .medium, .high, .veryHigh]

def sessions : List TradingSession := [.sydneyTokyo, .london, .newYork, .transition]

def strategies : List GenerationStrategy := [.blocks, .volatilitySplit, .continuous, .walkForward]

end Values

section Writing

def number (value : ℚ) : PyValue := .float (.finite value)

def windowToBlockDict (window : GeneratedWindow) : PyValue :=
  .dict ([
    (.text "block_index", .int window.blockIndex),
    (.text "start_time", .text (isoformat window.startTime)),
    (.text "end_time", .text (isoformat window.endTime)),
    (.text "block_duration_hours",
      number (Rounding.roundTo 2 (secondsBetween window.startTime window.endTime / 3600))),
    (.text "split_reason", .text window.splitReason),
    (.text "atr_at_split", number window.atr),
    (.text "regime_at_split", .text (regimeValue window.regime)),
    (.text "session", .text (sessionValue window.session)),
    (.text "estimated_ticks", .int window.estimatedTicks)] ++
      match window.distanceToNextBlockHours with
      | none => []
      | some distance => [(.text "distance_to_next_block_hours", number distance)])

def splitConfigDict : Option WindowSplitConfig → PyValue
  | none => .dict []
  | some config => .dict [
      (.text "min_block_hours", .int config.minBlockHours),
      (.text "max_block_hours", .int config.maxBlockHours),
      (.text "atr_percentile_threshold", .int config.atrPercentileThreshold),
      (.text "split_algorithm", .text config.splitAlgorithm)]

def totalCoverageHours (windowSet : WindowSet) : ℚ :=
  (windowSet.windows.map fun window =>
    secondsBetween window.startTime window.endTime / 3600).sum

def textEntry (entry : String × String) : PyKey × PyValue := (.text entry.1, .text entry.2)

def toProfileDict (windowSet : WindowSet) : PyValue :=
  .dict [
    (.text "profile_meta", .dict [
      (.text "symbol", .text windowSet.symbol),
      (.text "broker_type", .text windowSet.brokerType),
      (.text "generator_mode", .text windowSet.mode),
      (.text "generated_at", .text (isoformat windowSet.generatedAt)),
      (.text "total_coverage_hours", number (totalCoverageHours windowSet)),
      (.text "block_count", .int windowSet.blockCount),
      (.text "discovery_fingerprints",
        .dict (windowSet.discoveryFingerprints.entries.map textEntry)),
      (.text "split_config", splitConfigDict windowSet.splitConfig)]),
    (.text "blocks", .list (windowSet.windows.map windowToBlockDict))]

end Writing

section Reading

inductive LoadError
  | missingKey (name : String)
  | wrongType (name : String)
  | badValue (name : String)
  deriving DecidableEq

abbrev Entries := List (PyKey × PyValue)

def get (entries : Entries) (name : String) : Option PyValue :=
  (entries.find? fun entry => decide (entry.1 = .text name)).map Prod.snd

def item (entries : Entries) (name : String) : Except LoadError PyValue :=
  match get entries name with
  | none => .error (.missingKey name)
  | some value => .ok value

def entriesOf (name : String) : PyValue → Except LoadError Entries
  | .dict entries => .ok entries
  | _ => .error (.wrongType name)

def textOf (name : String) : PyValue → Except LoadError String
  | .text value => .ok value
  | _ => .error (.wrongType name)

def intOf (name : String) : PyValue → Except LoadError ℤ
  | .int value => .ok value
  | _ => .error (.wrongType name)

def natOf (name : String) : PyValue → Except LoadError ℕ
  | .int (.ofNat value) => .ok value
  | _ => .error (.wrongType name)

def numberOf (name : String) : PyValue → Except LoadError ℚ
  | .float (.finite value) => .ok value
  | _ => .error (.wrongType name)

def timeOf (name : String) (value : PyValue) : Except LoadError Instant := do
  let text ← textOf name value
  match fromisoformat text with
  | none => .error (.badValue name)
  | some t => .ok t

def memberOf {α : Type} (name : String) (members : List α) (value : α → String)
    (data : PyValue) : Except LoadError α := do
  let text ← textOf name data
  match ofValue members value text with
  | none => .error (.badValue name)
  | some member => .ok member

/-- What a missing entry stands for, and how one that is there is read. -/
def optional {α : Type} (entries : Entries) (name : String) (default : α)
    (read : PyValue → Except LoadError α) : Except LoadError α :=
  match get entries name with
  | none => .ok default
  | some value => read value

def blockDictToWindow (data : PyValue) : Except LoadError GeneratedWindow := do
  let data ← entriesOf "blocks" data
  let blockIndex ← item data "block_index" >>= natOf "block_index"
  let startTime ← item data "start_time" >>= timeOf "start_time"
  let endTime ← item data "end_time" >>= timeOf "end_time"
  let regime ← item data "regime_at_split" >>= memberOf "regime_at_split" regimes regimeValue
  let session ← item data "session" >>= memberOf "session" sessions sessionValue
  let estimatedTicks ← optional data "estimated_ticks" 0 (natOf "estimated_ticks")
  let atr ← item data "atr_at_split" >>= numberOf "atr_at_split"
  let splitReason ← item data "split_reason" >>= textOf "split_reason"
  let distance ← optional data "distance_to_next_block_hours" none fun value =>
    (numberOf "distance_to_next_block_hours" value).map some
  return {
    blockIndex := blockIndex
    startTime := startTime
    endTime := endTime
    regime := regime
    session := session
    estimatedTicks := estimatedTicks
    atr := atr
    splitReason := splitReason
    distanceToNextBlockHours := distance }

def readSplitConfig (data : PyValue) : Except LoadError (Option WindowSplitConfig) := do
  let data ← entriesOf "split_config" data
  if data.isEmpty then return none
  else
    let minBlockHours ← item data "min_block_hours" >>= intOf "min_block_hours"
    let maxBlockHours ← item data "max_block_hours" >>= intOf "max_block_hours"
    let threshold ← item data "atr_percentile_threshold" >>= natOf "atr_percentile_threshold"
    let splitAlgorithm ← item data "split_algorithm" >>= textOf "split_algorithm"
    return some {
      minBlockHours := minBlockHours
      maxBlockHours := maxBlockHours
      atrPercentileThreshold := threshold
      splitAlgorithm := splitAlgorithm }

def fingerprintEntry : PyKey × PyValue → Except LoadError (String × String)
  | (.text name, .text fingerprint) => .ok (name, fingerprint)
  | _ => .error (.wrongType "discovery_fingerprints")

def readFingerprints (data : PyValue) : Except LoadError (Dict String String) := do
  let entries ← entriesOf "discovery_fingerprints" data
  let entries ← entries.mapM fingerprintEntry
  if h : (entries.map Prod.fst).Nodup then return ⟨entries, h⟩
  else .error (.wrongType "discovery_fingerprints")

def readBlocks : PyValue → Except LoadError (List GeneratedWindow)
  | .list blocks => blocks.mapM blockDictToWindow
  | _ => .error (.wrongType "blocks")

def fromProfileDict (data : PyValue) : Except LoadError WindowSet := do
  let data ← entriesOf "profile" data
  let info ← item data "profile_meta" >>= entriesOf "profile_meta"
  let splitConfig ← optional info "split_config" none readSplitConfig
  let windows ← optional data "blocks" [] readBlocks
  let symbol ← item info "symbol" >>= textOf "symbol"
  let brokerType ← item info "broker_type" >>= textOf "broker_type"
  let mode ← item info "generator_mode" >>= textOf "generator_mode"
  let strategy ← memberOf "generator_mode" strategies GenerationStrategy.value (.text mode)
  let generatedAt ← item info "generated_at" >>= timeOf "generated_at"
  let fingerprints ← optional info "discovery_fingerprints" Dict.empty readFingerprints
  return {
    symbol := symbol
    brokerType := brokerType
    strategy := strategy
    windows := windows
    generatedAt := generatedAt
    mode := mode
    splitConfig := splitConfig
    discoveryFingerprints := fingerprints }

end Reading

section RoundTrip

/-- The times of a window can be written. -/
def Timed (window : GeneratedWindow) : Prop :=
  Representable window.startTime ∧ Representable window.endTime

variable (name : String)

theorem timeOf_isoformat {t : Instant} (h : Representable t) :
    timeOf name (.text (isoformat t)) = .ok t := by
  show (match fromisoformat (isoformat t) with
    | none => Except.error (LoadError.badValue name)
    | some t => .ok t) = .ok t
  rw [fromisoformat_isoformat h]

@[simp]
theorem textOf_text (text : String) : textOf name (.text text) = .ok text := rfl

@[simp]
theorem intOf_int (value : ℤ) : intOf name (.int value) = .ok value := rfl

@[simp]
theorem natOf_natCast (value : ℕ) : natOf name (.int value) = .ok value := rfl

@[simp]
theorem numberOf_number (value : ℚ) : numberOf name (number value) = .ok value := rfl

@[simp]
theorem entriesOf_dict (entries : Entries) : entriesOf name (.dict entries) = .ok entries := rfl

@[simp]
theorem memberOf_regime (regime : VolatilityRegime) :
    memberOf name regimes regimeValue (.text (regimeValue regime)) = .ok regime := by
  cases regime <;> rfl

@[simp]
theorem memberOf_session (session : TradingSession) :
    memberOf name sessions sessionValue (.text (sessionValue session)) = .ok session := by
  cases session <;> rfl

@[simp]
theorem memberOf_strategy (strategy : GenerationStrategy) :
    memberOf name strategies GenerationStrategy.value (.text strategy.value) = .ok strategy := by
  cases strategy <;> rfl

theorem blockDictToWindow_windowToBlockDict {window : GeneratedWindow} (h : Timed window) :
    blockDictToWindow (windowToBlockDict window) = .ok { window with tickDensity := 0 } := by
  obtain ⟨hstart, hend⟩ := h
  unfold windowToBlockDict blockDictToWindow
  cases hdistance : window.distanceToNextBlockHours with
  | none =>
      simp [item, optional, get, timeOf_isoformat, hstart, hend, bind, Except.bind]
      rfl
  | some distance =>
      simp [item, optional, get, timeOf_isoformat, hstart, hend, bind, Except.bind]
      rfl

theorem readBlocks_windows {windows : List GeneratedWindow} (h : ∀ window ∈ windows, Timed window) :
    readBlocks (.list (windows.map windowToBlockDict)) =
      .ok (windows.map fun window => { window with tickDensity := 0 }) := by
  apply Pointwise.mapM_eq_ok_iff.mpr
  induction windows with
  | nil => exact .nil
  | cons window windows ih =>
      obtain ⟨hwindow, hrest⟩ := List.forall_mem_cons.mp h
      exact .cons (blockDictToWindow_windowToBlockDict hwindow) (ih hrest)

theorem readSplitConfig_splitConfigDict (config : Option WindowSplitConfig) :
    readSplitConfig (splitConfigDict config) = .ok config := by
  cases config with
  | none => rfl
  | some config =>
      simp [readSplitConfig, splitConfigDict, item, get, bind, Except.bind, pure, Except.pure]

theorem readFingerprints_entries (fingerprints : Dict String String) :
    readFingerprints (.dict (fingerprints.entries.map textEntry)) = .ok fingerprints := by
  have hentries : (fingerprints.entries.map textEntry).mapM fingerprintEntry =
      .ok fingerprints.entries := by
    apply Pointwise.mapM_eq_ok_iff.mpr
    induction fingerprints.entries with
    | nil => exact .nil
    | cons entry entries ih => exact .cons rfl ih
  simp [readFingerprints, hentries, bind, Except.bind, fingerprints.nodup, pure, Except.pure]

/-- An artifact is read back as the set that was written, with the strategy that its mode names;
only the tick densities are gone. -/
theorem fromProfileDict_toProfileDict {windowSet : WindowSet}
    (hmode : windowSet.mode = windowSet.strategy.value)
    (hgenerated : Representable windowSet.generatedAt)
    (hwindows : ∀ window ∈ windowSet.windows, Timed window) :
    fromProfileDict (toProfileDict windowSet) = .ok { windowSet with
      windows := windowSet.windows.map fun window => { window with tickDensity := 0 } } := by
  unfold toProfileDict fromProfileDict
  simp [item, optional, get, hmode, timeOf_isoformat, hgenerated, readBlocks_windows hwindows,
    readSplitConfig_splitConfigDict, readFingerprints_entries, bind, Except.bind, pure,
    Except.pure]

theorem isJson_windowToBlockDict (window : GeneratedWindow) :
    isJson (windowToBlockDict window) = true := by
  unfold windowToBlockDict
  cases window.distanceToNextBlockHours with
  | none => simp [isJson, isJsonEntries, isText, number]
  | some distance => simp [isJson, isJsonEntries, isText, number]

theorem isJsonItems_windows (windows : List GeneratedWindow) :
    isJsonItems (windows.map windowToBlockDict) = true := by
  induction windows with
  | nil => rfl
  | cons window windows ih =>
      rw [List.map_cons, isJsonItems, isJson_windowToBlockDict, ih]
      rfl

theorem isJsonEntries_fingerprints {entries : List (String × String)}
    (h : (entries.map Prod.fst).Nodup) : isJsonEntries (entries.map textEntry) = true := by
  induction entries with
  | nil => rfl
  | cons entry entries ih =>
      obtain ⟨hfresh, hrest⟩ := List.nodup_cons.mp h
      have hnone : PyKey.text entry.1 ∉ (entries.map textEntry).map Prod.fst := by
        intro hmem
        rw [List.map_map] at hmem
        obtain ⟨other, hother, heq⟩ := List.mem_map.mp hmem
        have hname : other.1 = entry.1 := PyKey.text.inj heq
        exact hfresh (hname ▸ List.mem_map_of_mem hother)
      rw [List.map_cons, textEntry, isJsonEntries, ih hrest, decide_eq_true hnone]
      rfl

theorem isJson_toProfileDict (windowSet : WindowSet) : isJson (toProfileDict windowSet) = true := by
  have hfingerprints := isJsonEntries_fingerprints windowSet.discoveryFingerprints.nodup
  have hwindows := isJsonItems_windows windowSet.windows
  unfold toProfileDict splitConfigDict
  cases windowSet.splitConfig with
  | none => simp [isJson, isJsonEntries, isText, number, hfingerprints, hwindows]
  | some config => simp [isJson, isJsonEntries, isText, number, hfingerprints, hwindows]

end RoundTrip

section Artifacts

/-- `save_profile` and `load_profile`, of one file. -/
def savedAndLoaded (floatRepr : ℚ → String) (windowSet : WindowSet) :
    Option (Except LoadError WindowSet) :=
  (dumps floatRepr (toProfileDict windowSet)).map fun text => fromProfileDict (loads text)

/-- The times of a set can be written. -/
def TimedSet (windowSet : WindowSet) : Prop :=
  Representable windowSet.generatedAt ∧ ∀ window ∈ windowSet.windows, Timed window

instance (window : GeneratedWindow) : Decidable (Timed window) :=
  inferInstanceAs (Decidable (_ ∧ _))

instance (windowSet : WindowSet) : Decidable (TimedSet windowSet) :=
  inferInstanceAs (Decidable (_ ∧ _))

theorem savedAndLoaded_eq (floatRepr : ℚ → String) {windowSet : WindowSet}
    (hmode : windowSet.mode = windowSet.strategy.value) (htimed : TimedSet windowSet)
    (hdensity : ∀ window ∈ windowSet.windows, window.tickDensity = 0) :
    savedAndLoaded floatRepr windowSet = some (.ok windowSet) := by
  have hround : ∃ text, dumps floatRepr (toProfileDict windowSet) = some text ∧
      loads text = toProfileDict windowSet := loads_dumps _ (isJson_toProfileDict windowSet)
  obtain ⟨text, htext, hloads⟩ := hround
  have hsame : (windowSet.windows.map fun window => { window with tickDensity := 0 }) =
      windowSet.windows := by
    refine (List.map_congr_left ?_).trans (List.map_id _)
    intro window hwindow
    rw [← hdensity window hwindow]
    rfl
  rw [savedAndLoaded, htext, Option.map_some, hloads,
    fromProfileDict_toProfileDict hmode htimed.1 htimed.2, hsame]

/-- The modes of `generate_profile`. -/
inductive ProfileMode
  | volatilitySplit | continuous

def ProfileMode.splitter (config : ProfileConfig) : ProfileMode → Splitter
  | .volatilitySplit => .volatilitySplit config
  | .continuous => .continuous config

def generateProfile (config : ProfileConfig) (data : SymbolData) (start stop : Instant)
    (mode : ProfileMode) : Except GenerationError WindowSet :=
  (mode.splitter config).split data (some start) (some stop) none

/-- No window of a profile has a tick density. -/
def Plain (windows : List GeneratedWindow) : Prop := ∀ window ∈ windows, window.tickDensity = 0

theorem plain_continuousWindows (periods : List VolatilityPeriod) (index : ℕ)
    (regions : List Regions.ContinuousRegion) :
    Plain (continuousWindows periods index regions) := by
  induction regions generalizing index with
  | nil => exact fun window hwindow => (nomatch hwindow)
  | cons region regions ih => exact List.forall_mem_cons.mpr ⟨rfl, ih (index + 1)⟩

theorem plain_regionWindows (config : ProfileConfig) (periods : List VolatilityPeriod)
    (blockIndex : ℕ) (region : Regions.ContinuousRegion) :
    Plain (regionWindows config periods blockIndex region) := by
  intro window hwindow
  unfold regionWindows at hwindow
  dsimp only at hwindow
  split at hwindow
  · rw [List.mem_singleton.mp hwindow]
    rfl
  · unfold buildWindowsFromSplits at hwindow
    obtain ⟨place, hplace, rfl⟩ := List.mem_mapIdx.mp hwindow
    rfl

theorem plain_windowsOf (config : ProfileConfig) (periods : List VolatilityPeriod)
    (blockIndex : ℕ) (regions : List Regions.ContinuousRegion) :
    Plain (windowsOf config periods blockIndex regions) := by
  induction regions generalizing blockIndex with
  | nil => exact fun window hwindow => (nomatch hwindow)
  | cons region regions ih =>
      rw [windowsOf]
      exact List.forall_mem_append.mpr ⟨plain_regionWindows config periods blockIndex region, ih _⟩

theorem plain_withDistances {windows : List GeneratedWindow} (h : Plain windows) :
    Plain (withDistances windows) := by
  induction windows using withDistances.induct with
  | case1 window next windows ih =>
      obtain ⟨hwindow, hrest⟩ := List.forall_mem_cons.mp h
      exact List.forall_mem_cons.mpr ⟨hwindow, ih hrest⟩
  | case2 windows hshort =>
      rw [withDistances]
      · exact h
      · exact hshort

variable {config : ProfileConfig} {data : SymbolData} {start stop : Instant} {mode : ProfileMode}
  {windowSet : WindowSet}

theorem splitProfile_windows {strategy : GenerationStrategy}
    {buildWindows : List Regions.ContinuousRegion → List VolatilityPeriod → List GeneratedWindow}
    {startTime endTime : Option Instant}
    (h : data.splitProfile config strategy buildWindows startTime endTime = .ok windowSet) :
    ∃ regions periods, windowSet.windows = buildWindows regions periods := by
  unfold SymbolData.splitProfile at h
  split at h
  · split at h
    · cases h
    · cases h
    · cases h
    · split at h
      · cases h
      · obtain rfl := Except.ok.inj h
        exact ⟨_, _, rfl⟩
  · cases h

theorem generateProfile_spec (h : generateProfile config data start stop mode = .ok windowSet) :
    Following (windowSet.windows.map GeneratedWindow.span) ∧
      windowSet.mode = windowSet.strategy.value ∧ Plain windowSet.windows := by
  obtain ⟨hfollowing, -, hmode⟩ := split_following h
  refine ⟨hfollowing, hmode, ?_⟩
  cases mode with
  | volatilitySplit =>
      rw [generateProfile, ProfileMode.splitter, Splitter.split] at h
      obtain ⟨regions, periods, hwindows⟩ := splitProfile_windows h
      rw [hwindows]
      exact plain_withDistances (plain_windowsOf config periods 0 regions)
  | continuous =>
      rw [generateProfile, ProfileMode.splitter, Splitter.split] at h
      obtain ⟨regions, periods, hwindows⟩ := splitProfile_windows h
      rw [hwindows]
      exact plain_continuousWindows periods 0 regions

end Artifacts

section Runs

variable {symbols : BrokerSymbols} {config : GlobalConfig} {robustness : RobustnessConfig}

/-- The scenarios of one window set, in its order: labelled apart in time if the run is a
robustness run, each with a balance in its quote currency beside those of the settings. -/
structure RunOf (symbols : BrokerSymbols) (config : GlobalConfig) (robustness : RobustnessConfig)
    (windowSet : WindowSet) (scenarios : List ProfileScenario) : Prop where
  windows : scenarios.map (fun scenario => (scenario.startDate, scenario.endDate)) =
    windowSet.windows.map GeneratedWindow.span
  ofSet : ∀ scenario ∈ scenarios, scenario.symbol = windowSet.symbol ∧
    scenario.dataBrokerType = windowSet.brokerType
  inOrder : ∀ trained ∈ scenarios, ∀ tested ∈ scenarios, trained.role = .inSample →
    tested.role = .outOfSample → trained.endDate ≤ tested.startDate
  labelled : ∀ scenario ∈ scenarios, robustness.enabled = true ↔ scenario.role ≠ .unassigned
  both : robustness.enabled = true → 2 ≤ scenarios.length →
    (∃ trained ∈ scenarios, trained.role = .inSample) ∧
      ∃ tested ∈ scenarios, tested.role = .outOfSample
  balances : ∀ scenario ∈ scenarios, ∃ quoteCurrency,
    resolveQuoteCurrency symbols windowSet.symbol windowSet.brokerType = .ok quoteCurrency ∧
      (balanceOf scenario.tradeSimulatorConfig quoteCurrency).isSome ∧
        ∀ currency amount, balanceOf config.tradeSimulatorConfig currency = some amount →
          balanceOf scenario.tradeSimulatorConfig currency = some amount

theorem assigned {count : ℕ} {oosSplit : ℚ} {role : RobustnessRole}
    (h : role ∈ assignRolesTimeOrdered count oosSplit) : role ≠ .unassigned := by
  unfold assignRolesTimeOrdered at h
  split at h
  · cases h
  · split at h
    · rw [List.mem_singleton.mp h]
      exact RobustnessRole.noConfusion
    · rcases List.mem_append.mp h with h | h
      · rw [List.eq_of_mem_replicate h]
        exact RobustnessRole.noConfusion
      · rw [List.eq_of_mem_replicate h]
        exact RobustnessRole.noConfusion

def roleAt (robustness : RobustnessConfig) (windowSet : WindowSet) (place : ℕ) : RobustnessRole :=
  ((assignRoles windowSet (some robustness)).bind (·[place]?)).getD .unassigned

variable {windowSet : WindowSet}

theorem roleAt_eq {place : ℕ} {role : RobustnessRole} (h : roleAt robustness windowSet place = role)
    (hrole : role ≠ .unassigned) :
    (assignRoles windowSet (some robustness)).bind (·[place]?) = some role := by
  unfold roleAt at h
  cases hplace : (assignRoles windowSet (some robustness)).bind (·[place]?) with
  | none =>
      rw [hplace] at h
      exact absurd h.symm hrole
  | some found =>
      rw [hplace] at h
      exact congrArg some h

theorem assignRoles_enabled (h : robustness.enabled = true) :
    assignRoles windowSet (some robustness) =
      some (assignRolesTimeOrdered windowSet.blockCount robustness.oosSplit) := by
  simp [assignRoles, h]

theorem roleAt_labelled {place : ℕ} (hplace : place < windowSet.windows.length) :
    robustness.enabled = true ↔ roleAt robustness windowSet place ≠ .unassigned := by
  unfold roleAt
  constructor
  · intro henabled
    have hlength := length_assignRolesTimeOrdered windowSet.blockCount robustness.oosSplit
    have hlt : place < (assignRolesTimeOrdered windowSet.blockCount robustness.oosSplit).length :=
      hplace.trans_eq hlength.symm
    rw [assignRoles_enabled henabled, Option.bind_some, List.getElem?_eq_getElem hlt]
    exact assigned (List.getElem_mem hlt)
  · intro hrole
    by_contra hdisabled
    apply hrole
    simp [assignRoles, hdisabled]

theorem toSingleScenarios_run {startIndex : ℕ} {scenarios : List ProfileScenario}
    (hfollowing : Following (windowSet.windows.map GeneratedWindow.span))
    (h : toSingleScenarios symbols config windowSet (some robustness) startIndex = .ok scenarios) :
    RunOf symbols config robustness windowSet scenarios ∧
      scenarios.map ProfileScenario.scenarioIndex = List.range' startIndex scenarios.length := by
  obtain ⟨quoteCurrency, hquote, hpure⟩ := bind_eq_ok.mp h
  obtain rfl := Except.ok.inj hpure
  refine ⟨⟨?_, ?_, ?_, ?_, ?_, ?_⟩, ?_⟩
  · refine (Lists.map_mapIdx_eq (h := GeneratedWindow.span) ?_ _)
    exact fun place window => rfl
  · intro scenario hscenario
    obtain ⟨place, hplace, rfl⟩ := List.mem_mapIdx.mp hscenario
    exact ⟨rfl, rfl⟩
  · intro trained htrained tested htested hrole hrole'
    obtain ⟨i, hi, rfl⟩ := List.mem_mapIdx.mp htrained
    obtain ⟨j, hj, rfl⟩ := List.mem_mapIdx.mp htested
    exact endTime_le_startTime hfollowing (List.getElem?_eq_getElem hi)
      (List.getElem?_eq_getElem hj) (roleAt_eq hrole RobustnessRole.noConfusion)
      (roleAt_eq hrole' RobustnessRole.noConfusion)
  · intro scenario hscenario
    obtain ⟨place, hplace, rfl⟩ := List.mem_mapIdx.mp hscenario
    exact roleAt_labelled hplace
  · intro henabled hseveral
    rw [List.length_mapIdx] at hseveral
    obtain ⟨hfirst, hlast⟩ := both_roles hseveral robustness.oosSplit
    constructor
    · refine ⟨_, List.mem_mapIdx.mpr ⟨0, by omega, rfl⟩, ?_⟩
      show roleAt robustness windowSet 0 = .inSample
      rw [roleAt, assignRoles_enabled henabled, Option.bind_some]
      exact congrArg (Option.getD · .unassigned) hfirst
    · refine ⟨_, List.mem_mapIdx.mpr ⟨windowSet.windows.length - 1, by omega, rfl⟩, ?_⟩
      show roleAt robustness windowSet (windowSet.windows.length - 1) = .outOfSample
      rw [roleAt, assignRoles_enabled henabled, Option.bind_some]
      exact congrArg (Option.getD · .unassigned) hlast
  · intro scenario hscenario
    obtain ⟨place, hplace, rfl⟩ := List.mem_mapIdx.mp hscenario
    have hbalance := balanceOf_ensureQuoteBalance config.tradeSimulatorConfig quoteCurrency
    refine ⟨quoteCurrency, hquote, ?_, ?_⟩
    · rw [hbalance, if_pos rfl, Option.isSome_or]
      exact Bool.or_true _
    · intro currency amount hamount
      rw [hbalance, hamount, Option.some_or]
  · apply List.ext_getElem
    · simp
    · intro place hplace hplace'
      simp

theorem loadFromProfiles_run {startIndex : ℕ} {windowSets : List WindowSet}
    {scenarios : List ProfileScenario}
    (hfollowing : ∀ windowSet ∈ windowSets,
      Following (windowSet.windows.map GeneratedWindow.span))
    (h : loadFromProfiles symbols config robustness startIndex windowSets = .ok scenarios) :
    (∃ parts, scenarios = parts.flatten ∧
      List.Forall₂ (RunOf symbols config robustness) windowSets parts) ∧
        scenarios.map ProfileScenario.scenarioIndex = List.range' startIndex scenarios.length := by
  induction windowSets generalizing startIndex scenarios with
  | nil =>
      obtain rfl := Except.ok.inj h
      exact ⟨⟨[], rfl, .nil⟩, rfl⟩
  | cons windowSet windowSets ih =>
      obtain ⟨hfirst, hrest⟩ := List.forall_mem_cons.mp hfollowing
      obtain ⟨part, hpart, htail⟩ := bind_eq_ok.mp h
      obtain ⟨rest, hloaded, hpure⟩ := bind_eq_ok.mp htail
      obtain rfl := Except.ok.inj hpure
      obtain ⟨hrun, hnumbers⟩ := toSingleScenarios_run hfirst hpart
      obtain ⟨⟨parts, rfl, hruns⟩, hnumbers'⟩ := ih hrest hloaded
      refine ⟨⟨part :: parts, rfl, .cons hrun hruns⟩, ?_⟩
      rw [List.map_append, hnumbers, hnumbers', List.length_append]
      exact List.range'_append_1

/-- Generated profiles that go through their files are read as they were generated, and the
scenarios of the run are those of the profiles, each trained on before it is tested on. -/
theorem profile_run_as_generated (floatRepr : ℚ → String) (symbols : BrokerSymbols)
    (config : GlobalConfig) (robustness : RobustnessConfig) {windowSets : List WindowSet}
    (hgenerated : ∀ windowSet ∈ windowSets, ∃ profile data start stop mode,
      generateProfile profile data start stop mode = .ok windowSet)
    (htimed : ∀ windowSet ∈ windowSets, TimedSet windowSet) :
    (∀ windowSet ∈ windowSets, savedAndLoaded floatRepr windowSet = some (.ok windowSet)) ∧
      ∀ scenarios, loadFromProfiles symbols config robustness 0 windowSets = .ok scenarios →
        (∃ parts, scenarios = parts.flatten ∧
          List.Forall₂ (RunOf symbols config robustness) windowSets parts) ∧
            scenarios.map ProfileScenario.scenarioIndex = List.range scenarios.length := by
  have hspec : ∀ windowSet ∈ windowSets,
      Following (windowSet.windows.map GeneratedWindow.span) ∧
        windowSet.mode = windowSet.strategy.value ∧ Plain windowSet.windows := by
    intro windowSet hmem
    obtain ⟨profile, data, start, stop, mode, hsplit⟩ := hgenerated windowSet hmem
    exact generateProfile_spec hsplit
  constructor
  · intro windowSet hmem
    obtain ⟨-, hmode, hplain⟩ := hspec windowSet hmem
    exact savedAndLoaded_eq floatRepr hmode (htimed windowSet hmem) hplain
  · intro scenarios hloaded
    rw [List.range_eq_range']
    exact loadFromProfiles_run (fun windowSet hmem => (hspec windowSet hmem).1) hloaded

/-- Two bars of a day and two of the third day after it, with a quiet period around each pair. -/
def twoDays : SymbolData where
  brokerType := "kraken_spot"
  symbol := "BTCUSD"
  bars := [Regions.barAt 0 0, Regions.barAt 0 5, Regions.barAt 3 0, Regions.barAt 3 5]
  closes := false
  allowed := [.seamless, .short]
  periods := some [⟨0, hours 1, .sydneyTokyo, 1, .low, 10⟩,
    ⟨hours 72, hours 73, .sydneyTokyo, 2, .medium, 10⟩]
  now := hours 100

theorem profile_run_as_generated_twoDays :
    ∃ windowSet, generateProfile {} twoDays 0 (hours 100) .continuous = .ok windowSet ∧
      savedAndLoaded (fun _ => "0.0") windowSet = some (.ok windowSet) ∧
        ∃ scenarios parts, scenarios.map ProfileScenario.role = [.inSample, .outOfSample] ∧
          scenarios = parts.flatten ∧
            List.Forall₂ (RunOf bitcoinSymbols {} { enabled := true }) [windowSet] parts := by
  have hfacts : (generateProfile {} twoDays 0 (hours 100) .continuous).toOption.map
      (fun windowSet => (decide (TimedSet windowSet),
        (loadFromProfiles bitcoinSymbols {} { enabled := true } 0 [windowSet]).toOption.map
          fun scenarios => scenarios.map ProfileScenario.role)) =
        some (true, some [.inSample, .outOfSample]) := by
    decide +kernel
  cases hgenerated : generateProfile {} twoDays 0 (hours 100) .continuous with
  | error e =>
      rw [hgenerated] at hfacts
      cases hfacts
  | ok windowSet =>
      rw [hgenerated] at hfacts
      obtain ⟨htimed, hroles⟩ := Prod.mk.inj (Option.some.inj hfacts)
      obtain ⟨hfiles, hruns⟩ := profile_run_as_generated (fun _ => "0.0") bitcoinSymbols {}
        { enabled := true }
        (List.forall_mem_singleton.mpr ⟨{}, twoDays, 0, hours 100, .continuous, hgenerated⟩)
        (List.forall_mem_singleton.mpr (of_decide_eq_true htimed))
      cases hloaded : loadFromProfiles bitcoinSymbols {} { enabled := true } 0 [windowSet] with
      | error e =>
          rw [hloaded] at hroles
          cases hroles
      | ok scenarios =>
          rw [hloaded] at hroles
          obtain ⟨⟨parts, hparts, hrun⟩, -⟩ := hruns scenarios hloaded
          exact ⟨windowSet, rfl, hfiles windowSet List.mem_cons_self, scenarios, parts,
            Option.some.inj hroles, hparts, hrun⟩

end Runs

end Finiex.WindowProfiles
