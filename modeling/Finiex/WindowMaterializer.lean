import Finiex.WindowSets
import Finiex.ConfigMerge
import Finiex.Lib.Pointwise

/-!
# From windows to scenarios

A window set becomes the scenarios of a saved set or those of a profile run. In a robustness run
each window is labelled for training or for testing, by its place in the set.
-/

namespace Finiex.WindowMaterializer

open Finiex.Types
open Finiex.Lib
open Finiex.Lib.Run
open Finiex.Coverage
open Finiex.Splitters
open Finiex.WindowSets
open Finiex.ConfigMerge

section Roles

inductive RobustnessRole
  | inSample | outOfSample | unassigned
  deriving DecidableEq, Repr

structure RobustnessConfig where
  enabled : Bool := false
  oosSplit : ℚ := 3 / 10

/-- How many of several windows are for testing: at least one, and not all of them. -/
def outOfSampleCount (count : ℕ) (oosSplit : ℚ) : ℕ :=
  (max 1 (min (Rounding.roundHalfEven (count * oosSplit)) (count - 1))).toNat

def assignRolesTimeOrdered (count : ℕ) (oosSplit : ℚ) : List RobustnessRole :=
  if count = 0 then []
  else if count = 1 then [.inSample]
  else
    List.replicate (count - outOfSampleCount count oosSplit) .inSample ++
      List.replicate (outOfSampleCount count oosSplit) .outOfSample

def assignRoles (windowSet : WindowSet) (robustness : Option RobustnessConfig) :
    Option (List RobustnessRole) :=
  match robustness with
  | some config =>
      if config.enabled then some (assignRolesTimeOrdered windowSet.blockCount config.oosSplit)
      else none
  | none => none

theorem outOfSampleCount_bounds {count : ℕ} (h : 2 ≤ count) (oosSplit : ℚ) :
    1 ≤ outOfSampleCount count oosSplit ∧ outOfSampleCount count oosSplit < count := by
  unfold outOfSampleCount
  omega

theorem length_assignRolesTimeOrdered (count : ℕ) (oosSplit : ℚ) :
    (assignRolesTimeOrdered count oosSplit).length = count := by
  unfold assignRolesTimeOrdered
  split
  · next hzero => exact hzero.symm
  · next hpos =>
      split
      · next hone => exact hone.symm
      · next hmany =>
          have hbounds := outOfSampleCount_bounds (by omega : 2 ≤ count) oosSplit
          simp only [List.length_append, List.length_replicate]
          omega

/-- A window for training comes before every window for testing. -/
theorem lt_of_roles {count : ℕ} {oosSplit : ℚ} {i j : ℕ}
    (hi : (assignRolesTimeOrdered count oosSplit)[i]? = some .inSample)
    (hj : (assignRolesTimeOrdered count oosSplit)[j]? = some .outOfSample) : i < j := by
  unfold assignRolesTimeOrdered at hi hj
  split at hi
  · cases hi
  · next hpos =>
      rw [if_neg hpos] at hj
      split at hi
      · next hone =>
          rw [if_pos hone] at hj
          have hmem := List.mem_of_getElem? hj
          cases List.mem_singleton.mp hmem
      · next hmany =>
          rw [if_neg hmany] at hj
          generalize count - outOfSampleCount count oosSplit = trained at hi hj
          have htrained : i < trained := by
            by_contra hle
            rw [List.getElem?_append_right (by simpa using hle)] at hi
            cases List.eq_of_mem_replicate (List.mem_of_getElem? hi)
          have htested : trained ≤ j := by
            by_contra hlt
            rw [List.getElem?_append_left (by simpa using hlt)] at hj
            cases List.eq_of_mem_replicate (List.mem_of_getElem? hj)
          omega

/-- Of several windows the first is for training and the last for testing. -/
theorem both_roles {count : ℕ} (h : 2 ≤ count) (oosSplit : ℚ) :
    (assignRolesTimeOrdered count oosSplit)[0]? = some .inSample ∧
      (assignRolesTimeOrdered count oosSplit)[count - 1]? = some .outOfSample := by
  obtain ⟨hone, hlt⟩ := outOfSampleCount_bounds h oosSplit
  unfold assignRolesTimeOrdered
  rw [if_neg (by omega), if_neg (by omega)]
  constructor
  · rw [List.getElem?_append_left (by simpa using hlt), List.getElem?_replicate, if_pos (by omega)]
  · rw [List.getElem?_append_right (by simp only [List.length_replicate]; omega),
      List.getElem?_replicate, List.length_replicate, if_pos (by omega)]

end Roles

section Balances

/-- A validated `trade_simulator_config`: its balances, if it names any, and its other keys. -/
structure TradeSimulatorConfig where
  balances : Option (List (String × ℚ)) := none
  others : Fields := []

def defaultQuoteBalance : ℚ := 10000

inductive SymbolCurrencyError
  | symbolNotFound (symbol : String)
  | noCurrencies (symbol : String)
  | splitMismatch (symbol base quote : String)
  deriving DecidableEq

/-- The base and the quote currency that the broker configuration of a broker type gives a
symbol; they may be empty. -/
abbrev BrokerSymbols := String → String → Option (String × String)

def resolveSymbolCurrencies (symbols : BrokerSymbols) (symbol brokerType : String) :
    Except SymbolCurrencyError (String × String) :=
  match symbols brokerType symbol with
  | none => .error (.symbolNotFound symbol)
  | some (base, quote) =>
      if base = "" ∨ quote = "" then .error (.noCurrencies symbol)
      else if (base ++ quote).toUpper ≠ symbol.toUpper then
        .error (.splitMismatch symbol base quote)
      else .ok (base, quote)

def resolveQuoteCurrency (symbols : BrokerSymbols) (symbol brokerType : String) :
    Except SymbolCurrencyError String :=
  (resolveSymbolCurrencies symbols symbol brokerType).map Prod.snd

def ensureQuoteBalance (config : TradeSimulatorConfig) (quoteCurrency : String) :
    TradeSimulatorConfig :=
  let balances := config.balances.getD []
  { config with
    balances := some (if (balances.lookup quoteCurrency).isSome then balances
      else balances ++ [(quoteCurrency, defaultQuoteBalance)]) }

def balanceOf (config : TradeSimulatorConfig) (currency : String) : Option ℚ :=
  (config.balances.getD []).lookup currency

theorem lookup_concat {balances : List (String × ℚ)} {currency other : String} {amount : ℚ} :
    (balances ++ [(other, amount)]).lookup currency =
      (balances.lookup currency).or (if currency = other then some amount else none) := by
  rw [List.lookup_append]
  congr 1
  rw [List.lookup_cons]
  by_cases heq : currency = other
  · rw [if_pos heq, beq_iff_eq.mpr heq]
  · rw [if_neg heq, beq_eq_false_iff_ne.mpr heq, List.lookup_nil]

/-- The balance of the quote currency is seeded, and the other balances stay as they are. -/
theorem balanceOf_ensureQuoteBalance (config : TradeSimulatorConfig)
    (quoteCurrency currency : String) :
    balanceOf (ensureQuoteBalance config quoteCurrency) currency =
      (balanceOf config currency).or
        (if currency = quoteCurrency then some defaultQuoteBalance else none) := by
  unfold balanceOf ensureQuoteBalance
  dsimp only [Option.getD_some]
  split
  · next hseeded =>
      by_cases heq : currency = quoteCurrency
      · subst heq
        obtain ⟨amount, hamount⟩ := Option.isSome_iff_exists.mp hseeded
        rw [hamount, Option.some_or]
      · rw [if_neg heq, Option.or_none]
  · exact lookup_concat

end Balances

section Scenarios

def twoDigits (n : ℕ) : String := if n < 10 then "0" ++ n.repr else n.repr

/-- `_window_name`; blocks are named by their place, counted from one. -/
def windowName (windowSet : WindowSet) (window : GeneratedWindow) (position : ℕ) : String :=
  if windowSet.strategy = .blocks then
    windowSet.symbol ++ "_" ++ windowSet.strategy.value ++ "_" ++ twoDigits position
  else
    windowSet.symbol ++ "_" ++ (if windowSet.mode = "volatility_split" then "vol" else "cont") ++
      "_" ++ twoDigits window.blockIndex

structure ScenarioDict where
  name : String
  symbol : String
  dataBrokerType : String
  startDate : Instant
  endDate : Instant
  maxTicks : Option ℕ
  dataMode : String := "realistic"
  enabled : Bool := true
  role : Option RobustnessRole
  deriving DecidableEq

/-- Blocks are bounded by time alone, and so is a window without an estimate. -/
def effectiveMaxTicks (windowSet : WindowSet) (window : GeneratedWindow) : Option ℕ :=
  if windowSet.strategy = .blocks ∨ window.estimatedTicks = 0 then none
  else some window.estimatedTicks

def toScenarioDicts (windowSet : WindowSet) (robustness : Option RobustnessConfig) :
    List ScenarioDict :=
  let roles := assignRoles windowSet robustness
  windowSet.windows.mapIdx fun place window => {
    name := windowName windowSet window (place + 1)
    symbol := windowSet.symbol
    dataBrokerType := windowSet.brokerType
    startDate := window.startTime
    endDate := window.endTime
    maxTicks := effectiveMaxTicks windowSet window
    role := roles.bind (·[place]?) }

/-- The settings that every scenario of a profile run gets. -/
structure GlobalConfig where
  strategyConfig : Fields := []
  executionConfig : Fields := []
  tradeSimulatorConfig : TradeSimulatorConfig := {}
  stressTestConfig : Fields := []
  orderGuard : Fields := []

structure ProfileScenario where
  name : String
  scenarioIndex : ℕ
  symbol : String
  dataBrokerType : String
  startDate : Instant
  endDate : Instant
  dataMode : String := "realistic"
  maxTicks : Option ℕ := none
  strategyConfig : Fields
  executionConfig : Fields
  tradeSimulatorConfig : TradeSimulatorConfig
  stressTestConfig : Option Fields
  orderGuardConfig : Option Fields
  isProfileRun : Bool := true
  role : RobustnessRole
  regime : VolatilityRegime
  session : TradingSession

def nonempty (fields : Fields) : Option Fields := if fields.isEmpty then none else some fields

def toSingleScenarios (symbols : BrokerSymbols) (config : GlobalConfig) (windowSet : WindowSet)
    (robustness : Option RobustnessConfig) (startIndex : ℕ) :
    Except SymbolCurrencyError (List ProfileScenario) := do
  let roles := assignRoles windowSet robustness
  let quoteCurrency ← resolveQuoteCurrency symbols windowSet.symbol windowSet.brokerType
  return windowSet.windows.mapIdx fun place window => {
    name := windowName windowSet window (place + 1)
    scenarioIndex := startIndex + place
    symbol := windowSet.symbol
    dataBrokerType := windowSet.brokerType
    startDate := window.startTime
    endDate := window.endTime
    strategyConfig := config.strategyConfig
    executionConfig := config.executionConfig
    tradeSimulatorConfig := ensureQuoteBalance config.tradeSimulatorConfig quoteCurrency
    stressTestConfig := nonempty config.stressTestConfig
    orderGuardConfig := nonempty config.orderGuard
    role := (roles.bind (·[place]?)).getD .unassigned
    regime := window.regime
    session := window.session }

/-- `load_from_profiles`, from the settings on: the scenarios are numbered through all sets. -/
def loadFromProfiles (symbols : BrokerSymbols) (config : GlobalConfig)
    (robustness : RobustnessConfig) : ℕ → List WindowSet →
      Except SymbolCurrencyError (List ProfileScenario)
  | _, [] => .ok []
  | globalIndex, windowSet :: windowSets => do
      let scenarios ← toSingleScenarios symbols config windowSet (some robustness) globalIndex
      let rest ← loadFromProfiles symbols config robustness (globalIndex + scenarios.length)
        windowSets
      return scenarios ++ rest

end Scenarios

section Sets

inductive SaveError
  | generation (error : GenerationError)
  | currency (error : SymbolCurrencyError)
  deriving DecidableEq

/-- What a saved scenario set says, apart from what its template says. -/
structure ScenarioSetConfig where
  tradeSimulatorConfig : Option TradeSimulatorConfig
  robustness : Option RobustnessConfig
  scenarios : List ScenarioDict

def seedBalances (symbols : BrokerSymbols) : Option TradeSimulatorConfig → List String →
    List WindowSet → Except SymbolCurrencyError (Option TradeSimulatorConfig)
  | config, _, [] => .ok config
  | config, seeded, windowSet :: windowSets =>
      if windowSet.windows.isEmpty then seedBalances symbols config seeded windowSets
      else
        match resolveQuoteCurrency symbols windowSet.symbol windowSet.brokerType with
        | .error error => .error error
        | .ok quoteCurrency =>
            if quoteCurrency ∈ seeded then seedBalances symbols config seeded windowSets
            else
              seedBalances symbols (some (ensureQuoteBalance (config.getD {}) quoteCurrency))
                (quoteCurrency :: seeded) windowSets

def buildScenarioSetConfig (symbols : BrokerSymbols) (template : Option TradeSimulatorConfig)
    (windowSets : List WindowSet) (robustness : Option RobustnessConfig) :
    Except SymbolCurrencyError ScenarioSetConfig := do
  let tradeSimulatorConfig ← seedBalances symbols template [] windowSets
  return {
    tradeSimulatorConfig := tradeSimulatorConfig
    robustness := robustness.filter RobustnessConfig.enabled
    scenarios := windowSets.flatMap (toScenarioDicts · robustness) }

/-- `generate_blocks`, by what is found of each symbol; a split makes a robustness set. -/
def generateBlocks (symbols : BrokerSymbols) (template : Option TradeSimulatorConfig)
    (archive : String → SymbolData) (config : BlocksStrategyConfig) (brokerType : String)
    (names : List String) (count : Option ℕ) (startTime endTime : Option Instant)
    (oosSplit : Option ℚ) : Except SaveError ScenarioSetConfig := do
  let windowSets ← (names.mapM fun symbol =>
    (Splitter.blocks config).split
      { archive symbol with brokerType := brokerType, symbol := symbol }
      startTime endTime count).mapError .generation
  let robustness := oosSplit.map fun split => { enabled := true, oosSplit := split }
  (buildScenarioSetConfig symbols template windowSets robustness).mapError .currency

end Sets

section Order

variable {windowSet : WindowSet} {robustness : Option RobustnessConfig}

theorem lt_of_assignRoles {i j : ℕ}
    (hi : (assignRoles windowSet robustness).bind (·[i]?) = some .inSample)
    (hj : (assignRoles windowSet robustness).bind (·[j]?) = some .outOfSample) : i < j := by
  obtain ⟨roles, hroles, hi⟩ := Option.bind_eq_some_iff.mp hi
  obtain ⟨roles', hroles', hj⟩ := Option.bind_eq_some_iff.mp hj
  obtain rfl := Option.some.inj (hroles.symm.trans hroles')
  unfold assignRoles at hroles
  split at hroles
  · split at hroles
    · obtain rfl := Option.some.inj hroles
      exact lt_of_roles hi hj
    · cases hroles
  · cases hroles

/-- In windows that follow one another no window for training ends behind the start of one for
testing. -/
theorem endTime_le_startTime (h : Following (windowSet.windows.map GeneratedWindow.span))
    {i j : ℕ} {window later : GeneratedWindow} (hi : windowSet.windows[i]? = some window)
    (hj : windowSet.windows[j]? = some later)
    (hrole : (assignRoles windowSet robustness).bind (·[i]?) = some .inSample)
    (hrole' : (assignRoles windowSet robustness).bind (·[j]?) = some .outOfSample) :
    window.endTime ≤ later.startTime := by
  have hlt := lt_of_assignRoles hrole hrole'
  obtain ⟨hi', rfl⟩ := List.getElem?_eq_some_iff.mp hi
  obtain ⟨hj', rfl⟩ := List.getElem?_eq_some_iff.mp hj
  exact List.pairwise_iff_getElem.mp (List.pairwise_map.mp h) i j hi' hj' hlt

theorem toScenarioDicts_in_order (h : Following (windowSet.windows.map GeneratedWindow.span))
    {trained tested : ScenarioDict} (htrained : trained ∈ toScenarioDicts windowSet robustness)
    (htested : tested ∈ toScenarioDicts windowSet robustness)
    (hrole : trained.role = some .inSample) (hrole' : tested.role = some .outOfSample) :
    trained.endDate ≤ tested.startDate := by
  obtain ⟨i, hi, rfl⟩ := List.mem_mapIdx.mp htrained
  obtain ⟨j, hj, rfl⟩ := List.mem_mapIdx.mp htested
  exact endTime_le_startTime h (List.getElem?_eq_getElem hi) (List.getElem?_eq_getElem hj)
    hrole hrole'

/-- Two windows of a set are enough for both labels. -/
theorem toScenarioDicts_both (oosSplit : ℚ) (h : 2 ≤ windowSet.blockCount) :
    let scenarios := toScenarioDicts windowSet (some { enabled := true, oosSplit := oosSplit })
    (∃ trained ∈ scenarios, trained.role = some .inSample) ∧
      ∃ tested ∈ scenarios, tested.role = some .outOfSample := by
  obtain ⟨hfirst, hlast⟩ := both_roles h oosSplit
  unfold WindowSet.blockCount at h
  constructor
  · exact ⟨_, List.mem_mapIdx.mpr ⟨0, by omega, rfl⟩, hfirst⟩
  · exact ⟨_, List.mem_mapIdx.mpr ⟨windowSet.windows.length - 1, by omega, rfl⟩, hlast⟩

theorem toScenarioDicts_labelled {oosSplit : Option ℚ} {scenario : ScenarioDict}
    (h : scenario ∈ toScenarioDicts windowSet
      (oosSplit.map fun split => { enabled := true, oosSplit := split })) :
    oosSplit.isSome ↔ scenario.role.isSome := by
  obtain ⟨place, hplace, rfl⟩ := List.mem_mapIdx.mp h
  cases oosSplit with
  | none => exact iff_of_false Bool.false_ne_true Bool.false_ne_true
  | some split =>
      refine iff_of_true rfl ?_
      have hlength := length_assignRolesTimeOrdered windowSet.blockCount split
      have hlt : place < (assignRolesTimeOrdered windowSet.blockCount split).length := by
        rw [hlength]
        exact hplace
      exact Option.isSome_iff_exists.mpr ⟨_, List.getElem?_eq_getElem hlt⟩

end Order

section Generated

def balanceIn (config : Option TradeSimulatorConfig) (currency : String) : Option ℚ :=
  config.bind (balanceOf · currency)

variable {symbols : BrokerSymbols}

theorem balanceIn_ensureQuoteBalance (config : Option TradeSimulatorConfig)
    (quoteCurrency currency : String) :
    balanceIn (some (ensureQuoteBalance (config.getD {}) quoteCurrency)) currency =
      (balanceIn config currency).or
        (if currency = quoteCurrency then some defaultQuoteBalance else none) := by
  have hbalance := balanceOf_ensureQuoteBalance (config.getD {}) quoteCurrency currency
  cases config with
  | none => exact hbalance
  | some config => exact hbalance

theorem seedBalances_spec {config result : Option TradeSimulatorConfig} {seeded : List String}
    {windowSets : List WindowSet} (hseeded : ∀ c ∈ seeded, (balanceIn config c).isSome)
    (h : seedBalances symbols config seeded windowSets = .ok result) :
    (∀ c amount, balanceIn config c = some amount → balanceIn result c = some amount) ∧
      ∀ windowSet ∈ windowSets, windowSet.windows ≠ [] → ∃ quoteCurrency,
        resolveQuoteCurrency symbols windowSet.symbol windowSet.brokerType = .ok quoteCurrency ∧
          (balanceIn result quoteCurrency).isSome := by
  induction windowSets generalizing config seeded with
  | nil =>
      obtain rfl := Except.ok.inj h
      exact ⟨fun c amount hamount => hamount, fun windowSet hmem => (nomatch hmem)⟩
  | cons windowSet windowSets ih =>
      rw [seedBalances] at h
      split at h
      · next hempty =>
          obtain ⟨hkept, hlater⟩ := ih hseeded h
          refine ⟨hkept, List.forall_mem_cons.mpr ⟨?_, hlater⟩⟩
          intro hwindows
          exact absurd (List.isEmpty_iff.mp hempty) hwindows
      · split at h
        · cases h
        · next quoteCurrency hquote =>
            split at h
            · next hmem =>
                obtain ⟨hkept, hlater⟩ := ih hseeded h
                refine ⟨hkept, List.forall_mem_cons.mpr ⟨?_, hlater⟩⟩
                intro _
                obtain ⟨amount, hamount⟩ := Option.isSome_iff_exists.mp (hseeded _ hmem)
                exact ⟨quoteCurrency, hquote, Option.isSome_iff_exists.mpr
                  ⟨amount, hkept _ _ hamount⟩⟩
            · have hbalance := balanceIn_ensureQuoteBalance config quoteCurrency
              have hseeded' : ∀ c ∈ quoteCurrency :: seeded, (balanceIn (some
                  (ensureQuoteBalance (config.getD {}) quoteCurrency)) c).isSome := by
                intro c hc
                rw [hbalance c, Option.isSome_or]
                rcases List.mem_cons.mp hc with rfl | hc
                · simp
                · simp [hseeded c hc]
              obtain ⟨hkept, hlater⟩ := ih hseeded' h
              constructor
              · intro c amount hamount
                apply hkept
                rw [hbalance c, hamount, Option.some_or]
              · refine List.forall_mem_cons.mpr ⟨?_, hlater⟩
                intro _
                obtain ⟨amount, hamount⟩ := Option.isSome_iff_exists.mp
                  (hseeded' quoteCurrency List.mem_cons_self)
                exact ⟨quoteCurrency, hquote, Option.isSome_iff_exists.mpr
                  ⟨amount, hkept _ _ hamount⟩⟩

/-- A saved set: no symbol is trained on what lies behind the start of its testing, two windows
of a symbol are enough for both, and there is a balance in every quote currency. -/
structure SoundSet (symbols : BrokerSymbols) (template : Option TradeSimulatorConfig)
    (oosSplit : Option ℚ) (saved : ScenarioSetConfig) : Prop where
  inOrder : ∀ trained ∈ saved.scenarios, ∀ tested ∈ saved.scenarios,
    trained.symbol = tested.symbol → trained.role = some .inSample →
      tested.role = some .outOfSample → trained.endDate ≤ tested.startDate
  labelled : ∀ scenario ∈ saved.scenarios, oosSplit.isSome ↔ scenario.role.isSome
  both : oosSplit.isSome → ∀ scenario ∈ saved.scenarios, ∀ other ∈ saved.scenarios,
    scenario.symbol = other.symbol → scenario.startDate ≠ other.startDate →
      (∃ trained ∈ saved.scenarios, trained.symbol = scenario.symbol ∧
        trained.role = some .inSample) ∧
      ∃ tested ∈ saved.scenarios, tested.symbol = scenario.symbol ∧
        tested.role = some .outOfSample
  kept : ∀ currency amount, balanceIn template currency = some amount →
    balanceIn saved.tradeSimulatorConfig currency = some amount
  seeded : ∀ scenario ∈ saved.scenarios, ∃ quoteCurrency,
    resolveQuoteCurrency symbols scenario.symbol scenario.dataBrokerType = .ok quoteCurrency ∧
      (balanceIn saved.tradeSimulatorConfig quoteCurrency).isSome

theorem mapError_eq_ok {ε ε' α : Type} {f : ε → ε'} {x : Except ε α} {y : α} :
    x.mapError f = .ok y ↔ x = .ok y := by
  cases x with
  | error e => exact ⟨fun h => (nomatch h), fun h => (nomatch h)⟩
  | ok a => exact ⟨fun h => congrArg _ (Except.ok.inj h), fun h => congrArg _ (Except.ok.inj h)⟩

theorem mem_toScenarioDicts {windowSet : WindowSet} {robustness : Option RobustnessConfig}
    {scenario : ScenarioDict} (h : scenario ∈ toScenarioDicts windowSet robustness) :
    scenario.symbol = windowSet.symbol ∧ scenario.dataBrokerType = windowSet.brokerType ∧
      ∃ window ∈ windowSet.windows, scenario.startDate = window.startTime := by
  obtain ⟨place, hplace, rfl⟩ := List.mem_mapIdx.mp h
  exact ⟨rfl, rfl, _, List.getElem_mem hplace, rfl⟩

theorem two_le_blockCount {windowSet : WindowSet} {robustness : Option RobustnessConfig}
    {scenario other : ScenarioDict} (h : scenario ∈ toScenarioDicts windowSet robustness)
    (h' : other ∈ toScenarioDicts windowSet robustness)
    (hne : scenario.startDate ≠ other.startDate) : 2 ≤ windowSet.blockCount := by
  obtain ⟨i, hi, rfl⟩ := List.mem_mapIdx.mp h
  obtain ⟨j, hj, rfl⟩ := List.mem_mapIdx.mp h'
  have hij : i ≠ j := by
    rintro rfl
    exact hne rfl
  unfold WindowSet.blockCount
  omega

/-- What is saved for a list of symbols, as a robustness set or not, is sound. -/
theorem generateBlocks_sound (template : Option TradeSimulatorConfig)
    (archive : String → SymbolData) (config : BlocksStrategyConfig) (brokerType : String)
    (names : List String) (count : Option ℕ) (startTime endTime : Option Instant)
    (oosSplit : Option ℚ) {saved : ScenarioSetConfig}
    (h : generateBlocks symbols template archive config brokerType names count startTime endTime
      oosSplit = .ok saved) :
    SoundSet symbols template oosSplit saved := by
  obtain ⟨windowSets, hsets, hbuild⟩ := bind_eq_ok.mp h
  obtain ⟨balances, hbalances, hsaved⟩ := bind_eq_ok.mp (mapError_eq_ok.mp hbuild)
  obtain rfl := Except.ok.inj hsaved
  have hsplit := Pointwise.mapM_eq_ok_iff.mp (mapError_eq_ok.mp hsets)
  obtain ⟨hkept, hseeded⟩ := seedBalances_spec (fun c hc => absurd hc List.not_mem_nil) hbalances
  -- a scenario belongs to the set that was split for its symbol
  have horigin : ∀ scenario ∈ windowSets.flatMap (toScenarioDicts ·
      (oosSplit.map fun split => { enabled := true, oosSplit := split })),
      ∃ windowSet ∈ windowSets, (Splitter.blocks config).split
          { archive scenario.symbol with brokerType := brokerType, symbol := scenario.symbol }
          startTime endTime count = .ok windowSet ∧
        scenario ∈ toScenarioDicts windowSet
          (oosSplit.map fun split => { enabled := true, oosSplit := split }) := by
    intro scenario hscenario
    obtain ⟨windowSet, hmem, hscenario⟩ := List.mem_flatMap.mp hscenario
    obtain ⟨symbol, -, hblocks⟩ := Pointwise.exists_left hsplit hmem
    have hsymbol : scenario.symbol = symbol :=
      (mem_toScenarioDicts hscenario).1.trans (split_following hblocks).2.1
    rw [hsymbol]
    exact ⟨windowSet, hmem, hblocks, hscenario⟩
  -- scenarios of one symbol belong to one set
  have hsame : ∀ scenario ∈ windowSets.flatMap (toScenarioDicts ·
      (oosSplit.map fun split => { enabled := true, oosSplit := split })),
      ∀ other ∈ windowSets.flatMap (toScenarioDicts ·
        (oosSplit.map fun split => { enabled := true, oosSplit := split })),
      scenario.symbol = other.symbol → ∃ windowSet ∈ windowSets,
        Following (windowSet.windows.map GeneratedWindow.span) ∧
          scenario ∈ toScenarioDicts windowSet
            (oosSplit.map fun split => { enabled := true, oosSplit := split }) ∧
          other ∈ toScenarioDicts windowSet
            (oosSplit.map fun split => { enabled := true, oosSplit := split }) := by
    intro scenario hscenario other hother hsymbol
    obtain ⟨windowSet, hmem, hblocks, hscenario⟩ := horigin scenario hscenario
    obtain ⟨windowSet', -, hblocks', hother⟩ := horigin other hother
    rw [hsymbol, hblocks'] at hblocks
    obtain rfl := Except.ok.inj hblocks
    exact ⟨windowSet', hmem, (split_following hblocks').1, hscenario, hother⟩
  refine ⟨?_, ?_, ?_, hkept, ?_⟩
  · intro trained htrained tested htested hsymbol hrole hrole'
    obtain ⟨windowSet, -, hfollowing, htrained, htested⟩ :=
      hsame trained htrained tested htested hsymbol
    exact toScenarioDicts_in_order hfollowing htrained htested hrole hrole'
  · intro scenario hscenario
    obtain ⟨windowSet, -, -, hscenario⟩ := horigin scenario hscenario
    exact toScenarioDicts_labelled hscenario
  · intro hsome scenario hscenario other hother hsymbol hne
    obtain ⟨oosSplit, rfl⟩ := Option.isSome_iff_exists.mp hsome
    obtain ⟨windowSet, hmem, -, hscenario, hother⟩ :=
      hsame scenario hscenario other hother hsymbol
    obtain ⟨⟨trained, htrained, hrole⟩, tested, htested, hrole'⟩ :=
      toScenarioDicts_both oosSplit (two_le_blockCount hscenario hother hne)
    have hname := (mem_toScenarioDicts hscenario).1
    exact ⟨⟨trained, List.mem_flatMap.mpr ⟨windowSet, hmem, htrained⟩,
        (mem_toScenarioDicts htrained).1.trans hname.symm, hrole⟩,
      tested, List.mem_flatMap.mpr ⟨windowSet, hmem, htested⟩,
        (mem_toScenarioDicts htested).1.trans hname.symm, hrole'⟩
  · intro scenario hscenario
    obtain ⟨windowSet, hmem, hscenario⟩ := List.mem_flatMap.mp hscenario
    obtain ⟨hsymbol, hbroker, window, hwindow, -⟩ := mem_toScenarioDicts hscenario
    rw [hsymbol, hbroker]
    exact hseeded windowSet hmem (List.ne_nil_of_mem hwindow)

/-- Bars of twelve hours, with nothing between the first and the last. -/
def halfDay : SymbolData where
  brokerType := "kraken_spot"
  symbol := ""
  bars := [Regions.barAt 0 0, Regions.barAt 0 720]
  closes := false
  allowed := [.seamless, .weekend, .holiday, .short, .moderate, .large]
  now := 0

def bitcoinSymbols : BrokerSymbols := fun _ symbol =>
  if symbol = "BTCUSD" then some ("BTC", "USD") else none

theorem generateBlocks_sound_halfDay :
    ∃ saved, generateBlocks bitcoinSymbols none (fun _ => halfDay) {} "kraken_spot" ["BTCUSD"]
        none none none (some (3 / 10)) = .ok saved ∧
      saved.scenarios.map ScenarioDict.role = [some .inSample, some .outOfSample] ∧
        SoundSet bitcoinSymbols none (some (3 / 10)) saved := by
  have hroles : (generateBlocks bitcoinSymbols none (fun _ => halfDay) {} "kraken_spot"
      ["BTCUSD"] none none none (some (3 / 10))).toOption.map
        (fun saved => saved.scenarios.map ScenarioDict.role) =
          some [some .inSample, some .outOfSample] := by
    decide +kernel
  cases hsaved : generateBlocks bitcoinSymbols none (fun _ => halfDay) {} "kraken_spot"
      ["BTCUSD"] none none none (some (3 / 10)) with
  | error e =>
      rw [hsaved] at hroles
      cases hroles
  | ok saved =>
      rw [hsaved] at hroles
      exact ⟨saved, rfl, Option.some.inj hroles,
        generateBlocks_sound none (fun _ => halfDay) {} "kraken_spot" ["BTCUSD"] none none none
          (some (3 / 10)) hsaved⟩

end Generated

end Finiex.WindowMaterializer
