import Finiex.Broker
import Finiex.Positions
import Finiex.Lib.Labels

/-!
# The portfolio manager

Positions, balances, the lazily refreshed P&L cache, fee and swap attachment, and the
trade history.
-/

namespace Finiex.Portfolio

open Finiex.Types
open Finiex.Lib
open Finiex.Fees
open Finiex.Positions
open Finiex.Broker

structure PortfolioConfig where
  accountCurrency : String
  initialBalance : ℚ
  initialBalances : Dict String ℚ := ∅
  spotMode : Bool := false
  tradeHistoryMax : ℕ := 5000
  swapRollover : Option SwapRolloverConfig := none
  zones : ZoneDatabase
  broker : BrokerConfig

def PortfolioConfig.startBalances (cfg : PortfolioConfig) : Dict String ℚ :=
  if cfg.initialBalances.isEmpty then
    (∅ : Dict String ℚ).set cfg.accountCurrency cfg.initialBalance
  else cfg.initialBalances

structure TradeStatistics where
  totalTrades : ℕ := 0
  totalLongTrades : ℕ := 0
  totalShortTrades : ℕ := 0
  winningTrades : ℕ := 0
  losingTrades : ℕ := 0
  totalProfit : ℚ := 0
  totalLoss : ℚ := 0
  maxDrawdown : ℚ := 0
  maxEquity : ℚ
  deriving DecidableEq

structure PortfolioManager where
  balances : Dict String ℚ
  realizedPnl : ℚ := 0
  positionsDirty : Bool := false
  openPositions : Dict String Position := ∅
  tradeHistory : List TradeRecord := []
  tradeHistoryLimitWarned : Bool := false
  -- every record as `_log_trade_record` writes it, never trimmed
  tradeLog : List TradeRecord := []
  positionCounter : ℕ := 0
  costTracking : CostBreakdown
  statistics : TradeStatistics
  currentTick : Option TickData := none
  currentPrices : Dict String (ℚ × ℚ) := ∅
  lastConversionRate : Option ℚ := none
  deriving DecidableEq

structure AccountInfo where
  balance : ℚ
  equity : ℚ
  marginUsed : ℚ
  freeMargin : ℚ
  marginLevel : ℚ
  openPositions : ℕ
  totalLots : ℚ
  currency : String
  leverage : ℕ
  balances : Option (Dict String ℚ)

structure ModificationResult where
  success : Bool
  rejectionReason : Option ModificationRejectionReason := none
  status : Option ModificationStatus := none
  orderId : Option String := none
  deriving DecidableEq

/-- Append to a bounded deque; a bound of 0 means unlimited. -/
def appendBounded {α : Type} (limit : ℕ) (xs : List α) (x : α) : List α :=
  let extended := xs ++ [x]
  if limit = 0 then extended else extended.drop (extended.length - limit)

def new (cfg : PortfolioConfig) : PortfolioManager where
  balances := cfg.startBalances
  costTracking := { currency := cfg.accountCurrency }
  statistics := { maxEquity := cfg.startBalances.getD cfg.accountCurrency 0 }

namespace PortfolioManager

variable (cfg : PortfolioConfig) (clock : Option Instant)

def balance (pm : PortfolioManager) : ℚ := pm.balances.getD cfg.accountCurrency 0

def setBalance (pm : PortfolioManager) (value : ℚ) : PortfolioManager :=
  { pm with balances := pm.balances.set cfg.accountCurrency value }

def getAssetBalance (pm : PortfolioManager) (currency : String) : ℚ :=
  pm.balances.getD currency 0

def getPosition (pm : PortfolioManager) (positionId : String) : Option Position :=
  pm.openPositions.get? positionId

def getOpenPositions (pm : PortfolioManager) : List Position := pm.openPositions.values

def getSpotEquity (pm : PortfolioManager) (currentPrice : ℚ) : ℚ :=
  (pm.balances.entries.map fun entry =>
    if entry.1 = cfg.accountCurrency then entry.2 else entry.2 * currentPrice).sum

def positionIdOf (symbol : String) (counter : ℕ) : String :=
  Labels.counted ("pos_" ++ symbol.toLower) counter

def getNextPositionId (pm : PortfolioManager) (symbol : String) : PortfolioManager × String :=
  let counter := pm.positionCounter + 1
  ({ pm with positionCounter := counter }, positionIdOf symbol counter)

def clockNow : Except PyError Instant :=
  match clock with
  | some now => .ok now
  | none => .error .clockNotInjected

def markDirty (pm : PortfolioManager) (tick : TickData) : PortfolioManager :=
  { pm with
    positionsDirty := true
    currentTick := some tick
    currentPrices := pm.currentPrices.set tick.symbol (tick.bid, tick.ask) }

/-- `_calculate_tick_value`: the conversion rate it records and the tick value. -/
def calculateTickValue (spec : SymbolSpecification) (currentPrice : ℚ) :
    Except PyError (Option ℚ × ℚ) :=
  let baseFactor := spec.tickSize * spec.contractSize
  if cfg.accountCurrency = spec.quoteCurrency then .ok (none, baseFactor)
  else if cfg.accountCurrency = spec.baseCurrency then
    if currentPrice ≤ 0 then .error (.invalidTickValuePrice currentPrice)
    else .ok (some currentPrice, baseFactor / currentPrice)
  else .error (.crossCurrency cfg.accountCurrency spec.symbol spec.baseCurrency spec.quoteCurrency)

def rolloverFees (rollover : SwapRolloverConfig) (now : Instant) (spec : SymbolSpecification)
    (position : Position) : List TradingFee :=
  let rate := match position.direction with
    | .long => spec.swapLong
    | .short => spec.swapShort
  (iterSwapRollovers cfg.zones rollover (mt5WeekdayToPython spec.swapRollover3days)
    position.swapAccruedUntil now).map fun crossing =>
      swapFee rate crossing.2 position.entryTickValue position.lots crossing.1

def accrueSwap (rollover : SwapRolloverConfig) (now : Instant) (costs : CostBreakdown)
    (position : Position) : Except PyError (CostBreakdown × Position) :=
  if now ≤ position.swapAccruedUntil then .ok (costs, position)
  else do
    let spec ← getSymbolSpecification cfg.broker position.symbol
    if spec.swapMode ≠ .points then return (costs, position.accrue [] now)
    let fees := rolloverFees cfg rollover now spec position
    return (fees.foldl CostBreakdown.recordFeeCost costs, position.accrue fees now)

def accrueAllSwaps (pm : PortfolioManager) : Except PyError PortfolioManager :=
  match cfg.swapRollover with
  | none => .ok pm
  | some rollover =>
      if cfg.spotMode ∨ pm.openPositions.isEmpty then .ok pm
      else do
        let now ← clockNow clock
        let (costs, positions) ←
          pm.openPositions.mapAccumM (accrueSwap cfg rollover now) pm.costTracking
        return { pm with costTracking := costs, openPositions := positions }

/-- The body of the refresh loop, threading the last conversion rate. -/
def refreshPosition (prices : Dict String (ℚ × ℚ)) (rate : Option ℚ) (position : Position) :
    Except PyError (Option ℚ × Position) :=
  match prices.get? position.symbol with
  | none => .ok (rate, position)
  | some (bid, ask) => do
      let spec ← getSymbolSpecification cfg.broker position.symbol
      let (rate', tickValue) ← calculateTickValue cfg spec ((bid + ask) / 2)
      return (rate', position.updateCurrentPrice bid ask tickValue spec.digits)

def ensurePositionsUpdated (pm : PortfolioManager) : Except PyError PortfolioManager := do
  let pm ← pm.accrueAllSwaps cfg clock
  if !pm.positionsDirty then return pm
  let (rate, positions) ←
    pm.openPositions.mapAccumM (refreshPosition cfg pm.currentPrices) pm.lastConversionRate
  return { pm with
    openPositions := positions, lastConversionRate := rate, positionsDirty := false }

def unrealizedTotal (pm : PortfolioManager) : ℚ :=
  (pm.openPositions.values.map Position.unrealizedPnl).sum

def calculateEquity (pm : PortfolioManager) : ℚ := pm.balance cfg + pm.unrealizedTotal

def marginUsed (pm : PortfolioManager) (orderDirection : OrderDirection) : Except PyError ℚ :=
  match pm.currentTick with
  | none => .ok 0
  | some tick =>
      pm.openPositions.values.foldlM
        (fun used position => do
          let margin ← calculateMargin cfg.broker position.symbol position.lots tick orderDirection
          return used + margin) 0

def getAccountInfo (pm : PortfolioManager) (orderDirection : OrderDirection) :
    Except PyError (PortfolioManager × AccountInfo) := do
  let pm ← pm.ensurePositionsUpdated cfg clock
  let equity := pm.calculateEquity cfg
  let marginUsed ← pm.marginUsed cfg orderDirection
  let shownEquity := match cfg.spotMode, pm.currentTick with
    | true, some tick => pm.getSpotEquity cfg ((tick.bid + tick.ask) / 2)
    | _, _ => equity
  return (pm, {
    balance := pm.balance cfg
    equity := shownEquity
    marginUsed := marginUsed
    freeMargin := equity - marginUsed
    marginLevel := if 0 < marginUsed then equity / marginUsed * 100 else 0
    openPositions := pm.openPositions.size
    totalLots := (pm.openPositions.values.map Position.lots).sum
    currency := cfg.accountCurrency
    leverage := cfg.broker.leverage
    balances := if cfg.spotMode then some pm.balances else none })

def updateStatistics (pm : PortfolioManager) (direction : OrderDirection) (realizedPnl : ℚ) :
    PortfolioManager :=
  let stats := pm.statistics
  let equity := pm.calculateEquity cfg
  let maxEquity := if stats.maxEquity < equity then equity else stats.maxEquity
  let drawdown := maxEquity - equity
  { pm with statistics := {
      totalTrades := stats.totalTrades + 1
      totalLongTrades := stats.totalLongTrades + if direction = .long then 1 else 0
      totalShortTrades := stats.totalShortTrades + if direction = .short then 1 else 0
      winningTrades := stats.winningTrades + if 0 < realizedPnl then 1 else 0
      losingTrades := stats.losingTrades + if 0 < realizedPnl then 0 else 1
      totalProfit := stats.totalProfit + if 0 < realizedPnl then realizedPnl else 0
      totalLoss := stats.totalLoss + if 0 < realizedPnl then 0 else |realizedPnl|
      maxDrawdown := if stats.maxDrawdown < drawdown then drawdown else stats.maxDrawdown
      maxEquity := maxEquity } }

def addToBalance (balances : Dict String ℚ) (currency : String) (amount : ℚ) :
    Except PyError (Dict String ℚ) :=
  match balances.get? currency with
  | none => .error (.keyError currency)
  | some held => .ok (balances.set currency (held + amount))

def receiveBalance (balances : Dict String ℚ) (currency : String) (amount : ℚ) :
    Dict String ℚ :=
  balances.set currency (balances.getD currency 0 + amount)

/-- The asset exchange of a spot fill: a bought base currency is spent in the quote
currency, a sold one is received in it. -/
def exchangeAssets (balances : Dict String ℚ) (spec : SymbolSpecification) (side : OrderSide)
    (lots price feeCost : ℚ) : Except PyError (Dict String ℚ) :=
  match side with
  | .buy => do
      let spent ← addToBalance balances spec.quoteCurrency (-(lots * price + feeCost))
      return receiveBalance spent spec.baseCurrency lots
  | .sell => do
      let spent ← addToBalance balances spec.baseCurrency (-lots)
      addToBalance spent spec.quoteCurrency (lots * price - feeCost)

def feeCost (fee : Option TradingFee) : ℚ := (fee.map TradingFee.cost).getD 0

def recordFee (pm : PortfolioManager) (fee : Option TradingFee) : PortfolioManager :=
  match fee with
  | none => pm
  | some fee => { pm with costTracking := pm.costTracking.recordFeeCost fee }

structure OpenPositionArgs where
  orderId : String
  symbol : String
  direction : OrderDirection
  lots : ℚ
  entryPrice : ℚ
  entryTickValue : ℚ
  entryBid : ℚ
  entryAsk : ℚ
  digits : ℕ
  contractSize : ℚ
  entryTickIndex : ℕ
  entryFee : Option TradingFee := none
  stopLoss : Option ℚ := none
  takeProfit : Option ℚ := none
  comment : String := ""
  entryType : EntryType := .market
  brokerRef : Option String := none
  entryTrades : List BrokerTrade := []
  deriving DecidableEq

/-- The position `open_position` builds. -/
def OpenPositionArgs.position (args : OpenPositionArgs) (now : Instant) : Position where
  positionId := args.orderId
  symbol := args.symbol
  direction := args.direction
  lots := args.lots
  originalLots := args.lots
  entryPrice := args.entryPrice
  entryTime := now
  stopLoss := args.stopLoss
  takeProfit := args.takeProfit
  entryType := args.entryType
  comment := args.comment
  entryTickValue := args.entryTickValue
  entryBid := args.entryBid
  entryAsk := args.entryAsk
  digits := args.digits
  contractSize := args.contractSize
  entryTickIndex := args.entryTickIndex
  brokerRef := args.brokerRef
  entryTrades := args.entryTrades
  fees := args.entryFee.toList

def openPosition (pm : PortfolioManager) (args : OpenPositionArgs) :
    Except PyError PortfolioManager := do
  let now ← clockNow clock
  let pm := pm.recordFee args.entryFee
  let pm := { pm with openPositions := pm.openPositions.set args.orderId (args.position now) }
  if !cfg.spotMode then return pm
  let spec ← getSymbolSpecification cfg.broker args.symbol
  let balances ← exchangeAssets pm.balances spec (directionToSide args.direction .openAction)
    args.lots args.entryPrice (feeCost args.entryFee)
  return { pm with balances := balances }

def appendTradeRecord (pm : PortfolioManager) (record : TradeRecord) : PortfolioManager :=
  { pm with
    tradeHistoryLimitWarned := pm.tradeHistoryLimitWarned ||
      decide (0 < cfg.tradeHistoryMax ∧ cfg.tradeHistoryMax ≤ pm.tradeHistory.length)
    tradeHistory := appendBounded cfg.tradeHistoryMax pm.tradeHistory record
    tradeLog := pm.tradeLog ++ [record] }

structure CloseArgs where
  positionId : String
  exitPrice : ℚ
  exitTickValue : ℚ
  exitTickIndex : ℕ
  exitFee : Option TradingFee := none
  closeReason : CloseReason := .manual
  exitTrades : List BrokerTrade := []
  deriving DecidableEq

def tradeRecord (args : CloseArgs) (position : Position) (closeType : CloseType)
    (now : Instant) (lots ratio totalFees grossPnl netPnl : ℚ) : TradeRecord where
  positionId := position.positionId
  symbol := position.symbol
  direction := position.direction
  lots := lots
  closeType := closeType
  entryPrice := position.entryPrice
  entryTime := position.entryTime
  entryTickValue := position.entryTickValue
  entryBid := position.entryBid
  entryAsk := position.entryAsk
  exitPrice := args.exitPrice
  exitTime := now
  exitTickValue := args.exitTickValue
  entryTickIndex := position.entryTickIndex
  exitTickIndex := args.exitTickIndex
  digits := position.digits
  contractSize := position.contractSize
  spreadCost := position.getSpreadCost * ratio
  commissionCost := position.getCommissionCost * ratio
  swapCost := position.getSwapCost * ratio
  totalFees := totalFees
  grossPnl := grossPnl
  netPnl := netPnl
  stopLoss := position.stopLoss
  takeProfit := position.takeProfit
  maePrice := position.maePrice
  mfePrice := position.mfePrice
  maePnl := position.maePnl
  mfePnl := position.mfePnl
  initialRisk := position.initialRisk lots
  closeReason := args.closeReason
  entryType := position.entryType
  comment := position.comment
  accountCurrency := cfg.accountCurrency
  entryTrades := position.entryTrades
  exitTrades := args.exitTrades
  entrySide := directionToSide position.direction .openAction
  exitSide := directionToSide position.direction .closeAction

def createTradeRecord (args : CloseArgs) (position : Position) (now : Instant) : TradeRecord :=
  tradeRecord cfg args position .full now position.lots 1 position.getTotalFees
    position.grossPnl position.unrealizedPnl

def withExitFee (position : Position) (fee : Option TradingFee) : Position :=
  match fee with
  | none => position
  | some fee => position.addFee fee

/-- Realize P&L: the balances afterwards and the position the record is made of. The spot
branch refreshes the position at the exit price, the margin branch books the cached P&L. -/
def realizeClose (pm : PortfolioManager) (args : CloseArgs) (position : Position) :
    Except PyError (PortfolioManager × Position) := do
  if cfg.spotMode then
    let spec ← getSymbolSpecification cfg.broker position.symbol
    let balances ← exchangeAssets pm.balances spec (directionToSide position.direction .closeAction)
      position.lots args.exitPrice (feeCost args.exitFee)
    return ({ pm with balances := balances },
      position.updateCurrentPrice args.exitPrice args.exitPrice args.exitTickValue position.digits)
  else
    return (pm.setBalance cfg (pm.balance cfg + position.unrealizedPnl), position)

def closePositionPortfolio (pm : PortfolioManager) (args : CloseArgs) :
    Except PyError (PortfolioManager × ℚ) := do
  if (pm.getPosition args.positionId).isNone then throw (.positionNotFound args.positionId)
  let pm ← pm.ensurePositionsUpdated cfg clock
  match pm.getPosition args.positionId with
  | none => throw (.keyError args.positionId)
  | some position =>
      let pm := pm.recordFee args.exitFee
      let (pm, position) ← pm.realizeClose cfg args (withExitFee position args.exitFee)
      let realizedPnl := position.unrealizedPnl
      let now ← clockNow clock
      let pm := { pm with realizedPnl := pm.realizedPnl + realizedPnl }
      let pm := pm.appendTradeRecord cfg (createTradeRecord cfg args position now)
      let pm := { pm with openPositions := pm.openPositions.erase args.positionId }
      return (pm.updateStatistics cfg position.direction realizedPnl, realizedPnl)

def remainder (position : Position) (closeLots remainingRatio : ℚ) : Position :=
  let fees := position.fees.map fun fee => { fee with cost := fee.cost * remainingRatio }
  let gross := position.grossPnl * remainingRatio
  { position with
    lots := Rounding.roundTo 8 (position.lots - closeLots)
    fees := fees
    status := .partiallyClosed
    grossPnl := gross
    unrealizedPnl := gross - Position.totalCost fees }

def partialClosePosition (pm : PortfolioManager) (args : CloseArgs) (closeLots : ℚ) :
    Except PyError (PortfolioManager × ℚ) := do
  if (pm.getPosition args.positionId).isNone then throw (.positionNotFound args.positionId)
  let pm ← pm.ensurePositionsUpdated cfg clock
  match pm.getPosition args.positionId with
  | none => throw (.keyError args.positionId)
  | some position =>
      if position.lots = 0 then throw .zeroDivision
      let closeRatio := closeLots / position.lots
      let remainingRatio := 1 - closeRatio
      let closedGrossPnl := position.grossPnl * closeRatio
      let closedFees := position.getTotalFees * closeRatio + feeCost args.exitFee
      let closedNetPnl := closedGrossPnl - closedFees
      let pm := pm.recordFee args.exitFee
      let pm ← if cfg.spotMode then do
          let spec ← getSymbolSpecification cfg.broker position.symbol
          let balances ← exchangeAssets pm.balances spec
            (directionToSide position.direction .closeAction) closeLots args.exitPrice
            (feeCost args.exitFee)
          pure { pm with balances := balances }
        else pure (pm.setBalance cfg (pm.balance cfg + closedNetPnl))
      let now ← clockNow clock
      let pm := { pm with realizedPnl := pm.realizedPnl + closedNetPnl }
      let pm := pm.appendTradeRecord cfg (tradeRecord cfg args position .partialClose now
        closeLots closeRatio closedFees closedGrossPnl closedNetPnl)
      let pm := { pm with openPositions :=
        pm.openPositions.set args.positionId (remainder position closeLots remainingRatio) }
      return (pm.updateStatistics cfg position.direction closedNetPnl, closedNetPnl)

def validateSlTpLevels (direction : OrderDirection) (bid ask : ℚ) (stopLoss takeProfit : Option ℚ) :
    Option ModificationRejectionReason :=
  let slInvalid := match stopLoss, direction with
    | none, _ => false
    | some sl, .long => decide (bid ≤ sl)
    | some sl, .short => decide (sl ≤ ask)
  let tpInvalid := match takeProfit, direction with
    | none, _ => false
    | some tp, .long => decide (tp ≤ bid)
    | some tp, .short => decide (ask ≤ tp)
  let crossed := match stopLoss, takeProfit, direction with
    | some sl, some tp, .long => decide (tp ≤ sl)
    | some sl, some tp, .short => decide (sl ≤ tp)
    | _, _, _ => false
  if slInvalid then some .invalidSlLevel
  else if tpInvalid then some .invalidTpLevel
  else if crossed then some .slTpCross
  else none

def modifyPosition (pm : PortfolioManager) (positionId : String)
    (newStopLoss newTakeProfit : Setting (Option ℚ)) : PortfolioManager × ModificationResult :=
  match pm.getPosition positionId with
  | none => (pm, { success := false, rejectionReason := some .positionNotFound })
  | some position =>
      let effectiveSl := newStopLoss.getD position.stopLoss
      let effectiveTp := newTakeProfit.getD position.takeProfit
      match pm.currentPrices.get? position.symbol with
      | none => (pm, { success := false, rejectionReason := some .noCurrentPrice })
      | some (bid, ask) =>
          match validateSlTpLevels position.direction bid ask effectiveSl effectiveTp with
          | some reason => (pm, { success := false, rejectionReason := some reason })
          | none =>
              let modified := { position with stopLoss := effectiveSl, takeProfit := effectiveTp }
              ({ pm with openPositions := pm.openPositions.set positionId modified },
                { success := true })

end PortfolioManager

end Finiex.Portfolio
