import Finiex.Orders
import Finiex.Portfolio

/-!
# Fill processing shared by the execution modes

What happens to the portfolio, the counters and the order history when an order is
confirmed. Fills read the market and change the execution ledger only.
-/

namespace Finiex.Executor

open Finiex.Types
open Finiex.Lib
open Finiex.Fees
open Finiex.Positions
open Finiex.Broker
open Finiex.Orders
open Finiex.Portfolio
open Finiex.Portfolio.PortfolioManager

structure ExecutorConfig where
  portfolio : PortfolioConfig
  orderHistoryMax : ℕ := 10000

def ExecutorConfig.broker (cfg : ExecutorConfig) : BrokerConfig := cfg.portfolio.broker

/-- What ticks and clock injections set and fills read. -/
structure MarketState where
  currentTick : Option TickData := none
  tickCounter : ℕ := 0
  clockTime : Option Instant := none
  deriving DecidableEq

inductive ResultSource
  | submission | fill | stressTest | orderGuard | expiry | modifyResponse
  | submitResponse (action : PendingOrderAction)
  | queryResponse (action : PendingOrderAction)
  | timeout (action : PendingOrderAction)
  deriving DecidableEq, Repr

/-- What `_fill_close_order` was asked, found and reported: the current tick, the position
before the close, and the quote at which the refresh inside the close marks it, if it does. -/
structure CloseFill where
  pending : PendingOrder
  fillPrice : Option ℚ
  closeReason : CloseReason
  tick : TickData
  position : Position
  quote : Option (ℚ × ℚ)
  result : OrderResult
  deriving DecidableEq

def CloseFill.closePrice (fill : CloseFill) : ℚ :=
  fill.fillPrice.getD (fill.position.closeSide fill.tick.bid fill.tick.ask)

/-- The log lines, history entries, notifications and decision events of a session. -/
inductive AuditEvent
  | orderReceived (pending : PendingOrder)
  | fillCloseOrder (pending : PendingOrder) (closeReason : CloseReason)
  | closeFilled (fill : CloseFill)
  | result (source : ResultSource) (result : OrderResult)
  | notified (direction : Option OrderDirection) (result : OrderResult) (pendingId : Option String)
  | partialClose (positionId : String) (closedLots remainingLots fillPrice : ℚ)
  | cancelAccepted (orderId : String)
  | cancelRefused (orderId : String)
  | orderCancelled (orderId : String) (direction : Option OrderDirection)
  | modificationResolved (orderId : String) (modification : ModificationRequest)
  | outcome (pending : PendingOrder) (outcome : PendingOrderOutcome)
  deriving DecidableEq

structure ExecutionLedger where
  portfolio : PortfolioManager
  orderHistory : List OrderResult := []
  orderHistoryLimitWarned : Bool := false
  ordersSent : ℕ := 0
  ordersExecuted : ℕ := 0
  ordersRejected : ℕ := 0
  slTpTriggered : ℕ := 0
  synthTradeSeq : ℕ := 0
  log : List AuditEvent := []
  deriving DecidableEq

namespace ExecutionLedger

variable (cfg : ExecutorConfig)

def record (ledger : ExecutionLedger) (event : AuditEvent) : ExecutionLedger :=
  { ledger with log := ledger.log ++ [event] }

def appendResult (ledger : ExecutionLedger) (source : ResultSource) (result : OrderResult) :
    ExecutionLedger :=
  { ledger with
    orderHistory := appendBounded cfg.orderHistoryMax ledger.orderHistory result
    log := ledger.log ++ [.result source result] }

def checkOrderHistoryLimit (ledger : ExecutionLedger) : ExecutionLedger :=
  let full := decide (0 < cfg.orderHistoryMax ∧ cfg.orderHistoryMax ≤ ledger.orderHistory.length)
  { ledger with orderHistoryLimitWarned := ledger.orderHistoryLimitWarned || full }

def notifyOutcome (ledger : ExecutionLedger) (direction : Option OrderDirection)
    (result : OrderResult) (pendingId : Option String) : ExecutionLedger :=
  ledger.record (.notified direction result pendingId)

/-- Count, record and announce an order that ended in a rejection. -/
def rejectOrder (ledger : ExecutionLedger) (source : ResultSource) (pending : PendingOrder)
    (result : OrderResult) : ExecutionLedger :=
  let counted := { ledger with ordersRejected := ledger.ordersRejected + 1 }
  ((counted.checkOrderHistoryLimit cfg).appendResult cfg source result).notifyOutcome
    pending.direction result (some pending.pendingOrderId)

def executeOrder (ledger : ExecutionLedger) (pending : PendingOrder) (result : OrderResult) :
    ExecutionLedger :=
  let counted := { ledger with ordersExecuted := ledger.ordersExecuted + 1 }
  ((counted.checkOrderHistoryLimit cfg).appendResult cfg .fill result).notifyOutcome
    pending.direction result (some pending.pendingOrderId)

def recordGuardRejection (ledger : ExecutionLedger) (result : OrderResult) : ExecutionLedger :=
  let counted := { ledger with ordersRejected := ledger.ordersRejected + 1 }
  (counted.checkOrderHistoryLimit cfg).appendResult cfg .orderGuard result

end ExecutionLedger

section Market

/-- `_current_tick`, an error when read before the first tick. -/
def requireTick (market : MarketState) : Except PyError TickData :=
  match market.currentTick with
  | some tick => .ok tick
  | none => .error .noCurrentTick

def getCurrentPrice (market : MarketState) (symbol : String) : Except PyError (ℚ × ℚ) :=
  match market.currentTick with
  | some tick =>
      if tick.symbol = symbol then .ok (tick.bid, tick.ask)
      else .error (.noCurrentPriceData symbol)
  | none => .error (.noCurrentPriceData symbol)

end Market

section Requests

/-- `_normalize_order_request`: prices are snapped to the symbol's digits. -/
def normalizeOrderRequest (broker : BrokerConfig) (request : OpenOrderRequest) :
    OpenOrderRequest :=
  match broker.symbols.get? request.symbol with
  | none => request
  | some spec => { request with
      price := roundPrice spec.digits request.price
      stopPrice := roundPrice spec.digits request.stopPrice
      stopLoss := roundPrice spec.digits request.stopLoss
      takeProfit := roundPrice spec.digits request.takeProfit }

def requestedLots (lots : Option ℚ) (position : Position) : ℚ :=
  match lots with
  | none => position.lots
  | some lots => if lots = 0 then position.lots else lots

def modificationRejected (reason : ModificationRejectionReason) : ModificationResult :=
  { success := false, rejectionReason := some reason }

def modificationScheduled (orderId : String) : ModificationResult :=
  { success := true, status := some .pending, orderId := some orderId }

end Requests

variable (cfg : ExecutorConfig)

def executorTickValue (spec : SymbolSpecification) (currentPrice : ℚ) : Except PyError ℚ := do
  let (_, value) ← calculateTickValue cfg.portfolio spec currentPrice
  return value

def createEntryFee (tick : TickData) (spec : SymbolSpecification) (lots entryPrice tickValue : ℚ)
    (isMaker : Bool) : TradingFee :=
  match cfg.broker.feeModel with
  | .makerTaker =>
      createMakerTakerFee lots spec.contractSize entryPrice cfg.broker.makerFee
        cfg.broker.takerFee isMaker
  | _ => createSpreadFeeFromTick tick lots tickValue spec.digits

def isMakerEntry (entryType : EntryType) : Bool :=
  match entryType with
  | .limit | .stopLimit => true
  | .market | .stop => false

def checkFunds (market : MarketState) (pm : PortfolioManager) (pending : PendingOrder)
    (direction : OrderDirection) (tick : TickData) (spec : SymbolSpecification)
    (entryPrice : ℚ) (entryFee : TradingFee) :
    Except PyError (PortfolioManager × Option (RejectionReason × RejectionMessage)) := do
  if 1 < cfg.broker.leverage then
    let required ← calculateMargin cfg.broker pending.symbol pending.lots tick direction
    let (pm, info) ← pm.getAccountInfo cfg.portfolio market.clockTime direction
    if info.freeMargin < required then
      return (pm, some (.insufficientMargin, .requiredMarginExceedsFree required info.freeMargin))
    return (pm, none)
  else if cfg.portfolio.spotMode then
    match direction with
    | .long =>
        let required := pending.lots * entryPrice + entryFee.cost
        let available := pm.getAssetBalance spec.quoteCurrency
        if available < required then
          return (pm, some (.insufficientFunds,
            .buyRequires required spec.quoteCurrency available))
        return (pm, none)
    | .short =>
        let available := pm.getAssetBalance spec.baseCurrency
        if available < pending.lots then
          return (pm, some (.insufficientFunds,
            .sellRequires pending.lots spec.baseCurrency available))
        return (pm, none)
  else return (pm, none)

/-- `_synthesize_pending_trade`, as the trade it appends. -/
def synthesizeTrade (market : MarketState) (seq : ℕ) (pending : PendingOrder)
    (fillPrice filledLots : ℚ) (isMaker : Bool) (spec : SymbolSpecification) (feeCost : ℚ)
    (direction : OrderDirection) (action : OrderAction) : Except PyError BrokerTrade := do
  let now ← clockNow market.clockTime
  return {
    tradeId := "SYNTH-" ++ pending.pendingOrderId ++ "-" ++ Labels.padded 6 seq
    parentBrokerRef := pending.brokerRef.getD ""
    orderId := pending.pendingOrderId
    volume := filledLots
    price := fillPrice
    fee := feeCost
    feeCurrency := spec.quoteCurrency
    timestamp := now
    side := directionToSide direction action
    isMaker := isMaker }

def fillTrades (market : MarketState) (ledger : ExecutionLedger) (pending : PendingOrder)
    (fillPrice filledLots : ℚ) (isMaker : Bool) (spec : SymbolSpecification) (feeCost : ℚ)
    (direction : OrderDirection) (action : OrderAction) :
    Except PyError (ℕ × List BrokerTrade) := do
  if pending.fills.trades.isEmpty then
    let seq := ledger.synthTradeSeq + 1
    let trade ← synthesizeTrade market seq pending fillPrice filledLots isMaker spec feeCost
      direction action
    return (seq, [trade])
  else return (ledger.synthTradeSeq, pending.fills.trades)

def entrySide (direction : OrderDirection) (bid ask : ℚ) : ℚ :=
  match direction with
  | .long => ask
  | .short => bid

def openPositionArgs (market : MarketState) (pending : PendingOrder) (direction : OrderDirection)
    (spec : SymbolSpecification) (entryPrice tickValue bid ask : ℚ) (entryFee : TradingFee)
    (entryType : EntryType) (trades : List BrokerTrade) : OpenPositionArgs where
  orderId := pending.pendingOrderId
  symbol := pending.symbol
  direction := direction
  lots := pending.lots
  entryPrice := entryPrice
  entryTickValue := tickValue
  entryBid := bid
  entryAsk := ask
  digits := spec.digits
  contractSize := spec.contractSize
  entryTickIndex := market.tickCounter
  entryFee := some entryFee
  stopLoss := pending.orderKwargs.stopLoss
  takeProfit := pending.orderKwargs.takeProfit
  comment := pending.orderKwargs.comment
  entryType := entryType
  brokerRef := pending.brokerRef
  entryTrades := trades

def openOrderResult (market : MarketState) (pending : PendingOrder) (entryPrice : ℚ)
    (entryFee : TradingFee) (fillType : FillType) (now : Instant) : OrderResult where
  orderId := pending.pendingOrderId
  status := .executed
  executedPrice := some entryPrice
  executedLots := some pending.lots
  executionTime := some now
  positionId := some pending.pendingOrderId
  action := some .openAction
  symbol := some pending.symbol
  direction := pending.direction
  requestedLots := some pending.lots
  metadata := .openFill entryFee.cost entryFee.feeType fillType market.tickCounter

def fillOpenOrder (market : MarketState) (ledger : ExecutionLedger) (pending : PendingOrder)
    (fillPrice : Option ℚ) (entryType : EntryType) (fillType : FillType) :
    Except PyError ExecutionLedger := do
  let tick ← requireTick market
  let (bid, ask) ← getCurrentPrice market pending.symbol
  -- an OPEN order always carries its direction; the code treats all but LONG alike
  let direction := pending.direction.getD .short
  let entryPrice := fillPrice.getD (entrySide direction bid ask)
  let spec ← getSymbolSpecification cfg.broker pending.symbol
  let tickValue ← executorTickValue cfg spec tick.mid
  let isMaker := isMakerEntry entryType
  let entryFee := createEntryFee cfg tick spec pending.lots entryPrice tickValue isMaker
  let (pm, rejection) ←
    checkFunds cfg market ledger.portfolio pending direction tick spec entryPrice entryFee
  match rejection with
  | some (reason, message) =>
      return { ledger with portfolio := pm }.rejectOrder cfg .fill pending
        (createRejectionResult pending.pendingOrderId reason message)
  | none => do
      let (seq, trades) ← fillTrades market ledger pending entryPrice pending.lots isMaker spec
        entryFee.cost direction .openAction
      let pm ← pm.openPosition cfg.portfolio market.clockTime (openPositionArgs market pending
        direction spec entryPrice tickValue bid ask entryFee entryType trades)
      let now ← clockNow market.clockTime
      return { ledger with portfolio := pm, synthTradeSeq := seq }.executeOrder cfg pending
        (openOrderResult market pending entryPrice entryFee fillType now)

/-- The lots a close executes, `none` for a full close: requests above the position or
leaving less than the minimum volume become full closes. -/
def partialLots (closeLots : Option ℚ) (positionLots volumeMin : ℚ) : Option ℚ :=
  match closeLots with
  | none => none
  | some lots =>
      if lots < positionLots ∧ volumeMin - 1 / 1000000000 ≤ positionLots - lots then some lots
      else none

/-- The quote a refresh marks a position at: only under a dirty flag, and if known. -/
def refreshQuote (pm : PortfolioManager) (position : Position) : Option (ℚ × ℚ) :=
  if pm.positionsDirty then pm.currentPrices.get? position.symbol else none

/-- What a close of `lots` (`none`: of the whole position) asks the portfolio. -/
def closeArgs (market : MarketState) (pending : PendingOrder) (closePrice exitTickValue : ℚ)
    (closeReason : CloseReason) (trades : List BrokerTrade) : CloseArgs where
  positionId := pending.pendingOrderId
  exitPrice := closePrice
  exitTickValue := exitTickValue
  exitTickIndex := market.tickCounter
  closeReason := closeReason
  exitTrades := trades

def closeOrderResult (pending : PendingOrder) (position : Position) (closePrice : ℚ)
    (closing : Option ℚ) (realizedPnl : ℚ) (now : Instant) : OrderResult where
  orderId := pending.pendingOrderId
  status := .executed
  executedPrice := some closePrice
  executedLots := some (closing.getD position.lots)
  executionTime := some now
  positionId := some pending.pendingOrderId
  action := some .closeAction
  symbol := some position.symbol
  direction := some position.direction
  closeType := some (if closing.isSome then .partialClose else .full)
  metadata := .closeFill realizedPnl

def closeInPortfolio (market : MarketState) (pm : PortfolioManager) (args : CloseArgs)
    (closing : Option ℚ) : Except PyError (PortfolioManager × ℚ) :=
  match closing with
  | some lots => pm.partialClosePosition cfg.portfolio market.clockTime args lots
  | none => pm.closePositionPortfolio cfg.portfolio market.clockTime args

def fillCloseOrder (market : MarketState) (ledger : ExecutionLedger) (pending : PendingOrder)
    (fillPrice : Option ℚ) (closeReason : CloseReason) : Except PyError ExecutionLedger := do
  let tick ← requireTick market
  let ledger := ledger.record (.fillCloseOrder pending closeReason)
  match ledger.portfolio.getPosition pending.pendingOrderId with
  | none => return ledger
  | some position => do
      let (bid, ask) ← getCurrentPrice market position.symbol
      let closePrice := fillPrice.getD (position.closeSide bid ask)
      let spec ← getSymbolSpecification cfg.broker position.symbol
      let exitTickValue ← executorTickValue cfg spec ((bid + ask) / 2)
      if pending.closeLots.any (· ≤ 0) then return ledger
      let closing := partialLots pending.closeLots position.lots spec.volumeMin
      let (seq, trades) ← fillTrades market ledger pending closePrice
        (closing.getD position.lots) false spec 0 position.direction .closeAction
      let (pm, realizedPnl) ← closeInPortfolio cfg market ledger.portfolio
        (closeArgs market pending closePrice exitTickValue closeReason trades) closing
      let now ← clockNow market.clockTime
      let result := closeOrderResult pending position closePrice closing realizedPnl now
      let fill : CloseFill := {
        pending := pending
        fillPrice := fillPrice
        closeReason := closeReason
        tick := tick
        position := position
        quote := refreshQuote ledger.portfolio position
        result := result }
      let filled := ({ ledger with portfolio := pm, synthTradeSeq := seq }.record
        (.closeFilled fill)).checkOrderHistoryLimit cfg
      let filled := filled.appendResult cfg .fill result
      match closing with
      | some lots =>
          return filled.record
            (.partialClose pending.pendingOrderId lots (position.lots - lots) closePrice)
      | none => return filled

def expiredResult (pending : PendingOrder) (now : Instant) : OrderResult where
  orderId := pending.pendingOrderId
  status := .expired
  executionTime := some now
  action := some .openAction
  symbol := some pending.symbol
  metadata := .scenarioEnd pending.orderType pending.entryPrice

def expireOrder (market : MarketState) (ledger : ExecutionLedger) (pending : PendingOrder) :
    Except PyError ExecutionLedger := do
  let now ← clockNow market.clockTime
  return ledger.appendResult cfg .expiry (expiredResult pending now)

end Finiex.Executor
