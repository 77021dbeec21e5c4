import Finiex.Executor

/-!
# The trade simulator

Orders wait in a latency queue, rest as limit or stop orders, and are filled, rejected or
cancelled by ticks and by heartbeats between ticks.
-/

namespace Finiex.Simulator

open Finiex.Types
open Finiex.Lib
open Finiex.Positions
open Finiex.Broker
open Finiex.Orders
open Finiex.Portfolio
open Finiex.Portfolio.PortfolioManager
open Finiex.Executor

/-- The seeded generators enter as the sequences of their answers. -/
structure SimulatorConfig where
  executor : ExecutorConfig
  inboundDelay : ℕ → ℤ
  stressFilter : Option (ℕ → Bool) := none

structure TradeSimulator where
  market : MarketState := {}
  ledger : ExecutionLedger
  latencyQueue : Dict String PendingOrder := ∅
  delaysDrawn : ℕ := 0
  stressCalls : ℕ := 0
  stressRejections : ℕ := 0
  orderCounter : ℕ := 0
  activeLimitOrders : List PendingOrder := []
  activeStopOrders : List PendingOrder := []
  pendingPositionModifications : Dict String ModificationRequest := ∅
  deriving DecidableEq

def new (cfg : SimulatorConfig) : TradeSimulator where
  ledger := { portfolio := Portfolio.new cfg.executor.portfolio }

/-- `collected_msc`, with `time_msc` as the fallback. -/
def getTickMsc (tick : TickData) : ℤ :=
  if 0 < tick.collectedMsc then tick.collectedMsc else tick.timeMsc

def modifyCancelDelayMsc : ℤ := 1

def getCurrentMsc (market : MarketState) : Except PyError ℤ := do
  let tick ← requireTick market
  return getTickMsc tick

section Triggers

def limitReached (tick : TickData) (direction : Option OrderDirection) (price : ℚ) : Bool :=
  match direction with
  | some .long => decide (tick.ask ≤ price)
  | _ => decide (price ≤ tick.bid)

def stopReached (tick : TickData) (direction : Option OrderDirection) (price : ℚ) : Bool :=
  match direction with
  | some .long => decide (price ≤ tick.ask)
  | _ => decide (tick.bid ≤ price)

/-- The price trigger of an order of the tick's symbol; an unset price cannot be compared. -/
def isPriceReached (reached : TickData → Option OrderDirection → ℚ → Bool)
    (market : MarketState) (pending : PendingOrder) : Except PyError Bool :=
  match market.currentTick with
  | none => .ok false
  | some tick =>
      if pending.symbol ≠ tick.symbol then .ok false
      else match pending.entryPrice with
        | none => .error .typeError
        | some price => .ok (reached tick pending.direction price)

def isLimitPriceReached : MarketState → PendingOrder → Except PyError Bool :=
  isPriceReached limitReached

def isStopPriceReached : MarketState → PendingOrder → Except PyError Bool :=
  isPriceReached stopReached

end Triggers

section Resolution

def applyPendingModification (pending : PendingOrder) (mod : ModificationRequest) :
    PendingOrder :=
  { pending with
    entryPrice := mod.newPrice
    orderKwargs := { pending.orderKwargs with
      limitPrice := mod.newLimitPrice.or pending.orderKwargs.limitPrice
      stopLoss := mod.newStopLoss
      takeProfit := mod.newTakeProfit }
    executionState := { pending.executionState with
      pendingModification := none, inFlightOperation := .none } }

def dueModification (msc : ℤ) (pending : PendingOrder) : Option ModificationRequest :=
  if pending.inFlightOperation = .pendingModify then
    pending.pendingModification.filter fun mod => decide (mod.applyAtMsc ≤ msc)
  else none

def cancelDue (msc : ℤ) (pending : PendingOrder) : Bool :=
  decide (pending.inFlightOperation = .pendingCancel) &&
    pending.executionState.cancelApplyAtMsc.any fun applyAt => decide (applyAt ≤ msc)

def resolveModification (msc : ℤ) (pending : PendingOrder) : PendingOrder :=
  match dueModification msc pending with
  | some mod => applyPendingModification pending mod
  | none => pending

/-- The loop over one active list: due modifications are applied in place, due
cancellations are removed by value afterwards. -/
def resolveActiveOrders (msc : ℤ) (orders : List PendingOrder) : List PendingOrder :=
  let visited := orders.map (resolveModification msc)
  (visited.filter (cancelDue msc)).foldl List.erase visited

def cancelledOrders (msc : ℤ) (orders : List PendingOrder) : List PendingOrder :=
  (orders.map (resolveModification msc)).filter (cancelDue msc)

/-- What the loop over one active list logs and emits. -/
def resolutionEvents (msc : ℤ) (orders : List PendingOrder) : List AuditEvent :=
  (orders.filterMap fun pending => (dueModification msc pending).map
      (AuditEvent.modificationResolved pending.pendingOrderId)) ++
    (cancelledOrders msc orders).map fun pending =>
      AuditEvent.orderCancelled pending.pendingOrderId pending.direction

def resolvePositionModification (msc : ℤ)
    (state : PortfolioManager × Dict String ModificationRequest) (positionId : String) :
    PortfolioManager × Dict String ModificationRequest :=
  match state.2.get? positionId with
  | none => state
  | some mod =>
      if mod.applyAtMsc ≤ msc then
        ((state.1.modifyPosition positionId (.given mod.newStopLoss)
          (.given mod.newTakeProfit)).1, state.2.erase positionId)
      else state

def resolvePendingOperations (s : TradeSimulator) : Except PyError TradeSimulator := do
  let msc ← getCurrentMsc s.market
  let (portfolio, modifications) :=
    s.pendingPositionModifications.keys.foldl (resolvePositionModification msc)
      (s.ledger.portfolio, s.pendingPositionModifications)
  return { s with
    ledger := { s.ledger with
      portfolio := portfolio
      log := s.ledger.log ++ resolutionEvents msc s.activeLimitOrders ++
        resolutionEvents msc s.activeStopOrders }
    activeLimitOrders := resolveActiveOrders msc s.activeLimitOrders
    activeStopOrders := resolveActiveOrders msc s.activeStopOrders
    pendingPositionModifications := modifications }

end Resolution

section Phases

variable (cfg : SimulatorConfig)

def recordOutcome (s : TradeSimulator) (pending : PendingOrder) (outcome : PendingOrderOutcome) :
    TradeSimulator :=
  { s with ledger := s.ledger.record (.outcome pending outcome) }

def fillOpen (s : TradeSimulator) (pending : PendingOrder) (fillPrice : Option ℚ)
    (entryType : EntryType) (fillType : FillType) : Except PyError TradeSimulator := do
  let ledger ← fillOpenOrder cfg.executor s.market s.ledger pending fillPrice entryType fillType
  return { s with ledger := ledger }

def convertedOrder (pending : PendingOrder) : PendingOrder :=
  { pending with
    entryPrice := some (pending.orderKwargs.limitPrice.getD 0)
    orderType := some .limit
    orderKwargs := { pending.orderKwargs with fromStopLimit := true } }

def convertStopLimitToLimit (s : TradeSimulator) (pending : PendingOrder) :
    Except PyError TradeSimulator := do
  let converted := convertedOrder pending
  if ← isLimitPriceReached s.market converted then
    fillOpen cfg s converted converted.entryPrice .stopLimit .stopLimit
  else
    return { s with activeLimitOrders := s.activeLimitOrders ++ [converted] }

/-- Count and record a seeded rejection; no listener is told. -/
def rejectByStressTest (ledger : ExecutionLedger) (pending : PendingOrder)
    (rejectionCount : ℕ) : ExecutionLedger :=
  let rejection := createRejectionResult pending.pendingOrderId .brokerError
    (.stressTest rejectionCount)
  let counted := { ledger with ordersRejected := ledger.ordersRejected + 1 }
  counted.appendResult cfg.executor .stressTest rejection

def stressTestShouldReject (s : TradeSimulator) (pending : PendingOrder) :
    TradeSimulator × Bool :=
  match cfg.stressFilter with
  | none => (s, false)
  | some triggers =>
      let asked := { s with stressCalls := s.stressCalls + 1 }
      if triggers s.stressCalls then
        ({ asked with
            stressRejections := s.stressRejections + 1
            ledger := rejectByStressTest cfg s.ledger pending (s.stressRejections + 1) }, true)
      else (asked, false)

/-- An OPEN order whose latency has elapsed is filled or comes to rest. -/
def activateOrder (s : TradeSimulator) (pending : PendingOrder) :
    Except PyError TradeSimulator := do
  match pending.orderType with
  | some .limit =>
      if ← isLimitPriceReached s.market pending then
        fillOpen cfg s pending pending.entryPrice .limit .limitImmediate
      else return { s with activeLimitOrders := s.activeLimitOrders ++ [pending] }
  | some .stop =>
      if ← isStopPriceReached s.market pending then
        fillOpen cfg s pending none .stop .stop
      else return { s with activeStopOrders := s.activeStopOrders ++ [pending] }
  | some .stopLimit =>
      if ← isStopPriceReached s.market pending then
        convertStopLimitToLimit cfg s pending
      else return { s with activeStopOrders := s.activeStopOrders ++ [pending] }
  | _ => fillOpen cfg s pending none .market .market

def fillResolvedOrder (s : TradeSimulator) (pending : PendingOrder) :
    Except PyError TradeSimulator := do
  match pending.orderAction with
  | .openOrder =>
      match stressTestShouldReject cfg s pending with
      | (s, true) => return recordOutcome s pending .rejected
      | (s, false) =>
          let s ← activateOrder cfg s pending
          return recordOutcome s pending .filled
  | .closeOrder =>
      let ledger ← fillCloseOrder cfg.executor s.market s.ledger pending none .manual
      return recordOutcome { s with ledger := ledger } pending .filled

def fillResolvedOrders (s : TradeSimulator) (filledOrders : List PendingOrder) :
    Except PyError TradeSimulator :=
  filledOrders.foldlM (fillResolvedOrder cfg) s

def latencyElapsed (msc : ℤ) (pending : PendingOrder) : Bool :=
  pending.timing.brokerFillMsc.any fun fillAt => decide (fillAt ≤ msc)

def processUpToMsc (msc : ℤ) (queue : Dict String PendingOrder) :
    List PendingOrder × Dict String PendingOrder :=
  (queue.values.filter (latencyElapsed msc), queue.filter fun p => !latencyElapsed msc p)

/-- Phase 1: drain the latency queue up to `msc`. -/
def drainLatencyQueue (s : TradeSimulator) (msc : ℤ) : Except PyError TradeSimulator :=
  let (ready, waiting) := processUpToMsc msc s.latencyQueue
  fillResolvedOrders cfg { s with latencyQueue := waiting } ready

/-- One turn of phase 2: the ledger and the orders that keep resting. -/
def monitorLimitOrder (market : MarketState) (state : ExecutionLedger × List PendingOrder)
    (pending : PendingOrder) : Except PyError (ExecutionLedger × List PendingOrder) := do
  if ← isLimitPriceReached market pending then
    let fromStop := pending.orderKwargs.fromStopLimit
    let ledger ← fillOpenOrder cfg.executor market state.1 pending pending.entryPrice
      (if fromStop then .stopLimit else .limit) (if fromStop then .stopLimit else .limit)
    return (ledger, state.2)
  else return (state.1, state.2 ++ [pending])

def monitorLimitOrders (s : TradeSimulator) : Except PyError TradeSimulator := do
  let (ledger, remaining) ←
    s.activeLimitOrders.foldlM (monitorLimitOrder cfg s.market) (s.ledger, [])
  return { s with ledger := ledger, activeLimitOrders := remaining }

/-- One turn of phase 3: the simulator and the stops that keep waiting. -/
def monitorStopOrder (state : TradeSimulator × List PendingOrder) (pending : PendingOrder) :
    Except PyError (TradeSimulator × List PendingOrder) := do
  if ← isStopPriceReached state.1.market pending then
    match pending.orderType with
    | some .stop =>
        let s ← fillOpen cfg state.1 pending none .stop .stop
        return (s, state.2)
    | some .stopLimit =>
        let s ← convertStopLimitToLimit cfg state.1 pending
        return (s, state.2)
    | _ => return state
  else return (state.1, state.2 ++ [pending])

def monitorStopOrders (s : TradeSimulator) : Except PyError TradeSimulator := do
  let (s, remaining) ← s.activeStopOrders.foldlM (monitorStopOrder cfg) (s, [])
  return { s with activeStopOrders := remaining }

def processPendingOrders (s : TradeSimulator) : Except PyError TradeSimulator := do
  let s ← resolvePendingOperations s
  let msc ← getCurrentMsc s.market
  let s ← drainLatencyQueue cfg s msc
  let s ← monitorLimitOrders cfg s
  monitorStopOrders cfg s

def checkSlTpTrigger (market : MarketState) (tick : TickData) (ledger : ExecutionLedger)
    (position : Position) : Except PyError ExecutionLedger := do
  if position.symbol ≠ tick.symbol then return ledger
  else if position.isSlTriggered tick.bid tick.ask then
    let ledger ← fillCloseOrder cfg.executor market ledger
      (createSyntheticCloseOrder position.positionId) position.stopLoss .slTriggered
    return { ledger with slTpTriggered := ledger.slTpTriggered + 1 }
  else if position.isTpTriggered tick.bid tick.ask then
    let ledger ← fillCloseOrder cfg.executor market ledger
      (createSyntheticCloseOrder position.positionId) position.takeProfit .tpTriggered
    return { ledger with slTpTriggered := ledger.slTpTriggered + 1 }
  else return ledger

def checkSlTpTriggers (s : TradeSimulator) (tick : TickData) : Except PyError TradeSimulator := do
  let ledger ← s.ledger.portfolio.getOpenPositions.foldlM
    (checkSlTpTrigger cfg s.market tick) s.ledger
  return { s with ledger := ledger }

/-- The market and the portfolio as the tick finds them, before orders are processed. -/
def receiveTick (s : TradeSimulator) (tick : TickData) : TradeSimulator :=
  { s with
    market := {
      currentTick := some tick
      tickCounter := s.market.tickCounter + 1
      clockTime := some tick.timestamp }
    ledger := { s.ledger with portfolio := s.ledger.portfolio.markDirty tick } }

def onTick (s : TradeSimulator) (tick : TickData) : Except PyError TradeSimulator := do
  let s ← processPendingOrders cfg (receiveTick s tick)
  checkSlTpTriggers cfg s tick

/-- The clock in whole milliseconds, `int(timestamp() * 1000)`. -/
def ghostMsc (now : Instant) : ℤ := now.tdiv 1000

def heartbeat (s : TradeSimulator) : Except PyError TradeSimulator := do
  match s.market.currentTick, s.market.clockTime with
  | some _, some now => do
      let s ← resolvePendingOperations s
      drainLatencyQueue cfg s (ghostMsc now)
  | _, _ => return s

end Phases

section Submission

variable (cfg : SimulatorConfig)

def pendingOpenOrder (orderId : String) (request : OpenOrderRequest) (tick : TickData)
    (delay : ℤ) : PendingOrder where
  pendingOrderId := orderId
  orderAction := .openOrder
  orderType := some request.orderType
  symbol := request.symbol
  direction := some request.direction
  lots := request.lots
  entryPrice := match request.orderType, request.price, request.stopPrice with
    | .limit, some price, _ => some price
    | .stop, _, some stopPrice => some stopPrice
    | .stopLimit, _, some stopPrice => some stopPrice
    | _, _, _ => some 0
  entryTime := some tick.timestamp
  orderKwargs := {
    stopLoss := request.stopLoss
    takeProfit := request.takeProfit
    comment := request.comment
    limitPrice := match request.orderType, request.stopPrice with
      | .stopLimit, some _ => request.price
      | _, _ => none }
  timing := {
    placedAtMsc := some (getTickMsc tick)
    brokerFillMsc := some (getTickMsc tick + delay) }

def pendingCloseOrder (positionId : String) (tick : TickData) (delay : ℤ)
    (closeLots : Option ℚ) : PendingOrder where
  pendingOrderId := positionId
  orderAction := .closeOrder
  closeLots := closeLots
  timing := {
    placedAtMsc := some (getTickMsc tick)
    brokerFillMsc := some (getTickMsc tick + delay) }

/-- `store_order`: orders are keyed by their id, a close by its position id. -/
def storeOrder (s : TradeSimulator) (pending : PendingOrder) : TradeSimulator :=
  { s with
    latencyQueue := s.latencyQueue.set pending.pendingOrderId pending
    delaysDrawn := s.delaysDrawn + 1
    ledger := s.ledger.record (.orderReceived pending) }

def submitOpenOrder (s : TradeSimulator) (orderId : String) (request : OpenOrderRequest) :
    Except PyError TradeSimulator := do
  let tick ← requireTick s.market
  return storeOrder s (pendingOpenOrder orderId request tick (cfg.inboundDelay s.delaysDrawn))

def submitCloseOrder (s : TradeSimulator) (positionId : String) (closeLots : Option ℚ) :
    Except PyError TradeSimulator := do
  let tick ← requireTick s.market
  return storeOrder s
    (pendingCloseOrder positionId tick (cfg.inboundDelay s.delaysDrawn) closeLots)

/-- The price an order type must carry, as the rejection text when it is missing. -/
def requirePositive (price : Option ℚ) (message : Option ℚ → RejectionMessage) :
    Option RejectionMessage :=
  match price with
  | some p => if p ≤ 0 then some (message price) else none
  | none => some (message none)

/-- The price checks of `open_order`, by order type. -/
def orderTypeRejection (request : OpenOrderRequest) :
    Option (RejectionReason × RejectionMessage) :=
  match request.orderType with
  | .market => none
  | .limit =>
      (requirePositive request.price .limitRequiresPositivePrice).map (.invalidPrice, ·)
  | .stop =>
      (requirePositive request.stopPrice .stopRequiresPositiveStopPrice).map (.invalidPrice, ·)
  | .stopLimit =>
      ((requirePositive request.stopPrice .stopLimitRequiresPositiveStopPrice).or
        (requirePositive request.price .stopLimitRequiresPositiveLimitPrice)).map
          (.invalidPrice, ·)
  | .trailingStop | .iceberg =>
      some (.orderTypeNotSupported, .orderTypeNotSupported request.orderType)

def submissionRejection (request : OpenOrderRequest) :
    Except PyError (Option (RejectionReason × RejectionMessage)) := do
  match ← validateOrder cfg.executor.broker request.symbol request.lots with
  | some message => return some (.invalidLotSize, message)
  | none =>
      if !isSymbolTradeable cfg.executor.broker request.symbol then
        return some (.symbolNotTradeable, .symbolNotTradeable request.symbol)
      else return orderTypeRejection request

def pendingResult (s : TradeSimulator) (orderId : String) (request : OpenOrderRequest) :
    OrderResult where
  orderId := orderId
  status := .pending
  action := some .openAction
  symbol := some request.symbol
  direction := some request.direction
  requestedLots := some request.lots
  metadata := match request.orderType with
    | .limit => .submission request.price none s.market.tickCounter
    | .stop => .submission none request.stopPrice s.market.tickCounter
    | .stopLimit => .submission request.price request.stopPrice s.market.tickCounter
    | _ => .submission none none s.market.tickCounter

def openOrder (s : TradeSimulator) (request : OpenOrderRequest) :
    Except PyError (TradeSimulator × OrderResult) := do
  let request := normalizeOrderRequest cfg.executor.broker request
  let (portfolio, orderId) := s.ledger.portfolio.getNextPositionId request.symbol
  let s := { s with
    orderCounter := s.orderCounter + 1
    ledger := { s.ledger with portfolio := portfolio, ordersSent := s.ledger.ordersSent + 1 } }
  match ← submissionRejection cfg request with
  | some (reason, message) =>
      let result := createRejectionResult orderId reason message
      let counted := { s.ledger with ordersRejected := s.ledger.ordersRejected + 1 }
      return ({ s with ledger := counted.appendResult cfg.executor .submission result }, result)
  | none =>
      let s ← submitOpenOrder cfg s orderId request
      let result := pendingResult s orderId request
      return ({ s with ledger := s.ledger.appendResult cfg.executor .submission result }, result)

def closePosition (s : TradeSimulator) (positionId : String) (lots : Option ℚ) :
    Except PyError (TradeSimulator × OrderResult) := do
  match s.ledger.portfolio.getPosition positionId with
  | none =>
      return (s, createRejectionResult s!"close_{positionId}" .brokerError
        (.positionNotFound positionId))
  | some position =>
      let s ← submitCloseOrder cfg s positionId lots
      let now ← clockNow s.market.clockTime
      return (s, {
        orderId := positionId
        status := .pending
        executedLots := some (requestedLots lots position)
        executionTime := some now
        positionId := some positionId
        action := some .closeAction
        symbol := some position.symbol
        direction := some position.direction
        requestedLots := some (requestedLots lots position)
        metadata := .awaitingFill })

def isPendingClose (s : TradeSimulator) (positionId : String) : Bool :=
  s.latencyQueue.values.any fun p =>
    decide (p.orderAction = .closeOrder) && decide (p.pendingOrderId = positionId)

end Submission

section Modification

variable (cfg : SimulatorConfig)

def updateOrder (orderId : String) (state : PendingOrderExecutionState) :
    List PendingOrder → List PendingOrder
  | [] => []
  | p :: ps =>
      if p.pendingOrderId = orderId then { p with executionState := state } :: ps
      else p :: updateOrder orderId state ps

/-- Schedule the cancellation of a resting order, unless another operation is in flight. -/
def scheduleCancel (market : MarketState) (orders : List PendingOrder) (orderId : String) :
    Except PyError (List PendingOrder × Bool) := do
  match findOrder orders orderId with
  | none => return (orders, false)
  | some pending =>
      if pending.inFlightOperation ≠ .none then return (orders, false)
      else
        let msc ← getCurrentMsc market
        return (updateOrder orderId { pending.executionState with
          inFlightOperation := .pendingCancel
          cancelApplyAtMsc := some (msc + modifyCancelDelayMsc) } orders, true)

def cancelLimitOrder (s : TradeSimulator) (orderId : String) :
    Except PyError (TradeSimulator × Bool) := do
  let (orders, scheduled) ← scheduleCancel s.market s.activeLimitOrders orderId
  return ({ s with activeLimitOrders := orders }, scheduled)

def supportsStops : Bool :=
  cfg.executor.broker.capabilities.stopOrders || cfg.executor.broker.capabilities.stopLimitOrders

def cancelStopOrder (s : TradeSimulator) (orderId : String) :
    Except PyError (TradeSimulator × Bool) := do
  if !supportsStops cfg then return (s, false)
  else
    let (orders, scheduled) ← scheduleCancel s.market s.activeStopOrders orderId
    return ({ s with activeStopOrders := orders }, scheduled)

def validateLimitOrderSlTp (direction : Option OrderDirection) (limitPrice : ℚ)
    (stopLoss takeProfit : Option ℚ) : Option ModificationRejectionReason :=
  match direction with
  | none => none
  | some direction => validateSlTpLevels direction limitPrice limitPrice stopLoss takeProfit

def givenNotPositive (price : Setting ℚ) : Bool :=
  match price with
  | .unset => false
  | .given p => decide (p ≤ 0)

def effectivePrice (price : Setting ℚ) (current : Option ℚ) : Option ℚ :=
  match price with
  | .unset => current
  | .given p => some p

def requirePrice (price : Option ℚ) : Except PyError ℚ :=
  match price with
  | some p => .ok p
  | none => .error .typeError

def scheduleModification (pending : PendingOrder) (mod : ModificationRequest)
    (orders : List PendingOrder) : List PendingOrder :=
  updateOrder pending.pendingOrderId { pending.executionState with
    inFlightOperation := .pendingModify, pendingModification := some mod } orders

def modifyLimitOrder (s : TradeSimulator) (orderId : String) (newPrice : Setting ℚ)
    (newStopLoss newTakeProfit : Setting (Option ℚ)) :
    Except PyError (TradeSimulator × ModificationResult) := do
  match findOrder s.activeLimitOrders orderId with
  | none => return (s, modificationRejected .limitOrderNotFound)
  | some pending =>
      if pending.inFlightOperation ≠ .none then
        return (s, modificationRejected .operationBusy)
      else if givenNotPositive newPrice then return (s, modificationRejected .invalidPrice)
      else
        let spec ← getSymbolSpecification cfg.executor.broker pending.symbol
        let price := roundPrice spec.digits (effectivePrice newPrice pending.entryPrice)
        let stopLoss := roundPrice spec.digits (newStopLoss.getD pending.orderKwargs.stopLoss)
        let takeProfit :=
          roundPrice spec.digits (newTakeProfit.getD pending.orderKwargs.takeProfit)
        let reference ← requirePrice price
        match validateLimitOrderSlTp pending.direction reference stopLoss takeProfit with
        | some reason => return (s, modificationRejected reason)
        | none =>
            let msc ← getCurrentMsc s.market
            let mod : ModificationRequest := {
              newPrice := price
              newStopLoss := stopLoss
              newTakeProfit := takeProfit
              applyAtMsc := msc + modifyCancelDelayMsc }
            return ({ s with
              activeLimitOrders := scheduleModification pending mod s.activeLimitOrders },
              modificationScheduled orderId)

def modifyStopOrder (s : TradeSimulator) (orderId : String)
    (newStopPrice newLimitPrice : Setting ℚ) (newStopLoss newTakeProfit : Setting (Option ℚ)) :
    Except PyError (TradeSimulator × ModificationResult) := do
  if !supportsStops cfg then return (s, modificationRejected .orderTypeNotSupported)
  else match findOrder s.activeStopOrders orderId with
  | none => return (s, modificationRejected .stopOrderNotFound)
  | some pending =>
      let isStopLimit := decide (pending.orderType = some .stopLimit)
      if pending.inFlightOperation ≠ .none then
        return (s, modificationRejected .operationBusy)
      else if givenNotPositive newStopPrice then return (s, modificationRejected .invalidPrice)
      else if newLimitPrice ≠ .unset ∧ (isStopLimit = false ∨ givenNotPositive newLimitPrice) then
        return (s, modificationRejected .invalidPrice)
      else
        let spec ← getSymbolSpecification cfg.executor.broker pending.symbol
        let stop := roundPrice spec.digits (effectivePrice newStopPrice pending.entryPrice)
        let limit :=
          roundPrice spec.digits (effectivePrice newLimitPrice pending.orderKwargs.limitPrice)
        let stopLoss := roundPrice spec.digits (newStopLoss.getD pending.orderKwargs.stopLoss)
        let takeProfit :=
          roundPrice spec.digits (newTakeProfit.getD pending.orderKwargs.takeProfit)
        let reference ← requirePrice (if isStopLimit then limit else stop)
        match validateLimitOrderSlTp pending.direction reference stopLoss takeProfit with
        | some reason => return (s, modificationRejected reason)
        | none =>
            let msc ← getCurrentMsc s.market
            let _ ← requirePrice stop
            let mod : ModificationRequest := {
              newPrice := stop
              newLimitPrice := if isStopLimit then limit else none
              newStopLoss := stopLoss
              newTakeProfit := takeProfit
              applyAtMsc := msc + modifyCancelDelayMsc }
            return ({ s with
              activeStopOrders := scheduleModification pending mod s.activeStopOrders },
              modificationScheduled orderId)

/-- Deferred where the broker holds SL/TP on positions, otherwise applied at once. -/
def modifyPosition (s : TradeSimulator) (positionId : String)
    (newStopLoss newTakeProfit : Setting (Option ℚ)) :
    Except PyError (TradeSimulator × ModificationResult) := do
  if !cfg.executor.broker.capabilities.nativePositionSlTp then
    let (portfolio, result) :=
      s.ledger.portfolio.modifyPosition positionId newStopLoss newTakeProfit
    return ({ s with ledger := { s.ledger with portfolio := portfolio } }, result)
  else match s.ledger.portfolio.getPosition positionId with
  | none => return (s, modificationRejected .positionNotFound)
  | some position =>
      if s.pendingPositionModifications.contains positionId then
        return (s, modificationRejected .operationBusy)
      else
        let spec ← getSymbolSpecification cfg.executor.broker position.symbol
        let msc ← getCurrentMsc s.market
        let mod : ModificationRequest := {
          newStopLoss := roundPrice spec.digits (newStopLoss.getD position.stopLoss)
          newTakeProfit := roundPrice spec.digits (newTakeProfit.getD position.takeProfit)
          applyAtMsc := msc + modifyCancelDelayMsc }
        return ({ s with
          pendingPositionModifications := s.pendingPositionModifications.set positionId mod },
          modificationScheduled positionId)

end Modification

section Sessions

variable (cfg : SimulatorConfig)

inductive SimulatorOp
  | tick (tick : TickData)
  | heartbeat
  | setCurrentTime (now : Instant)
  | openOrder (request : OpenOrderRequest)
  | closePosition (positionId : String) (lots : Option ℚ)
  | cancelLimitOrder (orderId : String)
  | cancelStopOrder (orderId : String)
  | modifyLimitOrder (orderId : String) (newPrice : Setting ℚ)
      (newStopLoss newTakeProfit : Setting (Option ℚ))
  | modifyStopOrder (orderId : String) (newStopPrice newLimitPrice : Setting ℚ)
      (newStopLoss newTakeProfit : Setting (Option ℚ))
  | modifyPosition (positionId : String) (newStopLoss newTakeProfit : Setting (Option ℚ))
  | recordGuardRejection (result : OrderResult)
  | getAccountInfo (orderDirection : OrderDirection)

def step (s : TradeSimulator) : SimulatorOp → Except PyError TradeSimulator
  | .tick tick => onTick cfg s tick
  | .heartbeat => heartbeat cfg s
  | .setCurrentTime now => .ok { s with market := { s.market with clockTime := some now } }
  | .openOrder request => Prod.fst <$> openOrder cfg s request
  | .closePosition positionId lots => Prod.fst <$> closePosition cfg s positionId lots
  | .cancelLimitOrder orderId => Prod.fst <$> cancelLimitOrder s orderId
  | .cancelStopOrder orderId => Prod.fst <$> cancelStopOrder cfg s orderId
  | .modifyLimitOrder orderId price stopLoss takeProfit =>
      Prod.fst <$> modifyLimitOrder cfg s orderId price stopLoss takeProfit
  | .modifyStopOrder orderId stop limit stopLoss takeProfit =>
      Prod.fst <$> modifyStopOrder cfg s orderId stop limit stopLoss takeProfit
  | .modifyPosition positionId stopLoss takeProfit =>
      Prod.fst <$> modifyPosition cfg s positionId stopLoss takeProfit
  | .recordGuardRejection result =>
      .ok { s with ledger := s.ledger.recordGuardRejection cfg.executor result }
  | .getAccountInfo direction => do
      let (portfolio, _) ← s.ledger.portfolio.getAccountInfo cfg.executor.portfolio
        s.market.clockTime direction
      return { s with ledger := { s.ledger with portfolio := portfolio } }

def clearPending (s : TradeSimulator) : TradeSimulator :=
  { s with
    latencyQueue := ∅
    ledger := { s.ledger with
      log := s.ledger.log ++ s.latencyQueue.values.map (.outcome · .forceClosed) } }

def closeAllRemainingOrders (s : TradeSimulator) : Except PyError TradeSimulator := do
  let ledger ← s.ledger.portfolio.getOpenPositions.foldlM
    (fun ledger position => fillCloseOrder cfg.executor s.market ledger
      (createSyntheticCloseOrder position.positionId) none .scenarioEnd) s.ledger
  let ledger ← s.activeLimitOrders.foldlM (expireOrder cfg.executor s.market) ledger
  let ledger ← s.activeStopOrders.foldlM (expireOrder cfg.executor s.market) ledger
  return { clearPending { s with ledger := ledger } with pendingPositionModifications := ∅ }

end Sessions

end Finiex.Simulator
