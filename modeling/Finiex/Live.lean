import Finiex.Executor
import Finiex.LiveTypes

/-!
# The live trade executor

The executor and its request processor, with the queues between them and the worker thread.
A step is one indivisible action of the main thread or of the worker; the loops over the
inbox, the pending orders and the timed-out orders are several steps, with the orders that a
loop still has to visit kept in the state.
-/

namespace Finiex.Live

open Finiex.Types
open Finiex.Lib
open Finiex.Lib.Rounding
open Finiex.Positions
open Finiex.Broker
open Finiex.Orders
open Finiex.Portfolio
open Finiex.Portfolio.PortfolioManager
open Finiex.Executor
open Finiex.LiveTypes

structure LiveConfig (Raw : Type) where
  executor : ExecutorConfig
  adapter : BrokerAdapter Raw
  orderTimeoutSeconds : ℚ := 30
  pollIntervalMs : ℤ := 5000

/-- `polling` and `expiring` are what the loops of `_process_pending_orders` and `heartbeat`
over the pending orders have not visited yet. -/
structure LiveTradeExecutor (Raw : Type) where
  market : MarketState := {}
  wallClock : Instant := 0
  ledger : ExecutionLedger
  orderCounter : ℕ := 0
  pendingOrders : Dict String PendingOrder := ∅
  brokerRefIndex : Dict String String := ∅
  requests : Pipeline Job (Response Raw) := {}
  activeLimitOrders : List PendingOrder := []
  pendingPositionModifications : Dict String ModificationRequest := ∅
  polling : List PendingOrder := []
  expiring : List PendingOrder := []

variable {Raw : Type}

def new (cfg : LiveConfig Raw) : LiveTradeExecutor Raw where
  ledger := { portfolio := Portfolio.new cfg.executor.portfolio }

variable (cfg : LiveConfig Raw)

section Processor

def submit (s : LiveTradeExecutor Raw) (job : Job) : LiveTradeExecutor Raw :=
  { s with requests := s.requests.push job }

def timeoutAt (s : LiveTradeExecutor Raw) : Instant :=
  s.wallClock + roundHalfEven (cfg.orderTimeoutSeconds * 1000000)

/-- Store a pending order, and index its reference if it has one already. -/
def registerPending (s : LiveTradeExecutor Raw) (pending : PendingOrder) :
    LiveTradeExecutor Raw :=
  { s with
    pendingOrders := s.pendingOrders.set pending.pendingOrderId pending
    brokerRefIndex := match pending.brokerRef with
      | none => s.brokerRefIndex
      | some ref => s.brokerRefIndex.set ref pending.pendingOrderId
    ledger := s.ledger.record (.orderReceived pending) }

def pendingOpen (s : LiveTradeExecutor Raw) (orderId : String) (request : OpenOrderRequest)
    (brokerRef : Option String) : PendingOrder where
  pendingOrderId := orderId
  orderAction := .openOrder
  brokerRef := brokerRef
  timing := { submittedAt := some s.wallClock, timeoutAt := some (timeoutAt cfg s) }
  symbol := request.symbol
  direction := some request.direction
  lots := request.lots
  entryTime := some s.wallClock
  orderKwargs := {
    stopLoss := request.stopLoss
    takeProfit := request.takeProfit
    comment := request.comment }

def pendingClose (s : LiveTradeExecutor Raw) (positionId : String) (closeLots : Option ℚ)
    (brokerRef : Option String) : PendingOrder where
  pendingOrderId := positionId
  orderAction := .closeOrder
  brokerRef := brokerRef
  timing := { submittedAt := some s.wallClock, timeoutAt := some (timeoutAt cfg s) }
  closeLots := closeLots

def takeByRef (s : LiveTradeExecutor Raw) (brokerRef : Option String) :
    LiveTradeExecutor Raw × Option PendingOrder :=
  match brokerRef with
  | none => (s, none)
  | some ref =>
      match s.brokerRefIndex.get? ref with
      | none => (s, none)
      | some orderId =>
          ({ s with
              brokerRefIndex := s.brokerRefIndex.erase ref
              pendingOrders := s.pendingOrders.erase orderId },
            s.pendingOrders.get? orderId)

def markFilled (s : LiveTradeExecutor Raw) (brokerRef : Option String) :
    LiveTradeExecutor Raw × Option PendingOrder :=
  takeByRef s brokerRef

def markRejected (s : LiveTradeExecutor Raw) (brokerRef : Option String) :
    LiveTradeExecutor Raw × Option PendingOrder :=
  takeByRef s brokerRef

def hasTimedOut (now : Instant) (pending : PendingOrder) : Bool :=
  pending.timing.timeoutAt.any fun timeoutAt => decide (timeoutAt ≤ now)

def checkTimeouts (s : LiveTradeExecutor Raw) : List PendingOrder :=
  s.pendingOrders.values.filter (hasTimedOut s.wallClock)

def updateBrokerRef (s : LiveTradeExecutor Raw) (oldRef : Option String) (newRef : String) :
    LiveTradeExecutor Raw :=
  match oldRef with
  | none => s
  | some old =>
      match s.brokerRefIndex.get? old with
      | none => s
      | some orderId =>
          { s with
            brokerRefIndex := (s.brokerRefIndex.erase old).set newRef orderId
            pendingOrders := match s.pendingOrders.get? orderId with
              | none => s.pendingOrders
              | some pending =>
                  s.pendingOrders.set orderId { pending with brokerRef := some newRef } }

def clearPending (s : LiveTradeExecutor Raw) : LiveTradeExecutor Raw :=
  { s with
    pendingOrders := ∅
    brokerRefIndex := ∅
    ledger := { s.ledger with
      log := s.ledger.log ++ s.pendingOrders.values.map (.outcome · .forceClosed) } }

end Processor

section Fills

def fillOpen (s : LiveTradeExecutor Raw) (pending : PendingOrder) (fillPrice : Option ℚ)
    (entryType : EntryType) (fillType : FillType) : Except PyError (LiveTradeExecutor Raw) := do
  let ledger ← fillOpenOrder cfg.executor s.market s.ledger pending fillPrice entryType fillType
  return { s with ledger := ledger }

def fillClose (s : LiveTradeExecutor Raw) (pending : PendingOrder) (fillPrice : Option ℚ)
    (closeReason : CloseReason) : Except PyError (LiveTradeExecutor Raw) := do
  let ledger ← fillCloseOrder cfg.executor s.market s.ledger pending fillPrice closeReason
  return { s with ledger := ledger }

def fillByAction (s : LiveTradeExecutor Raw) (action : PendingOrderAction)
    (pending : PendingOrder) (fillPrice : Option ℚ) : Except PyError (LiveTradeExecutor Raw) :=
  match action with
  | .openOrder => fillOpen cfg s pending fillPrice .market .market
  | .closeOrder => fillClose cfg s pending fillPrice .manual

def fillLimit (s : LiveTradeExecutor Raw) (pending : PendingOrder) (fillPrice : Option ℚ) :
    Except PyError (LiveTradeExecutor Raw) :=
  fillOpen cfg s pending fillPrice .limit .limit

def recordRejection (s : LiveTradeExecutor Raw) (source : ResultSource)
    (direction : Option OrderDirection) (rejection : OrderResult) (pendingId : Option String) :
    LiveTradeExecutor Raw :=
  let counted := { s.ledger with ordersRejected := s.ledger.ordersRejected + 1 }
  { s with
    ledger := (counted.appendResult cfg.executor source rejection).notifyOutcome direction
      rejection pendingId }

def recordAsyncRejection (s : LiveTradeExecutor Raw) (pending : PendingOrder)
    (rejection : OrderResult) : LiveTradeExecutor Raw :=
  recordRejection cfg s (.submitResponse pending.orderAction) pending.direction rejection none

def recordOutcome (s : LiveTradeExecutor Raw) (pending : PendingOrder)
    (outcome : PendingOrderOutcome) : LiveTradeExecutor Raw :=
  { s with ledger := s.ledger.record (.outcome pending outcome) }

def setLimitOrder (s : LiveTradeExecutor Raw) (pending : PendingOrder) : LiveTradeExecutor Raw :=
  { s with activeLimitOrders := replaceOrder pending s.activeLimitOrders }

def removeLimitOrder (s : LiveTradeExecutor Raw) (pending : PendingOrder) :
    LiveTradeExecutor Raw :=
  { s with activeLimitOrders := s.activeLimitOrders.erase pending }

end Fills

section SubmitResponses

def discardPending (s : LiveTradeExecutor Raw) (pending : PendingOrder) : LiveTradeExecutor Raw :=
  { s with
    pendingOrders := s.pendingOrders.erase pending.pendingOrderId
    brokerRefIndex := match pending.brokerRef with
      | none => s.brokerRefIndex
      | some ref => s.brokerRefIndex.erase ref }

/-- The pending order takes its reference, which is indexed unless it is empty. -/
def confirmPending (s : LiveTradeExecutor Raw) (orderId : String) (pending : PendingOrder)
    (brokerRef : String) : LiveTradeExecutor Raw :=
  { s with
    pendingOrders := s.pendingOrders.set orderId { pending with brokerRef := some brokerRef }
    brokerRefIndex :=
      if brokerRef = "" then s.brokerRefIndex else s.brokerRefIndex.set brokerRef orderId }

def handleMarketSubmitResponse (s : LiveTradeExecutor Raw) (orderId : String)
    (action : PendingOrderAction) (response : BrokerResponse Raw) :
    Except PyError (LiveTradeExecutor Raw) :=
  match s.pendingOrders.get? orderId with
  | none => .ok s
  | some pending =>
      if response.isRejected then
        .ok (recordAsyncRejection cfg (discardPending s pending) pending
          (createRejectionResult orderId .brokerError (.brokerRejected response.reasonText)))
      else
        let s := confirmPending s orderId pending response.brokerRef
        if response.isFilled then
          match markFilled s (some response.brokerRef) with
          | (s, none) => .ok s
          | (s, some filled) => fillByAction cfg s action filled response.fillPrice
        else .ok s

/-- A cancel that was requested before the broker knew the order is issued now. -/
def issueDeferredCancel (s : LiveTradeExecutor Raw) (pending : PendingOrder)
    (brokerRef : String) : LiveTradeExecutor Raw :=
  let pending := { pending with executionState := { pending.executionState with
    cancelRequested := false, inFlightOperation := .pendingCancel } }
  submit (setLimitOrder s pending) (.cancel pending.pendingOrderId brokerRef)

def handleLimitSubmitResponse (s : LiveTradeExecutor Raw) (orderId : String)
    (response : BrokerResponse Raw) : Except PyError (LiveTradeExecutor Raw) :=
  match findOrder s.activeLimitOrders orderId with
  | none => .ok s
  | some pending =>
      if response.isRejected then
        .ok (recordAsyncRejection cfg (removeLimitOrder s pending) pending
          (createRejectionResult orderId .brokerError
            (.brokerRejectedLimit response.reasonText)))
      else
        let pending := { pending with brokerRef := some response.brokerRef }
        let s := setLimitOrder s pending
        if response.isFilled then
          fillOpen cfg (removeLimitOrder s pending) pending response.fillPrice .market .market
        else if pending.executionState.cancelRequested then
          .ok (issueDeferredCancel s pending response.brokerRef)
        else .ok s

def handleSubmitResponse (s : LiveTradeExecutor Raw) (orderId : String)
    (action : PendingOrderAction) (orderType : Types.OrderType) (response : BrokerResponse Raw) :
    Except PyError (LiveTradeExecutor Raw) :=
  match orderType with
  | .limit => handleLimitSubmitResponse cfg s orderId response
  | _ => handleMarketSubmitResponse cfg s orderId action response

end SubmitResponses

section OperationResponses

def applyModification (pending : PendingOrder) (mod : Option ModificationRequest) :
    PendingOrder :=
  match mod with
  | none => pending
  | some mod =>
      { pending with
        entryPrice := mod.newPrice.or pending.entryPrice
        orderKwargs := { pending.orderKwargs with
          limitPrice := mod.newLimitPrice.or pending.orderKwargs.limitPrice
          stopLoss := mod.newStopLoss.or pending.orderKwargs.stopLoss
          takeProfit := mod.newTakeProfit.or pending.orderKwargs.takeProfit } }

def clearModification (pending : PendingOrder) : PendingOrder :=
  { pending with executionState := { pending.executionState with
    inFlightOperation := .none, pendingModification := none } }

def clearOperation (pending : PendingOrder) : PendingOrder :=
  { pending with executionState := { pending.executionState with inFlightOperation := .none } }

/-- The order takes the reference of the broker's reply, if that is a new one. -/
def swapBrokerRef (s : LiveTradeExecutor Raw) (pending : PendingOrder) (newRef : String) :
    LiveTradeExecutor Raw × PendingOrder :=
  if newRef ≠ "" ∧ some newRef ≠ pending.brokerRef then
    (updateBrokerRef s pending.brokerRef newRef, { pending with brokerRef := some newRef })
  else (s, pending)

def handleModifyResponse (s : LiveTradeExecutor Raw) (orderId : String)
    (response : BrokerResponse Raw) : Except PyError (LiveTradeExecutor Raw) :=
  match findOrder s.activeLimitOrders orderId with
  | none => .ok s
  | some pending =>
      if response.isRejected then
        let s := recordRejection cfg s .modifyResponse pending.direction
          (createRejectionResult orderId .brokerError (.modifyRejected response.reasonText))
          (some pending.pendingOrderId)
        .ok (setLimitOrder s (clearModification pending))
      else
        let modified := applyModification pending pending.pendingModification
        let (s, modified) := swapBrokerRef s modified response.brokerRef
        .ok (setLimitOrder s (clearModification modified))

def handleCancelResponse (s : LiveTradeExecutor Raw) (orderId : String)
    (response : BrokerResponse Raw) : Except PyError (LiveTradeExecutor Raw) := do
  match findOrder s.activeLimitOrders orderId with
  | none => return s
  | some pending =>
      if response.isRejected then
        let s := setLimitOrder s (clearOperation pending)
        return { s with ledger := s.ledger.record (.cancelRefused orderId) }
      else
        let s := removeLimitOrder s pending
        let _ ← clockNow s.market.clockTime
        return { s with
          ledger := s.ledger.record (.orderCancelled pending.pendingOrderId pending.direction) }

def handlePositionModifyResponse (s : LiveTradeExecutor Raw) (positionId : String)
    (response : BrokerResponse Raw) : Except PyError (LiveTradeExecutor Raw) :=
  match s.pendingPositionModifications.get? positionId with
  | none => .ok s
  | some mod =>
      let s := { s with
        pendingPositionModifications := s.pendingPositionModifications.erase positionId }
      if response.isRejected then .ok s
      else
        let portfolio := (s.ledger.portfolio.modifyPosition positionId
          (.given mod.newStopLoss) (.given mod.newTakeProfit)).1
        .ok { s with ledger := { s.ledger with portfolio := portfolio } }

end OperationResponses

section QueryResponses

def appendTrades (pending : PendingOrder) (trades : List BrokerTrade) : PendingOrder :=
  { pending with fills := trades.foldl PendingOrderFills.appendTrade pending.fills }

def handleTradesResponse (s : LiveTradeExecutor Raw) (response : TradesQueryResponse) :
    Except PyError (LiveTradeExecutor Raw) :=
  if !response.success then .ok s
  else match findOrder s.activeLimitOrders response.orderId with
  | none => .ok s
  | some pending =>
      if pending.brokerRef ≠ some response.brokerRef then .ok s
      else
        let pending := appendTrades pending response.trades
        let s := setLimitOrder s pending
        if 0 < pending.fills.cumulativeFilledLots then
          fillLimit cfg (removeLimitOrder s pending) pending
            (some pending.fills.cumulativeAvgPrice)
        else .ok s

/-- The query of this order is resolved, whatever the broker answered. -/
def clearQuery (pending : PendingOrder) : PendingOrder :=
  { pending with executionState := { pending.executionState with inFlightQuery := false } }

def handleQueryResponse (s : LiveTradeExecutor Raw) (orderId : String)
    (response : BrokerResponse Raw) : Except PyError (LiveTradeExecutor Raw) :=
  match findOrder s.activeLimitOrders orderId with
  | none => .ok s
  | some pending =>
      let pending := clearQuery pending
      let s := setLimitOrder s pending
      if pending.brokerRef ≠ some response.brokerRef then .ok s
      else if response.isFilled then
        fillLimit cfg (removeLimitOrder s pending) pending response.fillPrice
      else if response.isTerminal then
        .ok (recordRejection cfg (removeLimitOrder s pending)
          (.queryResponse pending.orderAction) pending.direction
          (createRejectionResult orderId .brokerError
            (.brokerEnded response.status response.reasonText))
          (some pending.pendingOrderId))
      else .ok s

def pollJob (nowMs : ℚ) (pending : PendingOrder) : Option Job :=
  match pending.confirmedRef with
  | none => none
  | some ref =>
      if pending.executionState.inFlightQuery then none
      else if nowMs - pending.executionState.lastPolledAtMs < cfg.pollIntervalMs then none
      else some (.query pending.pendingOrderId ref)

def schedulePoll (nowMs : ℚ) (pending : PendingOrder) : PendingOrder :=
  if (pollJob cfg nowMs pending).isSome then
    { pending with executionState := { pending.executionState with
      lastPolledAtMs := nowMs, inFlightQuery := true } }
  else pending

def processActiveOrders (s : LiveTradeExecutor Raw) : LiveTradeExecutor Raw :=
  let nowMs : ℚ := s.wallClock / 1000
  { s with
    activeLimitOrders := s.activeLimitOrders.map (schedulePoll cfg nowMs)
    requests := s.requests.pushAll (s.activeLimitOrders.filterMap (pollJob cfg nowMs)) }

end QueryResponses

section Drain

def handleResponse (s : LiveTradeExecutor Raw) :
    Response Raw → Except PyError (LiveTradeExecutor Raw)
  | .submit orderId action orderType response =>
      handleSubmitResponse cfg s orderId action orderType response
  | .edit orderId response => handleModifyResponse cfg s orderId response
  | .cancel orderId response => handleCancelResponse s orderId response
  | .positionModify positionId response => handlePositionModifyResponse s positionId response
  | .tradesQuery response => handleTradesResponse cfg s response
  | .query orderId response => handleQueryResponse cfg s orderId response

/-- One turn of `drain_inbox`. -/
def drain (s : LiveTradeExecutor Raw) : Except PyError (LiveTradeExecutor Raw) :=
  match s.requests.inbox with
  | [] => .ok s
  | response :: rest =>
      handleResponse cfg { s with requests := { s.requests with inbox := rest } } response

end Drain

section Polling

def queryOrderSync (brokerRef : String) (answer : Except String Raw) :
    Except PyError (BrokerResponse Raw) :=
  match answer with
  | .error text => .ok (transportFailure brokerRef text)
  | .ok raw =>
      match cfg.adapter.parseQueryResponse raw brokerRef with
      | .ok response => .ok response
      | .error text => .error (.adapterError text)

def handleBrokerResponse (s : LiveTradeExecutor Raw) (brokerRef : String)
    (response : BrokerResponse Raw) : Except PyError (LiveTradeExecutor Raw) :=
  match response.status with
  | .filled =>
      match markFilled s (some brokerRef) with
      | (s, none) => .ok s
      | (s, some filled) =>
          fillByAction cfg (recordOutcome s filled .filled) filled.orderAction filled
            response.fillPrice
  | .rejected =>
      match markRejected s (some brokerRef) with
      | (s, none) => .ok s
      | (s, some rejected) =>
          .ok (recordRejection cfg (recordOutcome s rejected .rejected)
            (.queryResponse rejected.orderAction) rejected.direction
            (createRejectionResult rejected.pendingOrderId .brokerError
              (.brokerRejected response.reasonText))
            (some rejected.pendingOrderId))
  | _ => .ok s

/-- One turn of phase 1: an order without a reference is skipped. -/
def pollOrder (answer : String → Except String Raw) (s : LiveTradeExecutor Raw)
    (pending : PendingOrder) : Except PyError (LiveTradeExecutor Raw) := do
  match pending.confirmedRef with
  | none => return s
  | some ref =>
      let response ← queryOrderSync cfg ref (answer ref)
      handleBrokerResponse cfg s ref response

def beginPoll (s : LiveTradeExecutor Raw) : LiveTradeExecutor Raw :=
  { s with polling := s.pendingOrders.values }

def poll (s : LiveTradeExecutor Raw) (answer : Except String Raw) :
    Except PyError (LiveTradeExecutor Raw) :=
  match s.polling with
  | [] => .ok s
  | pending :: rest => pollOrder cfg (fun _ => answer) { s with polling := rest } pending

end Polling

section Timeouts

/-- `_handle_timeout`; the cancel at the broker changes nothing here. -/
def handleTimeout (s : LiveTradeExecutor Raw) (pending : PendingOrder) :
    LiveTradeExecutor Raw :=
  let s := recordOutcome s pending .timedOut
  let (s, _) := markRejected s pending.brokerRef
  recordRejection cfg s (.timeout pending.orderAction) pending.direction
    (createRejectionResult pending.pendingOrderId .brokerError
      (.orderTimedOut cfg.orderTimeoutSeconds))
    (some pending.pendingOrderId)

def beginExpire (s : LiveTradeExecutor Raw) : LiveTradeExecutor Raw :=
  { s with expiring := checkTimeouts s }

/-- One turn of the loop over the timed-out orders. -/
def expire (s : LiveTradeExecutor Raw) : LiveTradeExecutor Raw :=
  match s.expiring with
  | [] => s
  | pending :: rest => handleTimeout cfg { s with expiring := rest } pending

end Timeouts

section Commands

def orderPayload (request : OpenOrderRequest) : SubmitPayload where
  symbol := request.symbol
  direction := request.direction
  lots := request.lots
  price := match request.orderType with
    | .limit => request.price
    | _ => none

def submittedResult (orderId : String) (request : OpenOrderRequest) : OrderResult where
  orderId := orderId
  status := .pending
  action := some .openAction
  symbol := some request.symbol
  direction := some request.direction
  requestedLots := some request.lots
  metadata := .brokerRef false none

def pendingLimit (s : LiveTradeExecutor Raw) (orderId : String) (request : OpenOrderRequest)
    (now : Instant) : PendingOrder where
  pendingOrderId := orderId
  orderAction := .openOrder
  orderType := some .limit
  timing := { submittedAt := some s.wallClock }
  symbol := request.symbol
  direction := some request.direction
  lots := request.lots
  entryPrice := request.price
  entryTime := some now
  orderKwargs := {
    stopLoss := request.stopLoss
    takeProfit := request.takeProfit
    comment := request.comment
    price := request.price }

/-- Count and record a request that is not submitted. -/
def refuse (s : LiveTradeExecutor Raw) (orderId : String) (reason : RejectionReason)
    (message : RejectionMessage) : LiveTradeExecutor Raw × OrderResult :=
  let result := createRejectionResult orderId reason message
  let counted := { s.ledger with ordersRejected := s.ledger.ordersRejected + 1 }
  ({ s with ledger := counted.appendResult cfg.executor .submission result }, result)

/-- Enqueue the submission of a tracked order and record its PENDING result. -/
def submitOrder (s : LiveTradeExecutor Raw) (orderId : String) (request : OpenOrderRequest) :
    LiveTradeExecutor Raw × OrderResult :=
  let result := submittedResult orderId request
  let s := submit s (.submit orderId .openOrder request.orderType (orderPayload request))
  ({ s with ledger := s.ledger.appendResult cfg.executor .submission result }, result)

def receiveRequest (s : LiveTradeExecutor Raw) (request : OpenOrderRequest) :
    LiveTradeExecutor Raw × String :=
  let (portfolio, orderId) := s.ledger.portfolio.getNextPositionId request.symbol
  ({ s with
      orderCounter := s.orderCounter + 1
      ledger := { s.ledger with
        portfolio := portfolio, ordersSent := s.ledger.ordersSent + 1 } }, orderId)

def openOrder (s : LiveTradeExecutor Raw) (request : OpenOrderRequest) :
    Except PyError (LiveTradeExecutor Raw × OrderResult) := do
  let request := normalizeOrderRequest cfg.executor.broker request
  let (s, orderId) := receiveRequest s request
  match request.orderType with
  | .market =>
      match ← validateOrder cfg.executor.broker request.symbol request.lots with
      | some message => return refuse cfg s orderId .invalidLotSize message
      | none =>
          return submitOrder cfg (registerPending s (pendingOpen cfg s orderId request none))
            orderId request
  | .limit =>
      match ← validateOrder cfg.executor.broker request.symbol request.lots with
      | some message => return refuse cfg s orderId .invalidLotSize message
      | none =>
          let now ← clockNow s.market.clockTime
          let pending := pendingLimit s orderId request now
          return submitOrder cfg
            { s with activeLimitOrders := s.activeLimitOrders ++ [pending] } orderId request
  | orderType =>
      return refuse cfg s orderId .orderTypeNotSupported (.notSupportedInLive orderType)

def closeDirection (direction : OrderDirection) : OrderDirection :=
  match direction with
  | .long => .short
  | .short => .long

def closePosition (s : LiveTradeExecutor Raw) (positionId : String) (lots : Option ℚ) :
    Except PyError (LiveTradeExecutor Raw × OrderResult) := do
  match s.ledger.portfolio.getPosition positionId with
  | none =>
      return (s, createRejectionResult s!"close_{positionId}" .brokerError
        (.positionNotFound positionId))
  | some position =>
      let closeLots := requestedLots lots position
      let s := registerPending s (pendingClose cfg s positionId (some closeLots) none)
      let s := submit s (.submit positionId .closeOrder .market {
        symbol := position.symbol
        direction := closeDirection position.direction
        lots := closeLots })
      let now ← clockNow s.market.clockTime
      return (s, {
        orderId := positionId
        status := .pending
        executedLots := some closeLots
        executionTime := some now
        action := some .closeAction
        symbol := some position.symbol
        direction := some position.direction
        requestedLots := some closeLots
        metadata := .brokerRef true none })

/-- Deferred where the broker holds SL/TP on positions, otherwise applied at once. -/
def modifyPosition (s : LiveTradeExecutor Raw) (positionId : String)
    (newStopLoss newTakeProfit : Setting (Option ℚ)) :
    Except PyError (LiveTradeExecutor Raw × ModificationResult) := do
  if !cfg.executor.broker.capabilities.nativePositionSlTp then
    let (portfolio, result) :=
      s.ledger.portfolio.modifyPosition positionId newStopLoss newTakeProfit
    return ({ s with ledger := { s.ledger with portfolio := portfolio } }, result)
  else match s.ledger.portfolio.getPosition positionId with
  | none => return (s, modificationRejected .positionNotFound)
  | some position =>
      if s.pendingPositionModifications.contains positionId then
        return (s, modificationRejected .operationBusy)
      else
        let spec ← getSymbolSpecification cfg.executor.broker position.symbol
        let mod : ModificationRequest := {
          newStopLoss := roundPrice spec.digits (newStopLoss.getD position.stopLoss)
          newTakeProfit := roundPrice spec.digits (newTakeProfit.getD position.takeProfit) }
        let s := { s with
          pendingPositionModifications := s.pendingPositionModifications.set positionId mod }
        return (submit s (.positionModify positionId position.symbol mod.newStopLoss
          mod.newTakeProfit), modificationScheduled positionId)

def adapterValue (setting : Setting (Option ℚ)) : Option ℚ := setting.getD none

def adapterPrice (setting : Setting ℚ) : Option ℚ :=
  match setting with
  | .unset => none
  | .given price => some price

def startModification (pending : PendingOrder) (mod : ModificationRequest) : PendingOrder :=
  { pending with executionState := { pending.executionState with
    inFlightOperation := .pendingModify, pendingModification := some mod } }

def modifyLimitOrder (s : LiveTradeExecutor Raw) (orderId : String) (newPrice : Setting ℚ)
    (newStopLoss newTakeProfit : Setting (Option ℚ)) :
    Except PyError (LiveTradeExecutor Raw × ModificationResult) := do
  match findOrder s.activeLimitOrders orderId with
  | none => return (s, modificationRejected .limitOrderNotFound)
  | some pending =>
      match pending.brokerRef with
      | none => return (s, modificationRejected .orderNotConfirmed)
      | some ref =>
          if pending.inFlightOperation ≠ .none then
            return (s, modificationRejected .operationBusy)
          else
            let spec ← getSymbolSpecification cfg.executor.broker pending.symbol
            let mod : ModificationRequest := {
              newPrice := roundPrice spec.digits (adapterPrice newPrice)
              newStopLoss := roundPrice spec.digits (adapterValue newStopLoss)
              newTakeProfit := roundPrice spec.digits (adapterValue newTakeProfit) }
            let s := setLimitOrder s (startModification pending mod)
            return (submit s (.edit orderId ref pending.symbol mod.newPrice mod.newStopLoss
              mod.newTakeProfit), modificationScheduled orderId)

def requestCancel (pending : PendingOrder) : PendingOrder :=
  { pending with executionState := { pending.executionState with cancelRequested := true } }

def startCancel (pending : PendingOrder) : PendingOrder :=
  { pending with executionState := { pending.executionState with
    inFlightOperation := .pendingCancel } }

def acceptCancel (s : LiveTradeExecutor Raw) (orderId : String) : LiveTradeExecutor Raw :=
  { s with ledger := s.ledger.record (.cancelAccepted orderId) }

def cancelLimitOrder (s : LiveTradeExecutor Raw) (orderId : String) :
    LiveTradeExecutor Raw × Bool :=
  match findOrder s.activeLimitOrders orderId with
  | none => (s, false)
  | some pending =>
      match pending.brokerRef with
      | none => (acceptCancel (setLimitOrder s (requestCancel pending)) orderId, true)
      | some ref =>
          if pending.inFlightOperation ≠ .none then (s, false)
          else
            (submit (acceptCancel (setLimitOrder s (startCancel pending)) orderId)
              (.cancel orderId ref), true)

end Commands

section Sessions

def receiveTick (s : LiveTradeExecutor Raw) (tick : TickData) : LiveTradeExecutor Raw :=
  { s with
    market := {
      currentTick := some tick
      tickCounter := s.market.tickCounter + 1
      clockTime := some tick.timestamp }
    ledger := { s.ledger with portfolio := s.ledger.portfolio.markDirty tick } }

/-- The session end: resting orders expire, positions are closed at once, and what is
still pending is cleared. The broker's answers to the cancels change nothing here. -/
def closeAllRemainingOrders (s : LiveTradeExecutor Raw) :
    Except PyError (LiveTradeExecutor Raw) := do
  let ledger ← s.activeLimitOrders.foldlM (expireOrder cfg.executor s.market) s.ledger
  let ledger ← ledger.portfolio.getOpenPositions.foldlM
    (fun ledger position => fillCloseOrder cfg.executor s.market ledger
      (createSyntheticCloseOrder position.positionId) none .scenarioEnd) ledger
  return { clearPending { s with ledger := ledger } with pendingPositionModifications := ∅ }

/-- The actions of a session: those of the worker and of the clocks, the turns of the
executor's loops, and the calls of its clients. -/
inductive LiveOp (Raw : Type)
  | workerTake
  | workerDeliver (answer : Except String Raw)
  | wallClock (now : Instant)
  | setCurrentTime (now : Instant)
  | receiveTick (tick : TickData)
  | drain
  | beginPoll
  | poll (answer : Except String Raw)
  | beginExpire
  | expire
  | processActiveOrders
  | openOrder (request : OpenOrderRequest)
  | closePosition (positionId : String) (lots : Option ℚ)
  | modifyPosition (positionId : String) (newStopLoss newTakeProfit : Setting (Option ℚ))
  | modifyLimitOrder (orderId : String) (newPrice : Setting ℚ)
      (newStopLoss newTakeProfit : Setting (Option ℚ))
  | cancelLimitOrder (orderId : String)
  | submitTradesQuery (orderId brokerRef : String)
  | recordGuardRejection (result : OrderResult)
  | getAccountInfo (orderDirection : OrderDirection)
  | closeAllRemainingOrders

def step (s : LiveTradeExecutor Raw) : LiveOp Raw → Except PyError (LiveTradeExecutor Raw)
  | .workerTake => .ok { s with requests := s.requests.take }
  | .workerDeliver answer =>
      .ok { s with requests := s.requests.deliver (dispatch cfg.adapter answer) }
  | .wallClock now => .ok { s with wallClock := now }
  | .setCurrentTime now => .ok { s with market := { s.market with clockTime := some now } }
  | .receiveTick tick => .ok (receiveTick s tick)
  | .drain => drain cfg s
  | .beginPoll => .ok (beginPoll s)
  | .poll answer => poll cfg s answer
  | .beginExpire => .ok (beginExpire s)
  | .expire => .ok (expire cfg s)
  | .processActiveOrders => .ok (processActiveOrders cfg s)
  | .openOrder request => Prod.fst <$> openOrder cfg s request
  | .closePosition positionId lots => Prod.fst <$> closePosition cfg s positionId lots
  | .modifyPosition positionId stopLoss takeProfit =>
      Prod.fst <$> modifyPosition cfg s positionId stopLoss takeProfit
  | .modifyLimitOrder orderId price stopLoss takeProfit =>
      Prod.fst <$> modifyLimitOrder cfg s orderId price stopLoss takeProfit
  | .cancelLimitOrder orderId => .ok (cancelLimitOrder s orderId).1
  | .submitTradesQuery orderId brokerRef => .ok (submit s (.tradesQuery orderId brokerRef))
  | .recordGuardRejection result =>
      .ok { s with ledger := s.ledger.recordGuardRejection cfg.executor result }
  | .getAccountInfo direction => do
      let (portfolio, _) ← s.ledger.portfolio.getAccountInfo cfg.executor.portfolio
        s.market.clockTime direction
      return { s with ledger := { s.ledger with portfolio := portfolio } }
  | .closeAllRemainingOrders => closeAllRemainingOrders cfg s

/-- `drain_inbox`, while the worker delivers nothing more. -/
def drainInbox (s : LiveTradeExecutor Raw) : Except PyError (LiveTradeExecutor Raw) :=
  s.requests.inbox.foldlM (fun s _ => drain cfg s) s

/-- Phase 1: one query for each order that is pending, with the transport's answer to the query of
each reference. -/
def pollPending (s : LiveTradeExecutor Raw) (answer : String → Except String Raw) :
    Except PyError (LiveTradeExecutor Raw) :=
  (beginPoll s).polling.foldlM
    (fun s pending => poll cfg s (answer (pending.confirmedRef.getD ""))) (beginPoll s)

def handleTimeouts (s : LiveTradeExecutor Raw) : LiveTradeExecutor Raw :=
  (beginExpire s).expiring.foldl (fun s _ => expire cfg s) (beginExpire s)

def heartbeat (s : LiveTradeExecutor Raw) : Except PyError (LiveTradeExecutor Raw) := do
  let s ← drainInbox cfg s
  return processActiveOrders cfg (handleTimeouts cfg s)

def processPendingOrders (s : LiveTradeExecutor Raw) (answer : String → Except String Raw) :
    Except PyError (LiveTradeExecutor Raw) := do
  let s ← drainInbox cfg s
  let s ← pollPending cfg s answer
  return processActiveOrders cfg (handleTimeouts cfg s)

/-- `on_tick`; SL and TP are the broker's business. -/
def onTick (s : LiveTradeExecutor Raw) (tick : TickData) (answer : String → Except String Raw) :
    Except PyError (LiveTradeExecutor Raw) :=
  processPendingOrders cfg (receiveTick s tick) answer

end Sessions

end Finiex.Live
