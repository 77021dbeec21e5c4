import Finiex.Types
import Mathlib.Algebra.BigOperators.Group.List.Basic
import Mathlib.Algebra.Field.Rat

namespace Finiex.Orders

open Finiex.Types

structure OpenOrderRequest where
  symbol : String
  orderType : Types.OrderType
  direction : OrderDirection
  lots : ℚ
  price : Option ℚ := none
  stopPrice : Option ℚ := none
  stopLoss : Option ℚ := none
  takeProfit : Option ℚ := none
  comment : String := ""
  deriving DecidableEq

inductive PendingOrderAction
  | openOrder | closeOrder
  deriving DecidableEq, Repr

inductive PendingOrderOutcome
  | filled | rejected | timedOut | forceClosed
  deriving DecidableEq, Repr

inductive PendingOperation
  | none | pendingSubmit | pendingModify | pendingCancel
  deriving DecidableEq, Repr

structure ModificationRequest where
  newPrice : Option ℚ := none
  newLimitPrice : Option ℚ := none
  newStopLoss : Option ℚ := none
  newTakeProfit : Option ℚ := none
  applyAtMsc : ℤ := 0
  deriving DecidableEq

structure PendingOrderTiming where
  placedAtMsc : Option ℤ := none
  brokerFillMsc : Option ℤ := none
  submittedAt : Option Instant := none
  timeoutAt : Option Instant := none
  deriving DecidableEq

structure PendingOrderExecutionState where
  inFlightOperation : PendingOperation := .none
  pendingModification : Option ModificationRequest := none
  cancelApplyAtMsc : Option ℤ := none
  cancelRequested : Bool := false
  inFlightQuery : Bool := false
  lastPolledAtMs : ℚ := 0
  deriving DecidableEq

structure PendingOrderFills where
  trades : List BrokerTrade := []
  cumulativeFilledLots : ℚ := 0
  cumulativeFee : ℚ := 0
  cumulativeAvgPrice : ℚ := 0
  deriving DecidableEq

def PendingOrderFills.appendTrade (fills : PendingOrderFills) (trade : BrokerTrade) :
    PendingOrderFills :=
  let trades := fills.trades ++ [trade]
  let lots := (trades.map BrokerTrade.volume).sum
  { trades := trades
    cumulativeFilledLots := lots
    cumulativeFee := (trades.map BrokerTrade.fee).sum
    cumulativeAvgPrice :=
      if 0 < lots then (trades.map fun t => t.volume * t.price).sum / lots
      else fills.cumulativeAvgPrice }

/-- `order_kwargs`, one field for each key the code writes. -/
structure OrderKwargs where
  stopLoss : Option ℚ := none
  takeProfit : Option ℚ := none
  comment : String := ""
  price : Option ℚ := none
  limitPrice : Option ℚ := none
  fromStopLimit : Bool := false
  deriving DecidableEq

structure PendingOrder where
  pendingOrderId : String
  orderAction : PendingOrderAction
  orderType : Option Types.OrderType := none
  brokerRef : Option String := none
  symbol : String := ""
  direction : Option OrderDirection := none
  lots : ℚ := 0
  entryPrice : Option ℚ := none
  entryTime : Option Instant := none
  orderKwargs : OrderKwargs := {}
  closeLots : Option ℚ := none
  timing : PendingOrderTiming := {}
  executionState : PendingOrderExecutionState := {}
  fills : PendingOrderFills := {}
  deriving DecidableEq

namespace PendingOrder

def inFlightOperation (p : PendingOrder) : PendingOperation := p.executionState.inFlightOperation

def pendingModification (p : PendingOrder) : Option ModificationRequest :=
  p.executionState.pendingModification

def isOpen (p : PendingOrder) : Bool := decide (p.orderAction = .openOrder)

/-- `broker_ref`, where it is truthy. -/
def confirmedRef (p : PendingOrder) : Option String := p.brokerRef.filter fun ref => ref != ""

end PendingOrder

def findOrder (orders : List PendingOrder) (orderId : String) : Option PendingOrder :=
  orders.find? fun p => decide (p.pendingOrderId = orderId)

/-- Change an order in place: the first order with this id becomes `order`. -/
def replaceOrder (order : PendingOrder) : List PendingOrder → List PendingOrder
  | [] => []
  | p :: ps =>
      if p.pendingOrderId = order.pendingOrderId then order :: ps
      else p :: replaceOrder order ps

def createSyntheticCloseOrder (positionId : String) : PendingOrder where
  pendingOrderId := positionId
  orderAction := .closeOrder

inductive ResultMetadata
  | empty
  | submission (limitPrice stopPrice : Option ℚ) (submittedAtTick : ℕ)
  | openFill (feeCost : ℚ) (feeType : FeeType) (fillType : FillType) (filledAtTick : ℕ)
  | closeFill (realizedPnl : ℚ)
  | awaitingFill
  | brokerRef (awaitingFill : Bool) (ref : Option String)
  | scenarioEnd (orderType : Option Types.OrderType) (entryPrice : Option ℚ)
  deriving DecidableEq

structure OrderResult where
  orderId : String
  status : OrderStatus
  executedPrice : Option ℚ := none
  executedLots : Option ℚ := none
  executionTime : Option Instant := none
  rejectionReason : Option RejectionReason := none
  rejectionMessage : RejectionMessage := .empty
  positionId : Option String := none
  action : Option OrderAction := none
  symbol : Option String := none
  direction : Option OrderDirection := none
  requestedLots : Option ℚ := none
  closeType : Option CloseType := none
  metadata : ResultMetadata := .empty
  deriving DecidableEq

def createRejectionResult (orderId : String) (reason : RejectionReason)
    (message : RejectionMessage) : OrderResult where
  orderId := orderId
  status := .rejected
  rejectionReason := some reason
  rejectionMessage := message

end Finiex.Orders
