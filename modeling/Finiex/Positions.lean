import Finiex.Fees
import Mathlib.Algebra.BigOperators.Group.List.Basic
import Mathlib.Tactic.Ring

namespace Finiex.Positions

open Finiex.Types
open Finiex.Fees

inductive PositionStatus
  | openStatus | closed | partiallyClosed
  deriving DecidableEq, Repr

def grossPnlFromPriceDiff (priceDiff : ℚ) (digits : ℕ) (tickValue lots : ℚ) : ℚ :=
  priceDiff * 10 ^ digits * tickValue * lots

structure Position where
  positionId : String
  symbol : String
  direction : OrderDirection
  lots : ℚ
  originalLots : ℚ
  entryPrice : ℚ
  entryTime : Instant
  stopLoss : Option ℚ := none
  takeProfit : Option ℚ := none
  entryType : EntryType := .market
  fees : List TradingFee := []
  currentPrice : ℚ := 0
  unrealizedPnl : ℚ := 0
  status : PositionStatus := .openStatus
  comment : String := ""
  closeTime : Option Instant := none
  closePrice : Option ℚ := none
  brokerRef : Option String := none
  entryTrades : List BrokerTrade := []
  entryTickValue : ℚ := 0
  entryBid : ℚ := 0
  entryAsk : ℚ := 0
  exitTickValue : ℚ := 0
  digits : ℕ := 5
  contractSize : ℚ := 100000
  grossPnl : ℚ := 0
  entryTickIndex : ℕ := 0
  exitTickIndex : ℕ := 0
  maePnl : ℚ := 0
  mfePnl : ℚ := 0
  -- both prices start at the entry, the accrual at the open instant
  maePrice : ℚ := entryPrice
  mfePrice : ℚ := entryPrice
  swapAccruedUntil : Instant := entryTime
  deriving DecidableEq

structure TradeRecord where
  positionId : String
  symbol : String
  direction : OrderDirection
  lots : ℚ
  closeType : CloseType
  entryPrice : ℚ
  entryTime : Instant
  entryTickValue : ℚ
  entryBid : ℚ
  entryAsk : ℚ
  exitPrice : ℚ
  exitTime : Instant
  exitTickValue : ℚ
  entryTickIndex : ℕ
  exitTickIndex : ℕ
  digits : ℕ
  contractSize : ℚ
  spreadCost : ℚ
  commissionCost : ℚ
  swapCost : ℚ
  totalFees : ℚ
  grossPnl : ℚ
  netPnl : ℚ
  stopLoss : Option ℚ
  takeProfit : Option ℚ
  maePrice : ℚ
  mfePrice : ℚ
  maePnl : ℚ
  mfePnl : ℚ
  initialRisk : Option ℚ
  closeReason : CloseReason
  entryType : EntryType
  comment : String
  accountCurrency : String
  entryTrades : List BrokerTrade
  exitTrades : List BrokerTrade
  entrySide : OrderSide
  exitSide : OrderSide
  deriving DecidableEq

namespace Position

def getFeesByType (p : Position) (feeType : FeeType) : List TradingFee :=
  p.fees.filter fun fee => fee.feeType = feeType

def totalCost (fees : List TradingFee) : ℚ := (fees.map TradingFee.cost).sum

def getTotalFees (p : Position) : ℚ := totalCost p.fees

def getSpreadCost (p : Position) : ℚ := totalCost (p.getFeesByType .spread)

def getCommissionCost (p : Position) : ℚ := totalCost (p.getFeesByType .commission)

def getSwapCost (p : Position) : ℚ := totalCost (p.getFeesByType .swap)

def addFee (p : Position) (fee : TradingFee) : Position := { p with fees := p.fees ++ [fee] }

def closeSide (p : Position) (bid ask : ℚ) : ℚ :=
  match p.direction with
  | .long => bid
  | .short => ask

/-- The move from the entry to `price`, counted in the position's favour. -/
def priceDiff (p : Position) (price : ℚ) : ℚ :=
  match p.direction with
  | .long => price - p.entryPrice
  | .short => p.entryPrice - price

def updateCurrentPrice (p : Position) (bid ask tickValue : ℚ) (digits : ℕ) : Position :=
  let currentPrice := p.closeSide bid ask
  let gross := grossPnlFromPriceDiff (p.priceDiff currentPrice) digits tickValue p.lots
  { p with
    currentPrice := currentPrice
    grossPnl := gross
    unrealizedPnl := gross - p.getTotalFees
    maePnl := if gross < p.maePnl then gross else p.maePnl
    maePrice := if gross < p.maePnl then currentPrice else p.maePrice
    mfePnl := if p.mfePnl < gross then gross else p.mfePnl
    mfePrice := if p.mfePnl < gross then currentPrice else p.mfePrice }

def isSlTriggered (p : Position) (bid ask : ℚ) : Bool :=
  match p.stopLoss with
  | none => false
  | some stopLoss =>
      match p.direction with
      | .long => decide (bid ≤ stopLoss)
      | .short => decide (stopLoss ≤ ask)

def isTpTriggered (p : Position) (bid ask : ℚ) : Bool :=
  match p.takeProfit with
  | none => false
  | some takeProfit =>
      match p.direction with
      | .long => decide (takeProfit ≤ bid)
      | .short => decide (ask ≤ takeProfit)

def initialRisk (p : Position) (lots : ℚ) : Option ℚ :=
  p.stopLoss.map fun stopLoss =>
    grossPnlFromPriceDiff |p.entryPrice - stopLoss| p.digits p.entryTickValue lots

/-- The fees, the accrual instant and nothing else after an accrual. -/
def accrue (p : Position) (fees : List TradingFee) (now : Instant) : Position :=
  { p with fees := p.fees ++ fees, swapAccruedUntil := now }

@[simp] theorem totalCost_append (xs ys : List TradingFee) :
    totalCost (xs ++ ys) = totalCost xs + totalCost ys := by
  simp [totalCost]

@[simp] theorem totalCost_nil : totalCost [] = 0 := rfl

@[simp] theorem updateCurrentPrice_unrealizedPnl (p : Position) (bid ask tickValue : ℚ)
    (digits : ℕ) :
    (p.updateCurrentPrice bid ask tickValue digits).unrealizedPnl =
      (p.updateCurrentPrice bid ask tickValue digits).grossPnl -
        (p.updateCurrentPrice bid ask tickValue digits).getTotalFees := rfl

@[simp] theorem updateCurrentPrice_getTotalFees (p : Position) (bid ask tickValue : ℚ)
    (digits : ℕ) :
    (p.updateCurrentPrice bid ask tickValue digits).getTotalFees = p.getTotalFees := rfl

@[simp] theorem getTotalFees_accrue (p : Position) (fees : List TradingFee) (now : Instant) :
    (p.accrue fees now).getTotalFees = p.getTotalFees + totalCost fees := by
  simp [getTotalFees, accrue]

end Position

end Finiex.Positions
