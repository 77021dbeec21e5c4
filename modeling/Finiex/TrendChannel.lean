import Finiex.TradingApi
import Finiex.SinglePosition

namespace Finiex.TrendChannel

open Finiex.Types
open Finiex.Lib
open Finiex.Positions
open Finiex.Orders
open Finiex.Portfolio
open Finiex.TradingApi
open Finiex.SinglePosition

inductive EntryMode
  | limitPullback | stopBreakout
  deriving DecidableEq, Repr

def EntryMode.value : EntryMode → String
  | .limitPullback => "limit_pullback"
  | .stopBreakout => "stop_breakout"

inductive Gate
  | up | down | neutral
  deriving DecidableEq, Repr

/-- The parameters; the schema's range of `trail_mult` starts at 0.1. -/
structure TrendChannelParams where
  entryMode : EntryMode
  entryBandPos : ℚ
  breakoutOffsetMult : ℚ
  slMult : ℚ
  tpMult : ℚ
  trailMult : ℚ
  trailMult_min : 1 / 10 ≤ trailMult
  partialRr : ℚ
  partialFraction : ℚ
  maxPositions : ℕ
  entry : EntryParams

/-- What the two workers deliver on a tick. -/
structure ChannelRead where
  gate : Gate
  upper : ℚ
  lower : ℚ
  positionRaw : ℚ

structure RestingEntry where
  symbol : String
  direction : OrderDirection
  orderType : Types.OrderType
  price : ℚ
  sl : ℚ
  tp : ℚ

structure TrendChannelState where
  gate : Gate := .neutral
  upper : ℚ := 0
  lower : ℚ := 0
  bandHalf : ℚ := 0
  restingEntries : Dict String RestingEntry := ∅
  initialRisk : Dict String ℚ := ∅
  partialDone : List String := []

structure EntryIntent where
  side : OrderSide
  entryPrice : ℚ
  stopLoss : ℚ
  takeProfit : ℚ

section Compute

variable (params : TrendChannelParams) (state : TrendChannelState)

/-- `_entry_geometry`: entry, stop loss and take profit off the band edges. -/
def entryGeometry (side : OrderSide) : ℚ × ℚ × ℚ :=
  let slDistance := params.slMult * state.bandHalf
  let tpDistance := params.tpMult * state.bandHalf
  let offset := params.breakoutOffsetMult * state.bandHalf
  let entry := match params.entryMode, side with
    | .limitPullback, .buy => state.lower
    | .limitPullback, .sell => state.upper
    | .stopBreakout, .buy => state.upper + offset
    | .stopBreakout, .sell => state.lower - offset
  match side with
  | .buy => (entry, entry - slDistance, entry + tpDistance)
  | .sell => (entry, entry + slDistance, entry - tpDistance)

def isArmed (side : OrderSide) (price entry positionRaw : ℚ) : Bool :=
  match params.entryMode, side with
  | .limitPullback, .buy => decide (positionRaw ≤ params.entryBandPos)
  | .limitPullback, .sell => decide (1 - params.entryBandPos ≤ positionRaw)
  | .stopBreakout, .buy => decide (price < entry)
  | .stopBreakout, .sell => decide (entry < price)

def Gate.side : Gate → Option OrderSide
  | .up => some .buy
  | .down => some .sell
  | .neutral => none

/-- `compute_tick`: the state with what was read, and the armed entry of a BUY or SELL decision. -/
def computeTick (tick : TickData) (read : Option ChannelRead) :
    TrendChannelState × Option EntryIntent :=
  match read with
  | none => (state, none)
  | some read =>
      let seen := { state with
        gate := read.gate
        upper := read.upper
        lower := read.lower
        bandHalf := (read.upper - read.lower) / 2 }
      if seen.bandHalf ≤ 0 then (seen, none)
      else match read.gate.side with
      | none => (seen, none)
      | some side =>
          let (entryPrice, stopLoss, takeProfit) := entryGeometry params seen side
          if isArmed params side tick.mid entryPrice read.positionRaw then
            (seen, some ⟨side, entryPrice, stopLoss, takeProfit⟩)
          else (seen, none)

end Compute

section Positions

variable (cfg : ApiConfig) (params : TrendChannelParams)

/-- `_current_r`: the favourable move in units of the initial risk. -/
def currentR (state : TrendChannelState) (position : Position) : ℚ :=
  match state.initialRisk.get? position.positionId with
  | none => 0
  | some risk =>
      if risk = 0 then 0
      else match position.direction with
      | .long => (position.currentPrice - position.entryPrice) / risk
      | .short => (position.entryPrice - position.currentPrice) / risk

def maybePartialClose (session : TradingSession) (state : TrendChannelState)
    (position : Position) : Except PyError (TradingSession × TrendChannelState) := do
  let positionId := position.positionId
  if positionId ∈ state.partialDone then return (session, state)
  if currentR state position < params.partialRr then return (session, state)
  let closeLots := Rounding.roundTo 2 (position.originalLots * params.partialFraction)
  if closeLots < 1 / 100 ∨ position.lots - closeLots < 1 / 100 then return (session, state)
  let (session, _) ← closePosition cfg session positionId (some closeLots)
  return (session, { state with partialDone := positionId :: state.partialDone })

def trailRisk (state : TrendChannelState) (positionId : String) : ℚ :=
  match state.initialRisk.get? positionId with
  | none => state.bandHalf
  | some risk => if risk = 0 then state.bandHalf else risk

/-- The stop `_maybe_trail` asks for, if it moves it. -/
def trailTarget (state : TrendChannelState) (position : Position) : Option ℚ :=
  let risk := trailRisk state position.positionId
  let offset := params.trailMult * risk
  let epsilon := risk * (1 / 10)
  if offset ≤ 0 then none
  else match position.direction with
  | .long =>
      let newSl := position.currentPrice - offset
      if position.stopLoss.all (fun sl => decide (sl + epsilon < newSl)) then some newSl else none
  | .short =>
      let newSl := position.currentPrice + offset
      if position.stopLoss.all (fun sl => decide (newSl < sl - epsilon)) then some newSl else none

def maybeTrail (session : TradingSession) (state : TrendChannelState) (position : Position) :
    Except PyError TradingSession := do
  if hasInFlightOperation session position.positionId then return session
  match trailTarget params state position with
  | none => return session
  | some newSl =>
      let (session, _) ← modifyPosition cfg session position.positionId (.given (some newSl)) .unset
      return session

def seedRisk (state : TrendChannelState) (position : Position) : TrendChannelState :=
  match position.stopLoss with
  | none => state
  | some sl =>
      if state.initialRisk.contains position.positionId then state
      else { state with
        initialRisk := state.initialRisk.set position.positionId |position.entryPrice - sl| }

/-- One turn of `_manage_open_positions`. -/
def manageOpenPosition (current : TradingSession × TrendChannelState) (position : Position) :
    Except PyError (TradingSession × TrendChannelState) := do
  let state := seedRisk current.2 position
  if isPendingClose current.1 position.positionId then return (current.1, state)
  let (session, state) ← maybePartialClose cfg params current.1 state position
  let session ← maybeTrail cfg params session state position
  return (session, state)

def manageOpenPositions (session : TradingSession) (state : TrendChannelState) (tick : TickData) :
    Except PyError (TradingSession × TrendChannelState) :=
  (getOpenPositionsOf session tick.symbol).foldlM (manageOpenPosition cfg params) (session, state)

end Positions

section Entries

variable (cfg : ApiConfig) (params : TrendChannelParams)

def gateFlippedAgainst (state : TrendChannelState) (direction : OrderDirection) : Bool :=
  match direction with
  | .long => decide (state.gate ≠ .up)
  | .short => decide (state.gate ≠ .down)

def cancelEntry (session : TradingSession) (orderId : String) (info : RestingEntry) :
    Except PyError (TradingSession × Bool) :=
  if info.orderType = .stop then cancelStopOrder cfg session orderId
  else cancelLimitOrder session orderId

/-- `_cancel_resting`: the entry is forgotten once its cancellation is accepted. -/
def cancelResting (session : TradingSession) (state : TrendChannelState) (orderId : String)
    (info : RestingEntry) : Except PyError (TradingSession × TrendChannelState) := do
  if hasInFlightOperation session orderId then return (session, state)
  let (session, cancelled) ← cancelEntry cfg session orderId info
  if cancelled then
    return (session, { state with restingEntries := state.restingEntries.erase orderId })
  else return (session, state)

/-- The re-priced order stays on its side of the market. -/
def repriceValid (side : OrderSide) (orderType : Types.OrderType) (newPrice price : ℚ) : Bool :=
  match orderType, side with
  | .stop, .buy => decide (price < newPrice)
  | .stop, .sell => decide (newPrice < price)
  | _, .buy => decide (newPrice < price)
  | _, .sell => decide (price < newPrice)

def directionSide : OrderDirection → OrderSide
  | .long => .buy
  | .short => .sell

def modifyEntry (session : TradingSession) (orderId : String) (info : RestingEntry)
    (newPrice newSl newTp : ℚ) : Except PyError (TradingSession × ModificationResult) :=
  let stopLoss : Setting (Option ℚ) := .given (some newSl)
  let takeProfit : Setting (Option ℚ) := .given (some newTp)
  if info.orderType = .stop then
    modifyStopOrder cfg session orderId (.given newPrice) .unset stopLoss takeProfit
  else modifyLimitOrder cfg session orderId (.given newPrice) stopLoss takeProfit

/-- `_maybe_reprice`: the tracked entry is updated whatever the executor answers. -/
def maybeReprice (session : TradingSession) (state : TrendChannelState) (orderId : String)
    (info : RestingEntry) (price : ℚ) : Except PyError (TradingSession × TrendChannelState) := do
  if hasInFlightOperation session orderId then return (session, state)
  let side := directionSide info.direction
  let (newPrice, newSl, newTp) := entryGeometry params state side
  if |newPrice - info.price| ≤ state.bandHalf * (1 / 2) then return (session, state)
  if !repriceValid side info.orderType newPrice price then return (session, state)
  let (session, _) ← modifyEntry cfg session orderId info newPrice newSl newTp
  let repriced := { info with price := newPrice, sl := newSl, tp := newTp }
  return (session, { state with restingEntries := state.restingEntries.set orderId repriced })

def manageRestingEntry (activeIds : List String) (tick : TickData)
    (current : TradingSession × TrendChannelState) (orderId : String) :
    Except PyError (TradingSession × TrendChannelState) :=
  match current.2.restingEntries.get? orderId with
  | none => .error (.keyError orderId)
  | some info =>
      match getPosition current.1 orderId with
      | some position => .ok (current.1, { current.2 with
          initialRisk := current.2.initialRisk.set orderId |position.entryPrice - info.sl|
          restingEntries := current.2.restingEntries.erase orderId })
      | none =>
          if gateFlippedAgainst current.2 info.direction then
            cancelResting cfg current.1 current.2 orderId info
          else if orderId ∈ activeIds then
            maybeReprice cfg params current.1 current.2 orderId info tick.mid
          else .ok current

def manageRestingEntries (session : TradingSession) (state : TrendChannelState)
    (tick : TickData) : Except PyError (TradingSession × TrendChannelState) :=
  let activeIds := (getActiveOrders session).map PendingOrder.pendingOrderId
  state.restingEntries.keys.foldlM (manageRestingEntry cfg params activeIds tick) (session, state)

def entryTicket (intent : EntryIntent) (tick : TickData) : OrderTicket :=
  let orderType : Types.OrderType := match params.entryMode with
    | .stopBreakout => .stop
    | .limitPullback => .limit
  let sideValue := match intent.side with
    | .buy => "buy"
    | .sell => "sell"
  { symbol := tick.symbol
    orderType := orderType
    side := intent.side
    lots := params.entry.lotSize
    price := if orderType = .limit then some intent.entryPrice else none
    stopPrice := if orderType = .stop then some intent.entryPrice else none
    stopLoss := some intent.stopLoss
    takeProfit := some intent.takeProfit
    comment := s!"TrendChannelRef {params.entryMode.value} {sideValue}" }

/-- `_try_open_entry`: one entry at a time, up to the cap on open positions. -/
def tryOpenEntry (session : TradingSession) (state : TrendChannelState) (intent : EntryIntent)
    (tick : TickData) : Except PyError (TradingSession × TrendChannelState) := do
  if !state.restingEntries.isEmpty then return (session, state)
  if params.maxPositions ≤ (getOpenPositionsOf session tick.symbol).length then
    return (session, state)
  if hasPipelineOrders session then return (session, state)
  let ticket := entryTicket params intent tick
  let (session, result) ← tryEnter cfg session params.entry.minFreeMargin ticket
  match result with
  | none => return (session, state)
  | some result =>
      if result.status = .rejected then return (session, state)
      else
        let tracked : RestingEntry := {
          symbol := tick.symbol
          direction := resolveOrderSide intent.side
          orderType := ticket.orderType
          price := intent.entryPrice
          sl := intent.stopLoss
          tp := intent.takeProfit }
        return (session, { state with
          restingEntries := state.restingEntries.set result.orderId tracked })

def executeDecisionImpl (session : TradingSession) (state : TrendChannelState)
    (intent : Option EntryIntent) (tick : TickData) :
    Except PyError (TradingSession × TrendChannelState) := do
  let (session, state) ← manageOpenPositions cfg params session state tick
  let (session, state) ← manageRestingEntries cfg params session state tick
  match intent with
  | none => return (session, state)
  | some intent => tryOpenEntry cfg params session state intent tick

def pass : DecisionPass TrendChannelState (Option ChannelRead) :=
  fun current read tick =>
    let (state, intent) := computeTick params current.2 tick read
    executeDecisionImpl cfg params current.1 state intent tick

end Entries

end Finiex.TrendChannel
