import Finiex.Lib.Reach
import Finiex.OrderGuards
import Finiex.SimulatorSteps

/-!
# The decision trading API

What a decision logic can ask of the simulator and do to it, behind the order guard, and the
tick loop that hands it one pass after the other.
-/

namespace Finiex.TradingApi

open Finiex.Types
open Finiex.Lib
open Finiex.Lib.Run
open Finiex.Lib.Reach
open Finiex.Positions
open Finiex.Broker
open Finiex.Orders
open Finiex.Portfolio
open Finiex.Portfolio.PortfolioManager
open Finiex.PortfolioRefresh
open Finiex.Executor
open Finiex.OrderBooks
open Finiex.OrderGuards
open Finiex.Simulator
open Finiex.SimulatorSteps

/-- The ids the guard draws for its rejections enter as the sequence of its answers. -/
structure ApiConfig where
  simulator : SimulatorConfig
  orderGuard : OrderGuard := {}
  guardIds : ℕ → String

inductive SessionEndSeverity
  | normal | emergency
  deriving DecidableEq, Repr

structure SessionEndRequest where
  reason : String
  severity : SessionEndSeverity := .normal
  deriving DecidableEq, Repr

structure TradingSession where
  simulator : TradeSimulator
  orderGuard : OrderGuard
  marketDataStatus : MarketDataStatus := {}
  guardIdsDrawn : ℕ := 0
  sessionEnd : Option SessionEndRequest := none

def newSession (cfg : ApiConfig) : TradingSession where
  simulator := Simulator.new cfg.simulator
  orderGuard := cfg.orderGuard

def resolveOrderSide : OrderSide → OrderDirection
  | .buy => .long
  | .sell => .short

section Outcomes

/-- `_on_order_outcome`, on one entry of the log: only announced outcomes reach it. -/
def hearOutcome (now : Instant) (guard : OrderGuard) : AuditEvent → OrderGuard
  | .notified (some direction) result _ => onOrderOutcome guard direction result now
  | _ => guard

/-- The listener hears what the executor announced since `before`, on the executor's clock. -/
def hearOutcomes (before : TradeSimulator) (session : TradingSession) : TradingSession :=
  match session.simulator.market.clockTime with
  | none => session
  | some now =>
      let announced := session.simulator.ledger.log.drop before.ledger.log.length
      { session with orderGuard := announced.foldl (hearOutcome now) session.orderGuard }

theorem hearOutcomes_simulator (before : TradeSimulator) (session : TradingSession) :
    (hearOutcomes before session).simulator = session.simulator := by
  unfold hearOutcomes
  split
  · rfl
  · rfl

end Outcomes

section Queries

variable (session : TradingSession)

def isSpotMode (cfg : ApiConfig) : Bool := cfg.simulator.executor.portfolio.spotMode

def getSymbolSpec (cfg : ApiConfig) (symbol : String) : Except PyError SymbolSpecification :=
  getSymbolSpecification cfg.simulator.executor.broker symbol

def getAssetBalance (currency : String) : ℚ :=
  session.simulator.ledger.portfolio.getAssetBalance currency

def getOpenPositions : List Position := session.simulator.ledger.portfolio.getOpenPositions

def getOpenPositionsOf (symbol : String) : List Position :=
  (getOpenPositions session).filter fun position => decide (position.symbol = symbol)

def getPosition (positionId : String) : Option Position :=
  session.simulator.ledger.portfolio.getPosition positionId

def hasPipelineOrders : Bool := !session.simulator.latencyQueue.isEmpty

def hasPendingOrders : Bool :=
  hasPipelineOrders session || !session.simulator.activeLimitOrders.isEmpty ||
    !session.simulator.activeStopOrders.isEmpty

/-- The operation in flight on a resting order; positions have none here. -/
def getInFlightOperation (orderId : String) : PendingOperation :=
  match findOrder session.simulator.activeLimitOrders orderId with
  | some pending => pending.inFlightOperation
  | none =>
      match findOrder session.simulator.activeStopOrders orderId with
      | some pending => pending.inFlightOperation
      | none => .none

def hasInFlightOperation (orderId : String) : Bool :=
  decide (getInFlightOperation session orderId ≠ .none)

def isPendingClose (positionId : String) : Bool :=
  Simulator.isPendingClose session.simulator positionId

def getActiveOrders : List PendingOrder :=
  session.simulator.activeLimitOrders ++ session.simulator.activeStopOrders

end Queries

section Orders

variable (cfg : ApiConfig) (session : TradingSession)

/-- The arguments of `send_order`. -/
structure OrderTicket where
  symbol : String
  orderType : Types.OrderType
  side : OrderSide
  lots : ℚ
  price : Option ℚ := none
  stopPrice : Option ℚ := none
  stopLoss : Option ℚ := none
  takeProfit : Option ℚ := none
  comment : String := ""

def OrderTicket.request (ticket : OrderTicket) : OpenOrderRequest where
  symbol := ticket.symbol
  orderType := ticket.orderType
  direction := resolveOrderSide ticket.side
  lots := ticket.lots
  price := ticket.price
  stopPrice := ticket.stopPrice
  stopLoss := ticket.stopLoss
  takeProfit := ticket.takeProfit
  comment := ticket.comment

def getAccountInfo (orderDirection : OrderDirection) :
    Except PyError (TradingSession × AccountInfo) := do
  let (portfolio, info) ← session.simulator.ledger.portfolio.getAccountInfo
    cfg.simulator.executor.portfolio session.simulator.market.clockTime orderDirection
  return ({ session with simulator := { session.simulator with
    ledger := { session.simulator.ledger with portfolio := portfolio } } }, info)

/-- `send_order`: the guard's verdict is recorded, otherwise the executor decides and its
synchronous rejections feed the cooldown. -/
def sendOrder (ticket : OrderTicket) : Except PyError (TradingSession × OrderResult) := do
  let request := ticket.request
  let now ← clockNow session.simulator.market.clockTime
  match session.orderGuard.validate request now (some session.marketDataStatus)
      (cfg.guardIds session.guardIdsDrawn) with
  | some guardResult =>
      return ({ session with
        guardIdsDrawn := session.guardIdsDrawn + 1
        simulator := { session.simulator with ledger :=
          session.simulator.ledger.recordGuardRejection cfg.simulator.executor guardResult } },
        guardResult)
  | none =>
      let (simulator, result) ← Simulator.openOrder cfg.simulator session.simulator request
      let orderGuard :=
        if feedsCooldown result then session.orderGuard.recordRejection request.direction now
        else session.orderGuard
      return ({ session with simulator := simulator, orderGuard := orderGuard }, result)

def closePosition (positionId : String) (lots : Option ℚ) :
    Except PyError (TradingSession × OrderResult) := do
  let (simulator, result) ← Simulator.closePosition cfg.simulator session.simulator positionId lots
  return ({ session with simulator := simulator }, result)

def modifyPosition (positionId : String) (stopLoss takeProfit : Setting (Option ℚ)) :
    Except PyError (TradingSession × ModificationResult) := do
  let (simulator, result) ← Simulator.modifyPosition cfg.simulator session.simulator positionId
    stopLoss takeProfit
  return ({ session with simulator := simulator }, result)

def modifyLimitOrder (orderId : String) (price : Setting ℚ)
    (stopLoss takeProfit : Setting (Option ℚ)) :
    Except PyError (TradingSession × ModificationResult) := do
  let (simulator, result) ← Simulator.modifyLimitOrder cfg.simulator session.simulator orderId
    price stopLoss takeProfit
  return ({ session with simulator := simulator }, result)

def modifyStopOrder (orderId : String) (stopPrice price : Setting ℚ)
    (stopLoss takeProfit : Setting (Option ℚ)) :
    Except PyError (TradingSession × ModificationResult) := do
  let (simulator, result) ← Simulator.modifyStopOrder cfg.simulator session.simulator orderId
    stopPrice price stopLoss takeProfit
  return ({ session with simulator := simulator }, result)

def cancelLimitOrder (orderId : String) : Except PyError (TradingSession × Bool) := do
  let (simulator, cancelled) ← Simulator.cancelLimitOrder session.simulator orderId
  return ({ session with simulator := simulator }, cancelled)

def cancelStopOrder (orderId : String) : Except PyError (TradingSession × Bool) := do
  let (simulator, cancelled) ← Simulator.cancelStopOrder cfg.simulator session.simulator orderId
  return ({ session with simulator := simulator }, cancelled)

def requestSessionEnd (request : SessionEndRequest) : TradingSession :=
  { session with sessionEnd := some request }

end Orders

section Steps

variable {cfg : ApiConfig} {session session' : TradingSession}

/-- The conditions under which a decision logic calls the executor: each call is one step of the
simulator. -/
abbrev Calls (cfg : ApiConfig) (P : TradeSimulator → SimulatorOp → Prop) :
    TradeSimulator → TradeSimulator → Prop :=
  ReachesBy (step cfg.simulator) P

theorem getAccountInfo_step {direction : OrderDirection} {info : AccountInfo}
    (h : getAccountInfo cfg session direction = .ok (session', info)) :
    step cfg.simulator session.simulator (.getAccountInfo direction) = .ok session'.simulator := by
  obtain ⟨⟨portfolio, found⟩, hinfo, hpure⟩ := bind_eq_ok.mp h
  cases hpure
  rw [step, hinfo]
  rfl

theorem sendOrder_step {ticket : OrderTicket} {result : OrderResult}
    (h : sendOrder cfg session ticket = .ok (session', result)) :
    step cfg.simulator session.simulator (.openOrder ticket.request) = .ok session'.simulator ∨
      step cfg.simulator session.simulator (.recordGuardRejection result) =
        .ok session'.simulator ∧ result.status = .rejected := by
  obtain ⟨now, -, h⟩ := bind_eq_ok.mp h
  split at h
  · next guardResult hverdict =>
      cases h
      refine .inr ⟨rfl, ?_⟩
      unfold OrderGuard.validate OrderGuard.checkCooldown at hverdict
      grind [OrderGuard.staleRejection, OrderGuard.cooldownRejection, createRejectionResult]
  · obtain ⟨⟨simulator, answer⟩, hopen, hpure⟩ := bind_eq_ok.mp h
    cases hpure
    exact .inl (map_eq_ok.mpr ⟨_, hopen, rfl⟩)

theorem closePosition_step {positionId : String} {lots : Option ℚ} {result : OrderResult}
    (h : closePosition cfg session positionId lots = .ok (session', result)) :
    step cfg.simulator session.simulator (.closePosition positionId lots) =
      .ok session'.simulator := by
  obtain ⟨⟨simulator, answer⟩, hclose, hpure⟩ := bind_eq_ok.mp h
  cases hpure
  exact map_eq_ok.mpr ⟨_, hclose, rfl⟩

theorem modifyPosition_step {positionId : String} {stopLoss takeProfit : Setting (Option ℚ)}
    {result : ModificationResult}
    (h : modifyPosition cfg session positionId stopLoss takeProfit = .ok (session', result)) :
    step cfg.simulator session.simulator (.modifyPosition positionId stopLoss takeProfit) =
      .ok session'.simulator := by
  obtain ⟨⟨simulator, answer⟩, hmodify, hpure⟩ := bind_eq_ok.mp h
  cases hpure
  exact map_eq_ok.mpr ⟨_, hmodify, rfl⟩

theorem modifyLimitOrder_step {orderId : String} {price : Setting ℚ}
    {stopLoss takeProfit : Setting (Option ℚ)} {result : ModificationResult}
    (h : modifyLimitOrder cfg session orderId price stopLoss takeProfit =
      .ok (session', result)) :
    step cfg.simulator session.simulator (.modifyLimitOrder orderId price stopLoss takeProfit) =
      .ok session'.simulator := by
  obtain ⟨⟨simulator, answer⟩, hmodify, hpure⟩ := bind_eq_ok.mp h
  cases hpure
  exact map_eq_ok.mpr ⟨_, hmodify, rfl⟩

theorem modifyStopOrder_step {orderId : String} {stopPrice price : Setting ℚ}
    {stopLoss takeProfit : Setting (Option ℚ)} {result : ModificationResult}
    (h : modifyStopOrder cfg session orderId stopPrice price stopLoss takeProfit =
      .ok (session', result)) :
    step cfg.simulator session.simulator
      (.modifyStopOrder orderId stopPrice price stopLoss takeProfit) = .ok session'.simulator := by
  obtain ⟨⟨simulator, answer⟩, hmodify, hpure⟩ := bind_eq_ok.mp h
  cases hpure
  exact map_eq_ok.mpr ⟨_, hmodify, rfl⟩

theorem cancelLimitOrder_step {orderId : String} {cancelled : Bool}
    (h : cancelLimitOrder session orderId = .ok (session', cancelled)) :
    step cfg.simulator session.simulator (.cancelLimitOrder orderId) = .ok session'.simulator := by
  obtain ⟨⟨simulator, answer⟩, hcancel, hpure⟩ := bind_eq_ok.mp h
  cases hpure
  exact map_eq_ok.mpr ⟨_, hcancel, rfl⟩

theorem cancelStopOrder_step {orderId : String} {cancelled : Bool}
    (h : cancelStopOrder cfg session orderId = .ok (session', cancelled)) :
    step cfg.simulator session.simulator (.cancelStopOrder orderId) = .ok session'.simulator := by
  obtain ⟨⟨simulator, answer⟩, hcancel, hpure⟩ := bind_eq_ok.mp h
  cases hpure
  exact map_eq_ok.mpr ⟨_, hcancel, rfl⟩

end Steps

section Loop

variable {β ι : Type}

/-- One turn of the tick loop: the tick, whether the algo path skips it, the market data status
in force and what the workers hand the decision logic. -/
structure LoopPass (ι : Type) where
  tick : TickData
  isClipped : Bool := false
  marketDataStatus : MarketDataStatus := {}
  input : ι

abbrev DecisionPass (β ι : Type) :=
  TradingSession × β → ι → TickData → Except PyError (TradingSession × β)

variable (cfg : ApiConfig)

def onTick (session : TradingSession) (tick : TickData) : Except PyError TradingSession := do
  let simulator ← Simulator.onTick cfg.simulator session.simulator tick
  return hearOutcomes session.simulator { session with simulator := simulator }

/-- The broker sees every tick, the decision logic those that are not clipped. -/
def loopStep (pass : DecisionPass β ι) (state : TradingSession × β) (next : LoopPass ι) :
    Except PyError (TradingSession × β) := do
  let session ← onTick cfg state.1 next.tick
  if next.isClipped then return (session, state.2)
  else
    pass ({ session with marketDataStatus := next.marketDataStatus }, state.2) next.input next.tick

variable {cfg} {pass : DecisionPass β ι} {P : TradeSimulator → SimulatorOp → Prop}
  {I : TradeSimulator → Prop}

theorem onTick_step {session session' : TradingSession} {tick : TickData}
    (h : onTick cfg session tick = .ok session') :
    step cfg.simulator session.simulator (.tick tick) = .ok session'.simulator := by
  obtain ⟨simulator, htick, hpure⟩ := bind_eq_ok.mp h
  cases hpure
  rw [hearOutcomes_simulator]
  exact htick

/-- A turn of the loop is a tick, and on it what the decision logic calls. -/
theorem loopStep_calls (hticks : ∀ s tick, P s (.tick tick))
    (hinv : ∀ s op s', I s → step cfg.simulator s op = .ok s' → I s')
    (hpass : ∀ state input tick state', I state.1.simulator →
      pass state input tick = .ok state' → Calls cfg P state.1.simulator state'.1.simulator)
    {state state' : TradingSession × β} {next : LoopPass ι} (hinit : I state.1.simulator)
    (h : loopStep cfg pass state next = .ok state') :
    Calls cfg P state.1.simulator state'.1.simulator := by
  obtain ⟨session, htick, h⟩ := bind_eq_ok.mp h
  have hstep := onTick_step htick
  have hticked : Calls cfg P state.1.simulator session.simulator := .one (hticks _ _) hstep
  split at h
  · cases h
    exact hticked
  · exact hticked.trans (hpass _ _ _ _ (hinv _ _ _ hinit hstep) h)

/-- A run of the loop drives the simulator through ticks and the calls of its decision logic. -/
theorem loop_calls (hticks : ∀ s tick, P s (.tick tick))
    (hinv : ∀ s op s', I s → step cfg.simulator s op = .ok s' → I s')
    (hpass : ∀ state input tick state', I state.1.simulator →
      pass state input tick = .ok state' → Calls cfg P state.1.simulator state'.1.simulator)
    {state state' : TradingSession × β} {passes : List (LoopPass ι)} (hinit : I state.1.simulator)
    (hrun : run (loopStep cfg pass) state passes = .ok state') :
    Calls cfg P state.1.simulator state'.1.simulator :=
  reachesBy_of_run (fun state => state.1.simulator) hinv
    (fun _ _ _ hbefore hnext => loopStep_calls hticks hinv hpass hbefore hnext) hinit hrun

end Loop

end Finiex.TradingApi
