import Finiex.DataOutages
import Finiex.PortfolioRuns
import Finiex.Modifications

namespace Finiex.Resets

open Finiex.Types
open Finiex.Lib
open Finiex.Lib.Run
open Finiex.Fees
open Finiex.Positions
open Finiex.Orders
open Finiex.Portfolio
open Finiex.Portfolio.PortfolioManager
open Finiex.PortfolioLedger
open Finiex.PortfolioRuns
open Finiex.Executor
open Finiex.Simulator
open Finiex.DataOutages

section Portfolio

variable (cfg : PortfolioConfig)

/-- `PortfolioManager.reset`; the records it logs from here on start anew. -/
def resetPortfolio (pm : PortfolioManager) : PortfolioManager :=
  let pm := { pm with balances := cfg.startBalances }
  { pm with
    realizedPnl := 0
    openPositions := ∅
    tradeHistory := []
    tradeLog := []
    positionCounter := 0
    costTracking := {}
    statistics := { maxEquity := pm.balance cfg } }

structure PortfolioReport where
  tradeRecords : List TradeRecord
  balances : Dict String ℚ
  openPositions : Dict String Position
  statistics : TradeStatistics
  conversionRate : Option ℚ
  costBreakdown : CostBreakdown
  deriving DecidableEq

def portfolioReport (pm : PortfolioManager) : PortfolioReport where
  tradeRecords := pm.tradeHistory
  balances := pm.balances
  openPositions := pm.openPositions
  statistics := pm.statistics
  conversionRate := pm.lastConversionRate
  costBreakdown := pm.costTracking

/-- After the reset every run reports what it reports on a new portfolio. -/
def PortfolioRunsAlike (s : Session) : Prop :=
  ∀ calls : List PortfolioCall,
    (run (callStep cfg) { s with portfolio := resetPortfolio cfg s.portfolio } calls).map
        (fun t => portfolioReport t.portfolio) =
      (run (callStep cfg) (start cfg s.clock) calls).map fun t => portfolioReport t.portfolio

/-- Nothing survives the reset, and every run after it is as on a new portfolio. -/
def PortfolioRestored (s : Session) : Prop :=
  resetPortfolio cfg s.portfolio = Portfolio.new cfg ∧ PortfolioRunsAlike cfg s

/-- What `PortfolioManager.reset` leaves as it is has never been set. -/
structure PortfolioUntouched (pm : PortfolioManager) : Prop where
  clean : pm.positionsDirty = false
  unwarned : pm.tradeHistoryLimitWarned = false
  tick : pm.currentTick = none
  prices : pm.currentPrices = ∅
  rate : pm.lastConversionRate = none

variable {cfg}

/-- A reset portfolio is a new one with the currency of the costs forgotten and the market state,
the dirty flag and the warning kept. -/
theorem resetPortfolio_eq (pm : PortfolioManager) :
    resetPortfolio cfg pm = { Portfolio.new cfg with
      costTracking := {}
      positionsDirty := pm.positionsDirty
      tradeHistoryLimitWarned := pm.tradeHistoryLimitWarned
      currentTick := pm.currentTick
      currentPrices := pm.currentPrices
      lastConversionRate := pm.lastConversionRate } := rfl

theorem resetPortfolio_eq_new (hcurrency : cfg.accountCurrency = "") {pm : PortfolioManager}
    (h : PortfolioUntouched pm) : resetPortfolio cfg pm = Portfolio.new cfg := by
  have hcosts : ({} : CostBreakdown) = { currency := cfg.accountCurrency } := by rw [hcurrency]
  rw [resetPortfolio_eq, h.clean, h.unwarned, h.tick, h.prices, h.rate, hcosts]
  rfl

theorem untouched_of_resetPortfolio {pm : PortfolioManager}
    (h : resetPortfolio cfg pm = Portfolio.new cfg) : PortfolioUntouched pm where
  clean := congrArg PortfolioManager.positionsDirty h
  unwarned := congrArg PortfolioManager.tradeHistoryLimitWarned h
  tick := congrArg PortfolioManager.currentTick h
  prices := congrArg PortfolioManager.currentPrices h
  rate := congrArg PortfolioManager.lastConversionRate h

theorem currency_of_portfolioRunsAlike {s : Session} (h : PortfolioRunsAlike cfg s) :
    cfg.accountCurrency = "" := by
  have hreport := Except.ok.inj (h [])
  exact (congrArg (fun report => report.costBreakdown.currency) hreport).symm

theorem portfolioRestored_iff (s : Session) :
    PortfolioRestored cfg s ↔ cfg.accountCurrency = "" ∧ PortfolioUntouched s.portfolio := by
  constructor
  · rintro ⟨hnew, halike⟩
    exact ⟨currency_of_portfolioRunsAlike halike, untouched_of_resetPortfolio hnew⟩
  · rintro ⟨hcurrency, huntouched⟩
    have hnew := resetPortfolio_eq_new hcurrency huntouched
    refine ⟨hnew, fun calls => ?_⟩
    rw [hnew]
    rfl

end Portfolio

section Instance

inductive SessionEndSeverity
  | normal | emergency
  deriving DecidableEq, Repr

/-- A trade simulator with the state of its base class that no fill reads. -/
structure Instance where
  simulator : TradeSimulator
  currentPrices : Dict String (ℚ × ℚ) := ∅
  marketDataStatus : MarketDataStatus := {}
  sessionEndRequested : Bool := false
  sessionEndReason : String := ""
  sessionEndSeverity : SessionEndSeverity := .normal
  deriving DecidableEq

inductive InstanceOp
  | simulator (op : SimulatorOp)
  | getPortfolioStatistics
  | setMarketDataStatus (status : MarketDataStatus)
  | requestSessionEnd (reason : String) (severity : SessionEndSeverity)
  | closeAllRemainingOrders

variable (cfg : SimulatorConfig)

def newInstance : Instance where
  simulator := Simulator.new cfg

/-- The executor's own price table after a call. -/
def pricesAfter (prices : Dict String (ℚ × ℚ)) : SimulatorOp → Dict String (ℚ × ℚ)
  | .tick tick => prices.set tick.symbol (tick.bid, tick.ask)
  | _ => prices

def instanceStep (i : Instance) : InstanceOp → Except PyError Instance
  | .simulator op => do
      let s ← Simulator.step cfg i.simulator op
      return { i with simulator := s, currentPrices := pricesAfter i.currentPrices op }
  | .getPortfolioStatistics => do
      let pm ← i.simulator.ledger.portfolio.ensurePositionsUpdated cfg.executor.portfolio
        i.simulator.market.clockTime
      return { i with simulator := { i.simulator with
        ledger := { i.simulator.ledger with portfolio := pm } } }
  | .setMarketDataStatus status => .ok { i with marketDataStatus := status }
  | .requestSessionEnd reason severity => .ok { i with
      sessionEndRequested := true
      sessionEndReason := reason
      sessionEndSeverity := severity }
  | .closeAllRemainingOrders => do
      let s ← Simulator.closeAllRemainingOrders cfg i.simulator
      return { i with simulator := s }

/-- The entries the latency simulator counts its statistics from. -/
def isOutcome : AuditEvent → Bool
  | .outcome _ _ => true
  | _ => false

/-- `AbstractTradeExecutor.reset`, which the simulator inherits. The log of what is written and
announced starts anew, but the statistics of the latency simulator are kept. -/
def reset (i : Instance) : Instance :=
  { i with
    currentPrices := ∅
    simulator := { i.simulator with
      orderCounter := 0
      activeLimitOrders := []
      activeStopOrders := []
      ledger := { i.simulator.ledger with
        portfolio := resetPortfolio cfg.executor.portfolio i.simulator.ledger.portfolio
        orderHistory := []
        ordersSent := 0
        ordersExecuted := 0
        ordersRejected := 0
        slTpTriggered := 0
        log := i.simulator.ledger.log.filter isOutcome } } }

structure Report where
  orderResults : List OrderResult
  ordersSent : ℕ
  ordersExecuted : ℕ
  ordersRejected : ℕ
  slTpTriggered : ℕ
  portfolio : PortfolioReport
  deriving DecidableEq

def report (i : Instance) : Report where
  orderResults := i.simulator.ledger.orderHistory
  ordersSent := i.simulator.ledger.ordersSent
  ordersExecuted := i.simulator.ledger.ordersExecuted
  ordersRejected := i.simulator.ledger.ordersRejected
  slTpTriggered := i.simulator.ledger.slTpTriggered
  portfolio := portfolioReport i.simulator.ledger.portfolio

/-- After the reset every run reports what it reports on a new simulator. -/
def RunsAlike (i : Instance) : Prop :=
  ∀ ops : List InstanceOp, (run (instanceStep cfg) (reset cfg i) ops).map report =
    (run (instanceStep cfg) (newInstance cfg) ops).map report

/-- Nothing survives the reset, and every run after it is as on a new simulator. -/
def Restored (i : Instance) : Prop := reset cfg i = newInstance cfg ∧ RunsAlike cfg i

/-- What the reset leaves as it is has never been set. -/
structure Untouched (i : Instance) : Prop where
  portfolio : PortfolioUntouched i.simulator.ledger.portfolio
  market : i.simulator.market = {}
  latencyQueue : i.simulator.latencyQueue = ∅
  delaysDrawn : i.simulator.delaysDrawn = 0
  stressCalls : i.simulator.stressCalls = 0
  stressRejections : i.simulator.stressRejections = 0
  modifications : i.simulator.pendingPositionModifications = ∅
  unwarned : i.simulator.ledger.orderHistoryLimitWarned = false
  synthTradeSeq : i.simulator.ledger.synthTradeSeq = 0
  outcomes : i.simulator.ledger.log.filter isOutcome = []
  marketDataStatus : i.marketDataStatus = {}
  sessionEndRequested : i.sessionEndRequested = false
  sessionEndReason : i.sessionEndReason = ""
  sessionEndSeverity : i.sessionEndSeverity = .normal

variable {cfg}

theorem reset_eq_newInstance (hcurrency : cfg.executor.portfolio.accountCurrency = "")
    {i : Instance} (h : Untouched i) : reset cfg i = newInstance cfg := by
  simp only [reset, resetPortfolio_eq_new hcurrency h.portfolio, h.market, h.latencyQueue,
    h.delaysDrawn, h.stressCalls, h.stressRejections, h.modifications, h.unwarned, h.synthTradeSeq,
    h.outcomes, h.marketDataStatus, h.sessionEndRequested, h.sessionEndReason, h.sessionEndSeverity]
  rfl

theorem untouched_of_reset {i : Instance} (h : reset cfg i = newInstance cfg) : Untouched i where
  portfolio := untouched_of_resetPortfolio (congrArg (fun i => i.simulator.ledger.portfolio) h)
  market := congrArg (fun i => i.simulator.market) h
  latencyQueue := congrArg (fun i => i.simulator.latencyQueue) h
  delaysDrawn := congrArg (fun i => i.simulator.delaysDrawn) h
  stressCalls := congrArg (fun i => i.simulator.stressCalls) h
  stressRejections := congrArg (fun i => i.simulator.stressRejections) h
  modifications := congrArg (fun i => i.simulator.pendingPositionModifications) h
  unwarned := congrArg (fun i => i.simulator.ledger.orderHistoryLimitWarned) h
  synthTradeSeq := congrArg (fun i => i.simulator.ledger.synthTradeSeq) h
  outcomes := congrArg (fun i => i.simulator.ledger.log) h
  marketDataStatus := congrArg (fun i => i.marketDataStatus) h
  sessionEndRequested := congrArg (fun i => i.sessionEndRequested) h
  sessionEndReason := congrArg (fun i => i.sessionEndReason) h
  sessionEndSeverity := congrArg (fun i => i.sessionEndSeverity) h

theorem currency_of_runsAlike {i : Instance} (h : RunsAlike cfg i) :
    cfg.executor.portfolio.accountCurrency = "" := by
  have hreport := Except.ok.inj (h [])
  exact (congrArg (fun report => report.portfolio.costBreakdown.currency) hreport).symm

/-- A reset restores a new simulator, or a new portfolio manager, exactly when the account has no
currency and nothing that the reset leaves as it is has ever been set. -/
theorem reset_restores_iff (i : Instance) (s : Session) :
    (Restored cfg i ↔ cfg.executor.portfolio.accountCurrency = "" ∧ Untouched i) ∧
      (PortfolioRestored cfg.executor.portfolio s ↔
        cfg.executor.portfolio.accountCurrency = "" ∧ PortfolioUntouched s.portfolio) := by
  refine ⟨⟨?_, ?_⟩, portfolioRestored_iff s⟩
  · rintro ⟨hnew, halike⟩
    exact ⟨currency_of_runsAlike halike, untouched_of_reset hnew⟩
  · rintro ⟨hcurrency, huntouched⟩
    have hnew := reset_eq_newInstance hcurrency huntouched
    refine ⟨hnew, fun ops => ?_⟩
    rw [hnew]

end Instance

section Account

open Finiex.LiveSteps
open Finiex.Modifications

def queuedOrder : List InstanceOp :=
  [.simulator (.tick (ethusdTick 2000 2001 1000)), .simulator (.openOrder marketLong)]

def nextTick : List InstanceOp := [.simulator (.tick (ethusdTick 2000 2001 2000))]

def executedAfter (i : Instance) : Except PyError ℕ :=
  ((run (instanceStep cryptoSimulator) i nextTick).map report).map Report.ordersExecuted

example : executedAfter (newInstance cryptoSimulator) = .ok 0 := by decide +kernel

/-- The order of the previous session is filled by the first tick after the reset. -/
theorem reset_keeps_queuedOrder :
    ∃ i, run (instanceStep cryptoSimulator) (newInstance cryptoSimulator) queuedOrder = .ok i ∧
      executedAfter (reset cryptoSimulator i) = .ok 1 ∧ ¬ RunsAlike cryptoSimulator i := by
  obtain ⟨i, hrun, hexecuted⟩ := exists_of_map_eq_ok (show
    (run (instanceStep cryptoSimulator) (newInstance cryptoSimulator) queuedOrder).map (fun i =>
      decide (executedAfter (reset cryptoSimulator i) = .ok 1)) = .ok true by decide +kernel)
  have hone := of_decide_eq_true hexecuted
  refine ⟨i, hrun, hone, fun halike => ?_⟩
  have hequal : executedAfter (reset cryptoSimulator i) =
      executedAfter (newInstance cryptoSimulator) :=
    congrArg (Except.map Report.ordersExecuted) (halike nextTick)
  have hfresh : executedAfter (newInstance cryptoSimulator) = .ok 0 := by decide +kernel
  rw [hone, hfresh] at hequal
  cases hequal

end Account

end Finiex.Resets
