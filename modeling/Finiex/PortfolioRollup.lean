import Finiex.Lib.Dict
import Mathlib.Algebra.BigOperators.Group.List.Basic
import Mathlib.Algebra.Order.Ring.Rat
import Mathlib.Order.WithBot
import Mathlib.Tactic.Ring
import Mathlib.Tactic.Linarith

namespace Finiex.PortfolioRollup

open Finiex.Lib

section Rows

structure PortfolioUnitRow where
  name : String
  symbol : String
  totalTrades : ℕ := 0
  winningTrades : ℕ := 0
  losingTrades : ℕ := 0
  totalProfit : ℚ := 0
  totalLoss : ℚ := 0
  maxDrawdown : ℚ := 0
  totalFees : ℚ := 0
  totalLongTrades : ℕ := 0
  totalShortTrades : ℕ := 0
  maxEquity : ℚ := 0
  currentBalance : ℚ := 0
  initialBalance : ℚ := 0
  totalSpreadCost : ℚ := 0
  totalCommission : ℚ := 0
  totalSwap : ℚ := 0
  makerFee : ℚ := 0
  takerFee : ℚ := 0
  balances : Dict String ℚ
  initialBalances : Dict String ℚ
  lastPrice : ℚ := 0

structure ExecutionStatsRow where
  ordersSent : ℕ
  ordersExecuted : ℕ
  ordersRejected : ℕ
  slTpTriggered : ℕ

structure PendingLatency where
  avgLatencyMs : ℚ
  minLatencyMs : ℚ
  maxLatencyMs : ℚ
  latencyCount : ℕ

structure PendingOrdersUnitRow where
  totalResolved : ℕ := 0
  totalFilled : ℕ := 0
  totalRejected : ℕ := 0
  totalTimedOut : ℕ := 0
  totalForceClosed : ℕ := 0
  latency : Option PendingLatency := none
  activeLimitOrders : ℕ := 0
  activeStopOrders : ℕ := 0

structure PortfolioAggregateRow where
  currency : String
  unitCount : ℕ
  totalTrades : ℕ
  winningTrades : ℕ
  losingTrades : ℕ
  winRate : ℚ
  profitFactor : WithTop ℚ
  totalProfit : ℚ
  totalLoss : ℚ
  netProfit : ℚ
  maxDrawdown : ℚ
  totalFees : ℚ

structure SpotScenarioRow where
  scenarioName : String
  quoteCurrency : String
  baseCurrency : String
  quoteBalance : ℚ
  baseBalance : ℚ
  quoteInitial : ℚ
  baseInitial : ℚ
  lastPrice : ℚ
  estCurrent : ℚ
  estInitial : ℚ
  hasBaseHoldings : Bool

structure SpotBalances where
  spotScenarios : List SpotScenarioRow := []
  spotTotalEstCurrent : ℚ := 0
  spotTotalEstInitial : ℚ := 0
  spotHasBaseHoldings : Bool := false

structure AggregatedPortfolioRow extends SpotBalances where
  headline : PortfolioAggregateRow
  isSpot : Bool
  label : String
  totalLongTrades : ℕ
  totalShortTrades : ℕ
  avgWin : ℚ
  avgLoss : ℚ
  initialBalance : ℚ
  finalBalance : ℚ
  avgInitial : ℚ
  balancePnl : ℚ
  balancePnlPct : ℚ
  recoveryFactor : ℚ
  maxDdPct : ℚ
  maxDrawdownScenario : String
  maxEquity : ℚ
  maxEquityScenario : String
  totalSpreadCost : ℚ
  totalCommission : ℚ
  totalSwap : ℚ
  makerFee : ℚ
  takerFee : ℚ
  avgSpread : ℚ
  ordersSent : ℕ
  ordersExecuted : ℕ
  ordersRejected : ℕ
  slTpTriggered : ℕ
  pendingTotalResolved : ℕ
  pendingTotalFilled : ℕ
  pendingTotalRejected : ℕ
  pendingTotalTimedOut : ℕ
  pendingTotalForceClosed : ℕ
  pendingAvgLatencyMs : Option ℚ
  pendingMinLatencyMs : Option ℚ
  pendingMaxLatencyMs : Option ℚ
  pendingActiveLimitCount : ℕ
  pendingActiveStopCount : ℕ

end Rows

section RollUp

def worstDrawdown (rows : List PortfolioUnitRow) : ℚ × String :=
  rows.foldl (fun worst row =>
    if |worst.1| < |row.maxDrawdown| then (row.maxDrawdown, row.name) else worst) (0, "")

def peakEquity (rows : List PortfolioUnitRow) : ℚ × String :=
  rows.foldl (fun peak row =>
    if peak.1 < row.maxEquity then (row.maxEquity, row.name) else peak) (0, "")

def portfolioAggregate (currency : String) (rows : List PortfolioUnitRow) :
    PortfolioAggregateRow :=
  let totalTrades := (rows.map PortfolioUnitRow.totalTrades).sum
  let winningTrades := (rows.map PortfolioUnitRow.winningTrades).sum
  let totalProfit := (rows.map PortfolioUnitRow.totalProfit).sum
  let totalLoss := (rows.map PortfolioUnitRow.totalLoss).sum
  { currency := currency
    unitCount := rows.length
    totalTrades := totalTrades
    winningTrades := winningTrades
    losingTrades := (rows.map PortfolioUnitRow.losingTrades).sum
    winRate := if 0 < totalTrades then (winningTrades : ℚ) / totalTrades else 0
    profitFactor :=
      if 0 < totalLoss then ((totalProfit / totalLoss : ℚ) : WithTop ℚ)
      else if totalProfit = 0 then ((0 : ℚ) : WithTop ℚ)
      else ⊤
    totalProfit := totalProfit
    totalLoss := totalLoss
    netProfit := totalProfit - totalLoss
    maxDrawdown := (worstDrawdown rows).1
    totalFees := (rows.map PortfolioUnitRow.totalFees).sum }

/-- The base of a symbol as it is sliced off, with the quote: a symbol of fewer than six letters
has none. -/
def sliceSymbol (symbol currency : String) : String × String :=
  let letters := symbol.toList
  if 6 ≤ letters.length then
    (String.ofList (letters.take (letters.length - 3)),
      String.ofList (letters.drop (letters.length - 3)))
  else ("", currency)

def spotScenario (currency : String) (row : PortfolioUnitRow) : SpotScenarioRow :=
  let base := (sliceSymbol row.symbol currency).1
  let quote := (sliceSymbol row.symbol currency).2
  let quoteBal := row.balances.getD quote 0
  let baseBal := row.balances.getD base 0
  let quoteInit := row.initialBalances.getD quote 0
  let baseInit := row.initialBalances.getD base 0
  let price := row.lastPrice
  let hasBase := decide (0 < price) && decide (baseBal ≠ 0)
  let estimates :=
    if hasBase then (quoteBal + baseBal * price, quoteInit + baseInit * price)
    else if 0 < price then (quoteBal, quoteInit)
    else (0, 0)
  { scenarioName := row.name
    quoteCurrency := quote
    baseCurrency := base
    quoteBalance := quoteBal
    baseBalance := baseBal
    quoteInitial := quoteInit
    baseInitial := baseInit
    lastPrice := price
    estCurrent := estimates.1
    estInitial := estimates.2
    hasBaseHoldings := hasBase }

def spotBalances (rows : List PortfolioUnitRow) (currency : String) : SpotBalances :=
  let scenarios := rows.map (spotScenario currency)
  { spotScenarios := scenarios
    spotTotalEstCurrent := (scenarios.map SpotScenarioRow.estCurrent).sum
    spotTotalEstInitial := (scenarios.map SpotScenarioRow.estInitial).sum
    spotHasBaseHoldings := scenarios.any SpotScenarioRow.hasBaseHoldings }

def aggregateFullPortfolio (rows : List PortfolioUnitRow)
    (execByName : Dict String ExecutionStatsRow) (pendingByName : Dict String PendingOrdersUnitRow)
    (currency : String) (isSpot : Bool) (label : String) : AggregatedPortfolioRow :=
  let headline := portfolioAggregate currency rows
  let (maxDd, maxDdScn) := worstDrawdown rows
  let (maxEq, maxEqScn) := peakEquity rows
  let initial := (rows.map PortfolioUnitRow.initialBalance).sum
  let final := (rows.map PortfolioUnitRow.currentBalance).sum
  let balancePnl := final - initial
  let totalSpread := (rows.map PortfolioUnitRow.totalSpreadCost).sum
  let ex := rows.filterMap fun row => execByName.get? row.name
  let pend := rows.filterMap fun row => pendingByName.get? row.name
  let lat := pend.filterMap PendingOrdersUnitRow.latency
  let latCount := (lat.map PendingLatency.latencyCount).sum
  { (if isSpot then spotBalances rows currency else {}) with
    headline := headline
    isSpot := isSpot
    label := label
    totalLongTrades := (rows.map PortfolioUnitRow.totalLongTrades).sum
    totalShortTrades := (rows.map PortfolioUnitRow.totalShortTrades).sum
    avgWin := if 0 < headline.winningTrades then headline.totalProfit / headline.winningTrades else 0
    avgLoss := if 0 < headline.losingTrades then |headline.totalLoss| / headline.losingTrades else 0
    initialBalance := initial
    finalBalance := final
    avgInitial := if 0 < rows.length then initial / rows.length else 0
    balancePnl := balancePnl
    balancePnlPct := if 0 < initial then balancePnl / initial * 100 else 0
    recoveryFactor := if maxDd ≠ 0 then balancePnl / |maxDd| else 0
    maxDdPct := if 0 < maxEq then maxDd / maxEq * 100 else 0
    maxDrawdownScenario := maxDdScn
    maxEquity := maxEq
    maxEquityScenario := maxEqScn
    totalSpreadCost := totalSpread
    totalCommission := (rows.map PortfolioUnitRow.totalCommission).sum
    totalSwap := (rows.map PortfolioUnitRow.totalSwap).sum
    makerFee := (rows.map PortfolioUnitRow.makerFee).sum
    takerFee := (rows.map PortfolioUnitRow.takerFee).sum
    avgSpread := if 0 < headline.totalTrades then totalSpread / headline.totalTrades else 0
    ordersSent := (ex.map ExecutionStatsRow.ordersSent).sum
    ordersExecuted := (ex.map ExecutionStatsRow.ordersExecuted).sum
    ordersRejected := (ex.map ExecutionStatsRow.ordersRejected).sum
    slTpTriggered := (ex.map ExecutionStatsRow.slTpTriggered).sum
    pendingTotalResolved := (pend.map PendingOrdersUnitRow.totalResolved).sum
    pendingTotalFilled := (pend.map PendingOrdersUnitRow.totalFilled).sum
    pendingTotalRejected := (pend.map PendingOrdersUnitRow.totalRejected).sum
    pendingTotalTimedOut := (pend.map PendingOrdersUnitRow.totalTimedOut).sum
    pendingTotalForceClosed := (pend.map PendingOrdersUnitRow.totalForceClosed).sum
    pendingAvgLatencyMs :=
      if 0 < latCount then
        some ((lat.map fun p => p.avgLatencyMs * (p.latencyCount : ℚ)).sum / latCount)
      else none
    pendingMinLatencyMs := (lat.map PendingLatency.minLatencyMs).min?
    pendingMaxLatencyMs := (lat.map PendingLatency.maxLatencyMs).max?
    pendingActiveLimitCount := (pend.map PendingOrdersUnitRow.activeLimitOrders).sum
    pendingActiveStopCount := (pend.map PendingOrdersUnitRow.activeStopOrders).sum }

end RollUp

section Basis

structure SpotRow extends PortfolioUnitRow where
  base : String
  quote : String
  symbol_eq : symbol = base ++ quote
  quote_length : quote.length = 3
  priced : 0 < lastPrice

/-- By how much the holdings of a currency have grown. -/
def PortfolioUnitRow.change (row : PortfolioUnitRow) (currency : String) : ℚ :=
  row.balances.getD currency 0 - row.initialBalances.getD currency 0

/-- What a run has made of a portfolio at the last price. -/
def SpotRow.gain (row : SpotRow) : ℚ :=
  row.change row.quote + row.change row.base * row.lastPrice

/-- The part of a gain that the estimates leave out. A short symbol is taken for the currency of the
report and a base without a name, so its own base and quote count only as far as they exceed these.
Of any other, the initial holdings of a base that is not held any more are left out. -/
def SpotRow.leftOut (currency : String) (row : SpotRow) : ℚ :=
  if row.base.length < 3 then
    (row.change row.quote - row.change currency) +
      (row.change row.base - if row.balances.getD "" 0 = 0 then 0 else row.change "") *
        row.lastPrice
  else if row.balances.getD row.base 0 = 0 then
    -(row.initialBalances.getD row.base 0 * row.lastPrice)
  else 0

theorem sliceSymbol_append {base quote : String} (hquote : quote.length = 3) (currency : String) :
    sliceSymbol (base ++ quote) currency =
      if base.length < 3 then ("", currency) else (base, quote) := by
  have hletters : (base ++ quote).toList.length = base.length + 3 := by
    rw [String.length_toList, String.length_append, hquote]
  unfold sliceSymbol
  dsimp only
  rw [hletters, Nat.add_sub_cancel, String.toList_append, ← String.length_toList,
    List.take_left, List.drop_left, String.ofList_toList, String.ofList_toList]
  by_cases hshort : base.toList.length < 3
  · rw [if_pos hshort, if_neg (by omega)]
  · rw [if_neg hshort, if_pos (by omega)]

theorem est_diff (currency : String) (row : PortfolioUnitRow) (hprice : 0 < row.lastPrice) :
    (spotScenario currency row).estCurrent - (spotScenario currency row).estInitial =
      row.change (sliceSymbol row.symbol currency).2 +
        if row.balances.getD (sliceSymbol row.symbol currency).1 0 = 0 then 0
        else row.change (sliceSymbol row.symbol currency).1 * row.lastPrice := by
  by_cases hbase : row.balances.getD (sliceSymbol row.symbol currency).1 0 = 0
  · simp [spotScenario, PortfolioUnitRow.change, hbase, hprice]
  · simp [spotScenario, PortfolioUnitRow.change, hbase, hprice]
    ring

theorem gain_sub_est (currency : String) (row : SpotRow) :
    row.gain - ((spotScenario currency row.toPortfolioUnitRow).estCurrent -
      (spotScenario currency row.toPortfolioUnitRow).estInitial) = row.leftOut currency := by
  rw [est_diff currency row.toPortfolioUnitRow row.priced, row.symbol_eq,
    sliceSymbol_append row.quote_length]
  by_cases hshort : row.base.length < 3
  · by_cases hblank : row.balances.getD "" 0 = 0
    · simp [SpotRow.leftOut, SpotRow.gain, hshort, hblank]
      ring
    · simp [SpotRow.leftOut, SpotRow.gain, hshort, hblank]
      ring
  · by_cases hsold : row.balances.getD row.base 0 = 0
    · simp [SpotRow.leftOut, SpotRow.gain, PortfolioUnitRow.change, hshort, hsold]
    · simp [SpotRow.leftOut, SpotRow.gain, hshort, hsold]

theorem sum_gain (currency : String) (rows : List SpotRow) :
    (rows.map SpotRow.gain).sum =
      ((spotBalances (rows.map SpotRow.toPortfolioUnitRow) currency).spotTotalEstCurrent -
        (spotBalances (rows.map SpotRow.toPortfolioUnitRow) currency).spotTotalEstInitial) +
        (rows.map (SpotRow.leftOut currency)).sum := by
  induction rows with
  | nil => simp [spotBalances]
  | cons row rows ih =>
      have hrow := gain_sub_est currency row
      simp only [spotBalances, List.map_cons, List.sum_cons, List.map_map] at ih ⊢
      linarith

/-- The estimated values grow by what the portfolios have gained exactly if the parts left out
cancel. -/
theorem spotTotals_iff (rows : List SpotRow) (execByName : Dict String ExecutionStatsRow)
    (pendingByName : Dict String PendingOrdersUnitRow) (currency label : String) :
    (aggregateFullPortfolio (rows.map SpotRow.toPortfolioUnitRow) execByName pendingByName
          currency true label).spotTotalEstCurrent -
        (aggregateFullPortfolio (rows.map SpotRow.toPortfolioUnitRow) execByName pendingByName
          currency true label).spotTotalEstInitial =
      (rows.map SpotRow.gain).sum ↔
    (rows.map (SpotRow.leftOut currency)).sum = 0 := by
  have hsum := sum_gain currency rows
  change (spotBalances (rows.map SpotRow.toPortfolioUnitRow) currency).spotTotalEstCurrent -
    (spotBalances (rows.map SpotRow.toPortfolioUnitRow) currency).spotTotalEstInitial = _ ↔ _
  constructor
  · intro h
    linarith
  · intro h
    linarith

/-- A portfolio that has sold the bitcoin it started with, for what it was worth. -/
def soldOut : SpotRow where
  name := "btcusd_1"
  symbol := "BTCUSD"
  balances := (∅ : Dict String ℚ).set "USD" 100
  initialBalances := (∅ : Dict String ℚ).set "BTC" 1
  lastPrice := 100
  base := "BTC"
  quote := "USD"
  symbol_eq := rfl
  quote_length := rfl
  priced := by norm_num

/-- The estimates report the proceeds of the sale as a profit. -/
theorem sale_reported_as_profit :
    (aggregateFullPortfolio [soldOut.toPortfolioUnitRow] ∅ ∅ "USD" true "").spotTotalEstCurrent -
        (aggregateFullPortfolio [soldOut.toPortfolioUnitRow] ∅ ∅ "USD" true "").spotTotalEstInitial =
      100 ∧ ([soldOut].map SpotRow.gain).sum = 0 := by
  decide +kernel

end Basis

end Finiex.PortfolioRollup
