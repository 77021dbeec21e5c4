import Finiex.SimulatorProfits
import Mathlib.Order.WithBot

namespace Finiex.TradeStatistics

open Finiex.Types
open Finiex.Lib
open Finiex.Lib.Run
open Finiex.Positions
open Finiex.Orders
open Finiex.OrderBooks
open Finiex.Portfolio
open Finiex.Portfolio.PortfolioManager
open Finiex.PortfolioRefresh
open Finiex.PortfolioLedger
open Finiex.PortfolioFrames
open Finiex.Executor
open Finiex.ExecutorFills
open Finiex.Simulator
open Finiex.SimulatorSpecs
open Finiex.SimulatorLedger
open Finiex.SimulatorProfits

section Reports

structure PortfolioStats extends TradeStatistics where
  winRate : ℚ
  profitFactor : WithTop ℚ
  totalSpreadCost : ℚ
  totalCommission : ℚ
  totalSwap : ℚ
  makerFee : ℚ
  takerFee : ℚ
  totalFees : ℚ
  currency : String
  currentConversionRate : Option ℚ
  currentBalance : ℚ
  initialBalance : ℚ
  spotMode : Bool
  balances : Dict String ℚ
  initialBalances : Dict String ℚ

def getPortfolioStatistics (cfg : PortfolioConfig) (clock : Option Instant)
    (pm : PortfolioManager) : Except PyError (PortfolioManager × PortfolioStats) := do
  let pm ← pm.ensurePositionsUpdated cfg clock
  let stats := pm.statistics
  let costs := pm.costTracking
  return (pm, {
    toTradeStatistics := stats
    winRate :=
      if 0 < stats.totalTrades then (stats.winningTrades : ℚ) / stats.totalTrades else 0
    profitFactor :=
      if 0 < stats.totalLoss then ((stats.totalProfit / stats.totalLoss : ℚ) : WithTop ℚ)
      else if stats.totalProfit = 0 then 0 else ⊤
    totalSpreadCost := costs.totalSpreadCost
    totalCommission := costs.totalCommission
    totalSwap := costs.totalSwap
    makerFee := costs.makerFee
    takerFee := costs.takerFee
    totalFees := costs.totalFees
    currency := cfg.accountCurrency
    currentConversionRate := pm.lastConversionRate
    currentBalance := pm.balance cfg
    initialBalance := cfg.startBalances.getD cfg.accountCurrency 0
    spotMode := cfg.spotMode
    balances := pm.balances
    initialBalances := cfg.startBalances })

end Reports

section Counts

def wins (record : TradeRecord) : Bool := decide (0 < record.netPnl)

def netOf (test : TradeRecord → Bool) (records : List TradeRecord) : ℚ :=
  ((records.filter test).map TradeRecord.netPnl).sum

def totalNetPnl (records : List TradeRecord) : ℚ := (records.map TradeRecord.netPnl).sum

structure Counts (stats : TradeStatistics) (records : List TradeRecord) : Prop where
  trades : stats.totalTrades = records.length
  long : stats.totalLongTrades = records.countP (·.direction = .long)
  short : stats.totalShortTrades = records.countP (·.direction = .short)
  winning : stats.winningTrades = records.countP wins
  losing : stats.losingTrades = records.countP (!wins ·)
  profit : stats.totalProfit = netOf wins records
  loss : stats.totalLoss = -netOf (!wins ·) records

variable {stats : TradeStatistics} {records : List TradeRecord}

theorem netOf_concat (test : TradeRecord → Bool) (records : List TradeRecord)
    (record : TradeRecord) :
    netOf test (records ++ [record]) =
      netOf test records + if test record then record.netPnl else 0 := by
  unfold netOf
  rw [List.filter_append, List.map_append, List.sum_append]
  cases htest : test record with
  | true => simp [htest]
  | false => simp [htest]

theorem netOf_add_netOf (test : TradeRecord → Bool) (records : List TradeRecord) :
    netOf test records + netOf (!test ·) records = totalNetPnl records := by
  induction records using List.reverseRecOn with
  | nil => simp [netOf, totalNetPnl]
  | append_singleton records record ih =>
      rw [netOf_concat, netOf_concat, totalNetPnl, List.map_append, List.sum_append, ← totalNetPnl, ← ih]
      cases htest : test record with
      | true =>
          simp
          ring
      | false =>
          simp
          ring

theorem netOf_wins_nonneg (records : List TradeRecord) : 0 ≤ netOf wins records := by
  apply List.sum_nonneg
  rintro pnl hmem
  obtain ⟨record, hrecord, rfl⟩ := List.mem_map.mp hmem
  exact (of_decide_eq_true (List.mem_filter.mp hrecord).2).le

theorem netOf_losses_nonpos (records : List TradeRecord) : netOf (!wins ·) records ≤ 0 := by
  induction records using List.reverseRecOn with
  | nil => simp [netOf]
  | append_singleton records record ih =>
      rw [netOf_concat]
      by_cases hwins : 0 < record.netPnl
      · simpa [wins, hwins] using ih
      · simpa [wins, hwins] using add_nonpos ih (not_lt.mp hwins)

theorem Counts.updated {cfg : PortfolioConfig} {pm : PortfolioManager} {record : TradeRecord}
    (h : Counts pm.statistics records) :
    Counts (pm.updateStatistics cfg record.direction record.netPnl).statistics
      (records ++ [record]) where
  trades := by
    rw [List.length_append, ← h.trades]
    rfl
  long := by
    rw [List.countP_append, ← h.long]
    simp [updateStatistics, List.countP_singleton]
  short := by
    rw [List.countP_append, ← h.short]
    simp [updateStatistics, List.countP_singleton]
  winning := by
    rw [List.countP_append, ← h.winning]
    simp [updateStatistics, List.countP_singleton, wins]
  losing := by
    rw [List.countP_append, ← h.losing]
    by_cases hwins : 0 < record.netPnl
    · simp [updateStatistics, wins, hwins]
    · simp [updateStatistics, wins, hwins]
  profit := by
    rw [netOf_concat, ← h.profit]
    simp [updateStatistics, wins]
  loss := by
    rw [netOf_concat, neg_add, ← h.loss]
    by_cases hwins : 0 < record.netPnl
    · simp [updateStatistics, wins, hwins]
    · have habs : |record.netPnl| = -record.netPnl := abs_of_nonpos (not_lt.mp hwins)
      simp [updateStatistics, wins, hwins, habs]

theorem Counts.trades_eq (h : Counts stats records) :
    stats.totalTrades = stats.winningTrades + stats.losingTrades ∧
      stats.totalTrades = stats.totalLongTrades + stats.totalShortTrades := by
  refine ⟨?_, ?_⟩
  · rw [h.trades, h.winning, h.losing, List.length_eq_countP_add_countP wins]
    simp
  · rw [h.trades, h.long, h.short, List.length_eq_countP_add_countP (·.direction = .long)]
    congr 1
    apply List.countP_congr
    rintro record -
    cases record.direction <;> decide

theorem Counts.net (h : Counts stats records) :
    stats.totalProfit - stats.totalLoss = totalNetPnl records := by
  rw [h.profit, h.loss, sub_neg_eq_add]
  exact netOf_add_netOf wins records

/-- A profit factor above one means a net profit. -/
theorem Counts.profitFactor (h : Counts stats records) :
    1 < (if 0 < stats.totalLoss then ((stats.totalProfit / stats.totalLoss : ℚ) : WithTop ℚ)
      else if stats.totalProfit = 0 then 0 else ⊤) ↔ stats.totalLoss < stats.totalProfit := by
  have hprofit : 0 ≤ stats.totalProfit := h.profit ▸ netOf_wins_nonneg records
  have hloss : 0 ≤ stats.totalLoss := by
    rw [h.loss]
    exact neg_nonneg.mpr (netOf_losses_nonpos records)
  rcases hloss.lt_or_eq with hpositive | hzero
  · rw [if_pos hpositive, ← WithTop.coe_one, WithTop.coe_lt_coe]
    exact one_lt_div hpositive
  · rw [← hzero, if_neg (lt_irrefl _)]
    rcases hprofit.lt_or_eq with hgain | hnone
    · simp [hgain, hgain.ne']
    · simp [← hnone]

end Counts

section Ledger

/-- The record documents the close as it was reported. -/
structure Reports (fill : CloseFill) (record : TradeRecord) : Prop where
  position : record.positionId = fill.position.positionId
  direction : record.direction = fill.position.direction
  pnl : fill.result.metadata = .closeFill record.netPnl

/-- Reported closes, trade log, statistics and balance agree. -/
structure Tallied (cfg : ExecutorConfig) (ledger : ExecutionLedger) : Prop where
  reported : List.Forall₂ Reports (closeFills ledger) ledger.portfolio.tradeLog
  counts : Counts ledger.portfolio.statistics ledger.portfolio.tradeLog
  realized : ledger.portfolio.realizedPnl = totalNetPnl ledger.portfolio.tradeLog
  balance : cfg.portfolio.spotMode = false → ledger.portfolio.balance cfg.portfolio =
    cfg.portfolio.startBalances.getD cfg.portfolio.accountCurrency 0 +
      totalNetPnl ledger.portfolio.tradeLog

variable {cfg : ExecutorConfig} {market : MarketState} {ledger ledger' : ExecutionLedger}

/-- What the tally reads of a portfolio in margin mode stays. -/
structure SameTally (cfg : PortfolioConfig) (pm pm' : PortfolioManager) : Prop where
  records : pm'.tradeLog = pm.tradeLog
  statistics : pm'.statistics = pm.statistics
  realized : pm'.realizedPnl = pm.realizedPnl
  balance : cfg.spotMode = false → pm'.balance cfg = pm.balance cfg

theorem Tallied.frame (h : Tallied cfg ledger) (hfills : closeFills ledger' = closeFills ledger)
    (hsame : SameTally cfg.portfolio ledger.portfolio ledger'.portfolio) : Tallied cfg ledger' where
  reported := by
    rw [hfills, hsame.records]
    exact h.reported
  counts := by
    rw [hsame.statistics, hsame.records]
    exact h.counts
  realized := by
    rw [hsame.realized, hsame.records]
    exact h.realized
  balance hmargin := by
    rw [hsame.balance hmargin, hsame.records]
    exact h.balance hmargin

theorem SameTally.refl (cfg : PortfolioConfig) (pm : PortfolioManager) : SameTally cfg pm pm :=
  ⟨rfl, rfl, rfl, fun _ => rfl⟩

theorem sameTally_ensure {cfg : PortfolioConfig} {clock : Option Instant}
    {pm pm' : PortfolioManager} (h : pm.ensurePositionsUpdated cfg clock = .ok pm') :
    SameTally cfg pm pm' := by
  obtain ⟨⟨costs, positions, rate, rfl⟩, -⟩ := ensurePositionsUpdated_eq_ok h
  exact ⟨rfl, rfl, rfl, fun _ => rfl⟩

theorem sameTally_openPosition {cfg : PortfolioConfig} {clock : Option Instant}
    {pm pm' : PortfolioManager} {args : OpenPositionArgs}
    (h : pm.openPosition cfg clock args = .ok pm') : SameTally cfg pm pm' := by
  obtain ⟨now, costs, balances, -, hpm⟩ := openPosition_eq_ok h
  refine ⟨by rw [hpm], by rw [hpm], by rw [hpm], fun hmargin => ?_⟩
  obtain ⟨now', -, rfl⟩ := openPosition_margin_eq_ok hmargin h
  cases args.entryFee with
  | none => rfl
  | some fee => rfl

structure BookedClose (cfg : PortfolioConfig) (pm pm' : PortfolioManager) (position : Position)
    (pnl : ℚ) (record : TradeRecord) : Prop where
  hposition : record.positionId = position.positionId
  hdirection : record.direction = position.direction
  hpnl : record.netPnl = pnl
  records : pm'.tradeLog = pm.tradeLog ++ [record]
  realized : pm'.realizedPnl = pm.realizedPnl + pnl
  counted : ∃ before, before.statistics = pm.statistics ∧
    pm'.statistics = (updateStatistics cfg before record.direction record.netPnl).statistics
  balance : cfg.spotMode = false → pm'.balance cfg = pm.balance cfg + pnl

theorem bookedClose {pm pm' : PortfolioManager} {args : CloseArgs} {closing : Option ℚ} {pnl : ℚ}
    (hfee : args.exitFee = none)
    (h : closeInPortfolio cfg market pm args closing = .ok (pm', pnl)) :
    ∃ position record, pm.getPosition args.positionId = some position ∧
      BookedClose cfg.portfolio pm pm' position pnl record := by
  cases closing with
  | none =>
      obtain ⟨position, pm₁, pm₂, closed, now, hposition, hensure, hrealize, -, hpnl, hpm⟩ :=
        closePositionPortfolio_inv h
      have hsame := sameTally_ensure hensure
      obtain ⟨hid, -, hdirection, -, -⟩ := contract_eq_iff.mp
        (refreshed_contract cfg.portfolio market.clockTime pm position).1
      obtain ⟨hbalances, hclosed⟩ := realizeClose_inv hrealize
      simp only [hfee, recordFee, withExitFee] at hrealize hbalances hclosed
      have hkept : closed.positionId = position.positionId ∧
          closed.direction = position.direction := by
        rcases hclosed with rfl | rfl
        · exact ⟨hid, hdirection⟩
        · exact ⟨hid, hdirection⟩
      refine ⟨position, createTradeRecord cfg.portfolio args closed now, hposition,
        hkept.1, hkept.2, hpnl.symm, ?_, ?_, ?_, fun hmargin => ?_⟩
      · obtain ⟨balances, rfl⟩ := hbalances
        rw [hpm, ← hsame.records]
        rfl
      · obtain ⟨balances, rfl⟩ := hbalances
        rw [hpm, ← hsame.realized]
        rfl
      · obtain ⟨balances, rfl⟩ := hbalances
        refine ⟨_, ?_, by rw [hpm, hpnl]; rfl⟩
        exact hsame.statistics
      · simp only [realizeClose, hmargin, Bool.false_eq_true, if_false] at hrealize
        cases hrealize
        rw [hpm, hpnl, ← hsame.balance hmargin]
        exact balance_setBalance pm₁ _
  | some lots =>
      obtain ⟨position, pm₁, pm₂, now, closed, balances, hposition, hensure, -, hclosed, -, hpnl,
        hpm₂, hmarginBalance, -, hpm⟩ := partialClosePosition_inv h
      have hsame := sameTally_ensure hensure
      obtain ⟨hid, -, hdirection, -, -⟩ := contract_eq_iff.mp
        (refreshed_contract cfg.portfolio market.clockTime pm position).1
      simp only [hfee, recordFee] at hpm₂ hmarginBalance
      refine ⟨position, partialRecord cfg.portfolio args closed now lots, hposition,
        by rw [← hid, ← hclosed]; rfl, by rw [← hdirection, ← hclosed]; rfl, hpnl.symm, ?_, ?_, ?_,
        fun hmargin => ?_⟩
      · rw [hpm, hpm₂, ← hsame.records]
        rfl
      · rw [hpm, hpm₂, ← hsame.realized]
        rfl
      · refine ⟨_, ?_, by rw [hpm, hpnl]; rfl⟩
        rw [hpm₂]
        exact hsame.statistics
      · rw [hpm, hmarginBalance hmargin, ← hsame.balance hmargin]
        exact balance_setBalance pm₁ _

/-- A close fill closes nothing, or books and reports one close. -/
theorem tallied_closeFill (h : Tallied cfg ledger) {pending : PendingOrder}
    {fillPrice : Option ℚ} {closeReason : CloseReason}
    (hfill : fillCloseOrder cfg market ledger pending fillPrice closeReason = .ok ledger') :
    Tallied cfg ledger' := by
  obtain ⟨tick, -, ⟨rfl, -⟩ | ⟨position, spec, closePrice, exitTickValue, closing, seq, trades, pm,
    pnl, now, result, hposition, -, -, -, -, -, -, hclose, rfl, rfl⟩⟩ := fillCloseOrder_eq_ok hfill
  · exact h.frame (closeFills_append [.fillCloseOrder _ _] rfl (by simp [isNote])) (.refl _ _)
  let fill : CloseFill := ⟨pending, fillPrice, closeReason, tick, position,
    refreshQuote ledger.portfolio position,
    closeOrderResult pending position closePrice closing pnl now⟩
  have hnotes : ∀ event ∈ closing.toList.map fun lots =>
      AuditEvent.partialClose pending.pendingOrderId lots (position.lots - lots) closePrice,
      isNote event = true := by
    intro event hmem
    obtain ⟨lots, -, rfl⟩ := List.mem_map.mp hmem
    rfl
  have hfills : ∀ ledger' : ExecutionLedger,
      ledger'.log = ledger.log ++ [.fillCloseOrder pending closeReason, .closeFilled fill,
        .result .fill fill.result] ++ closing.toList.map (fun lots =>
          .partialClose pending.pendingOrderId lots (position.lots - lots) closePrice) →
      closeFills ledger' = closeFills ledger ++ [fill] :=
    fun ledger' hlog => closeFills_concat hlog rfl rfl hnotes
  obtain ⟨before, record, hbefore, hbooked⟩ := bookedClose rfl hclose
  obtain rfl : before = position := Option.some.inj (hbefore.symm.trans hposition)
  obtain ⟨counted, hcounted, hstats⟩ := hbooked.counted
  have hnet : totalNetPnl (ledger.portfolio.tradeLog ++ [record]) =
      totalNetPnl ledger.portfolio.tradeLog + pnl := by
    simp [totalNetPnl, hbooked.hpnl]
  refine ⟨?_, ?_, ?_, fun hmargin => ?_⟩
  · rw [hfills _ rfl]
    change List.Forall₂ Reports _ pm.tradeLog
    rw [hbooked.records]
    refine List.rel_append h.reported (.cons ⟨hbooked.hposition, hbooked.hdirection, ?_⟩ .nil)
    exact congrArg ResultMetadata.closeFill hbooked.hpnl.symm
  · change Counts pm.statistics pm.tradeLog
    rw [hstats, hbooked.records]
    refine Counts.updated ?_
    rw [hcounted]
    exact h.counts
  · change pm.realizedPnl = totalNetPnl pm.tradeLog
    rw [hbooked.realized, hbooked.records, hnet, h.realized]
  · change pm.balance cfg.portfolio = _ + totalNetPnl pm.tradeLog
    rw [hbooked.balance hmargin, hbooked.records, hnet, h.balance hmargin, add_assoc]

theorem tallied_openFill (h : Tallied cfg ledger) {pending : PendingOrder}
    {fillPrice : Option ℚ} {entryType : EntryType} {fillType : FillType}
    (hfill : fillOpenOrder cfg market ledger pending fillPrice entryType fillType = .ok ledger') :
    Tallied cfg ledger' := by
  obtain ⟨tick, spec, entryPrice, pm, -, -, -, -, hpm, hend⟩ := fillOpenOrder_eq_ok hfill
  have hfunds : Tallied cfg { ledger with portfolio := pm } := by
    rcases hpm with rfl | hensure
    · exact h
    · exact h.frame rfl (sameTally_ensure hensure)
  rcases hend with ⟨reason, message, rfl⟩ |
      ⟨tickValue, bid, ask, entryFee, trades, seq, pm', now, -, -, hopen, rfl⟩
  · refine hfunds.frame ?_ (.refl _ _)
    exact closeFills_append [.result .fill _, .notified _ _ _] (List.append_assoc _ [_] [_])
      (by simp [isNote])
  · refine hfunds.frame ?_ (sameTally_openPosition hopen)
    exact closeFills_append [.result .fill _, .notified _ _ _] (List.append_assoc _ [_] [_])
      (by simp [isNote])

theorem Tallied.move (h : Tallied cfg ledger) (hmove : LedgerMove cfg ledger ledger') :
    Tallied cfg ledger' := by
  cases hmove with
  | openFill hfill => exact tallied_openFill h hfill
  | closeFill hfill => exact tallied_closeFill h hfill
  | refreshed hensure => exact h.frame rfl (sameTally_ensure hensure)
  | levelsModified positionId stopLoss takeProfit =>
      obtain ⟨positions, hframe, -⟩ :=
        modifyPosition_frame ledger.portfolio positionId stopLoss takeProfit
      refine h.frame rfl ?_
      simp only [hframe]
      exact ⟨rfl, rfl, rfl, fun _ => rfl⟩
  | priced tick => exact h.frame rfl ⟨rfl, rfl, rfl, fun _ => rfl⟩
  | numbered symbol => exact h.frame rfl ⟨rfl, rfl, rfl, fun _ => rfl⟩
  | noted events hportfolio hlog hevents =>
      refine h.frame (closeFills_append events hlog hevents) ?_
      rw [hportfolio]
      exact .refl _ _

end Ledger

section Sessions

variable {cfg : SimulatorConfig} {ops : List SimulatorOp} {s s' : TradeSimulator}

theorem tallied_new : Tallied cfg.executor (Simulator.new cfg).ledger where
  reported := .nil
  counts := ⟨rfl, rfl, rfl, rfl, rfl, rfl, by simp [netOf]; rfl⟩
  realized := rfl
  balance _ := (add_zero _).symm

theorem tallied_session (hrun : run (step cfg) (Simulator.new cfg) ops = .ok s)
    (hend : s' = s ∨ closeAllRemainingOrders cfg s = .ok s') :
    Tallied cfg.executor s'.ledger := by
  have hmove : ∀ ledger ledger', Tallied cfg.executor ledger →
      LedgerMove cfg.executor ledger ledger' → Tallied cfg.executor ledger' :=
    fun _ _ h hmove => h.move hmove
  have hrunning : Tallied cfg.executor s.ledger := ledger_invariant hmove tallied_new hrun
  rcases hend with rfl | hclosed
  · exact hrunning
  · exact (path_closeAllRemainingOrders hclosed).invariant hmove hrunning

/-- At every moment of a session and after its end the statistics it reports are those of the
trade log, which holds one record for each close reported to the logic. In margin mode the
balance has moved by profit less loss, so the profit factor exceeds one exactly when the account
has grown. -/
theorem statistics_reconcile (hrun : run (step cfg) (Simulator.new cfg) ops = .ok s)
    (hend : s' = s ∨ closeAllRemainingOrders cfg s = .ok s') {clock : Option Instant}
    {pm : PortfolioManager} {stats : PortfolioStats}
    (hstats : getPortfolioStatistics cfg.executor.portfolio clock s'.ledger.portfolio =
      .ok (pm, stats)) :
    List.Forall₂ Reports (closeFills s'.ledger) s'.ledger.portfolio.tradeLog ∧
      Counts stats.toTradeStatistics s'.ledger.portfolio.tradeLog ∧
      (stats.totalTrades = stats.winningTrades + stats.losingTrades ∧
        stats.totalTrades = stats.totalLongTrades + stats.totalShortTrades) ∧
      (cfg.executor.portfolio.spotMode = false →
        stats.currentBalance = stats.initialBalance + stats.totalProfit - stats.totalLoss ∧
          (1 < stats.profitFactor ↔ stats.initialBalance < stats.currentBalance)) := by
  have htallied := tallied_session hrun hend
  obtain ⟨refreshed, hensure, hpure⟩ := bind_eq_ok.mp hstats
  cases hpure
  have hsame := sameTally_ensure hensure
  have hcounts : Counts pm.statistics s'.ledger.portfolio.tradeLog := by
    rw [hsame.statistics]
    exact htallied.counts
  refine ⟨htallied.reported, hcounts, hcounts.trades_eq, fun hmargin => ?_⟩
  have hbalance : pm.balance cfg.executor.portfolio =
      cfg.executor.portfolio.startBalances.getD cfg.executor.portfolio.accountCurrency 0 +
        (pm.statistics.totalProfit - pm.statistics.totalLoss) := by
    rw [hsame.balance hmargin, htallied.balance hmargin, hcounts.net]
  refine ⟨hbalance.trans (add_sub_assoc _ _ _).symm, hcounts.profitFactor.trans ?_⟩
  change _ ↔ _ < pm.balance cfg.executor.portfolio
  rw [hbalance]
  exact (lt_add_iff_pos_right _).trans sub_pos |>.symm

theorem profitableLong_stats :
    (endedSession (filledLong none ++
          [.tick (eurusdTick (11010 / 10000) (11012 / 10000) 1020)]) >>= fun s =>
        getPortfolioStatistics usdAccount none s.ledger.portfolio).map
      (fun reported => (reported.2.totalTrades, reported.2.totalProfit, reported.2.totalLoss)) =
      .ok (1, 60, 0) := by
  decide +kernel

theorem statistics_reconcile_profitableLong :
    ∃ (s' : TradeSimulator) (pm : PortfolioManager) (stats : PortfolioStats),
      endedSession (filledLong none ++
          [.tick (eurusdTick (11010 / 10000) (11012 / 10000) 1020)]) = .ok s' ∧
      getPortfolioStatistics usdAccount none s'.ledger.portfolio = .ok (pm, stats) ∧
      (List.Forall₂ Reports (closeFills s'.ledger) s'.ledger.portfolio.tradeLog ∧
        Counts stats.toTradeStatistics s'.ledger.portfolio.tradeLog ∧
        (stats.totalTrades = stats.winningTrades + stats.losingTrades ∧
          stats.totalTrades = stats.totalLongTrades + stats.totalShortTrades) ∧
        (usdAccount.spotMode = false →
          stats.currentBalance = stats.initialBalance + stats.totalProfit - stats.totalLoss ∧
            (1 < stats.profitFactor ↔ stats.initialBalance < stats.currentBalance))) ∧
      (stats.totalTrades, stats.totalProfit, stats.totalLoss) = (1, 60, 0) := by
  obtain ⟨⟨pm, stats⟩, hreported, hvalues⟩ := exists_of_map_eq_ok profitableLong_stats
  obtain ⟨s', hended, hstats⟩ := bind_eq_ok.mp hreported
  obtain ⟨s, hrun, hclosed⟩ := bind_eq_ok.mp hended
  exact ⟨s', pm, stats, hended, hstats, statistics_reconcile hrun (.inr hclosed) hstats, hvalues⟩

end Sessions

end Finiex.TradeStatistics
