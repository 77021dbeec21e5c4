import Finiex.Executor
import Finiex.PortfolioLedger

namespace Finiex.ExecutorFills

open Finiex.Types
open Finiex.Lib
open Finiex.Lib.Run
open Finiex.Fees
open Finiex.Positions
open Finiex.Broker
open Finiex.Orders
open Finiex.Portfolio
open Finiex.Portfolio.PortfolioManager
open Finiex.PortfolioRefresh
open Finiex.PortfolioLedger
open Finiex.Executor

variable {cfg : ExecutorConfig} {market : MarketState}

theorem requireTick_eq_ok {tick : TickData} :
    requireTick market = .ok tick ↔ market.currentTick = some tick := by
  unfold requireTick
  cases market.currentTick <;> simp

theorem getCurrentPrice_eq_ok {symbol : String} {bid ask : ℚ} :
    getCurrentPrice market symbol = .ok (bid, ask) ↔
      ∃ tick, market.currentTick = some tick ∧ tick.symbol = symbol ∧
        tick.bid = bid ∧ tick.ask = ask := by
  unfold getCurrentPrice
  cases market.currentTick with
  | none => simp
  | some tick => by_cases hsymbol : tick.symbol = symbol <;> simp [hsymbol]

theorem executorTickValue_eq_ok {spec : SymbolSpecification} {price value : ℚ}
    (h : executorTickValue cfg spec price = .ok value) :
    value = tickValueAt cfg.portfolio spec price := by
  obtain ⟨⟨rate, value'⟩, hvalue, hpure⟩ := bind_eq_ok.mp h
  cases hpure
  exact calculateTickValue_snd cfg.portfolio hvalue

theorem checkFunds_portfolio {pm pm' : PortfolioManager} {pending : PendingOrder}
    {direction : OrderDirection} {tick : TickData} {spec : SymbolSpecification}
    {entryPrice : ℚ} {entryFee : TradingFee}
    {rejection : Option (RejectionReason × RejectionMessage)}
    (h : checkFunds cfg market pm pending direction tick spec entryPrice entryFee =
      .ok (pm', rejection)) :
    pm' = pm ∨ pm.ensurePositionsUpdated cfg.portfolio market.clockTime = .ok pm' := by
  unfold checkFunds at h
  split at h
  · obtain ⟨required, -, h⟩ := bind_eq_ok.mp h
    obtain ⟨⟨pm₁, info⟩, hinfo, h⟩ := bind_eq_ok.mp h
    have hensure := getAccountInfo_eq_ok hinfo
    simp only at h
    split at h <;>
    · cases h
      exact .inr hensure
  · split at h
    · cases direction <;> simp only at h <;> split at h <;>
      · cases h
        exact .inl rfl
    · cases h
      exact .inl rfl

/-- An open fill ends in a rejection for lack of funds or in a new position. -/
theorem fillOpenOrder_eq_ok {ledger ledger' : ExecutionLedger} {pending : PendingOrder}
    {fillPrice : Option ℚ} {entryType : EntryType} {fillType : FillType}
    (h : fillOpenOrder cfg market ledger pending fillPrice entryType fillType = .ok ledger') :
    ∃ tick spec entryPrice pm,
      market.currentTick = some tick ∧
      tick.symbol = pending.symbol ∧
      cfg.broker.symbols.get? pending.symbol = some spec ∧
      (∀ price, fillPrice = some price → entryPrice = price) ∧
      (pm = ledger.portfolio ∨
        ledger.portfolio.ensurePositionsUpdated cfg.portfolio market.clockTime = .ok pm) ∧
      ((∃ reason message, ledger' = { ledger with portfolio := pm }.rejectOrder cfg .fill pending
          (createRejectionResult pending.pendingOrderId reason message)) ∨
        ∃ tickValue bid ask entryFee trades seq pm' now,
          tickValue = tickValueAt cfg.portfolio spec tick.mid ∧
          market.clockTime = some now ∧
          pm.openPosition cfg.portfolio market.clockTime (openPositionArgs market pending
            (pending.direction.getD .short) spec entryPrice tickValue bid ask entryFee entryType
            trades) = .ok pm' ∧
          ledger' = { ledger with portfolio := pm', synthTradeSeq := seq }.executeOrder cfg pending
            (openOrderResult market pending entryPrice entryFee fillType now)) := by
  unfold fillOpenOrder at h
  obtain ⟨tick, htick, h⟩ := bind_eq_ok.mp h
  obtain ⟨⟨bid, ask⟩, hprice, h⟩ := bind_eq_ok.mp h
  obtain ⟨spec, hspec, h⟩ := bind_eq_ok.mp h
  obtain ⟨tickValue, hvalue, h⟩ := bind_eq_ok.mp h
  obtain ⟨⟨pm, rejection⟩, hfunds, h⟩ := bind_eq_ok.mp h
  rw [requireTick_eq_ok] at htick
  obtain ⟨tick', htick', hsymbol, -, -⟩ := getCurrentPrice_eq_ok.mp hprice
  obtain rfl : tick' = tick := Option.some.inj (htick'.symm.trans htick)
  have hentry : ∀ price marketPrice : ℚ,
      fillPrice = some price → fillPrice.getD marketPrice = price := by
    rintro price marketPrice rfl
    rfl
  refine ⟨tick', spec, fillPrice.getD (entrySide (pending.direction.getD .short) bid ask), pm, htick, hsymbol, getSymbolSpecification_eq_ok.mp hspec,
    fun price hfill => hentry price _ hfill, checkFunds_portfolio hfunds, ?_⟩
  cases rejection with
  | some verdict =>
      obtain ⟨reason, message⟩ := verdict
      cases h
      exact .inl ⟨reason, message, rfl⟩
  | none =>
      obtain ⟨⟨seq, trades⟩, -, h⟩ := bind_eq_ok.mp h
      obtain ⟨pm', hopen, h⟩ := bind_eq_ok.mp h
      obtain ⟨now, hnow, h⟩ := bind_eq_ok.mp h
      cases h
      exact .inr ⟨tickValue, bid, ask, _, trades, seq, pm', now, executorTickValue_eq_ok hvalue,
        clockNow_eq_ok.mp hnow, hopen, rfl⟩

/-- A close fill finds no position, or an invalid size, and only logs itself; or it closes
the position in the portfolio, partly or fully, and records the result. -/
theorem fillCloseOrder_eq_ok {ledger ledger' : ExecutionLedger} {pending : PendingOrder}
    {fillPrice : Option ℚ} {closeReason : CloseReason}
    (h : fillCloseOrder cfg market ledger pending fillPrice closeReason = .ok ledger') :
    ∃ tick, market.currentTick = some tick ∧
      ((ledger' = ledger.record (.fillCloseOrder pending closeReason) ∧
          (ledger.portfolio.getPosition pending.pendingOrderId = none ∨
            pending.closeLots.any (· ≤ 0) = true)) ∨
        ∃ position spec closePrice exitTickValue closing seq trades pm pnl now result,
          ledger.portfolio.getPosition pending.pendingOrderId = some position ∧
          tick.symbol = position.symbol ∧
          pending.closeLots.any (· ≤ 0) = false ∧
          cfg.broker.symbols.get? position.symbol = some spec ∧
          closePrice = fillPrice.getD (position.closeSide tick.bid tick.ask) ∧
          exitTickValue = tickValueAt cfg.portfolio spec ((tick.bid + tick.ask) / 2) ∧
          closing = partialLots pending.closeLots position.lots spec.volumeMin ∧
          closeInPortfolio cfg market ledger.portfolio
            (closeArgs market pending closePrice exitTickValue closeReason trades) closing =
              .ok (pm, pnl) ∧
          result = closeOrderResult pending position closePrice closing pnl now ∧
          ledger' = { ledger with
            portfolio := pm
            synthTradeSeq := seq
            orderHistory := appendBounded cfg.orderHistoryMax ledger.orderHistory result
            orderHistoryLimitWarned :=
              (ledger.checkOrderHistoryLimit cfg).orderHistoryLimitWarned
            log := ledger.log ++ [.fillCloseOrder pending closeReason,
                .closeFilled ⟨pending, fillPrice, closeReason, tick, position,
                  refreshQuote ledger.portfolio position, result⟩,
                .result .fill result] ++
              closing.toList.map fun lots => .partialClose pending.pendingOrderId lots
                (position.lots - lots) closePrice }) := by
  unfold fillCloseOrder at h
  obtain ⟨tick, htick, h⟩ := bind_eq_ok.mp h
  rw [requireTick_eq_ok] at htick
  refine ⟨tick, htick, ?_⟩
  cases hposition : ledger.portfolio.getPosition pending.pendingOrderId with
  | none =>
      simp only [ExecutionLedger.record, hposition] at h
      cases h
      exact .inl ⟨rfl, .inl rfl⟩
  | some position =>
      simp only [ExecutionLedger.record, hposition] at h
      obtain ⟨⟨bid, ask⟩, hprice, h⟩ := bind_eq_ok.mp h
      obtain ⟨spec, hspec, h⟩ := bind_eq_ok.mp h
      obtain ⟨exitTickValue, hvalue, h⟩ := bind_eq_ok.mp h
      obtain ⟨tick', htick', hsymbol, rfl, rfl⟩ := getCurrentPrice_eq_ok.mp hprice
      obtain rfl : tick' = tick := Option.some.inj (htick'.symm.trans htick)
      cases hlots : pending.closeLots.any (· ≤ 0) with
      | true =>
          simp only [hlots, if_true] at h
          cases h
          exact .inl ⟨rfl, .inr rfl⟩
      | false =>
          simp only [hlots, Bool.false_eq_true, if_false] at h
          obtain ⟨-, -, h⟩ := bind_eq_ok.mp h
          obtain ⟨⟨seq, trades⟩, -, h⟩ := bind_eq_ok.mp h
          obtain ⟨⟨pm, pnl⟩, hclose, h⟩ := bind_eq_ok.mp h
          obtain ⟨now, -, h⟩ := bind_eq_ok.mp h
          refine .inr ⟨position, spec, _, exitTickValue, _, seq, trades, pm, pnl, now, _, rfl,
            hsymbol, rfl, getSymbolSpecification_eq_ok.mp hspec, rfl,
            executorTickValue_eq_ok hvalue, rfl, hclose, rfl, ?_⟩
          split at h
          · next lots hclosing =>
              cases h
              rw [hclosing]
              simp [ExecutionLedger.appendResult, ExecutionLedger.checkOrderHistoryLimit]
          · next hfull =>
              cases h
              rw [hfull]
              simp [ExecutionLedger.appendResult, ExecutionLedger.checkOrderHistoryLimit]

end Finiex.ExecutorFills
