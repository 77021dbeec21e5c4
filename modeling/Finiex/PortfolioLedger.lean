import Finiex.PortfolioRefresh
import Mathlib.Tactic.Linarith
import Mathlib.Tactic.NormNum

namespace Finiex.PortfolioLedger

open Finiex.Types
open Finiex.Lib
open Finiex.Lib.Run
open Finiex.Fees
open Finiex.Positions
open Finiex.Portfolio
open Finiex.Portfolio.PortfolioManager
open Finiex.PortfolioRefresh

section Closes

variable {cfg : PortfolioConfig} {clock : Option Instant}

theorem balance_setBalance (pm : PortfolioManager) (value : ℚ) :
    (pm.setBalance cfg value).balance cfg = value := by
  simp [setBalance, balance, Dict.getD]

theorem appendBounded_zero {α : Type} (xs : List α) (x : α) :
    appendBounded 0 xs x = xs ++ [x] := rfl

def booked (cfg : PortfolioConfig) (pm : PortfolioManager) (record : TradeRecord)
    (positions : Dict String Position) : PortfolioManager :=
  let credited := pm.setBalance cfg (pm.balance cfg + record.netPnl)
  let credited := { credited with realizedPnl := pm.realizedPnl + record.netPnl }
  updateStatistics cfg { credited.appendTradeRecord cfg record with openPositions := positions }
    record.direction record.netPnl

theorem booked_balance (pm : PortfolioManager) (record : TradeRecord)
    (positions : Dict String Position) :
    (booked cfg pm record positions).balance cfg = pm.balance cfg + record.netPnl :=
  balance_setBalance pm _

theorem booked_tradeHistory (pm : PortfolioManager) (record : TradeRecord)
    (positions : Dict String Position) :
    (booked cfg pm record positions).tradeHistory =
      appendBounded cfg.tradeHistoryMax pm.tradeHistory record := rfl

/-- A full close finds the position, refreshes the portfolio, and realizes and records the
refreshed position. -/
theorem closePositionPortfolio_inv {pm pm' : PortfolioManager} {args : CloseArgs} {pnl : ℚ}
    (h : pm.closePositionPortfolio cfg clock args = .ok (pm', pnl)) :
    ∃ position pm₁ pm₂ closed now,
      pm.getPosition args.positionId = some position ∧
      pm.ensurePositionsUpdated cfg clock = .ok pm₁ ∧
      realizeClose cfg (pm₁.recordFee args.exitFee) args
        (withExitFee (marked cfg pm (accrued cfg clock position)) args.exitFee) =
          .ok (pm₂, closed) ∧
      clock = some now ∧
      pnl = closed.unrealizedPnl ∧
      pm' = updateStatistics cfg { appendTradeRecord cfg
          { pm₂ with realizedPnl := pm₂.realizedPnl + pnl }
          (createTradeRecord cfg args closed now) with
        openPositions := pm₂.openPositions.erase args.positionId } closed.direction pnl := by
  unfold closePositionPortfolio at h
  cases hposition : pm.getPosition args.positionId with
  | none =>
      simp only [hposition, Option.isNone_none, if_true] at h
      cases h
  | some position =>
      simp only [hposition, Option.isNone_some, Bool.false_eq_true, if_false] at h
      obtain ⟨-, -, h⟩ := bind_eq_ok.mp h
      obtain ⟨pm₁, hensure, h⟩ := bind_eq_ok.mp h
      have hget := (ensurePositionsUpdated_eq_ok hensure).2 args.positionId
      rw [hposition, Option.map_some] at hget
      simp only [hget] at h
      obtain ⟨⟨pm₂, closed⟩, hrealize, h⟩ := bind_eq_ok.mp h
      obtain ⟨now, hnow, h⟩ := bind_eq_ok.mp h
      cases h
      exact ⟨position, pm₁, pm₂, closed, now, rfl, hensure, hrealize,
        clockNow_eq_ok.mp hnow, rfl, rfl⟩

/-- Without an exit fee the margin branch books the refreshed position as it is. -/
theorem closePositionPortfolio_eq_ok (hmargin : cfg.spotMode = false)
    {pm pm' : PortfolioManager} {args : CloseArgs} {pnl : ℚ} (hfee : args.exitFee = none)
    (h : pm.closePositionPortfolio cfg clock args = .ok (pm', pnl)) :
    ∃ position pm₁ now closed,
      pm.getPosition args.positionId = some position ∧
      pm.ensurePositionsUpdated cfg clock = .ok pm₁ ∧
      clock = some now ∧
      closed = marked cfg pm (accrued cfg clock position) ∧
      pnl = closed.unrealizedPnl ∧
      pm' = booked cfg pm₁ (createTradeRecord cfg args closed now)
        (pm₁.openPositions.erase args.positionId) := by
  obtain ⟨position, pm₁, pm₂, closed, now, hposition, hensure, hrealize, hnow, hpnl, hpm⟩ :=
    closePositionPortfolio_inv h
  simp only [hfee, recordFee, withExitFee, realizeClose, hmargin, Bool.false_eq_true,
    if_false] at hrealize
  cases hrealize
  exact ⟨position, pm₁, now, _, hposition, hensure, hnow, rfl, hpnl, by rw [hpm, hpnl]; rfl⟩

theorem recordFee_keeps (pm : PortfolioManager) (fee : Option TradingFee) :
    (pm.recordFee fee).balances = pm.balances ∧
      (pm.recordFee fee).tradeHistory = pm.tradeHistory := by
  cases fee <;> exact ⟨rfl, rfl⟩

def partialRecord (cfg : PortfolioConfig) (args : CloseArgs) (closed : Position)
    (now : Instant) (closeLots : ℚ) : TradeRecord :=
  let ratio := closeLots / closed.lots
  let closedFees := closed.getTotalFees * ratio + feeCost args.exitFee
  tradeRecord cfg args closed .partialClose now closeLots ratio closedFees
    (closed.grossPnl * ratio) (closed.grossPnl * ratio - closedFees)

/-- A partial close finds the position, refreshes the portfolio, and books and records the
closed fraction. -/
theorem partialClosePosition_inv {pm pm' : PortfolioManager} {args : CloseArgs}
    {closeLots pnl : ℚ}
    (h : pm.partialClosePosition cfg clock args closeLots = .ok (pm', pnl)) :
    ∃ position pm₁ pm₂ now closed balances,
      pm.getPosition args.positionId = some position ∧
      pm.ensurePositionsUpdated cfg clock = .ok pm₁ ∧
      clock = some now ∧
      closed = marked cfg pm (accrued cfg clock position) ∧
      closed.lots ≠ 0 ∧
      pnl = (partialRecord cfg args closed now closeLots).netPnl ∧
      pm₂ = { pm₁.recordFee args.exitFee with balances := balances } ∧
      (cfg.spotMode = false →
        pm₂ = setBalance cfg (pm₁.recordFee args.exitFee)
          ((pm₁.recordFee args.exitFee).balance cfg + pnl)) ∧
      (cfg.spotMode = true → ∃ spec, cfg.broker.symbols.get? closed.symbol = some spec ∧
        exchangeAssets pm₁.balances spec (directionToSide closed.direction .closeAction)
          closeLots args.exitPrice (feeCost args.exitFee) = .ok balances) ∧
      pm' = updateStatistics cfg { appendTradeRecord cfg
          { pm₂ with realizedPnl := pm₂.realizedPnl + pnl }
          (partialRecord cfg args closed now closeLots) with
        openPositions := pm₂.openPositions.set args.positionId
          (remainder closed closeLots (1 - closeLots / closed.lots)) } closed.direction pnl := by
  unfold partialClosePosition at h
  cases hposition : pm.getPosition args.positionId with
  | none =>
      simp only [hposition, Option.isNone_none, if_true] at h
      cases h
  | some position =>
      simp only [hposition, Option.isNone_some, Bool.false_eq_true, if_false] at h
      obtain ⟨-, -, h⟩ := bind_eq_ok.mp h
      obtain ⟨pm₁, hensure, h⟩ := bind_eq_ok.mp h
      have hget := (ensurePositionsUpdated_eq_ok hensure).2 args.positionId
      rw [hposition, Option.map_some] at hget
      simp only [hget] at h
      split at h
      · cases h
      · next hlots =>
          cases hspot : cfg.spotMode with
          | true =>
              simp only [hspot, if_true] at h
              obtain ⟨spec, hspec, h⟩ := bind_eq_ok.mp h
              obtain ⟨balances, hexchange, h⟩ := bind_eq_ok.mp h
              obtain ⟨pm₂, hpure, h⟩ := bind_eq_ok.mp h
              obtain ⟨now, hnow, h⟩ := bind_eq_ok.mp h
              cases hpure
              cases h
              rw [(recordFee_keeps pm₁ args.exitFee).1] at hexchange
              exact ⟨position, pm₁, _, now, _, balances, rfl, hensure, clockNow_eq_ok.mp hnow,
                rfl, hlots, rfl, rfl, by simp,
                fun _ => ⟨spec, getSymbolSpecification_eq_ok.mp hspec, hexchange⟩, rfl⟩
          | false =>
              simp only [hspot, Bool.false_eq_true, if_false] at h
              obtain ⟨pm₂, hpure, h⟩ := bind_eq_ok.mp h
              obtain ⟨now, hnow, h⟩ := bind_eq_ok.mp h
              cases hpure
              cases h
              exact ⟨position, pm₁, _, now, _, _, rfl, hensure, clockNow_eq_ok.mp hnow,
                rfl, hlots, rfl, rfl, fun _ => rfl, by simp, rfl⟩

/-- Without an exit fee the margin branch credits the balance with the net P&L. -/
theorem partialClosePosition_eq_ok (hmargin : cfg.spotMode = false)
    {pm pm' : PortfolioManager} {args : CloseArgs} {closeLots pnl : ℚ}
    (hfee : args.exitFee = none)
    (h : pm.partialClosePosition cfg clock args closeLots = .ok (pm', pnl)) :
    ∃ position pm₁ now closed,
      pm.getPosition args.positionId = some position ∧
      pm.ensurePositionsUpdated cfg clock = .ok pm₁ ∧
      clock = some now ∧
      closed = marked cfg pm (accrued cfg clock position) ∧
      closed.lots ≠ 0 ∧
      pnl = (partialRecord cfg args closed now closeLots).netPnl ∧
      pm' = booked cfg pm₁ (partialRecord cfg args closed now closeLots)
        (pm₁.openPositions.set args.positionId
          (remainder closed closeLots (1 - closeLots / closed.lots))) := by
  obtain ⟨position, pm₁, pm₂, now, closed, balances, hposition, hensure, hnow, hclosed, hlots,
    hpnl, -, hbalance, -, hpm⟩ := partialClosePosition_inv h
  have hcredited := hbalance hmargin
  rw [hfee] at hcredited
  exact ⟨position, pm₁, now, closed, hposition, hensure, hnow, hclosed, hlots, hpnl,
    by rw [hpm, hcredited, hpnl]; rfl⟩

variable (cfg) in
theorem partialRecord_netPnl (args : CloseArgs) (closed : Position) (now : Instant)
    (closeLots : ℚ) :
    (partialRecord cfg args closed now closeLots).netPnl =
      (partialRecord cfg args closed now closeLots).grossPnl -
        (partialRecord cfg args closed now closeLots).totalFees := rfl

end Closes

section Charging

variable (cfg : PortfolioConfig) (clock : Option Instant)

/-- Fees and swaps a position would owe at a close but that its cached P&L leaves out. -/
def unchargedFees (position : Position) : ℚ :=
  position.getTotalFees + Position.totalCost (swapsDue cfg clock position) -
    (position.grossPnl - position.unrealizedPnl)

variable {cfg clock}

theorem unchargedFees_eq (position : Position) :
    unchargedFees cfg clock position =
      (accrued cfg clock position).getTotalFees -
        ((accrued cfg clock position).grossPnl - (accrued cfg clock position).unrealizedPnl) := by
  obtain ⟨fees, now, hframe⟩ := accrued_frame cfg clock position
  rw [unchargedFees, ← accrued_getTotalFees, hframe]
  rfl

/-- The refreshed cache of a position charges all its fees when the refresh marks the
position, and otherwise when nothing was left uncharged. -/
theorem closed_charges_iff {pm pm₁ : PortfolioManager}
    (hensure : pm.ensurePositionsUpdated cfg clock = .ok pm₁) {k : String}
    {position closed : Position} (hposition : pm.getPosition k = some position)
    (hclosed : closed = marked cfg pm (accrued cfg clock position)) :
    closed.unrealizedPnl = closed.grossPnl - closed.getTotalFees ↔
      Marks pm position ∨ unchargedFees cfg clock position = 0 := by
  by_cases hmarks : Marks pm position
  · obtain ⟨bid, ask, spec, hprice, hspec⟩ := ensurePositionsUpdated_marks hensure hposition hmarks
    rw [← accrued_symbol cfg clock] at hprice hspec
    rw [hclosed, marked_of_marks hmarks.1 hprice hspec]
    simp [hmarks]
  · have hsame : closed = accrued cfg clock position := by
      rw [hclosed, marked_of_not_marks]
      simpa [Marks, accrued_symbol] using hmarks
    rw [hsame, unchargedFees_eq]
    constructor
    · intro h
      refine .inr ?_
      rw [h]
      ring
    · rintro (h | h)
      · exact absurd h hmarks
      · linarith

end Charging

structure Session where
  portfolio : PortfolioManager
  clock : Option Instant := none

/-- The calls a portfolio manager receives; closes carry no exit fee. -/
inductive PortfolioOp
  | markDirty (tick : TickData)
  | setClock (now : Instant)
  | getAccountInfo (orderDirection : OrderDirection)
  | ensurePositionsUpdated
  | openPosition (args : OpenPositionArgs)
  | partialClose (args : CloseArgs) (closeLots : ℚ)
  | close (args : CloseArgs)

section Runs

variable (cfg : PortfolioConfig)

def sessionStep (s : Session) : PortfolioOp → Except PyError Session
  | .markDirty tick => .ok { s with portfolio := s.portfolio.markDirty tick }
  | .setClock now => .ok { s with clock := some now }
  | .getAccountInfo direction => do
      let (pm, _) ← s.portfolio.getAccountInfo cfg s.clock direction
      return { s with portfolio := pm }
  | .ensurePositionsUpdated => do
      let pm ← s.portfolio.ensurePositionsUpdated cfg s.clock
      return { s with portfolio := pm }
  | .openPosition args => do
      let pm ← s.portfolio.openPosition cfg s.clock args
      return { s with portfolio := pm }
  | .partialClose args closeLots => do
      let (pm, _) ← s.portfolio.partialClosePosition cfg s.clock
        { args with exitFee := none } closeLots
      return { s with portfolio := pm }
  | .close args => do
      let (pm, _) ← s.portfolio.closePositionPortfolio cfg s.clock { args with exitFee := none }
      return { s with portfolio := pm }

def start (clock : Option Instant) : Session := { portfolio := new cfg, clock := clock }

def netTotal (pm : PortfolioManager) : ℚ := (pm.tradeHistory.map TradeRecord.netPnl).sum

def ChargesFees (record : TradeRecord) : Prop :=
  record.netPnl = record.grossPnl - record.totalFees

def HistoryChargesFees (s : Session) : Prop :=
  ∀ record ∈ s.portfolio.tradeHistory, ChargesFees record

/-- The balance has moved by the net P&L of the records. -/
def LedgerBalanced (s : Session) : Prop :=
  s.portfolio.balance cfg =
    (cfg.startBalances.getD cfg.accountCurrency 0) + netTotal s.portfolio

/-- A full close either recomputes the cached P&L of its position or finds all fees of
the position, and the swap due, already in it. -/
def CloseIsCharged (s : Session) : PortfolioOp → Prop
  | .close args =>
      match s.portfolio.getPosition args.positionId with
      | some position =>
          Marks s.portfolio position ∨ unchargedFees cfg s.clock position = 0
      | none => True
  | _ => True

variable {cfg}

theorem ledger_of_unchanged {s s' : Session}
    (hbalances : s'.portfolio.balances = s.portfolio.balances)
    (hhistory : s'.portfolio.tradeHistory = s.portfolio.tradeHistory)
    (hinv : LedgerBalanced cfg s) :
    LedgerBalanced cfg s' ∧ (HistoryChargesFees s' ↔ HistoryChargesFees s ∧ True) := by
  constructor
  · simpa only [LedgerBalanced, netTotal, balance, hbalances, hhistory] using hinv
  · simp [HistoryChargesFees, hhistory]

theorem ledger_of_booked (hmax : cfg.tradeHistoryMax = 0) {s : Session} (s' : Session)
    {pm : PortfolioManager} {record : TradeRecord} {positions : Dict String Position}
    (hbalances : pm.balances = s.portfolio.balances)
    (hhistory : pm.tradeHistory = s.portfolio.tradeHistory)
    (hbooked : s'.portfolio = booked cfg pm record positions) (hinv : LedgerBalanced cfg s) :
    LedgerBalanced cfg s' ∧
      (HistoryChargesFees s' ↔ HistoryChargesFees s ∧ ChargesFees record) := by
  have hrecords : s'.portfolio.tradeHistory = s.portfolio.tradeHistory ++ [record] := by
    rw [hbooked, booked_tradeHistory, hmax, appendBounded_zero, hhistory]
  have hbalance : pm.balance cfg = s.portfolio.balance cfg := by
    rw [balance, balance, hbalances]
  constructor
  · rw [LedgerBalanced] at *
    rw [hbooked, booked_balance, ← hbooked, hbalance, hinv, netTotal, netTotal, hrecords,
      List.map_append, List.sum_append]
    simp only [List.map_cons, List.map_nil, List.sum_cons, List.sum_nil]
    ring
  · simp [HistoryChargesFees, hrecords, or_imp, forall_and]

theorem ensure_keeps {clock : Option Instant} {pm pm' : PortfolioManager}
    (h : pm.ensurePositionsUpdated cfg clock = .ok pm') :
    pm'.balances = pm.balances ∧ pm'.tradeHistory = pm.tradeHistory := by
  obtain ⟨⟨costs, positions, rate, rfl⟩, -⟩ := ensurePositionsUpdated_eq_ok h
  exact ⟨rfl, rfl⟩

theorem getAccountInfo_eq_ok {clock : Option Instant} {direction : OrderDirection}
    {pm pm' : PortfolioManager} {info : AccountInfo}
    (h : pm.getAccountInfo cfg clock direction = .ok (pm', info)) :
    pm.ensurePositionsUpdated cfg clock = .ok pm' := by
  unfold getAccountInfo at h
  obtain ⟨pm₁, hensure, h⟩ := bind_eq_ok.mp h
  obtain ⟨used, -, h⟩ := bind_eq_ok.mp h
  cases h
  exact hensure

theorem openPosition_margin_eq_ok (hmargin : cfg.spotMode = false) {clock : Option Instant}
    {pm pm' : PortfolioManager} {args : OpenPositionArgs}
    (h : pm.openPosition cfg clock args = .ok pm') :
    ∃ now, clock = some now ∧ pm' = { pm.recordFee args.entryFee with
      openPositions := pm.openPositions.set args.orderId (args.position now) } := by
  unfold openPosition at h
  obtain ⟨now, hnow, h⟩ := bind_eq_ok.mp h
  simp only [hmargin, Bool.not_false, if_true] at h
  cases h
  refine ⟨now, clockNow_eq_ok.mp hnow, ?_⟩
  cases hfee : args.entryFee <;> rfl

/-- One call keeps the balance in step with the records, and keeps every record charged
exactly when it is not an uncharged close. -/
theorem ledger_step (hmargin : cfg.spotMode = false) (hhistory : cfg.tradeHistoryMax = 0)
    (s : Session) (op : PortfolioOp) (s' : Session) (hinv : LedgerBalanced cfg s)
    (h : sessionStep cfg s op = .ok s') :
    LedgerBalanced cfg s' ∧
      (HistoryChargesFees s' ↔ HistoryChargesFees s ∧ CloseIsCharged cfg s op) := by
  cases op with
  | markDirty tick =>
      cases h
      exact ledger_of_unchanged rfl rfl hinv
  | setClock now =>
      cases h
      exact ledger_of_unchanged rfl rfl hinv
  | getAccountInfo direction =>
      obtain ⟨⟨pm, info⟩, hinfo, hpure⟩ := bind_eq_ok.mp h
      cases hpure
      obtain ⟨hbalances, hrecords⟩ := ensure_keeps (getAccountInfo_eq_ok hinfo)
      exact ledger_of_unchanged hbalances hrecords hinv
  | ensurePositionsUpdated =>
      obtain ⟨pm, hensure, hpure⟩ := bind_eq_ok.mp h
      cases hpure
      obtain ⟨hbalances, hrecords⟩ := ensure_keeps hensure
      exact ledger_of_unchanged hbalances hrecords hinv
  | openPosition args =>
      obtain ⟨pm, hopen, hpure⟩ := bind_eq_ok.mp h
      cases hpure
      obtain ⟨now, -, rfl⟩ := openPosition_margin_eq_ok hmargin hopen
      obtain ⟨hbalances, hrecords⟩ := recordFee_keeps s.portfolio args.entryFee
      exact ledger_of_unchanged hbalances hrecords hinv
  | partialClose args closeLots =>
      obtain ⟨⟨pm, pnl⟩, hclose, hpure⟩ := bind_eq_ok.mp h
      cases hpure
      obtain ⟨position, pm₁, now, closed, -, hensure, -, -, -, -, hbooked⟩ :=
        partialClosePosition_eq_ok hmargin rfl hclose
      obtain ⟨hbalances, hrecords⟩ := ensure_keeps hensure
      have hcharges := partialRecord_netPnl cfg { args with exitFee := none } closed now
        closeLots
      obtain ⟨hbalanced, hgood⟩ := ledger_of_booked hhistory ⟨pm, s.clock⟩ hbalances
        hrecords hbooked hinv
      exact ⟨hbalanced, hgood.trans (and_congr_right fun _ => iff_true_intro hcharges)⟩
  | close args =>
      obtain ⟨⟨pm, pnl⟩, hclose, hpure⟩ := bind_eq_ok.mp h
      cases hpure
      obtain ⟨position, pm₁, now, closed, hposition, hensure, -, hclosed, -, hbooked⟩ :=
        closePositionPortfolio_eq_ok hmargin rfl hclose
      obtain ⟨hbalances, hrecords⟩ := ensure_keeps hensure
      obtain ⟨hbalanced, hgood⟩ := ledger_of_booked hhistory ⟨pm, s.clock⟩ hbalances
        hrecords hbooked hinv
      have hcharged : CloseIsCharged cfg s (.close args) ↔
          Marks s.portfolio position ∨ unchargedFees cfg s.clock position = 0 := by
        have hget : s.portfolio.getPosition args.positionId = some position := hposition
        simp only [CloseIsCharged, hget]
      refine ⟨hbalanced, hgood.trans (and_congr_right fun _ => ?_)⟩
      rw [hcharged]
      exact closed_charges_iff hensure hposition hclosed

/-- In every margin-mode run with unlimited history the balance is the initial balance
plus the net P&L of the records; every record has `net_pnl = gross_pnl - total_fees`
exactly when every full close of the run was charged. -/
theorem margin_ledger_identity (cfg : PortfolioConfig) (clock : Option Instant)
    (hmargin : cfg.spotMode = false) (hhistory : cfg.tradeHistoryMax = 0)
    {ops : List PortfolioOp} {s : Session}
    (hrun : run (sessionStep cfg) (start cfg clock) ops = .ok s) :
    s.portfolio.balance cfg =
        cfg.startBalances.getD cfg.accountCurrency 0 + netTotal s.portfolio ∧
      ((∀ record ∈ s.portfolio.tradeHistory,
          record.netPnl = record.grossPnl - record.totalFees) ↔
        StepsAll (sessionStep cfg) (CloseIsCharged cfg) (start cfg clock) ops) := by
  have hinit : LedgerBalanced cfg (start cfg clock) := by
    simp [LedgerBalanced, start, new, balance, netTotal]
  have hempty : HistoryChargesFees (start cfg clock) := by
    simp [HistoryChargesFees, start, new]
  constructor
  · exact run_invariant (fun s op s' hinv hop => (ledger_step hmargin hhistory s op s' hinv hop).1)
      hinit hrun
  · have hiff := run_iff_stepsAll (ledger_step hmargin hhistory) hinit hrun
    exact hiff.trans (and_iff_right hempty)

end Runs

section Account

/-- A five-digit forex pair quoted in the account currency. -/
def eurusd : SymbolSpecification where
  symbol := "EURUSD"
  volumeMin := 1 / 100
  volumeMax := 100
  volumeStep := 1 / 100
  tickSize := 1 / 100000
  digits := 5
  contractSize := 100000
  baseCurrency := "EUR"
  quoteCurrency := "USD"
  marginCurrency := "EUR"
  tradeAllowed := true
  swapMode := .points
  swapLong := -7
  swapShort := 3
  swapRollover3days := 3

def forexBroker : BrokerConfig where
  kind := .mt5
  symbols := (∅ : Dict String SymbolSpecification).set "EURUSD" eurusd
  leverage := 100
  capabilities := { stopOrders := true, stopLimitOrders := true }
  feeModel := .spread
  makerFee := 0
  takerFee := 0

def usdAccount : PortfolioConfig where
  accountCurrency := "USD"
  initialBalance := 10000
  tradeHistoryMax := 0
  zones := fun _ _ => 0
  broker := forexBroker

def eurusdTick (bid ask : ℚ) (msc : ℤ) : TickData where
  timestamp := msc * 1000
  symbol := "EURUSD"
  bid := bid
  ask := ask
  timeMsc := msc
  collectedMsc := msc

def oneLotLong : OpenPositionArgs where
  orderId := "pos_eurusd_1"
  symbol := "EURUSD"
  direction := .long
  lots := 1
  entryPrice := 11002 / 10000
  entryTickValue := 1
  entryBid := 11000 / 10000
  entryAsk := 11002 / 10000
  digits := 5
  contractSize := 100000
  entryTickIndex := 1
  entryFee := some (spreadFee (11000 / 10000) (11002 / 10000) 1 1 5)

def sameTickOpenClose : List PortfolioOp :=
  [.markDirty (eurusdTick (11000 / 10000) (11002 / 10000) 1), .setClock 1000,
    .getAccountInfo .long, .openPosition oneLotLong,
    .close { positionId := "pos_eurusd_1", exitPrice := 11000 / 10000,
             exitTickValue := 1, exitTickIndex := 1 }]

theorem sameTickOpenClose_records :
    (run (sessionStep usdAccount) (start usdAccount none) sameTickOpenClose).map
      (fun s => s.portfolio.tradeHistory.map fun record =>
        (record.netPnl, record.grossPnl, record.totalFees)) = .ok [(0, 0, 20)] := by
  decide +kernel

/-- The spread fee of a position opened and closed under a clean flag is never charged. -/
theorem clean_close_drops_fee :
    ∃ s, run (sessionStep usdAccount) (start usdAccount none) sameTickOpenClose = .ok s ∧
      ∃ record ∈ s.portfolio.tradeHistory,
        record.netPnl ≠ record.grossPnl - record.totalFees := by
  obtain ⟨s, hrun, hrecords⟩ := exists_of_map_eq_ok sameTickOpenClose_records
  obtain ⟨record, hmem, hvalues⟩ := List.mem_map.mp
    (hrecords.symm ▸ List.mem_singleton_self ((0 : ℚ), (0 : ℚ), (20 : ℚ)))
  obtain ⟨hnet, hgross, hfees⟩ : record.netPnl = 0 ∧ record.grossPnl = 0 ∧
      record.totalFees = 20 := by simpa using hvalues
  refine ⟨s, hrun, record, hmem, ?_⟩
  rw [hnet, hgross, hfees]
  norm_num

theorem margin_ledger_identity_sameTick :
    ∃ s, run (sessionStep usdAccount) (start usdAccount none) sameTickOpenClose = .ok s ∧
      s.portfolio.balance usdAccount =
        usdAccount.startBalances.getD usdAccount.accountCurrency 0 + netTotal s.portfolio ∧
      ((∀ record ∈ s.portfolio.tradeHistory,
          record.netPnl = record.grossPnl - record.totalFees) ↔
        StepsAll (sessionStep usdAccount) (CloseIsCharged usdAccount) (start usdAccount none)
          sameTickOpenClose) := by
  obtain ⟨s, hrun, -⟩ := exists_of_map_eq_ok sameTickOpenClose_records
  exact ⟨s, hrun, margin_ledger_identity usdAccount none rfl rfl hrun⟩

end Account

end Finiex.PortfolioLedger
