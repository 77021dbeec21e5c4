import Finiex.ExecutorFills
import Finiex.SpotLedger

namespace Finiex.SpotHoldings

open Finiex.Types
open Finiex.Lib
open Finiex.Lib.Run
open Finiex.Fees
open Finiex.Positions
open Finiex.Broker hiding remainder
open Finiex.Orders
open Finiex.Portfolio
open Finiex.Portfolio.PortfolioManager
open Finiex.PortfolioRefresh
open Finiex.PortfolioLedger
open Finiex.PortfolioRuns
open Finiex.Executor
open Finiex.ExecutorFills
open Finiex.SpotLedger

structure ExecutorState where
  market : MarketState := {}
  ledger : ExecutionLedger

/-- What reaches the portfolio of an executor: ticks, clock readings, confirmed orders of
either action, changed levels and account queries. -/
inductive ExecutorCall
  | receiveTick (tick : TickData)
  | setCurrentTime (now : Instant)
  | fillOpenOrder (pending : PendingOrder) (fillPrice : Option ℚ) (entryType : EntryType)
      (fillType : FillType)
  | fillCloseOrder (pending : PendingOrder) (fillPrice : Option ℚ) (closeReason : CloseReason)
  | modifyPosition (positionId : String) (newStopLoss newTakeProfit : Setting (Option ℚ))
  | getAccountInfo (orderDirection : OrderDirection)

variable (cfg : ExecutorConfig)

def executorStep (s : ExecutorState) : ExecutorCall → Except PyError ExecutorState
  | .receiveTick tick => .ok {
      market := {
        currentTick := some tick
        tickCounter := s.market.tickCounter + 1
        clockTime := some tick.timestamp }
      ledger := { s.ledger with portfolio := s.ledger.portfolio.markDirty tick } }
  | .setCurrentTime now => .ok { s with market := { s.market with clockTime := some now } }
  | .fillOpenOrder pending fillPrice entryType fillType => do
      let ledger ← fillOpenOrder cfg s.market s.ledger pending fillPrice entryType fillType
      return { s with ledger := ledger }
  | .fillCloseOrder pending fillPrice closeReason => do
      let ledger ← fillCloseOrder cfg s.market s.ledger pending fillPrice closeReason
      return { s with ledger := ledger }
  | .modifyPosition positionId newStopLoss newTakeProfit =>
      .ok { s with ledger := { s.ledger with portfolio :=
        (s.ledger.portfolio.modifyPosition positionId newStopLoss newTakeProfit).1 } }
  | .getAccountInfo direction => do
      let (portfolio, _) ← s.ledger.portfolio.getAccountInfo cfg.portfolio s.market.clockTime
        direction
      return { s with ledger := { s.ledger with portfolio := portfolio } }

def begin : ExecutorState where
  ledger := { portfolio := Portfolio.new cfg.portfolio }

/-- An OPEN order is for the executor's symbol and of a size that is not negative. -/
def Submitted (symbol : String) : ExecutorCall → Prop
  | .fillOpenOrder pending _ _ _ => pending.symbol = symbol ∧ 0 ≤ pending.lots
  | _ => True

/-- A close of a LONG position sells no more than the account holds. -/
def Covered (spec : SymbolSpecification) (s : ExecutorState) : ExecutorCall → Prop
  | .fillCloseOrder pending _ _ =>
      ∀ position ∈ s.ledger.portfolio.getPosition pending.pendingOrderId,
        position.direction = .long → pending.closeLots.any (· ≤ 0) = false →
          (partialLots pending.closeLots position.lots spec.volumeMin).getD position.lots ≤
            s.ledger.portfolio.getAssetBalance spec.baseCurrency
  | _ => True

instance (spec : SymbolSpecification) (s : ExecutorState) :
    ∀ call, Decidable (Covered spec s call)
  | .fillCloseOrder _ _ _ => inferInstanceAs (Decidable (∀ _ ∈ _, _ → _ → _))
  | .receiveTick _ | .setCurrentTime _ | .fillOpenOrder _ _ _ _ | .modifyPosition _ _ _
  | .getAccountInfo _ => .isTrue trivial

def baseBalance (spec : SymbolSpecification) (s : ExecutorState) : ℚ :=
  s.ledger.portfolio.getAssetBalance spec.baseCurrency

/-- Every open position is in this symbol and of a size that is not negative. -/
def Sized (symbol : String) (pm : PortfolioManager) : Prop :=
  ∀ k position, pm.getPosition k = some position → position.symbol = symbol ∧ 0 ≤ position.lots

section Fills

variable {cfg : ExecutorConfig} {market : MarketState}

/-- Without leverage the funds check of a spot account keeps the portfolio, and lets a SELL
pass only if the account holds its lots. -/
theorem checkFunds_spot (hspot : cfg.portfolio.spotMode = true) (hleverage : cfg.broker.leverage = 1)
    {pm pm' : PortfolioManager} {pending : PendingOrder} {direction : OrderDirection}
    {tick : TickData} {spec : SymbolSpecification} {entryPrice : ℚ} {entryFee : TradingFee}
    {rejection : Option (RejectionReason × RejectionMessage)}
    (h : checkFunds cfg market pm pending direction tick spec entryPrice entryFee =
      .ok (pm', rejection)) :
    pm' = pm ∧ (rejection = none → direction = .short →
      pending.lots ≤ pm.getAssetBalance spec.baseCurrency) := by
  have hnot : ¬ 1 < cfg.broker.leverage := by omega
  unfold checkFunds at h
  rw [if_neg hnot, if_pos hspot] at h
  cases direction with
  | long =>
      simp only at h
      split at h
      · cases h
        exact ⟨rfl, fun hnone => by cases hnone⟩
      · cases h
        exact ⟨rfl, fun _ hshort => by cases hshort⟩
  | short =>
      simp only at h
      split at h
      · cases h
        exact ⟨rfl, fun hnone => by cases hnone⟩
      · next havailable =>
          cases h
          exact ⟨rfl, fun _ _ => not_lt.mp havailable⟩

/-- An open fill of a spot account is rejected, or opens a position whose lots the account
holds if it sells them. -/
theorem fillOpenOrder_spot (hspot : cfg.portfolio.spotMode = true)
    (hleverage : cfg.broker.leverage = 1) {ledger ledger' : ExecutionLedger}
    {pending : PendingOrder} {fillPrice : Option ℚ} {entryType : EntryType} {fillType : FillType}
    (h : fillOpenOrder cfg market ledger pending fillPrice entryType fillType = .ok ledger') :
    ledger'.portfolio = ledger.portfolio ∨
      ∃ spec args, cfg.broker.symbols.get? pending.symbol = some spec ∧
        args.symbol = pending.symbol ∧ args.lots = pending.lots ∧
        (args.direction = .short →
          pending.lots ≤ ledger.portfolio.getAssetBalance spec.baseCurrency) ∧
        ledger.portfolio.openPosition cfg.portfolio market.clockTime args =
          .ok ledger'.portfolio := by
  unfold fillOpenOrder at h
  obtain ⟨tick, -, h⟩ := bind_eq_ok.mp h
  obtain ⟨⟨bid, ask⟩, -, h⟩ := bind_eq_ok.mp h
  obtain ⟨spec, hspec, h⟩ := bind_eq_ok.mp h
  obtain ⟨tickValue, -, h⟩ := bind_eq_ok.mp h
  obtain ⟨⟨pm, rejection⟩, hfunds, h⟩ := bind_eq_ok.mp h
  obtain ⟨rfl, hcovered⟩ := checkFunds_spot hspot hleverage hfunds
  cases rejection with
  | some verdict =>
      obtain ⟨reason, message⟩ := verdict
      cases h
      exact .inl rfl
  | none =>
      obtain ⟨⟨seq, trades⟩, -, h⟩ := bind_eq_ok.mp h
      obtain ⟨pm', hopen, h⟩ := bind_eq_ok.mp h
      obtain ⟨now, -, h⟩ := bind_eq_ok.mp h
      cases h
      exact .inr ⟨spec, _, getSymbolSpecification_eq_ok.mp hspec, rfl, rfl, hcovered rfl, hopen⟩

end Fills

section Portfolio

/-- A spot portfolio in one symbol with two different currencies. -/
structure OneSymbol (cfg : PortfolioConfig) (symbol : String) (spec : SymbolSpecification) :
    Prop where
  spot : cfg.spotMode = true
  listed : cfg.broker.symbols.get? symbol = some spec
  currencies : spec.baseCurrency ≠ spec.quoteCurrency

variable {cfg : PortfolioConfig} {clock : Option Instant} {symbol : String}
  {spec : SymbolSpecification} {pm pm' : PortfolioManager}

theorem refresh_base (h : pm.ensurePositionsUpdated cfg clock = .ok pm') :
    pm'.getAssetBalance spec.baseCurrency = pm.getAssetBalance spec.baseCurrency := by
  rw [getAssetBalance, getAssetBalance, (ensure_keeps h).1]

theorem Sized.refresh (hspot : cfg.spotMode = true) (hsized : Sized symbol pm)
    (h : pm.ensurePositionsUpdated cfg clock = .ok pm') : Sized symbol pm' := by
  intro k position hposition
  rw [(ensurePositionsUpdated_eq_ok h).2 k] at hposition
  obtain ⟨before, hbefore, rfl⟩ := Option.map_eq_some_iff.mp hposition
  have hsymbol := (refresh_keeps hspot ⟨pm, clock⟩ before).2.2.1
  have hlots := (refresh_size hspot ⟨pm, clock⟩ before).1
  obtain ⟨hin, hnonneg⟩ := hsized k before hbefore
  exact ⟨hsymbol.trans hin, hnonneg.trans (le_of_eq hlots.symm)⟩

theorem Sized.modify (hsized : Sized symbol pm) (positionId : String)
    (newStopLoss newTakeProfit : Setting (Option ℚ)) :
    Sized symbol (pm.modifyPosition positionId newStopLoss newTakeProfit).1 := by
  rcases modifyPosition_cases pm positionId newStopLoss newTakeProfit with
    hsame | ⟨target, stopLoss, takeProfit, htarget, hset⟩
  · rw [hsame]
    exact hsized
  · rw [hset]
    intro k position hposition
    by_cases hk : k = positionId
    · subst hk
      cases (Dict.get?_set_self _ _ _).symm.trans hposition
      exact hsized k target htarget
    · exact hsized k position ((Dict.get?_set_ne _ _ hk).symm.trans hposition)

theorem openPosition_base (hone : OneSymbol cfg symbol spec) (hsized : Sized symbol pm)
    {args : OpenPositionArgs} (hsymbol : args.symbol = symbol) (hlots : 0 ≤ args.lots)
    (h : pm.openPosition cfg clock args = .ok pm') :
    pm'.getAssetBalance spec.baseCurrency =
        pm.getAssetBalance spec.baseCurrency + directionSign args.direction * args.lots ∧
      Sized symbol pm' := by
  obtain ⟨now, spec', costs, balances, hspec, hexchange, rfl⟩ := openPosition_spot hone.spot h
  rw [hsymbol, hone.listed] at hspec
  cases hspec
  have hbase := (exchangeAssets_getD hone.currencies hexchange).1
  rw [sideSign_open] at hbase
  refine ⟨hbase, fun k position hposition => ?_⟩
  by_cases hk : k = args.orderId
  · subst hk
    cases (Dict.get?_set_self _ _ _).symm.trans hposition
    exact ⟨hsymbol, hlots⟩
  · exact hsized k position ((Dict.get?_set_ne _ _ hk).symm.trans hposition)

theorem close_base (hone : OneSymbol cfg symbol spec) (hsized : Sized symbol pm)
    {args : CloseArgs} {pnl : ℚ}
    (h : pm.closePositionPortfolio cfg clock args = .ok (pm', pnl)) {position : Position}
    (hposition : pm.getPosition args.positionId = some position) :
    pm'.getAssetBalance spec.baseCurrency = pm.getAssetBalance spec.baseCurrency -
        directionSign position.direction * position.lots ∧
      Sized symbol pm' := by
  obtain ⟨found, pm₁, pm₂, closed, now, hfound, hensure, hrealize, -, -, rfl⟩ :=
    closePositionPortfolio_inv h
  rw [hposition] at hfound
  cases hfound
  have hsized₁ := hsized.refresh hone.spot hensure
  obtain ⟨hlots, hdirection, -⟩ := refresh_size hone.spot ⟨pm, clock⟩ position
  have hsymbol := (refresh_keeps hone.spot ⟨pm, clock⟩ position).2.2.1
  have hrefreshed : marked cfg pm (accrued cfg clock position) =
      afterRefresh cfg ⟨pm, clock⟩ position := rfl
  rw [hrefreshed] at hrealize
  obtain ⟨spec', costs, balances, hspec, hexchange, rfl, -⟩ := realizeClose_spot hone.spot hrealize
  obtain ⟨-, fees, hexit⟩ := withExitFee_eq (afterRefresh cfg ⟨pm, clock⟩ position) args.exitFee
  rw [hexit] at hspec hexchange
  simp only [hlots, hdirection, hsymbol, (hsized _ _ hposition).1, hone.listed] at hspec hexchange
  cases hspec
  have hbase := (exchangeAssets_getD hone.currencies hexchange).1
  rw [sideSign_close] at hbase
  constructor
  · have hbefore : pm₁.getAssetBalance spec.baseCurrency = pm.getAssetBalance spec.baseCurrency :=
      refresh_base hensure
    simp only [getAssetBalance, updateStatistics, appendTradeRecord] at hbefore ⊢
    rw [hbase, hbefore]
    ring
  · intro k other hother
    by_cases hk : k = args.positionId
    · subst hk
      cases (Dict.get?_erase_self _ _).symm.trans hother
    · exact hsized₁ k other ((Dict.get?_erase_ne _ hk).symm.trans hother)

/-- A partial close of less than the position moves the closed lots back. -/
theorem partialClose_base (hone : OneSymbol cfg symbol spec) (hsized : Sized symbol pm)
    {args : CloseArgs} {closeLots pnl : ℚ}
    (h : pm.partialClosePosition cfg clock args closeLots = .ok (pm', pnl)) {position : Position}
    (hposition : pm.getPosition args.positionId = some position)
    (hless : closeLots < position.lots) :
    pm'.getAssetBalance spec.baseCurrency = pm.getAssetBalance spec.baseCurrency -
        directionSign position.direction * closeLots ∧
      Sized symbol pm' := by
  obtain ⟨found, pm₁, pm₂, now, closed, balances, hfound, hensure, -, hclosed, -, -, rfl, -,
    hexchange, rfl⟩ := partialClosePosition_inv h
  rw [hposition] at hfound
  cases hfound
  have hsized₁ := hsized.refresh hone.spot hensure
  obtain ⟨hlots, hdirection, -⟩ := refresh_size hone.spot ⟨pm, clock⟩ position
  have hsymbol := (refresh_keeps hone.spot ⟨pm, clock⟩ position).2.2.1
  have hcurrent : closed = afterRefresh cfg ⟨pm, clock⟩ position := hclosed
  rw [← hcurrent] at hlots hdirection hsymbol
  obtain ⟨spec', hspec, hexchange⟩ := hexchange hone.spot
  rw [hsymbol, (hsized _ _ hposition).1, hone.listed] at hspec
  cases hspec
  have hbase := (exchangeAssets_getD hone.currencies hexchange).1
  rw [sideSign_close, hdirection] at hbase
  obtain ⟨costs, hcosts⟩ := PortfolioFrames.recordFee_frame pm₁ args.exitFee
  rw [hcosts]
  constructor
  · have hbefore : pm₁.getAssetBalance spec.baseCurrency = pm.getAssetBalance spec.baseCurrency :=
      refresh_base hensure
    simp only [getAssetBalance, updateStatistics, appendTradeRecord] at hbefore ⊢
    rw [hbase, hbefore]
    ring
  · intro k other hother
    by_cases hk : k = args.positionId
    · subst hk
      cases (Dict.get?_set_self _ _ _).symm.trans hother
      refine ⟨hsymbol.trans (hsized _ _ hposition).1, ?_⟩
      have hrest : 0 ≤ closed.lots - closeLots := by
        rw [hlots]
        linarith
      exact Rounding.roundTo_nonneg 8 hrest
    · exact hsized₁ k other ((Dict.get?_set_ne _ _ hk).symm.trans hother)

end Portfolio

section Runs

variable {cfg : ExecutorConfig} {symbol : String} {spec : SymbolSpecification}

/-- A close fill of a spot account changes no balance, or moves the closed lots back. -/
theorem fillCloseOrder_base (hone : OneSymbol cfg.portfolio symbol spec) {market : MarketState}
    {ledger ledger' : ExecutionLedger} (hsized : Sized symbol ledger.portfolio)
    {pending : PendingOrder} {fillPrice : Option ℚ} {closeReason : CloseReason}
    (h : fillCloseOrder cfg market ledger pending fillPrice closeReason = .ok ledger') :
    (ledger'.portfolio = ledger.portfolio ∧
        (ledger.portfolio.getPosition pending.pendingOrderId = none ∨
          pending.closeLots.any (· ≤ 0) = true)) ∨
      ∃ position lots, ledger.portfolio.getPosition pending.pendingOrderId = some position ∧
        pending.closeLots.any (· ≤ 0) = false ∧
        lots = (partialLots pending.closeLots position.lots spec.volumeMin).getD position.lots ∧
        0 ≤ lots ∧
        ledger'.portfolio.getAssetBalance spec.baseCurrency =
          ledger.portfolio.getAssetBalance spec.baseCurrency -
            directionSign position.direction * lots ∧
        Sized symbol ledger'.portfolio := by
  obtain ⟨tick, -, ⟨rfl, hnothing⟩ | ⟨position, spec', closePrice, exitTickValue, closing, seq,
    trades, pm, pnl, now, result, hposition, -, hvalid, hspec, -, -, hclosing, hclose, -, rfl⟩⟩ :=
    fillCloseOrder_eq_ok h
  · exact .inl ⟨rfl, hnothing⟩
  · rw [(hsized _ _ hposition).1] at hspec
    cases hone.listed.symm.trans hspec
    refine .inr ⟨position, _, hposition, hvalid, rfl, ?_⟩
    rw [← hclosing]
    cases closing with
    | none =>
        obtain ⟨hbase, hsized'⟩ := close_base hone hsized hclose hposition
        exact ⟨(hsized _ _ hposition).2, hbase, hsized'⟩
    | some lots =>
        unfold partialLots at hclosing
        cases hrequest : pending.closeLots with
        | none =>
            rw [hrequest] at hclosing
            cases hclosing
        | some requested =>
            rw [hrequest] at hclosing hvalid
            simp only at hclosing
            split at hclosing
            · next hpartial =>
                cases hclosing
                obtain ⟨hbase, hsized'⟩ :=
                  partialClose_base hone hsized hclose hposition hpartial.1
                have hpositive : 0 ≤ lots := by
                  have hnot : ¬ lots ≤ 0 := by simpa using hvalid
                  exact (not_le.mp hnot).le
                exact ⟨hpositive, hbase, hsized'⟩
            · cases hclosing

theorem kept_iff {s s' : ExecutorState} {P : Prop} (hP : P) (hgood : 0 ≤ baseBalance spec s)
    (hsame : baseBalance spec s' = baseBalance spec s) : 0 ≤ baseBalance spec s' ↔ P := by
  rw [hsame]
  exact iff_of_true hgood hP

/-- A step leaves the base balance non-negative exactly when it is covered. -/
theorem holdings_step (hone : OneSymbol cfg.portfolio symbol spec)
    (hleverage : cfg.broker.leverage = 1) (s : ExecutorState) (call : ExecutorCall)
    (s' : ExecutorState) (hsized : Sized symbol s.ledger.portfolio)
    (hcall : Submitted symbol call) (hgood : 0 ≤ baseBalance spec s)
    (hstep : executorStep cfg s call = .ok s') :
    Sized symbol s'.ledger.portfolio ∧ (0 ≤ baseBalance spec s' ↔ Covered spec s call) := by
  cases call with
  | receiveTick tick =>
      cases hstep
      exact ⟨hsized, kept_iff trivial hgood rfl⟩
  | setCurrentTime now =>
      cases hstep
      exact ⟨hsized, kept_iff trivial hgood rfl⟩
  | modifyPosition positionId newStopLoss newTakeProfit =>
      cases hstep
      refine ⟨hsized.modify positionId newStopLoss newTakeProfit, kept_iff trivial hgood ?_⟩
      rcases modifyPosition_cases s.ledger.portfolio positionId newStopLoss newTakeProfit with
        hsame | ⟨target, stopLoss, takeProfit, -, hset⟩
      · rw [baseBalance, hsame, baseBalance]
      · rw [baseBalance, hset]
        rfl
  | getAccountInfo direction =>
      obtain ⟨⟨pm, info⟩, hinfo, hpure⟩ := bind_eq_ok.mp hstep
      cases hpure
      have hensure := getAccountInfo_eq_ok hinfo
      exact ⟨hsized.refresh hone.spot hensure, kept_iff trivial hgood (refresh_base hensure)⟩
  | fillOpenOrder pending fillPrice entryType fillType =>
      obtain ⟨ledger, hfill, hpure⟩ := bind_eq_ok.mp hstep
      cases hpure
      obtain ⟨hsymbol, hlots⟩ := hcall
      rcases fillOpenOrder_spot hone.spot hleverage hfill with
        hsame | ⟨spec', args, hspec, hargs, hargsLots, hcovered, hopen⟩
      · refine ⟨?_, kept_iff trivial hgood ?_⟩
        · rw [hsame]
          exact hsized
        · rw [baseBalance, hsame, baseBalance]
      · rw [hsymbol] at hspec hargs
        cases hone.listed.symm.trans hspec
        obtain ⟨hbase, hsized'⟩ :=
          openPosition_base hone hsized hargs (hlots.trans (le_of_eq hargsLots.symm)) hopen
        refine ⟨hsized', iff_of_true ?_ trivial⟩
        rw [baseBalance, hbase, hargsLots]
        rw [baseBalance] at hgood
        cases hdirection : args.direction with
        | long =>
            simp only [directionSign]
            linarith
        | short =>
            have henough := hcovered hdirection
            simp only [directionSign]
            linarith
  | fillCloseOrder pending fillPrice closeReason =>
      obtain ⟨ledger, hfill, hpure⟩ := bind_eq_ok.mp hstep
      cases hpure
      rcases fillCloseOrder_base hone hsized hfill with
        ⟨hsame, hnothing⟩ | ⟨position, lots, hposition, hvalid, hlots, hnonneg, hbase, hsized'⟩
      · refine ⟨by rw [hsame]; exact hsized, kept_iff ?_ hgood (by rw [baseBalance, hsame,
          baseBalance])⟩
        intro position hposition _ hvalid
        rcases hnothing with hnone | hinvalid
        · rw [hnone] at hposition
          cases hposition
        · rw [hinvalid] at hvalid
          cases hvalid
      · refine ⟨hsized', ?_⟩
        rw [baseBalance, hbase]
        rw [baseBalance] at hgood
        have hcovered : Covered spec s (.fillCloseOrder pending fillPrice closeReason) ↔
            (position.direction = .long →
              lots ≤ s.ledger.portfolio.getAssetBalance spec.baseCurrency) := by
          simp only [Covered, hposition, Option.mem_def, Option.some.injEq, forall_eq', hvalid,
            true_implies, hlots]
        rw [hcovered]
        cases hdirection : position.direction with
        | long =>
            simp only [directionSign, true_implies]
            constructor <;> intro h <;> linarith
        | short =>
            simp only [directionSign]
            refine iff_of_true (by linarith) fun hlong => by cases hlong

/-- Over every spot run without leverage that starts from a non-negative base balance, the
base balance never becomes negative exactly when no close of a LONG position sells more
than the account holds. -/
theorem base_never_negative_iff (hone : OneSymbol cfg.portfolio symbol spec)
    (hleverage : cfg.broker.leverage = 1)
    (hstart : 0 ≤ cfg.portfolio.startBalances.getD spec.baseCurrency 0)
    {calls : List ExecutorCall} {s : ExecutorState}
    (hcalls : ∀ call ∈ calls, Submitted symbol call)
    (hrun : run (executorStep cfg) (begin cfg) calls = .ok s) :
    (∀ n u, run (executorStep cfg) (begin cfg) (calls.take n) = .ok u →
        0 ≤ u.ledger.portfolio.getAssetBalance spec.baseCurrency) ↔
      StepsAll (executorStep cfg) (Covered spec) (begin cfg) calls := by
  have hinit : Sized symbol (begin cfg).ledger.portfolio := by
    intro k position hposition
    cases hposition
  exact reached_iff_stepsAll (holdings_step hone hleverage) hcalls hinit hstart hrun

end Runs

section Account

open Finiex.LiveSteps

theorem spotAccount_one : OneSymbol spotAccount "ETHUSD" ethusd where
  spot := rfl
  listed := rfl
  currencies := by decide

def spotExecutor : ExecutorConfig := { portfolio := spotAccount }

def marketOrder (id : String) (direction : OrderDirection) : PendingOrder where
  pendingOrderId := id
  orderAction := .openOrder
  orderType := some .market
  symbol := "ETHUSD"
  direction := some direction
  lots := 1

def closeOrder (id : String) : PendingOrder where
  pendingOrderId := id
  orderAction := .closeOrder
  symbol := "ETHUSD"
  lots := 1

/-- One ether is bought; what follows happens at the same tick. -/
def boughtThen (calls : List ExecutorCall) : List ExecutorCall :=
  [.receiveTick (ethusdTick 2000 2001 1),
    .fillOpenOrder (marketOrder "pos_ethusd_1" .long) none .market .market] ++ calls

/-- The bought ether is sold by a SELL order and again by the close of the LONG position. -/
def soldTwice : List ExecutorCall :=
  boughtThen [.fillOpenOrder (marketOrder "pos_ethusd_2" .short) none .market .market,
    .fillCloseOrder (closeOrder "pos_ethusd_1") none .manual]

theorem soldTwice_oversells :
    (∀ call ∈ soldTwice, Submitted "ETHUSD" call) ∧
      ∃ s, run (executorStep spotExecutor) (begin spotExecutor) soldTwice = .ok s ∧
        s.ledger.portfolio.getAssetBalance ethusd.baseCurrency = -1 := by
  obtain ⟨s, hrun, hbase⟩ := exists_of_map_eq_ok (show
    (run (executorStep spotExecutor) (begin spotExecutor) soldTwice).map
      (fun s => s.ledger.portfolio.getAssetBalance ethusd.baseCurrency) = .ok (-1) by
        decide +kernel)
  refine ⟨?_, s, hrun, hbase⟩
  simp [soldTwice, boughtThen, Submitted, marketOrder]

theorem base_never_negative_boughtAndClosed :
    ∃ s, run (executorStep spotExecutor) (begin spotExecutor)
        (boughtThen [.fillCloseOrder (closeOrder "pos_ethusd_1") none .manual]) = .ok s ∧
      ∀ n u, run (executorStep spotExecutor) (begin spotExecutor)
          ((boughtThen [.fillCloseOrder (closeOrder "pos_ethusd_1") none .manual]).take n) = .ok u →
        0 ≤ u.ledger.portfolio.getAssetBalance ethusd.baseCurrency := by
  obtain ⟨s, hrun, -⟩ := exists_of_map_eq_ok (show
    (run (executorStep spotExecutor) (begin spotExecutor)
      (boughtThen [.fillCloseOrder (closeOrder "pos_ethusd_1") none .manual])).map
      (fun s => s.ledger.portfolio.getAssetBalance ethusd.baseCurrency) = .ok 0 by decide +kernel)
  have hsubmitted : ∀ call ∈ boughtThen [.fillCloseOrder (closeOrder "pos_ethusd_1") none .manual],
      Submitted "ETHUSD" call := by
    simp [boughtThen, Submitted, marketOrder]
  exact ⟨s, hrun, (base_never_negative_iff spotAccount_one rfl (by decide +kernel) hsubmitted
    hrun).mpr (by decide +kernel)⟩

end Account

end Finiex.SpotHoldings
