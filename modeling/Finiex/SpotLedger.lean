import Finiex.LiveSteps
import Finiex.PortfolioRuns
import Mathlib.Tactic.FieldSimp

namespace Finiex.SpotLedger

open Finiex.Types
open Finiex.Lib
open Finiex.Lib.Run
open Finiex.Fees
open Finiex.Positions
open Finiex.Broker hiding remainder
open Finiex.Portfolio
open Finiex.Portfolio.PortfolioManager
open Finiex.PortfolioRefresh
open Finiex.PortfolioLedger
open Finiex.PortfolioFrames
open Finiex.PortfolioRuns

section Exchange

/-- 1 for a bought, -1 for a sold base currency. -/
def sideSign : OrderSide → ℚ
  | .buy => 1
  | .sell => -1

def directionSign : OrderDirection → ℚ
  | .long => 1
  | .short => -1

@[simp] theorem sideSign_open (direction : OrderDirection) :
    sideSign (directionToSide direction .openAction) = directionSign direction := by
  cases direction <;> rfl

@[simp] theorem sideSign_close (direction : OrderDirection) :
    sideSign (directionToSide direction .closeAction) = -directionSign direction := by
  cases direction <;> simp [directionToSide, sideSign, directionSign]

theorem addToBalance_eq_ok {balances balances' : Dict String ℚ} {currency : String} {amount : ℚ}
    (h : addToBalance balances currency amount = .ok balances') :
    balances' = balances.set currency (balances.getD currency 0 + amount) := by
  unfold addToBalance at h
  cases hheld : balances.get? currency with
  | none =>
      rw [hheld] at h
      cases h
  | some held =>
      rw [hheld] at h
      cases h
      simp [Dict.getD, hheld]

theorem getD_set_self (balances : Dict String ℚ) (currency : String) (value : ℚ) :
    (balances.set currency value).getD currency 0 = value := by
  simp [Dict.getD]

theorem getD_set_ne (balances : Dict String ℚ) {currency other : String} (value : ℚ)
    (h : other ≠ currency) : (balances.set currency value).getD other 0 = balances.getD other 0 := by
  simp [Dict.getD, Dict.get?_set_ne _ _ h]

theorem exchangeAssets_getD {balances balances' : Dict String ℚ} {spec : SymbolSpecification}
    {side : OrderSide} {lots price fee : ℚ} (hne : spec.baseCurrency ≠ spec.quoteCurrency)
    (h : exchangeAssets balances spec side lots price fee = .ok balances') :
    balances'.getD spec.baseCurrency 0 =
        balances.getD spec.baseCurrency 0 + sideSign side * lots ∧
      balances'.getD spec.quoteCurrency 0 =
        balances.getD spec.quoteCurrency 0 - sideSign side * (lots * price) - fee := by
  cases side with
  | buy =>
      obtain ⟨spent, hspent, hpure⟩ := bind_eq_ok.mp h
      cases hpure
      rw [addToBalance_eq_ok hspent, receiveBalance, getD_set_self, getD_set_ne _ _ hne,
        getD_set_ne _ _ hne.symm, getD_set_self]
      constructor <;> simp only [sideSign] <;> ring
  | sell =>
      obtain ⟨spent, hspent, hreceived⟩ := bind_eq_ok.mp h
      rw [addToBalance_eq_ok hreceived, addToBalance_eq_ok hspent, getD_set_ne _ _ hne,
        getD_set_self, getD_set_self, getD_set_ne _ _ hne.symm]
      constructor <;> simp only [sideSign] <;> ring

variable {cfg : PortfolioConfig} {clock : Option Instant}

theorem openPosition_spot (hspot : cfg.spotMode = true) {pm pm' : PortfolioManager}
    {args : OpenPositionArgs} (h : pm.openPosition cfg clock args = .ok pm') :
    ∃ now spec costs balances, cfg.broker.symbols.get? args.symbol = some spec ∧
      exchangeAssets pm.balances spec (directionToSide args.direction .openAction) args.lots
        args.entryPrice (feeCost args.entryFee) = .ok balances ∧
      pm' = { pm with
        costTracking := costs
        balances := balances
        openPositions := pm.openPositions.set args.orderId (args.position now) } := by
  unfold openPosition at h
  obtain ⟨now, -, h⟩ := bind_eq_ok.mp h
  obtain ⟨costs, hcosts⟩ := recordFee_frame pm args.entryFee
  simp only [hspot, Bool.not_true, Bool.false_eq_true, if_false, hcosts] at h
  obtain ⟨spec, hspec, h⟩ := bind_eq_ok.mp h
  obtain ⟨balances, hexchange, h⟩ := bind_eq_ok.mp h
  cases h
  exact ⟨now, spec, costs, balances, getSymbolSpecification_eq_ok.mp hspec, hexchange, rfl⟩

/-- In spot mode a full close exchanges the assets and marks the position at the exit
price. -/
theorem realizeClose_spot (hspot : cfg.spotMode = true) {pm pm' : PortfolioManager}
    {args : CloseArgs} {position closed : Position}
    (h : realizeClose cfg (pm.recordFee args.exitFee) args position = .ok (pm', closed)) :
    ∃ spec costs balances, cfg.broker.symbols.get? position.symbol = some spec ∧
      exchangeAssets pm.balances spec (directionToSide position.direction .closeAction)
        position.lots args.exitPrice (feeCost args.exitFee) = .ok balances ∧
      pm' = { pm with costTracking := costs, balances := balances } ∧
      closed = position.updateCurrentPrice args.exitPrice args.exitPrice args.exitTickValue
        position.digits := by
  obtain ⟨costs, hcosts⟩ := recordFee_frame pm args.exitFee
  simp only [realizeClose, hspot, if_true, hcosts] at h
  obtain ⟨spec, hspec, h⟩ := bind_eq_ok.mp h
  obtain ⟨balances, hexchange, h⟩ := bind_eq_ok.mp h
  cases h
  exact ⟨spec, costs, balances, getSymbolSpecification_eq_ok.mp hspec, hexchange, rfl, rfl⟩

theorem accrued_spot (hspot : cfg.spotMode = true) (position : Position) :
    accrued cfg clock position = position := by
  simp only [accrued, hspot, true_or, if_true]
  split <;> rfl

end Exchange

section Totals

/-- A quantity summed over the open positions. -/
def total (f : Position → ℚ) (positions : Dict String Position) : ℚ := (positions.values.map f).sum

variable (f : Position → ℚ) {positions : Dict String Position} {k : String}

theorem total_of_get? {position : Position} (h : positions.get? k = some position) :
    total f positions = f position + total f (positions.erase k) := by
  have hperm := (Dict.values_perm_of_get? h).map f
  simpa [total] using hperm.sum_eq

theorem total_set (position : Position) :
    total f (positions.set k position) = f position + total f (positions.erase k) := by
  have hperm := (Dict.values_set_perm positions k position).map f
  simpa [total] using hperm.sum_eq

theorem total_set_fresh (position : Position) (h : positions.get? k = none) :
    total f (positions.set k position) = f position + total f positions := by
  rw [total_set, Dict.erase_eq_self_of_get?_none h]

theorem total_map {positions' : Dict String Position} {g : Position → Position}
    (h : ∀ k, positions'.get? k = (positions.get? k).map g) (hg : ∀ p, f (g p) = f p) :
    total f positions' = total f positions := by
  have hperm := (Dict.values_perm_map h).map f
  have hsame : f ∘ g = f := funext hg
  rw [total, hperm.sum_eq, List.map_map, hsame, total]

theorem total_empty (h : positions.isEmpty = true) : total f positions = 0 := by
  have hnil : positions.entries = [] := List.isEmpty_iff.mp h
  simp [total, Dict.values, hnil]

end Totals

section Ledger

/-- A spot account traded in one symbol that is quoted in the account currency. -/
structure SpotMarket (cfg : PortfolioConfig) (symbol : String) (spec : SymbolSpecification) :
    Prop where
  spot : cfg.spotMode = true
  listed : cfg.broker.symbols.get? symbol = some spec
  account : cfg.accountCurrency = spec.quoteCurrency
  currencies : spec.baseCurrency ≠ spec.quoteCurrency
  contract : spec.contractSize = 1
  tick : spec.tickSize = 1 / 10 ^ spec.digits

def FromExecutor (symbol : String) (spec : SymbolSpecification) (s : Session) :
    PortfolioCall → Prop
  | .openPosition args =>
      args.symbol = symbol ∧ args.digits = spec.digits ∧ s.portfolio.getPosition args.orderId = none
  | .partialClose args _ => args.exitTickValue = spec.tickSize * spec.contractSize
  | .close args => args.exitTickValue = spec.tickSize * spec.contractSize
  | _ => True

/-- The cached gross P&L of the position, after the refresh inside a close, is its gross
P&L at this price. -/
def PricedAt (pm : PortfolioManager) (position : Position) (price : ℚ) : Prop :=
  match pm.positionsDirty, pm.currentPrices.get? position.symbol with
  | true, some (bid, ask) => price = position.closeSide bid ask
  | _, _ => position.grossPnl = position.priceDiff price * position.lots

instance (pm : PortfolioManager) (position : Position) (price : ℚ) :
    Decidable (PricedAt pm position price) := by
  unfold PricedAt
  split <;> infer_instance

/-- The closed lots leave lots of at most eight decimals and are priced at the exit price. -/
def SharePriced (pm : PortfolioManager) (args : CloseArgs) (closeLots : ℚ) (position : Position) :
    Prop :=
  Rounding.roundTo 8 (position.lots - closeLots) = position.lots - closeLots ∧
    (closeLots = 0 ∨ PricedAt pm position args.exitPrice)

instance (pm : PortfolioManager) (args : CloseArgs) (closeLots : ℚ) (position : Position) :
    Decidable (SharePriced pm args closeLots position) := inferInstanceAs (Decidable (_ ∧ _))

/-- A partial close happens at the price its position is marked at, and leaves lots of at
most eight decimals. -/
def PartialAtMark (s : Session) : PortfolioCall → Prop
  | .partialClose args closeLots =>
      ∀ position ∈ s.portfolio.getPosition args.positionId,
        SharePriced s.portfolio args closeLots position
  | _ => True

instance (symbol : String) (spec : SymbolSpecification) (s : Session) :
    ∀ call, Decidable (FromExecutor symbol spec s call)
  | .openPosition _ => inferInstanceAs (Decidable (_ ∧ _))
  | .partialClose _ _ => inferInstanceAs (Decidable (_ = _))
  | .close _ => inferInstanceAs (Decidable (_ = _))
  | .markDirty _ | .setClock _ | .getAccountInfo _ | .ensurePositionsUpdated
  | .modifyPosition _ _ _ => .isTrue trivial

instance (s : Session) : ∀ call, Decidable (PartialAtMark s call)
  | .partialClose _ _ => inferInstanceAs (Decidable (∀ _ ∈ _, _))
  | .markDirty _ | .setClock _ | .getAccountInfo _ | .ensurePositionsUpdated | .openPosition _
  | .close _ | .modifyPosition _ _ _ => .isTrue trivial

def baseHeld (position : Position) : ℚ := directionSign position.direction * position.lots

def quoteSpent (position : Position) : ℚ :=
  directionSign position.direction * (position.lots * position.entryPrice) + position.getTotalFees

def netLogged (pm : PortfolioManager) : ℚ := (pm.tradeLog.map TradeRecord.netPnl).sum

/-- The balances are the initial ones plus the realized results plus what the open
positions hold. -/
structure SpotBalanced (cfg : PortfolioConfig) (symbol : String) (spec : SymbolSpecification)
    (pm : PortfolioManager) : Prop where
  base : pm.getAssetBalance spec.baseCurrency =
    cfg.startBalances.getD spec.baseCurrency 0 + total baseHeld pm.openPositions
  quote : pm.getAssetBalance spec.quoteCurrency =
    cfg.startBalances.getD spec.quoteCurrency 0 + netLogged pm - total quoteSpent pm.openPositions
  members : ∀ k position, pm.getPosition k = some position →
    position.symbol = symbol ∧ position.digits = spec.digits

variable {cfg : PortfolioConfig} {symbol : String} {spec : SymbolSpecification}

theorem priceDiff_eq (position : Position) (price : ℚ) :
    position.priceDiff price =
      directionSign position.direction * (price - position.entryPrice) := by
  unfold Position.priceDiff directionSign
  cases position.direction <;> ring

theorem SpotMarket.grossPnl (hmarket : SpotMarket cfg symbol spec) (diff lots : ℚ) :
    grossPnlFromPriceDiff diff spec.digits (spec.tickSize * spec.contractSize) lots =
      diff * lots := by
  have hpow : (10 : ℚ) ^ spec.digits ≠ 0 := pow_ne_zero _ (by norm_num)
  rw [grossPnlFromPriceDiff, hmarket.tick, hmarket.contract]
  field_simp

theorem SpotMarket.tickValue (hmarket : SpotMarket cfg symbol spec) (price : ℚ) :
    tickValueAt cfg spec price = spec.tickSize * spec.contractSize := by
  rw [tickValueAt, if_pos hmarket.account]

theorem refresh_keeps (hspot : cfg.spotMode = true) (s : Session) (position : Position) :
    baseHeld (afterRefresh cfg s position) = baseHeld position ∧
      quoteSpent (afterRefresh cfg s position) = quoteSpent position ∧
      (afterRefresh cfg s position).symbol = position.symbol ∧
      (afterRefresh cfg s position).digits = position.digits := by
  rw [afterRefresh, accrued_spot hspot]
  unfold marked
  split
  · exact ⟨rfl, rfl, rfl, rfl⟩
  · exact ⟨rfl, rfl, rfl, rfl⟩

theorem refresh_size (hspot : cfg.spotMode = true) (s : Session) (position : Position) :
    (afterRefresh cfg s position).lots = position.lots ∧
      (afterRefresh cfg s position).direction = position.direction ∧
      (afterRefresh cfg s position).entryPrice = position.entryPrice := by
  rw [afterRefresh, accrued_spot hspot]
  unfold marked
  split
  · exact ⟨rfl, rfl, rfl⟩
  · exact ⟨rfl, rfl, rfl⟩

theorem grossPnl_of_pricedAt (hmarket : SpotMarket cfg symbol spec) {s : Session}
    {position : Position} (hsymbol : position.symbol = symbol) {price : ℚ}
    (h : PricedAt s.portfolio position price) :
    (afterRefresh cfg s position).grossPnl =
      directionSign position.direction * (price - position.entryPrice) * position.lots := by
  rw [afterRefresh, accrued_spot hmarket.spot, ← priceDiff_eq]
  have hlisted : cfg.broker.symbols.get? position.symbol = some spec := hsymbol ▸ hmarket.listed
  unfold PricedAt at h
  unfold marked
  rw [hlisted]
  cases hdirty : s.portfolio.positionsDirty with
  | false =>
      rw [hdirty] at h
      exact h
  | true =>
      rw [hdirty] at h
      cases hprice : s.portfolio.currentPrices.get? position.symbol with
      | none =>
          rw [hprice] at h
          exact h
      | some quote =>
          obtain ⟨bid, ask⟩ := quote
          rw [hprice] at h
          have hgross := hmarket.grossPnl (position.priceDiff (position.closeSide bid ask))
            position.lots
          simp only at h
          rw [h, ← hgross]
          simp only [Position.updateCurrentPrice, hmarket.tickValue]

theorem SpotBalanced.refresh (hmarket : SpotMarket cfg symbol spec) {s : Session}
    {pm : PortfolioManager} (h : SpotBalanced cfg symbol spec s.portfolio)
    (hensure : s.portfolio.ensurePositionsUpdated cfg s.clock = .ok pm) :
    SpotBalanced cfg symbol spec pm := by
  obtain ⟨⟨costs, positions, rate, rfl⟩, hget⟩ := ensurePositionsUpdated_eq_ok hensure
  have hmap : ∀ k, positions.get? k = (s.portfolio.openPositions.get? k).map
      (afterRefresh cfg s) := hget
  have hkeeps := refresh_keeps hmarket.spot s
  constructor
  · have hbase := total_map baseHeld hmap fun p => (hkeeps p).1
    exact h.base.trans (by rw [← hbase])
  · have hquote := total_map quoteSpent hmap fun p => (hkeeps p).2.1
    exact h.quote.trans (by rw [← hquote]; rfl)
  · intro k position hposition
    obtain ⟨before, hbefore, rfl⟩ := Option.map_eq_some_iff.mp ((hmap k).symm.trans hposition)
    obtain ⟨hsymbol, hdigits⟩ := h.members k before hbefore
    exact ⟨(hkeeps before).2.2.1.trans hsymbol, (hkeeps before).2.2.2.trans hdigits⟩

theorem modifyPosition_cases (pm : PortfolioManager) (positionId : String)
    (newStopLoss newTakeProfit : Setting (Option ℚ)) :
    (pm.modifyPosition positionId newStopLoss newTakeProfit).1 = pm ∨
      ∃ target stopLoss takeProfit, pm.getPosition positionId = some target ∧
        (pm.modifyPosition positionId newStopLoss newTakeProfit).1 = { pm with
          openPositions := pm.openPositions.set positionId
            { target with stopLoss := stopLoss, takeProfit := takeProfit } } := by
  unfold PortfolioManager.modifyPosition
  cases htarget : pm.getPosition positionId with
  | none => exact .inl rfl
  | some target =>
      simp only
      cases pm.currentPrices.get? target.symbol with
      | none => exact .inl rfl
      | some quote =>
          simp only
          split
          · exact .inl rfl
          · exact .inr ⟨target, _, _, rfl, rfl⟩

theorem SpotBalanced.modify {pm : PortfolioManager} (h : SpotBalanced cfg symbol spec pm)
    (positionId : String) (newStopLoss newTakeProfit : Setting (Option ℚ)) :
    SpotBalanced cfg symbol spec
      (pm.modifyPosition positionId newStopLoss newTakeProfit).1 := by
  rcases modifyPosition_cases pm positionId newStopLoss newTakeProfit with
    hsame | ⟨target, stopLoss, takeProfit, htarget, hset⟩
  · rw [hsame]
    exact h
  · rw [hset]
    have hsplit : ∀ f, total f pm.openPositions =
        f target + total f (pm.openPositions.erase positionId) :=
      fun f => total_of_get? f htarget
    constructor
    · have hbase := h.base
      rw [hsplit] at hbase
      rw [total_set]
      exact hbase
    · have hquote := h.quote
      rw [hsplit] at hquote
      rw [total_set]
      exact hquote
    · intro k position hposition
      by_cases hk : k = positionId
      · subst hk
        cases (Dict.get?_set_self _ _ _).symm.trans hposition
        exact h.members k target htarget
      · exact h.members k position ((Dict.get?_set_ne _ _ hk).symm.trans hposition)

theorem entryFees_cost (args : OpenPositionArgs) (now : Instant) :
    (args.position now).getTotalFees = feeCost args.entryFee := by
  unfold OpenPositionArgs.position Position.getTotalFees feeCost
  cases args.entryFee <;> simp [Position.totalCost]

/-- An open spends what the new position has cost and receives what it holds. -/
theorem SpotBalanced.opened (hmarket : SpotMarket cfg symbol spec) {s : Session}
    {pm : PortfolioManager} {args : OpenPositionArgs}
    (h : SpotBalanced cfg symbol spec s.portfolio)
    (hcaller : FromExecutor symbol spec s (.openPosition args))
    (hopen : s.portfolio.openPosition cfg s.clock args = .ok pm) :
    SpotBalanced cfg symbol spec pm := by
  obtain ⟨hsymbol, hdigits, hfresh⟩ := hcaller
  obtain ⟨now, spec', costs, balances, hspec, hexchange, rfl⟩ :=
    openPosition_spot hmarket.spot hopen
  rw [hsymbol, hmarket.listed] at hspec
  cases hspec
  obtain ⟨hbase, hquote⟩ := exchangeAssets_getD hmarket.currencies hexchange
  rw [sideSign_open] at hbase hquote
  constructor
  · have hbefore := h.base
    simp only [getAssetBalance] at hbefore ⊢
    rw [hbase, hbefore, total_set_fresh _ _ hfresh]
    simp only [baseHeld, OpenPositionArgs.position]
    ring
  · have hbefore := h.quote
    simp only [getAssetBalance] at hbefore ⊢
    rw [hquote, hbefore, total_set_fresh _ _ hfresh]
    simp only [quoteSpent, entryFees_cost]
    simp only [OpenPositionArgs.position, netLogged]
    ring
  · intro k position hposition
    by_cases hk : k = args.orderId
    · subst hk
      cases (Dict.get?_set_self _ _ _).symm.trans hposition
      exact ⟨hsymbol, hdigits⟩
    · exact h.members k position ((Dict.get?_set_ne _ _ hk).symm.trans hposition)

theorem withExitFee_eq (position : Position) (fee : Option TradingFee) :
    (withExitFee position fee).getTotalFees = position.getTotalFees + feeCost fee ∧
      ∃ fees, withExitFee position fee = { position with fees := fees } := by
  unfold withExitFee feeCost
  cases fee with
  | none => exact ⟨by simp, _, rfl⟩
  | some fee => exact ⟨by simp [Position.addFee, Position.getTotalFees, Position.totalCost], _, rfl⟩

theorem closed_netPnl (hmarket : SpotMarket cfg symbol spec) {args : CloseArgs}
    (hvalue : args.exitTickValue = spec.tickSize * spec.contractSize) {position : Position}
    (hdigits : position.digits = spec.digits) :
    ((withExitFee position args.exitFee).updateCurrentPrice args.exitPrice args.exitPrice
        args.exitTickValue position.digits).unrealizedPnl =
      directionSign position.direction * (args.exitPrice - position.entryPrice) * position.lots -
        position.getTotalFees - feeCost args.exitFee := by
  obtain ⟨hfees, fees, hexit⟩ := withExitFee_eq position args.exitFee
  have hside : (withExitFee position args.exitFee).closeSide args.exitPrice args.exitPrice =
      args.exitPrice := by
    unfold Position.closeSide
    split <;> rfl
  rw [Position.updateCurrentPrice_unrealizedPnl, Position.updateCurrentPrice_getTotalFees, hfees]
  simp only [Position.updateCurrentPrice, hside, hvalue, hdigits, hmarket.grossPnl]
  rw [priceDiff_eq, hexit]
  ring

/-- A full close turns what the position holds and has cost into its net P&L. -/
theorem SpotBalanced.closed (hmarket : SpotMarket cfg symbol spec) {s : Session}
    {pm : PortfolioManager} {args : CloseArgs} {pnl : ℚ}
    (h : SpotBalanced cfg symbol spec s.portfolio)
    (hcaller : FromExecutor symbol spec s (.close args))
    (hclose : s.portfolio.closePositionPortfolio cfg s.clock args = .ok (pm, pnl)) :
    SpotBalanced cfg symbol spec pm := by
  obtain ⟨position, pm₁, pm₂, closed, now, hposition, hensure, hrealize, -, hpnl, rfl⟩ :=
    closePositionPortfolio_inv hclose
  have h₁ := h.refresh hmarket hensure
  have hposition₁ := ensure_treats hensure hposition
  obtain ⟨hsymbol, hdigits⟩ := h₁.members _ _ hposition₁
  have hrefreshed : marked cfg s.portfolio (accrued cfg s.clock position) =
      afterRefresh cfg s position := rfl
  rw [hrefreshed] at hrealize
  generalize afterRefresh cfg s position = current at hrealize hposition₁ hsymbol hdigits
  obtain ⟨spec', costs, balances, hspec, hexchange, rfl, hclosed⟩ :=
    realizeClose_spot hmarket.spot hrealize
  obtain ⟨-, fees, hexit⟩ := withExitFee_eq current args.exitFee
  have hsame : (withExitFee current args.exitFee).symbol = current.symbol ∧
      (withExitFee current args.exitFee).direction = current.direction ∧
      (withExitFee current args.exitFee).lots = current.lots ∧
      (withExitFee current args.exitFee).digits = current.digits := by
    rw [hexit]
    exact ⟨rfl, rfl, rfl, rfl⟩
  rw [hsame.1, hsymbol, hmarket.listed] at hspec
  cases hspec
  rw [hsame.2.1, hsame.2.2.1] at hexchange
  obtain ⟨hbase, hquote⟩ := exchangeAssets_getD hmarket.currencies hexchange
  rw [sideSign_close] at hbase hquote
  rw [hsame.2.2.2] at hclosed
  have hnet := closed_netPnl hmarket hcaller hdigits
  rw [← hclosed] at hnet
  constructor
  · have hbefore := h₁.base
    rw [total_of_get? _ hposition₁] at hbefore
    simp only [getAssetBalance, updateStatistics, appendTradeRecord] at hbefore ⊢
    rw [hbase, hbefore]
    simp only [baseHeld]
    ring
  · have hbefore := h₁.quote
    rw [total_of_get? _ hposition₁] at hbefore
    simp only [getAssetBalance, updateStatistics, appendTradeRecord, netLogged, List.map_append,
      List.sum_append, createTradeRecord, tradeRecord, List.map_cons, List.map_nil, List.sum_cons,
      List.sum_nil] at hbefore ⊢
    rw [hquote, hbefore, hnet]
    simp only [quoteSpent]
    ring
  · intro k other hother
    by_cases hk : k = args.positionId
    · subst hk
      cases (Dict.get?_erase_self _ _).symm.trans hother
    · exact h₁.members k other ((Dict.get?_erase_ne _ hk).symm.trans hother)

theorem remainder_fees (position : Position) (closeLots ratio : ℚ) :
    (remainder position closeLots ratio).getTotalFees = position.getTotalFees * ratio := by
  simp only [remainder, Position.getTotalFees, Position.totalCost, List.map_map]
  induction position.fees with
  | nil => simp
  | cons fee fees ih =>
      simp only [List.map_cons, List.sum_cons, Function.comp_apply, ih]
      ring

/-- A partial close at the price its position is marked at turns the closed share of what
the position holds and has cost into its net P&L. -/
theorem SpotBalanced.partlyClosed (hmarket : SpotMarket cfg symbol spec) {s : Session}
    {pm : PortfolioManager} {args : CloseArgs} {closeLots pnl : ℚ}
    (h : SpotBalanced cfg symbol spec s.portfolio)
    (hmark : PartialAtMark s (.partialClose args closeLots))
    (hclose : s.portfolio.partialClosePosition cfg s.clock args closeLots = .ok (pm, pnl)) :
    SpotBalanced cfg symbol spec pm := by
  obtain ⟨position, pm₁, pm₂, now, closed, balances, hposition, hensure, -, hclosed, hlots, -,
    rfl, -, hexchange, rfl⟩ := partialClosePosition_inv hclose
  obtain ⟨hround, hprice⟩ := hmark position hposition
  have h₁ := h.refresh hmarket hensure
  have hposition₁ := ensure_treats hensure hposition
  have hkeeps := refresh_keeps hmarket.spot s position
  obtain ⟨hsymbol, hdigits⟩ := h₁.members _ _ hposition₁
  have hbeforeSymbol : position.symbol = symbol := hkeeps.2.2.1.symm.trans hsymbol
  have hcurrent : closed = afterRefresh cfg s position := hclosed
  rw [← hcurrent] at hposition₁ hsymbol hdigits
  obtain ⟨spec', hspec, hexchange⟩ := hexchange hmarket.spot
  rw [hsymbol, hmarket.listed] at hspec
  cases hspec
  obtain ⟨hbase, hquote⟩ := exchangeAssets_getD hmarket.currencies hexchange
  rw [sideSign_close] at hbase hquote
  have hlotsKept : closed.lots = position.lots := by
    rw [hcurrent]
    exact (refresh_size hmarket.spot s position).1
  rw [← hlotsKept] at hround
  -- the closed share of the cached gross P&L is the move to the exit price on the closed lots
  have hgross : closed.grossPnl * (closeLots / closed.lots) =
      directionSign closed.direction * (args.exitPrice - closed.entryPrice) * closeLots := by
    rcases hprice with hzero | hpriced
    · rw [hzero]
      simp
    · have hmarked := grossPnl_of_pricedAt hmarket hbeforeSymbol hpriced
      obtain ⟨-, hdirection, hentry⟩ := refresh_size hmarket.spot s position
      rw [← hdirection, ← hentry, ← hlotsKept, ← hcurrent] at hmarked
      rw [hmarked]
      field_simp
  obtain ⟨costs, hcosts⟩ := recordFee_frame pm₁ args.exitFee
  rw [hcosts]
  constructor
  · have hbefore := h₁.base
    rw [total_of_get? _ hposition₁] at hbefore
    simp only [getAssetBalance, updateStatistics, appendTradeRecord] at hbefore ⊢
    rw [hbase, hbefore, total_set]
    simp only [baseHeld, remainder, hround]
    ring
  · have hbefore := h₁.quote
    rw [total_of_get? _ hposition₁] at hbefore
    simp only [getAssetBalance, updateStatistics, appendTradeRecord, netLogged, List.map_append,
      List.sum_append, partialRecord, tradeRecord, List.map_cons, List.map_nil, List.sum_cons,
      List.sum_nil] at hbefore ⊢
    have hrest : quoteSpent (remainder closed closeLots (1 - closeLots / closed.lots)) =
        directionSign closed.direction * ((closed.lots - closeLots) * closed.entryPrice) +
          closed.getTotalFees * (1 - closeLots / closed.lots) := by
      rw [quoteSpent, remainder_fees]
      simp only [remainder, hround]
    rw [hquote, hbefore, total_set, hrest, hgross]
    simp only [quoteSpent]
    ring
  · intro k other hother
    by_cases hk : k = args.positionId
    · subst hk
      cases (Dict.get?_set_self _ _ _).symm.trans hother
      exact ⟨hsymbol, hdigits⟩
    · exact h₁.members k other ((Dict.get?_set_ne _ _ hk).symm.trans hother)

/-- One call of the executor keeps the ledger balanced, unless it is a partial close away
from the mark. -/
theorem spot_step (hmarket : SpotMarket cfg symbol spec) (s : Session) (call : PortfolioCall)
    (s' : Session) (h : SpotBalanced cfg symbol spec s.portfolio)
    (hcall : FromExecutor symbol spec s call ∧ PartialAtMark s call)
    (hstep : callStep cfg s call = .ok s') : SpotBalanced cfg symbol spec s'.portfolio := by
  obtain ⟨hcaller, hmark⟩ := hcall
  cases callStep_called hstep with
  | priced tick => exact ⟨h.base, h.quote, h.members⟩
  | clockSet now => exact h
  | queried hensure => exact h.refresh hmarket hensure
  | refreshed hensure => exact h.refresh hmarket hensure
  | opened hopen => exact h.opened hmarket hcaller hopen
  | reduced hclose => exact h.partlyClosed hmarket hmark hclose
  | closed hclose => exact h.closed hmarket hcaller hclose
  | modified positionId newStopLoss newTakeProfit =>
      exact h.modify positionId newStopLoss newTakeProfit

theorem spotBalanced_start (clock : Option Instant) :
    SpotBalanced cfg symbol spec (start cfg clock).portfolio := by
  have hnone : ∀ f, total f (start cfg clock).portfolio.openPositions = 0 :=
    fun f => total_empty f rfl
  constructor
  · rw [hnone, add_zero]
    rfl
  · rw [hnone, sub_zero]
    simp [start, new, getAssetBalance, netLogged]
  · intro k position hposition
    cases hposition

/-- In every spot run whose partial closes happen at the price their position is marked at
and leave lots of at most eight decimals, the base balance is the initial one and the quote
balance the initial one plus the net P&L of all records whenever no position is open. -/
theorem spot_ledger (hmarket : SpotMarket cfg symbol spec) {clock : Option Instant}
    {calls : List PortfolioCall} {s : Session}
    (hrun : run (callStep cfg) (start cfg clock) calls = .ok s)
    (hcalls : StepsAll (callStep cfg)
      (fun s call => FromExecutor symbol spec s call ∧ PartialAtMark s call) (start cfg clock) calls)
    (hflat : s.portfolio.openPositions.isEmpty = true) :
    s.portfolio.getAssetBalance spec.baseCurrency =
        cfg.startBalances.getD spec.baseCurrency 0 ∧
      s.portfolio.getAssetBalance spec.quoteCurrency =
        cfg.startBalances.getD spec.quoteCurrency 0 + netLogged s.portfolio := by
  have hbalanced := run_invariant_of_stepsAll (I := fun s => SpotBalanced cfg symbol spec s.portfolio)
    (spot_step hmarket) (spotBalanced_start clock) hcalls hrun
  have hbase := hbalanced.base
  have hquote := hbalanced.quote
  rw [total_empty _ hflat] at hbase hquote
  exact ⟨by rw [hbase, add_zero], by rw [hquote, sub_zero]⟩

end Ledger

section Account

open Finiex.LiveSteps

theorem spotAccount_market : SpotMarket spotAccount "ETHUSD" ethusd where
  spot := rfl
  listed := rfl
  account := rfl
  currencies := by decide
  contract := rfl
  tick := by norm_num [ethusd]

def twoEther : OpenPositionArgs where
  orderId := "pos_ethusd_1"
  symbol := "ETHUSD"
  direction := .long
  lots := 2
  entryPrice := 2001
  entryTickValue := 1 / 100
  entryBid := 2000
  entryAsk := 2001
  digits := 2
  contractSize := 1
  entryTickIndex := 1

def exitAt (price : ℚ) : CloseArgs where
  positionId := "pos_ethusd_1"
  exitPrice := price
  exitTickValue := 1 / 100
  exitTickIndex := 2

/-- Half of the position is sold at this price, the rest at the bid of a later tick. -/
def soldInTwo (price : ℚ) : List PortfolioCall :=
  [.markDirty (ethusdTick 2000 2001 1), .setClock 1000, .openPosition twoEther,
    .partialClose (exitAt price) 1, .markDirty (ethusdTick 2010 2011 2), .close (exitAt 2010)]

/-- The broker fills the partial close ten above the bid of the last tick: the balance
gains it, the record does not. -/
theorem fill_above_mark_unexplained :
    ∃ s, run (callStep spotAccount) (start spotAccount none) (soldInTwo 2010) = .ok s ∧
      StepsAll (callStep spotAccount) (FromExecutor "ETHUSD" ethusd) (start spotAccount none)
        (soldInTwo 2010) ∧
      s.portfolio.openPositions.isEmpty = true ∧
      s.portfolio.getAssetBalance ethusd.quoteCurrency ≠
        spotAccount.startBalances.getD ethusd.quoteCurrency 0 + netLogged s.portfolio := by
  obtain ⟨s, hrun, hresult⟩ := exists_of_map_eq_ok (show
    (run (callStep spotAccount) (start spotAccount none) (soldInTwo 2010)).map (fun s =>
      (s.portfolio.openPositions.isEmpty, s.portfolio.getAssetBalance ethusd.quoteCurrency,
        netLogged s.portfolio)) = .ok (true, 100018, 8) by decide +kernel)
  have hflat : s.portfolio.openPositions.isEmpty = true := congrArg Prod.fst hresult
  have hquote : s.portfolio.getAssetBalance ethusd.quoteCurrency = 100018 :=
    congrArg (·.2.1) hresult
  have hnet : netLogged s.portfolio = 8 := congrArg (·.2.2) hresult
  refine ⟨s, hrun, by decide +kernel, hflat, ?_⟩
  rw [hquote, hnet]
  decide +kernel

theorem spot_ledger_soldAtMark :
    ∃ s, run (callStep spotAccount) (start spotAccount none) (soldInTwo 2000) = .ok s ∧
      s.portfolio.getAssetBalance ethusd.baseCurrency =
        spotAccount.startBalances.getD ethusd.baseCurrency 0 ∧
      s.portfolio.getAssetBalance ethusd.quoteCurrency =
        spotAccount.startBalances.getD ethusd.quoteCurrency 0 + netLogged s.portfolio := by
  obtain ⟨s, hrun, hflat⟩ := exists_of_map_eq_ok (show
    (run (callStep spotAccount) (start spotAccount none) (soldInTwo 2000)).map
      (fun s => s.portfolio.openPositions.isEmpty) = .ok true by decide +kernel)
  exact ⟨s, hrun, spot_ledger spotAccount_market hrun (by decide +kernel) hflat⟩

end Account

end Finiex.SpotLedger
