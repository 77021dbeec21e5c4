import Finiex.SpotLedger
import Finiex.Lib.Extremes

namespace Finiex.SpotDrawdown

open Finiex.Types
open Finiex.Lib
open Finiex.Lib.Run
open Finiex.Lib.Extremes
open Finiex.Positions
open Finiex.Broker
open Finiex.Portfolio
open Finiex.Portfolio.PortfolioManager
open Finiex.PortfolioRefresh
open Finiex.PortfolioLedger
open Finiex.PortfolioFrames
open Finiex.PortfolioRuns
open Finiex.SpotLedger

section Value

variable (cfg : PortfolioConfig) (pm : PortfolioManager)

def accountValue : ℚ :=
  match pm.currentTick with
  | some tick => pm.getSpotEquity cfg ((tick.bid + tick.ask) / 2)
  | none => pm.calculateEquity cfg

def heldAssets (price : ℚ) : ℚ :=
  ((pm.balances.erase cfg.accountCurrency).values.map (· * price)).sum

/-- The unrealized P&L is what the held assets are worth. -/
def AssetsCounted : Prop :=
  ∀ tick ∈ pm.currentTick, heldAssets cfg pm ((tick.bid + tick.ask) / 2) = pm.unrealizedTotal

instance : Decidable (AssetsCounted cfg pm) := inferInstanceAs (Decidable (∀ _ ∈ _, _))

variable {cfg}

theorem getSpotEquity_eq (price : ℚ) :
    pm.getSpotEquity cfg price = pm.balance cfg + heldAssets cfg pm price := by
  have hothers : ∀ entry ∈ (pm.balances.erase cfg.accountCurrency).entries,
      (if entry.1 = cfg.accountCurrency then entry.2 else entry.2 * price) = entry.2 * price := by
    intro entry hentry
    rw [if_neg (Dict.mem_erase_entries.mp hentry).2]
  have hrest : ((pm.balances.erase cfg.accountCurrency).entries.map fun entry =>
      if entry.1 = cfg.accountCurrency then entry.2 else entry.2 * price).sum =
        heldAssets cfg pm price := by
    rw [List.map_congr_left hothers, heldAssets, Dict.values, List.map_map]
    rfl
  unfold getSpotEquity balance Dict.getD
  cases hcash : pm.balances.get? cfg.accountCurrency with
  | none => rw [← hrest, Dict.erase_eq_self_of_get?_none hcash, Option.getD_none, zero_add]
  | some cash =>
      rw [((Dict.entries_perm_of_get? hcash).map _).sum_eq, List.map_cons, List.sum_cons, if_pos rfl,
        hrest, Option.getD_some]

/-- Cash and unrealized P&L are the value of the account exactly when the assets are counted. -/
theorem calculateEquity_eq_accountValue_iff :
    pm.calculateEquity cfg = accountValue cfg pm ↔ AssetsCounted cfg pm := by
  unfold accountValue AssetsCounted
  cases pm.currentTick with
  | none => simp
  | some tick =>
      simp only [getSpotEquity_eq, calculateEquity, add_right_inj, Option.mem_def,
        Option.some.injEq, forall_eq']
      exact eq_comm

/-- An account without positions and without assets holds nothing but cash. -/
theorem assetsCounted_of_flat (hpositions : pm.openPositions.entries = [])
    (hassets : ∀ amount ∈ (pm.balances.erase cfg.accountCurrency).values, amount = 0) :
    AssetsCounted cfg pm := by
  intro tick _
  have hassets' : heldAssets cfg pm ((tick.bid + tick.ask) / 2) = 0 := by
    apply List.sum_eq_zero
    rintro worth hworth
    obtain ⟨amount, hamount, rfl⟩ := List.mem_map.mp hworth
    rw [hassets amount hamount, zero_mul]
  rw [hassets', unrealizedTotal, Dict.values, hpositions]
  rfl

end Value

section Statistics

variable {cfg : PortfolioConfig}

def recorded (pm : PortfolioManager) : Drawdown ℚ :=
  ⟨pm.statistics.maxEquity, pm.statistics.maxDrawdown⟩

theorem recorded_updateStatistics (pm : PortfolioManager) (direction : OrderDirection) (pnl : ℚ) :
    recorded (pm.updateStatistics cfg direction pnl) =
      (recorded pm).observe (pm.calculateEquity cfg) := by
  simp only [recorded, updateStatistics, Drawdown.observe, max_def_lt]

def closes : PortfolioCall → Bool
  | .partialClose _ _ | .close _ => true
  | _ => false

theorem callStep_recorded {s s' : Session} {call : PortfolioCall}
    (h : callStep cfg s call = .ok s') :
    recorded s'.portfolio = if closes call then
      (recorded s.portfolio).observe (s'.portfolio.calculateEquity cfg)
    else recorded s.portfolio := by
  have hensured : ∀ {pm}, s.portfolio.ensurePositionsUpdated cfg s.clock = .ok pm →
      recorded pm = recorded s.portfolio := by
    intro pm hensure
    obtain ⟨⟨costs, positions, rate, rfl⟩, -⟩ := ensurePositionsUpdated_eq_ok hensure
    rfl
  cases callStep_called h with
  | priced tick => rfl
  | clockSet now => rfl
  | modified positionId newStopLoss newTakeProfit =>
      rcases modifyPosition_cases s.portfolio positionId newStopLoss newTakeProfit with
        hsame | ⟨target, stopLoss, takeProfit, -, hset⟩
      · simp [closes, hsame]
      · simp [closes, hset, recorded]
  | queried hensure => exact hensured hensure
  | refreshed hensure => exact hensured hensure
  | opened hopen =>
      obtain ⟨now, costs, balances, -, rfl⟩ := openPosition_eq_ok hopen
      rfl
  | @reduced args closeLots pnl pm hclose =>
      obtain ⟨position, pm₁, pm₂, now, closed, balances, -, hensure, -, -, -, -, rfl, -, -, rfl⟩ :=
        partialClosePosition_inv hclose
      obtain ⟨costs, hcosts⟩ := recordFee_frame pm₁ args.exitFee
      rw [← hensured hensure, hcosts]
      exact recorded_updateStatistics _ _ _
  | closed hclose =>
      obtain ⟨position, pm₁, pm₂, closed, now, -, hensure, hrealize, -, -, rfl⟩ :=
        closePositionPortfolio_inv hclose
      obtain ⟨costs, balances, rfl⟩ := realizeClose_frame hrealize
      rw [← hensured hensure]
      exact recorded_updateStatistics _ _ _

end Statistics

section Runs

variable (cfg : PortfolioConfig)

/-- A session with the drawdown of the account value at the instants at which trades close. -/
structure Valued where
  session : Session
  drawdown : Drawdown ℚ

def valuedStep (v : Valued) (call : PortfolioCall) : Except PyError Valued := do
  let s ← callStep cfg v.session call
  return { session := s
           drawdown := if closes call then v.drawdown.observe (accountValue cfg s.portfolio)
             else v.drawdown }

def beginValued (clock : Option Instant) : Valued where
  session := start cfg clock
  drawdown := recorded (Portfolio.new cfg)

/-- The account holds one open position and, beside its own currency, only what that position
holds of the symbol's base currency. -/
def HoldsOnly (pm : PortfolioManager) (positionId : String) : Prop :=
  (∀ k ∈ pm.openPositions.keys, k = positionId) ∧
    ∀ position ∈ pm.getPosition positionId, ∀ spec ∈ cfg.broker.symbols.get? position.symbol,
      spec.quoteCurrency = cfg.accountCurrency ∧ spec.baseCurrency ≠ cfg.accountCurrency ∧
        pm.getAssetBalance spec.baseCurrency = baseHeld position ∧
          ∀ entry ∈ (pm.balances.erase cfg.accountCurrency).entries,
            entry.1 = spec.baseCurrency ∨ entry.2 = 0

/-- A trade closes only in full, and where nothing else is held. -/
def ClosesOut (v : Valued) : PortfolioCall → Prop
  | .partialClose _ _ => False
  | .close args => HoldsOnly cfg v.session.portfolio args.positionId
  | _ => True

instance (pm : PortfolioManager) (positionId : String) : Decidable (HoldsOnly cfg pm positionId) :=
  have (position : Position) : Decidable (∀ spec ∈ cfg.broker.symbols.get? position.symbol,
      spec.quoteCurrency = cfg.accountCurrency ∧ spec.baseCurrency ≠ cfg.accountCurrency ∧
        pm.getAssetBalance spec.baseCurrency = baseHeld position ∧
          ∀ entry ∈ (pm.balances.erase cfg.accountCurrency).entries,
            entry.1 = spec.baseCurrency ∨ entry.2 = 0) :=
    inferInstanceAs (Decidable (∀ _ ∈ _, _))
  inferInstanceAs (Decidable (_ ∧ ∀ _ ∈ _, _))

instance (v : Valued) : ∀ call, Decidable (ClosesOut cfg v call)
  | .partialClose _ _ => .isFalse id
  | .close _ => inferInstanceAs (Decidable (HoldsOnly _ _ _))
  | .markDirty _ | .setClock _ | .getAccountInfo _ | .ensurePositionsUpdated | .openPosition _
  | .modifyPosition _ _ _ => .isTrue trivial

variable {cfg}

theorem exchangeAssets_getD_ne {balances balances' : Dict String ℚ} {spec : SymbolSpecification}
    {side : OrderSide} {lots price fee : ℚ} {currency : String}
    (hbase : currency ≠ spec.baseCurrency) (hquote : currency ≠ spec.quoteCurrency)
    (h : exchangeAssets balances spec side lots price fee = .ok balances') :
    balances'.getD currency 0 = balances.getD currency 0 := by
  cases side with
  | buy =>
      obtain ⟨spent, hspent, hpure⟩ := bind_eq_ok.mp h
      cases hpure
      rw [addToBalance_eq_ok hspent, receiveBalance, getD_set_ne _ _ hbase, getD_set_ne _ _ hquote]
  | sell =>
      obtain ⟨spent, hspent, hreceived⟩ := bind_eq_ok.mp h
      rw [addToBalance_eq_ok hreceived, addToBalance_eq_ok hspent, getD_set_ne _ _ hquote,
        getD_set_ne _ _ hbase]

/-- The exchange of a close gives back what the position holds, and leaves nothing else. -/
theorem exchange_leaves_nothing {balances balances' : Dict String ℚ} {spec : SymbolSpecification}
    {position : Position} {price fee : ℚ} {account : String} (hquote : spec.quoteCurrency = account)
    (hbase : spec.baseCurrency ≠ account)
    (hheld : balances.getD spec.baseCurrency 0 = baseHeld position)
    (hothers : ∀ entry ∈ (balances.erase account).entries,
      entry.1 = spec.baseCurrency ∨ entry.2 = 0)
    (h : exchangeAssets balances spec (directionToSide position.direction .closeAction)
      position.lots price fee = .ok balances') :
    ∀ amount ∈ (balances'.erase account).values, amount = 0 := by
  intro amount hmem
  obtain ⟨⟨currency, _⟩, hentry, rfl⟩ := List.mem_map.mp hmem
  obtain ⟨hentry, hother⟩ := Dict.mem_erase_entries.mp hentry
  have hamount := (Dict.get?_eq_some_iff _).mpr hentry
  by_cases hcurrency : currency = spec.baseCurrency
  · subst hcurrency
    have hexchanged := (exchangeAssets_getD (hquote ▸ hbase) h).1
    rw [Dict.getD, hamount, Option.getD_some, hheld, sideSign_close] at hexchanged
    rw [hexchanged, baseHeld]
    ring
  · have hkept : balances'.getD currency 0 = balances.getD currency 0 :=
      exchangeAssets_getD_ne hcurrency (hquote ▸ hother) h
    rw [Dict.getD, hamount, Option.getD_some] at hkept
    rw [hkept, Dict.getD]
    cases hbefore : balances.get? currency with
    | none => rfl
    | some before =>
        have hin : (currency, before) ∈ (balances.erase account).entries :=
          Dict.mem_erase_entries.mpr ⟨(Dict.get?_eq_some_iff _).mp hbefore, hother⟩
        exact (hothers _ hin).resolve_left hcurrency

/-- Closing the one position that is held gives back all that is held. -/
theorem HoldsOnly.assetsCounted (hspot : cfg.spotMode = true) {s : Session} {args : CloseArgs}
    {pm : PortfolioManager} {pnl : ℚ} (h : HoldsOnly cfg s.portfolio args.positionId)
    (hclose : s.portfolio.closePositionPortfolio cfg s.clock args = .ok (pm, pnl)) :
    AssetsCounted cfg pm := by
  obtain ⟨position, pm₁, pm₂, closed, now, hposition, hensure, hrealize, -, -, rfl⟩ :=
    closePositionPortfolio_inv hclose
  obtain ⟨spec, costs, balances, hlisted, hexchange, rfl, -⟩ := realizeClose_spot hspot hrealize
  obtain ⟨⟨costs', positions, rate, rfl⟩, hget⟩ := ensurePositionsUpdated_eq_ok hensure
  obtain ⟨honly, hheld⟩ := h
  have hsold : ∀ fee, (withExitFee (afterRefresh cfg s position) fee).symbol = position.symbol ∧
      baseHeld (withExitFee (afterRefresh cfg s position) fee) = baseHeld position := by
    obtain ⟨hbaseHeld, -, hsymbol, -⟩ := refresh_keeps hspot s position
    rintro (_ | fee)
    · exact ⟨hsymbol, hbaseHeld⟩
    · exact ⟨hsymbol, hbaseHeld⟩
  obtain ⟨hsymbol, hsame⟩ := hsold args.exitFee
  obtain ⟨hquote, hbase, hamount, hothers⟩ := hheld position hposition spec (hsymbol ▸ hlisted)
  apply assetsCounted_of_flat
  · show (positions.erase args.positionId).entries = []
    apply List.eq_nil_iff_forall_not_mem.mpr
    rintro ⟨k, kept⟩ hentry
    obtain ⟨hmem, hother⟩ := Dict.mem_erase_entries.mp hentry
    have hrefreshed := (hget k).symm.trans ((Dict.get?_eq_some_iff _).mpr hmem)
    obtain ⟨before, hbefore, -⟩ := Option.map_eq_some_iff.mp hrefreshed
    exact hother (honly k (List.mem_map_of_mem ((Dict.get?_eq_some_iff _).mp hbefore)))
  · exact exchange_leaves_nothing hquote hbase (hamount.trans hsame.symm) hothers hexchange

theorem valuedStep_recorded (hspot : cfg.spotMode = true) (v : Valued) (call : PortfolioCall)
    (v' : Valued) (h : recorded v.session.portfolio = v.drawdown) (hout : ClosesOut cfg v call)
    (hstep : valuedStep cfg v call = .ok v') : recorded v'.session.portfolio = v'.drawdown := by
  obtain ⟨s, hcall, hpure⟩ := bind_eq_ok.mp hstep
  cases hpure
  rw [callStep_recorded hcall, h]
  cases hcloses : closes call with
  | false => rfl
  | true =>
      have hcounted : AssetsCounted cfg s.portfolio := by
        cases callStep_called hcall with
        | reduced hclose => exact hout.elim
        | closed hclose => exact hout.assetsCounted hspot hclose
        | _ => cases hcloses
      rw [if_pos rfl, if_pos rfl, (calculateEquity_eq_accountValue_iff s.portfolio).mpr hcounted]

/-- In every run of a spot account whose trades close only in full and where nothing else is held,
the drawdown statistics never exceed those of the account value at the same instants. -/
theorem drawdown_within_value (hspot : cfg.spotMode = true) {clock : Option Instant}
    {calls : List PortfolioCall}
    (hout : StepsAll (valuedStep cfg) (ClosesOut cfg) (beginValued cfg clock) calls)
    {n : ℕ} {v : Valued}
    (hreached : run (valuedStep cfg) (beginValued cfg clock) (calls.take n) = .ok v) :
    v.session.portfolio.statistics.maxEquity ≤ v.drawdown.peak ∧
      v.session.portfolio.statistics.maxDrawdown ≤ v.drawdown.fall := by
  have hrecorded : recorded v.session.portfolio = v.drawdown :=
    run_invariant_of_stepsAll (I := fun v : Valued => recorded v.session.portfolio = v.drawdown)
      (valuedStep_recorded hspot) rfl (hout.take n) hreached
  rw [← hrecorded]
  exact ⟨le_refl _, le_refl _⟩

end Runs

section Account

open Finiex.LiveSteps

def boughtAt (id : String) : PortfolioCall :=
  .openPosition { twoEther with orderId := id, entryPrice := 2000 }

/-- Two positions of two ether are bought, and the second one is sold at the same price. -/
def holdAndClose : List PortfolioCall :=
  [.markDirty (ethusdTick 2000 2000 1), .setClock 1000, boughtAt "pos_ethusd_2",
    boughtAt "pos_ethusd_1", .close (exitAt 2000)]

/-- The price never moved, yet the drawdown is what the held position cost. -/
theorem holdAndClose_exceeds_value :
    spotAccount.spotMode = true ∧
      ∃ v, run (valuedStep spotAccount) (beginValued spotAccount none) holdAndClose = .ok v ∧
        v.drawdown.fall = 0 ∧ v.session.portfolio.statistics.maxDrawdown = 4000 := by
  obtain ⟨v, hrun, hfalls⟩ := exists_of_map_eq_ok (show
    (run (valuedStep spotAccount) (beginValued spotAccount none) holdAndClose).map (fun v =>
      (v.drawdown.fall, v.session.portfolio.statistics.maxDrawdown)) = .ok (0, 4000) by
        decide +kernel)
  exact ⟨rfl, v, hrun, Prod.mk.inj hfalls⟩

def soldAtLoss : List PortfolioCall :=
  [.markDirty (ethusdTick 2000 2000 1), .setClock 1000, boughtAt "pos_ethusd_1",
    .markDirty (ethusdTick 1900 1900 2), .close (exitAt 1900)]

theorem drawdown_within_value_soldAtLoss :
    ∃ v, run (valuedStep spotAccount) (beginValued spotAccount none) soldAtLoss = .ok v ∧
      v.session.portfolio.statistics.maxDrawdown = 200 ∧
      v.session.portfolio.statistics.maxDrawdown ≤ v.drawdown.fall := by
  obtain ⟨v, hrun, hfall⟩ := exists_of_map_eq_ok (show
    (run (valuedStep spotAccount) (beginValued spotAccount none) soldAtLoss).map (fun v =>
      v.session.portfolio.statistics.maxDrawdown) = .ok 200 by decide +kernel)
  have hout : StepsAll (valuedStep spotAccount) (ClosesOut spotAccount)
      (beginValued spotAccount none) soldAtLoss := by decide +kernel
  have hreached : run (valuedStep spotAccount) (beginValued spotAccount none)
      (soldAtLoss.take 5) = .ok v := hrun
  exact ⟨v, hrun, hfall, (drawdown_within_value rfl hout hreached).2⟩

end Account

end Finiex.SpotDrawdown
