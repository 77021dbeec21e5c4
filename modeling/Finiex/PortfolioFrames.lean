import Finiex.PortfolioLedger

namespace Finiex.PortfolioFrames

open Finiex.Types
open Finiex.Lib
open Finiex.Lib.Run
open Finiex.Positions
open Finiex.Portfolio
open Finiex.Portfolio.PortfolioManager
open Finiex.PortfolioRefresh
open Finiex.PortfolioLedger

/-- What a position keeps for its whole life. -/
structure Contract where
  positionId : String
  symbol : String
  direction : OrderDirection
  entryPrice : ℚ
  digits : ℕ

def contract (position : Position) : Contract where
  positionId := position.positionId
  symbol := position.symbol
  direction := position.direction
  entryPrice := position.entryPrice
  digits := position.digits

def levels (position : Position) : Option ℚ × Option ℚ := (position.stopLoss, position.takeProfit)

/-- Each position of `pm'` is one of `pm`, with its contract, its SL and its TP. -/
def KeepsPositions (pm pm' : PortfolioManager) : Prop :=
  ∀ k position', pm'.getPosition k = some position' →
    ∃ position, pm.getPosition k = some position ∧
      contract position' = contract position ∧ levels position' = levels position

theorem KeepsPositions.open_before {pm pm' : PortfolioManager} (h : KeepsPositions pm pm')
    (k : String) (hk : pm'.getPosition k ≠ none) : pm.getPosition k ≠ none := by
  obtain ⟨position', hposition'⟩ := Option.ne_none_iff_exists'.mp hk
  obtain ⟨position, hposition, -⟩ := h k position' hposition'
  rw [hposition]
  simp

theorem KeepsPositions.contracts {pm pm' : PortfolioManager} (h : KeepsPositions pm pm') :
    ∀ k position', pm'.getPosition k = some position' →
      ∃ position, pm.getPosition k = some position ∧ contract position' = contract position := by
  intro k position' hposition'
  obtain ⟨position, hposition, hcontract, -⟩ := h k position' hposition'
  exact ⟨position, hposition, hcontract⟩

variable {cfg : PortfolioConfig} {clock : Option Instant}

variable (cfg clock) in
theorem refreshed_contract (pm : PortfolioManager) (position : Position) :
    contract (marked cfg pm (accrued cfg clock position)) = contract position ∧
      levels (marked cfg pm (accrued cfg clock position)) = levels position := by
  obtain ⟨fees, now, hframe⟩ := accrued_frame cfg clock position
  rw [hframe]
  unfold marked
  split
  · exact ⟨rfl, rfl⟩
  · exact ⟨rfl, rfl⟩

theorem ensure_keeps_positions {pm pm' : PortfolioManager}
    (h : pm.ensurePositionsUpdated cfg clock = .ok pm') : KeepsPositions pm pm' := by
  intro k position' hposition'
  rw [(ensurePositionsUpdated_eq_ok h).2 k] at hposition'
  obtain ⟨position, hposition, rfl⟩ := Option.map_eq_some_iff.mp hposition'
  exact ⟨position, hposition, refreshed_contract cfg clock pm position⟩

theorem ensure_counter {pm pm' : PortfolioManager}
    (h : pm.ensurePositionsUpdated cfg clock = .ok pm') :
    pm'.positionCounter = pm.positionCounter := by
  obtain ⟨⟨costs, positions, rate, rfl⟩, -⟩ := ensurePositionsUpdated_eq_ok h
  rfl

/-- A look at the funds refreshes the positions, or not even that. -/
theorem funds_frame {pm pm' : PortfolioManager}
    (h : pm' = pm ∨ pm.ensurePositionsUpdated cfg clock = .ok pm') :
    pm'.positionCounter = pm.positionCounter ∧
      ∀ k, pm'.getPosition k ≠ none → pm.getPosition k ≠ none := by
  rcases h with rfl | hensure
  · exact ⟨rfl, fun k hk => hk⟩
  · exact ⟨ensure_counter hensure, (ensure_keeps_positions hensure).open_before⟩

theorem recordFee_frame (pm : PortfolioManager) (fee : Option Fees.TradingFee) :
    ∃ costs, pm.recordFee fee = { pm with costTracking := costs } := by
  cases fee <;> exact ⟨_, rfl⟩

/-- Realizing a close moves balances, and may mark the position at its exit price. -/
theorem realizeClose_inv {pm pm' : PortfolioManager} {args : CloseArgs}
    {position closed : Position} (h : realizeClose cfg pm args position = .ok (pm', closed)) :
    (∃ balances, pm' = { pm with balances := balances }) ∧
      (closed = position ∨ closed = position.updateCurrentPrice args.exitPrice args.exitPrice
        args.exitTickValue position.digits) := by
  unfold realizeClose at h
  split at h
  · obtain ⟨spec, -, h⟩ := bind_eq_ok.mp h
    obtain ⟨balances, -, h⟩ := bind_eq_ok.mp h
    cases h
    exact ⟨⟨balances, rfl⟩, .inr rfl⟩
  · cases h
    exact ⟨⟨_, rfl⟩, .inl rfl⟩

theorem realizeClose_frame {pm pm' : PortfolioManager} {args : CloseArgs}
    {position closed : Position}
    (h : realizeClose cfg (pm.recordFee args.exitFee) args position = .ok (pm', closed)) :
    ∃ costs balances, pm' = { pm with costTracking := costs, balances := balances } := by
  obtain ⟨costs, hcosts⟩ := recordFee_frame pm args.exitFee
  rw [hcosts] at h
  obtain ⟨⟨balances, rfl⟩, -⟩ := realizeClose_inv h
  exact ⟨costs, balances, rfl⟩

theorem openPosition_eq_ok {pm pm' : PortfolioManager} {args : OpenPositionArgs}
    (h : pm.openPosition cfg clock args = .ok pm') :
    ∃ now costs balances, clock = some now ∧ pm' = { pm with
      costTracking := costs
      balances := balances
      openPositions := pm.openPositions.set args.orderId (args.position now) } := by
  unfold openPosition at h
  obtain ⟨now, hnow, h⟩ := bind_eq_ok.mp h
  obtain ⟨costs, hcosts⟩ := recordFee_frame pm args.entryFee
  rw [hcosts] at h
  split at h
  · cases h
    exact ⟨now, costs, _, clockNow_eq_ok.mp hnow, rfl⟩
  · obtain ⟨spec, -, h⟩ := bind_eq_ok.mp h
    obtain ⟨balances, -, h⟩ := bind_eq_ok.mp h
    cases h
    exact ⟨now, costs, balances, clockNow_eq_ok.mp hnow, rfl⟩

/-- A close keeps the counter and every other position, in margin and in spot mode. -/
theorem closePositionPortfolio_frame {pm pm' : PortfolioManager} {args : CloseArgs} {pnl : ℚ}
    (h : pm.closePositionPortfolio cfg clock args = .ok (pm', pnl)) :
    pm'.positionCounter = pm.positionCounter ∧
      pm'.getPosition args.positionId = none ∧ KeepsPositions pm pm' := by
  obtain ⟨position, pm₁, pm₂, closed, now, -, hensure, hrealize, -, -, rfl⟩ :=
    closePositionPortfolio_inv h
  obtain ⟨costs, balances, rfl⟩ := realizeClose_frame hrealize
  have hcounter : pm₁.positionCounter = pm.positionCounter := ensure_counter hensure
  refine ⟨hcounter, Dict.get?_erase_self _ _, fun k position' hposition' => ?_⟩
  by_cases hkey : k = args.positionId
  · rw [hkey] at hposition'
    cases (Dict.get?_erase_self _ _).symm.trans hposition'
  · exact ensure_keeps_positions hensure k position'
      ((Dict.get?_erase_ne _ hkey).symm.trans hposition')

theorem partialClosePosition_frame {pm pm' : PortfolioManager} {args : CloseArgs}
    {closeLots pnl : ℚ}
    (h : pm.partialClosePosition cfg clock args closeLots = .ok (pm', pnl)) :
    pm'.positionCounter = pm.positionCounter ∧ KeepsPositions pm pm' := by
  obtain ⟨position, pm₁, pm₂, now, closed, balances, hposition, hensure, -, rfl, -, -, rfl, -, -,
    rfl⟩ := partialClosePosition_inv h
  obtain ⟨costs, hcosts⟩ := recordFee_frame pm₁ args.exitFee
  rw [hcosts]
  have hcounter : pm₁.positionCounter = pm.positionCounter := ensure_counter hensure
  refine ⟨hcounter, fun k position' hposition' => ?_⟩
  by_cases hkey : k = args.positionId
  · subst hkey
    have hremainder := (Dict.get?_set_self _ _ _).symm.trans hposition'
    cases hremainder
    exact ⟨position, hposition, refreshed_contract cfg clock pm position⟩
  · exact ensure_keeps_positions hensure k position'
      ((Dict.get?_set_ne _ _ hkey).symm.trans hposition')

/-- A modification of a position keeps everything but its SL and TP, and every other
position. -/
theorem modifyPosition_frame (pm : PortfolioManager) (positionId : String)
    (newStopLoss newTakeProfit : Setting (Option ℚ)) :
    ∃ positions, (pm.modifyPosition positionId newStopLoss newTakeProfit).1 =
        { pm with openPositions := positions } ∧
      ∀ k position, positions.get? k = some position →
        ∃ before, pm.getPosition k = some before ∧ position = { before with
          stopLoss := position.stopLoss, takeProfit := position.takeProfit } := by
  have hkeep : ∀ k position, pm.openPositions.get? k = some position →
      ∃ before, pm.getPosition k = some before ∧ position = { before with
        stopLoss := position.stopLoss, takeProfit := position.takeProfit } :=
    fun k position hget => ⟨position, hget, rfl⟩
  unfold PortfolioManager.modifyPosition
  cases hposition : pm.getPosition positionId with
  | none => exact ⟨_, rfl, hkeep⟩
  | some target =>
      simp only
      cases pm.currentPrices.get? target.symbol with
      | none => exact ⟨_, rfl, hkeep⟩
      | some quote =>
          simp only
          split
          · exact ⟨_, rfl, hkeep⟩
          · refine ⟨_, rfl, fun k position hget => ?_⟩
            by_cases hk : k = positionId
            · subst hk
              rw [Dict.get?_set_self] at hget
              cases hget
              exact ⟨target, hposition, rfl⟩
            · rw [Dict.get?_set_ne _ _ hk] at hget
              exact hkeep k position hget

end Finiex.PortfolioFrames
