import Finiex.PortfolioFrames

namespace Finiex.PortfolioRuns

open Finiex.Types
open Finiex.Lib
open Finiex.Lib.Run
open Finiex.Fees
open Finiex.Positions
open Finiex.Portfolio
open Finiex.Portfolio.PortfolioManager
open Finiex.PortfolioRefresh
open Finiex.PortfolioLedger
open Finiex.PortfolioFrames

/-- The calls a portfolio manager receives, and the readings of its clock. -/
inductive PortfolioCall
  | markDirty (tick : TickData)
  | setClock (now : Instant)
  | getAccountInfo (orderDirection : OrderDirection)
  | ensurePositionsUpdated
  | openPosition (args : OpenPositionArgs)
  | partialClose (args : CloseArgs) (closeLots : ℚ)
  | close (args : CloseArgs)
  | modifyPosition (positionId : String) (newStopLoss newTakeProfit : Setting (Option ℚ))

variable (cfg : PortfolioConfig)

def callStep (s : Session) : PortfolioCall → Except PyError Session
  | .markDirty tick => .ok { s with portfolio := s.portfolio.markDirty tick }
  | .setClock now => .ok { s with clock := some now }
  | .getAccountInfo direction => do
      let (pm, _) ← s.portfolio.getAccountInfo cfg s.clock direction
      return { s with portfolio := pm }
  | .ensurePositionsUpdated => do
      let pm ← s.portfolio.ensurePositionsUpdated cfg s.clock
      return { s with portfolio := pm }
  | .openPosition args => do
      let pm ← s.portfolio.openPosition cfg s.clock args
      return { s with portfolio := pm }
  | .partialClose args closeLots => do
      let (pm, _) ← s.portfolio.partialClosePosition cfg s.clock args closeLots
      return { s with portfolio := pm }
  | .close args => do
      let (pm, _) ← s.portfolio.closePositionPortfolio cfg s.clock args
      return { s with portfolio := pm }
  | .modifyPosition positionId newStopLoss newTakeProfit =>
      .ok { s with portfolio := (s.portfolio.modifyPosition positionId newStopLoss newTakeProfit).1 }

def clockAfter (clock : Option Instant) : PortfolioCall → Option Instant
  | .setClock now => some now
  | _ => clock

def KeepsOpen (k : String) : PortfolioCall → Prop
  | .openPosition args => args.orderId ≠ k
  | .close args => args.positionId ≠ k
  | _ => True

instance (k : String) (call : PortfolioCall) : Decidable (KeepsOpen k call) := by
  cases call <;> unfold KeepsOpen <;> infer_instance

variable {cfg}

inductive Called (cfg : PortfolioConfig) (s : Session) : PortfolioCall → Session → Prop
  | priced (tick : TickData) :
      Called cfg s (.markDirty tick) { s with portfolio := s.portfolio.markDirty tick }
  | clockSet (now : Instant) : Called cfg s (.setClock now) { s with clock := some now }
  | queried {direction : OrderDirection} {pm : PortfolioManager}
      (h : s.portfolio.ensurePositionsUpdated cfg s.clock = .ok pm) :
      Called cfg s (.getAccountInfo direction) { s with portfolio := pm }
  | refreshed {pm : PortfolioManager}
      (h : s.portfolio.ensurePositionsUpdated cfg s.clock = .ok pm) :
      Called cfg s .ensurePositionsUpdated { s with portfolio := pm }
  | opened {args : OpenPositionArgs} {pm : PortfolioManager}
      (h : s.portfolio.openPosition cfg s.clock args = .ok pm) :
      Called cfg s (.openPosition args) { s with portfolio := pm }
  | reduced {args : CloseArgs} {closeLots pnl : ℚ} {pm : PortfolioManager}
      (h : s.portfolio.partialClosePosition cfg s.clock args closeLots = .ok (pm, pnl)) :
      Called cfg s (.partialClose args closeLots) { s with portfolio := pm }
  | closed {args : CloseArgs} {pnl : ℚ} {pm : PortfolioManager}
      (h : s.portfolio.closePositionPortfolio cfg s.clock args = .ok (pm, pnl)) :
      Called cfg s (.close args) { s with portfolio := pm }
  | modified (positionId : String) (newStopLoss newTakeProfit : Setting (Option ℚ)) :
      Called cfg s (.modifyPosition positionId newStopLoss newTakeProfit) { s with portfolio :=
        (s.portfolio.modifyPosition positionId newStopLoss newTakeProfit).1 }

theorem callStep_called {s s' : Session} {call : PortfolioCall}
    (h : callStep cfg s call = .ok s') : Called cfg s call s' := by
  cases call with
  | markDirty tick =>
      cases h
      exact .priced tick
  | setClock now =>
      cases h
      exact .clockSet now
  | getAccountInfo direction =>
      obtain ⟨⟨pm, info⟩, hinfo, hpure⟩ := bind_eq_ok.mp h
      cases hpure
      exact .queried (getAccountInfo_eq_ok hinfo)
  | ensurePositionsUpdated =>
      obtain ⟨pm, hensure, hpure⟩ := bind_eq_ok.mp h
      cases hpure
      exact .refreshed hensure
  | openPosition args =>
      obtain ⟨pm, hopen, hpure⟩ := bind_eq_ok.mp h
      cases hpure
      exact .opened hopen
  | partialClose args closeLots =>
      obtain ⟨⟨pm, pnl⟩, hclose, hpure⟩ := bind_eq_ok.mp h
      cases hpure
      exact .reduced hclose
  | close args =>
      obtain ⟨⟨pm, pnl⟩, hclose, hpure⟩ := bind_eq_ok.mp h
      cases hpure
      exact .closed hclose
  | modifyPosition positionId newStopLoss newTakeProfit =>
      cases h
      exact .modified positionId newStopLoss newTakeProfit

theorem callStep_clock {s s' : Session} {call : PortfolioCall}
    (h : callStep cfg s call = .ok s') : s'.clock = clockAfter s.clock call := by
  cases callStep_called h <;> rfl

def afterRefresh (cfg : PortfolioConfig) (s : Session) (position : Position) : Position :=
  marked cfg s.portfolio (accrued cfg s.clock position)

inductive Treated (cfg : PortfolioConfig) (s : Session) (k : String) (position : Position) :
    PortfolioCall → Position → Prop
  | untouched (call) (hcall : ∀ args closeLots, call = .partialClose args closeLots →
        args.positionId ≠ k) : Treated cfg s k position call position
  | modified (id newStopLoss newTakeProfit stopLoss takeProfit) :
      Treated cfg s k position (.modifyPosition id newStopLoss newTakeProfit)
        { position with stopLoss := stopLoss, takeProfit := takeProfit }
  | refreshed (call) (hcall : ∀ args closeLots, call = .partialClose args closeLots →
        args.positionId ≠ k) : Treated cfg s k position call (afterRefresh cfg s position)
  | reduced (args closeLots) (hkey : args.positionId = k)
      (hlots : (afterRefresh cfg s position).lots ≠ 0) :
      Treated cfg s k position (.partialClose args closeLots)
        (remainder (afterRefresh cfg s position) closeLots
          (1 - closeLots / (afterRefresh cfg s position).lots))

theorem ensure_treats {s : Session} {pm : PortfolioManager} {k : String} {position : Position}
    (hensure : s.portfolio.ensurePositionsUpdated cfg s.clock = .ok pm)
    (hposition : s.portfolio.getPosition k = some position) :
    pm.getPosition k = some (afterRefresh cfg s position) := by
  have hget := (ensurePositionsUpdated_eq_ok hensure).2 k
  rwa [hposition] at hget

theorem modifyPosition_getPosition (pm : PortfolioManager) (positionId : String)
    (newStopLoss newTakeProfit : Setting (Option ℚ)) {k : String} {position : Position}
    (hposition : pm.getPosition k = some position) :
    ∃ stopLoss takeProfit,
      (pm.modifyPosition positionId newStopLoss newTakeProfit).1.getPosition k =
        some { position with stopLoss := stopLoss, takeProfit := takeProfit } := by
  have hsame : pm.getPosition k = some { position with
      stopLoss := position.stopLoss, takeProfit := position.takeProfit } := hposition
  unfold PortfolioManager.modifyPosition
  cases htarget : pm.getPosition positionId with
  | none => exact ⟨_, _, hsame⟩
  | some target =>
      simp only
      cases pm.currentPrices.get? target.symbol with
      | none => exact ⟨_, _, hsame⟩
      | some quote =>
          simp only
          split
          · exact ⟨_, _, hsame⟩
          · by_cases hk : k = positionId
            · subst hk
              rw [hposition] at htarget
              cases htarget
              exact ⟨_, _, Dict.get?_set_self _ _ _⟩
            · exact ⟨_, _, (Dict.get?_set_ne _ _ hk).trans hsame⟩

def KeptAs (cfg : PortfolioConfig) (s : Session) (k : String) (position : Position) :
    PortfolioCall → Position → Prop
  | .getAccountInfo _, position' | .ensurePositionsUpdated, position' | .close _, position' =>
      position' = afterRefresh cfg s position
  | .partialClose args closeLots, position' =>
      if args.positionId = k then (afterRefresh cfg s position).lots ≠ 0 ∧
        position' = remainder (afterRefresh cfg s position) closeLots
          (1 - closeLots / (afterRefresh cfg s position).lots)
      else position' = afterRefresh cfg s position
  | .modifyPosition _ _ _, position' => ∃ stopLoss takeProfit,
      position' = { position with stopLoss := stopLoss, takeProfit := takeProfit }
  | .markDirty _, position' | .setClock _, position' | .openPosition _, position' =>
      position' = position

theorem callStep_keeps {s s' : Session} {call : PortfolioCall} {k : String}
    {position : Position} (h : callStep cfg s call = .ok s') (hkeeps : KeepsOpen k call)
    (hposition : s.portfolio.getPosition k = some position) :
    ∃ position', s'.portfolio.getPosition k = some position' ∧
      KeptAs cfg s k position call position' := by
  cases callStep_called h with
  | priced tick => exact ⟨position, hposition, rfl⟩
  | clockSet now => exact ⟨position, hposition, rfl⟩
  | modified positionId newStopLoss newTakeProfit =>
      obtain ⟨stopLoss, takeProfit, hget⟩ :=
        modifyPosition_getPosition _ positionId newStopLoss newTakeProfit hposition
      exact ⟨_, hget, stopLoss, takeProfit, rfl⟩
  | queried hensure => exact ⟨_, ensure_treats hensure hposition, rfl⟩
  | refreshed hensure => exact ⟨_, ensure_treats hensure hposition, rfl⟩
  | opened hopen =>
      obtain ⟨now, costs, balances, -, rfl⟩ := openPosition_eq_ok hopen
      exact ⟨position, (Dict.get?_set_ne _ _ (Ne.symm hkeeps)).trans hposition, rfl⟩
  | @reduced args closeLots pnl pm hclose =>
      obtain ⟨closing, pm₁, pm₂, now, closed, balances, hclosing, hensure, -, hclosed, hlots, -,
        rfl, -, -, rfl⟩ := partialClosePosition_inv hclose
      obtain ⟨costs, hcosts⟩ := recordFee_frame pm₁ args.exitFee
      rw [hcosts]
      by_cases hkey : args.positionId = k
      · rw [hkey, hposition] at hclosing
        cases hclosing
        have hget : Dict.get? (pm₁.openPositions.set args.positionId
            (remainder closed closeLots (1 - closeLots / closed.lots))) k =
              some (remainder closed closeLots (1 - closeLots / closed.lots)) := by
          rw [hkey]
          exact Dict.get?_set_self _ _ _
        refine ⟨_, hget, ?_⟩
        have hafter : closed = afterRefresh cfg s position := hclosed
        rw [hafter] at hlots ⊢
        rw [KeptAs, if_pos hkey]
        exact ⟨hlots, rfl⟩
      · have hget := ensure_treats hensure hposition
        refine ⟨_, (Dict.get?_set_ne _ _ (Ne.symm hkey)).trans hget, ?_⟩
        rw [KeptAs, if_neg hkey]
  | closed hclose =>
      obtain ⟨closing, pm₁, pm₂, closed, now, -, hensure, hrealize, -, -, rfl⟩ :=
        closePositionPortfolio_inv hclose
      obtain ⟨costs, balances, rfl⟩ := realizeClose_frame hrealize
      have hget := ensure_treats hensure hposition
      exact ⟨_, (Dict.get?_erase_ne _ (Ne.symm hkeeps)).trans hget, rfl⟩

/-- A position that a call keeps open is left alone, modified, refreshed or reduced. -/
theorem callStep_treats {s s' : Session} {call : PortfolioCall} {k : String}
    {position : Position} (h : callStep cfg s call = .ok s') (hkeeps : KeepsOpen k call)
    (hposition : s.portfolio.getPosition k = some position) :
    ∃ position', s'.portfolio.getPosition k = some position' ∧
      Treated cfg s k position call position' := by
  obtain ⟨position', hget, hkept⟩ := callStep_keeps h hkeeps hposition
  refine ⟨position', hget, ?_⟩
  cases call with
  | markDirty | setClock | openPosition =>
      rw [hkept]
      exact .untouched _ (by simp)
  | getAccountInfo | ensurePositionsUpdated | close =>
      rw [hkept]
      exact .refreshed _ (by simp)
  | modifyPosition =>
      obtain ⟨stopLoss, takeProfit, rfl⟩ := hkept
      exact .modified _ _ _ stopLoss takeProfit
  | partialClose args closeLots =>
      rw [KeptAs] at hkept
      split at hkept
      · next hkey =>
          rw [hkept.2]
          exact .reduced args closeLots hkey hkept.1
      · next hkey =>
          rw [hkept]
          refine .refreshed _ fun args' closeLots' hcall => ?_
          cases hcall
          exact hkey

end Finiex.PortfolioRuns
