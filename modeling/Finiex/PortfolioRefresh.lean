import Finiex.Portfolio

namespace Finiex.PortfolioRefresh

open Finiex.Types
open Finiex.Lib
open Finiex.Lib.Run
open Finiex.Fees
open Finiex.Positions
open Finiex.Broker
open Finiex.Portfolio
open Finiex.Portfolio.PortfolioManager

theorem getSymbolSpecification_eq_ok {broker : BrokerConfig} {symbol : String}
    {spec : SymbolSpecification} :
    getSymbolSpecification broker symbol = .ok spec ↔ broker.symbols.get? symbol = some spec := by
  unfold getSymbolSpecification
  cases broker.symbols.get? symbol <;> simp

theorem clockNow_eq_ok {clock : Option Instant} {now : Instant} :
    clockNow clock = .ok now ↔ clock = some now := by
  cases clock <;> simp [clockNow]

section Accrual

variable (cfg : PortfolioConfig) (clock : Option Instant)

def swapsDue (position : Position) : List TradingFee :=
  match cfg.swapRollover, clock, cfg.broker.symbols.get? position.symbol with
  | some rollover, some now, some spec =>
      if cfg.spotMode ∨ now ≤ position.swapAccruedUntil ∨ spec.swapMode ≠ .points then []
      else rolloverFees cfg rollover now spec position
  | _, _, _ => []

def accrued (position : Position) : Position :=
  match cfg.swapRollover, clock with
  | some _, some now =>
      if cfg.spotMode ∨ now ≤ position.swapAccruedUntil then position
      else position.accrue (swapsDue cfg clock position) now
  | _, _ => position

variable {cfg clock}

theorem accrued_getTotalFees (position : Position) :
    (accrued cfg clock position).getTotalFees =
      position.getTotalFees + Position.totalCost (swapsDue cfg clock position) := by
  unfold accrued swapsDue
  cases cfg.swapRollover with
  | none => simp
  | some rollover =>
      cases clock with
      | none => simp
      | some now =>
          by_cases hskip : cfg.spotMode ∨ now ≤ position.swapAccruedUntil
          · have hskip' : ∀ spec : SymbolSpecification, cfg.spotMode = true ∨
                now ≤ position.swapAccruedUntil ∨ spec.swapMode ≠ .points :=
              fun _ => hskip.imp id Or.inl
            simp only [if_pos hskip]
            cases cfg.broker.symbols.get? position.symbol with
            | none => simp
            | some spec => simp [if_pos (hskip' spec)]
          · simp [if_neg hskip]

variable (cfg clock) in
theorem accrued_frame (position : Position) :
    ∃ fees now, accrued cfg clock position = position.accrue fees now := by
  have hself : position = position.accrue [] position.swapAccruedUntil := by
    simp [Position.accrue]
  unfold accrued
  split
  · split
    · exact ⟨_, _, hself⟩
    · exact ⟨_, _, rfl⟩
  · exact ⟨_, _, hself⟩

theorem accrueSwap_eq_accrued {rollover : SwapRolloverConfig} {now : Instant}
    (hrollover : cfg.swapRollover = some rollover) (hmargin : cfg.spotMode = false)
    {costs costs' : CostBreakdown} {position position' : Position}
    (h : accrueSwap cfg rollover now costs position = .ok (costs', position')) :
    position' = accrued cfg (some now) position := by
  unfold accrueSwap at h
  unfold accrued swapsDue
  simp only [hrollover, hmargin, Bool.false_eq_true, false_or]
  split at h
  · next hle =>
      cases h
      rw [if_pos hle]
  · next hgt =>
      obtain ⟨spec, hspec, hrest⟩ := bind_eq_ok.mp h
      rw [getSymbolSpecification_eq_ok] at hspec
      simp only [hspec, hgt, if_false, false_or]
      split at hrest
      · next hmode =>
          cases hrest
          simp [hmode]
      · next hmode =>
          cases hrest
          rw [if_neg hmode]

theorem accrueAllSwaps_eq_ok {pm pm' : PortfolioManager}
    (h : pm.accrueAllSwaps cfg clock = .ok pm') :
    (∃ costs positions,
      pm' = { pm with costTracking := costs, openPositions := positions }) ∧
    ∀ k, pm'.getPosition k = (pm.getPosition k).map (accrued cfg clock) := by
  unfold accrueAllSwaps at h
  split at h
  · next hnone =>
      cases h
      refine ⟨⟨_, _, rfl⟩, fun k => ?_⟩
      have hid : accrued cfg clock = id := by
        funext position
        simp [accrued, hnone]
      simp [hid]
  · next rollover hrollover =>
      split at h
      · next hskip =>
          cases h
          refine ⟨⟨_, _, rfl⟩, fun k => ?_⟩
          rcases hskip with hspot | hempty
          · have hid : accrued cfg clock = id := by
              funext position
              simp only [accrued, hspot, true_or, if_true]
              split <;> rfl
            simp [hid]
          · have hnil : pm.openPositions.entries = [] := List.isEmpty_iff.mp hempty
            have hget : pm.getPosition k = none := by
              simp [getPosition, Dict.get?, hnil]
            simp [hget]
      · next hskip =>
          obtain ⟨now, hnow, hrest⟩ := bind_eq_ok.mp h
          obtain ⟨⟨costs, positions⟩, hvisit, hpure⟩ := bind_eq_ok.mp hrest
          cases hpure
          have hmargin : cfg.spotMode = false := by
            simpa using fun hspot => hskip (.inl hspot)
          rw [clockNow_eq_ok] at hnow
          subst hnow
          refine ⟨⟨_, _, rfl⟩, fun k => ?_⟩
          cases hk : pm.getPosition k with
          | none => exact Dict.mapAccumM_get?_none hvisit hk
          | some position =>
              obtain ⟨position', t, t', hget, hacc⟩ := Dict.mapAccumM_get? hvisit hk
              rw [Option.map_some, ← accrueSwap_eq_accrued hrollover hmargin hacc]
              exact hget

end Accrual

section MarkToMarket

variable (cfg : PortfolioConfig)

def tickValueAt (spec : SymbolSpecification) (price : ℚ) : ℚ :=
  if cfg.accountCurrency = spec.quoteCurrency then spec.tickSize * spec.contractSize
  else spec.tickSize * spec.contractSize / price

theorem calculateTickValue_snd {spec : SymbolSpecification} {price value : ℚ}
    {rate : Option ℚ} (h : calculateTickValue cfg spec price = .ok (rate, value)) :
    value = tickValueAt cfg spec price := by
  unfold calculateTickValue at h
  unfold tickValueAt
  split_ifs at h with hquote hbase hprice
  · cases h
    rw [if_pos hquote]
  · cases h
    rw [if_neg hquote]

def marked (pm : PortfolioManager) (position : Position) : Position :=
  match pm.positionsDirty, pm.currentPrices.get? position.symbol,
      cfg.broker.symbols.get? position.symbol with
  | true, some (bid, ask), some spec =>
      position.updateCurrentPrice bid ask (tickValueAt cfg spec ((bid + ask) / 2)) spec.digits
  | _, _, _ => position

/-- The cache of a position is recomputed by the next refresh. -/
def Marks (pm : PortfolioManager) (position : Position) : Prop :=
  pm.positionsDirty = true ∧ (pm.currentPrices.get? position.symbol).isSome = true

instance (pm : PortfolioManager) (position : Position) : Decidable (Marks pm position) :=
  inferInstanceAs (Decidable (_ ∧ _))

variable {cfg}

theorem refreshPosition_eq_ok (pm : PortfolioManager) (hdirty : pm.positionsDirty = true)
    {rate rate' : Option ℚ} {position position' : Position}
    (h : refreshPosition cfg pm.currentPrices rate position = .ok (rate', position')) :
    position' = marked cfg pm position := by
  unfold refreshPosition at h
  unfold marked
  rw [hdirty]
  cases hprice : pm.currentPrices.get? position.symbol with
  | none =>
      rw [hprice] at h
      cases h
      rfl
  | some quote =>
      obtain ⟨bid, ask⟩ := quote
      simp only [hprice] at h
      obtain ⟨spec, hspec, hrest⟩ := bind_eq_ok.mp h
      obtain ⟨⟨rate'', value⟩, hvalue, hpure⟩ := bind_eq_ok.mp hrest
      rw [getSymbolSpecification_eq_ok] at hspec
      have hvalue' := calculateTickValue_snd cfg hvalue
      cases hpure
      simp only [hspec, hvalue']

/-- A refresh leaves each open position accrued, then marked, and changes no balance, no
trade record and no statistic. -/
theorem ensurePositionsUpdated_eq_ok {clock : Option Instant} {pm pm' : PortfolioManager}
    (h : pm.ensurePositionsUpdated cfg clock = .ok pm') :
    (∃ costs positions rate, pm' = { pm with
      costTracking := costs, openPositions := positions, lastConversionRate := rate,
      positionsDirty := false }) ∧
    ∀ k, pm'.getPosition k =
      (pm.getPosition k).map fun position => marked cfg pm (accrued cfg clock position) := by
  unfold ensurePositionsUpdated at h
  obtain ⟨pm₁, haccrue, hrest⟩ := bind_eq_ok.mp h
  obtain ⟨⟨costs, positions, rfl⟩, hget⟩ := accrueAllSwaps_eq_ok haccrue
  cases hdirty : pm.positionsDirty with
  | false =>
      simp only [hdirty, Bool.not_false, if_true] at hrest
      cases hrest
      refine ⟨⟨costs, positions, pm.lastConversionRate, by rw [← hdirty]⟩, fun k => ?_⟩
      have hclean : (fun position => marked cfg pm (accrued cfg clock position)) =
          accrued cfg clock := by
        funext position
        simp [marked, hdirty]
      rw [hclean]
      exact hget k
  | true =>
      simp only [hdirty, Bool.not_true, Bool.false_eq_true, if_false] at hrest
      obtain ⟨⟨rate, positions'⟩, hvisit, hpure⟩ := bind_eq_ok.mp hrest
      cases hpure
      refine ⟨⟨costs, positions', rate, rfl⟩, fun k => ?_⟩
      cases hk : pm.getPosition k with
      | none =>
          have hnone := hget k
          rw [hk] at hnone
          exact Dict.mapAccumM_get?_none hvisit hnone
      | some position =>
          have hsome := hget k
          rw [hk] at hsome
          obtain ⟨position', t, t', hget', hstep⟩ := Dict.mapAccumM_get? hvisit hsome
          rw [Option.map_some, ← refreshPosition_eq_ok pm hdirty hstep]
          exact hget'

theorem marked_of_marks {pm : PortfolioManager} {position : Position} {bid ask : ℚ}
    {spec : SymbolSpecification} (hdirty : pm.positionsDirty = true)
    (hprice : pm.currentPrices.get? position.symbol = some (bid, ask))
    (hspec : cfg.broker.symbols.get? position.symbol = some spec) :
    marked cfg pm position =
      position.updateCurrentPrice bid ask (tickValueAt cfg spec ((bid + ask) / 2))
        spec.digits := by
  simp [marked, hdirty, hprice, hspec]

variable (cfg) in
theorem accrued_symbol (clock : Option Instant) (position : Position) :
    (accrued cfg clock position).symbol = position.symbol := by
  obtain ⟨fees, now, h⟩ := accrued_frame cfg clock position
  rw [h]
  rfl

/-- A successful refresh that marks a position knew its quote and its specification. -/
theorem ensurePositionsUpdated_marks {clock : Option Instant} {pm pm' : PortfolioManager}
    (h : pm.ensurePositionsUpdated cfg clock = .ok pm') {k : String} {position : Position}
    (hposition : pm.getPosition k = some position) (hmarks : Marks pm position) :
    ∃ bid ask spec, pm.currentPrices.get? position.symbol = some (bid, ask) ∧
      cfg.broker.symbols.get? position.symbol = some spec := by
  obtain ⟨hdirty, hprice⟩ := hmarks
  obtain ⟨⟨bid, ask⟩, hprice⟩ := Option.isSome_iff_exists.mp hprice
  unfold ensurePositionsUpdated at h
  obtain ⟨pm₁, haccrue, hrest⟩ := bind_eq_ok.mp h
  obtain ⟨⟨costs, positions, rfl⟩, hget⟩ := accrueAllSwaps_eq_ok haccrue
  simp only [hdirty, Bool.not_true, Bool.false_eq_true, if_false] at hrest
  obtain ⟨result, hvisit, -⟩ := bind_eq_ok.mp hrest
  have hsome := hget k
  rw [hposition] at hsome
  obtain ⟨position', t, t', -, hstep⟩ := Dict.mapAccumM_get? hvisit hsome
  rw [refreshPosition, accrued_symbol, hprice] at hstep
  obtain ⟨spec, hspec, -⟩ := bind_eq_ok.mp hstep
  exact ⟨bid, ask, spec, hprice, getSymbolSpecification_eq_ok.mp hspec⟩

theorem marked_of_not_marks {pm : PortfolioManager} {position : Position}
    (h : ¬ Marks pm position) : marked cfg pm position = position := by
  unfold marked
  split
  · next hdirty hprice hspec =>
      exact absurd ⟨hdirty, by simp [hprice]⟩ h
  · rfl

end MarkToMarket

end Finiex.PortfolioRefresh
