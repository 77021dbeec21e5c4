import Finiex.PriceGrid

namespace Finiex.TrailingStops

open Finiex.Types
open Finiex.Lib
open Finiex.Lib.Run
open Finiex.Lib.Reach
open Finiex.Lib.Rounding
open Finiex.Positions
open Finiex.Broker
open Finiex.Orders
open Finiex.Portfolio
open Finiex.Portfolio.PortfolioManager
open Finiex.PortfolioFrames
open Finiex.Executor
open Finiex.Simulator
open Finiex.SimulatorSteps
open Finiex.SimulatorConservation
open Finiex.SimulatorLedger
open Finiex.SimulatorOrders
open Finiex.PositionLevels
open Finiex.PriceGrid

/-- `sl'` is at least as close to the market as `sl`. -/
def AtLeastAsTight (direction : OrderDirection) (sl sl' : ℚ) : Prop :=
  match direction with
  | .long => sl ≤ sl'
  | .short => sl' ≤ sl

/-- The stop was not loosened, nor taken away. -/
def Tightens (direction : OrderDirection) (old new : Option ℚ) : Prop :=
  ∀ sl, old = some sl → ∃ sl', new = some sl' ∧ AtLeastAsTight direction sl sl'

/-- How the levels of a position move when its stop only tightens. -/
def TightensStop (c : Contract) (l l' : Option ℚ × Option ℚ) : Prop :=
  Tightens c.direction l.1 l'.1

theorem AtLeastAsTight.refl (direction : OrderDirection) (sl : ℚ) :
    AtLeastAsTight direction sl sl := by
  cases direction <;> exact le_rfl

theorem AtLeastAsTight.trans {direction : OrderDirection} {a b c : ℚ}
    (h : AtLeastAsTight direction a b) (h' : AtLeastAsTight direction b c) :
    AtLeastAsTight direction a c := by
  cases direction with
  | long => exact Rat.le_trans h h'
  | short => exact Rat.le_trans h' h

theorem AtLeastAsTight.roundTo {direction : OrderDirection} {sl sl' : ℚ}
    (h : AtLeastAsTight direction sl sl') (digits : ℕ) :
    AtLeastAsTight direction (roundTo digits sl) (roundTo digits sl') := by
  cases direction with
  | long => exact roundTo_mono digits h
  | short => exact roundTo_mono digits h

theorem tightensStop_order : LevelOrder TightensStop where
  refl := fun c _ sl hsl => ⟨sl, hsl, .refl c.direction sl⟩
  trans := by
    intro c l₁ l₂ l₃ h h' sl hsl
    obtain ⟨sl₂, hsl₂, htight⟩ := h sl hsl
    obtain ⟨sl₃, hsl₃, htight'⟩ := h' sl₂ hsl₂
    exact ⟨sl₃, hsl₃, htight.trans htight'⟩

/-- Every request to modify a position asks for a stop at least as tight as the one in force. -/
def RaisesStops (s : TradeSimulator) (op : SimulatorOp) : Prop :=
  ∀ positionId stopLoss takeProfit, op = .modifyPosition positionId stopLoss takeProfit →
    ∀ position, s.ledger.portfolio.getPosition positionId = some position →
      Tightens position.direction position.stopLoss (stopLoss.getD position.stopLoss)

variable {cfg : SimulatorConfig} {s s' : TradeSimulator}

theorem raisesStops_of_ne {op : SimulatorOp}
    (hop : ∀ positionId stopLoss takeProfit,
      op ≠ .modifyPosition positionId stopLoss takeProfit) : RaisesStops s op :=
  fun _ _ _ heq => absurd heq (hop _ _ _)

/-- Rounding to the grid does not loosen a stop that the stop in force, on the grid, bounds. -/
theorem requestsBy_of_raises {op : SimulatorOp} (hsnapped : PricesSnapped cfg s)
    (hraises : RaisesStops s op) : RequestsBy cfg TightensStop s op := by
  intro positionId stopLoss takeProfit heq position hposition
  have hraw := hraises positionId stopLoss takeProfit heq position hposition
  cases hnative : nativeSlTp cfg with
  | false =>
      simp only [requestedLevels, hnative]
      exact hraw
  | true =>
      obtain ⟨spec, hspec, hgrid, -⟩ := hsnapped.positions hnative positionId position hposition
      simp only [requestedLevels, hnative, hspec]
      intro sl hsl
      obtain ⟨sl', hsl', htight⟩ := hraw sl hsl
      have hround := htight.roundTo spec.digits
      rw [OnGrid.roundTo_eq (hsl ▸ hgrid)] at hround
      exact ⟨_, by simp only [if_true, hsl', roundPrice, Option.map_some], hround⟩

/-- What the simulator keeps over any run, whatever is requested. -/
structure Kept (cfg : SimulatorConfig) (s : TradeSimulator) : Prop where
  conserved : Conserved [] s
  snapped : PricesSnapped cfg s

theorem kept_new : Kept cfg (Simulator.new cfg) := ⟨conserved_new, pricesSnapped_new⟩

theorem kept_step {op : SimulatorOp} (h : Kept cfg s) (hstep : step cfg s op = .ok s') :
    Kept cfg s' :=
  ⟨stepped_conserved h.conserved (step_stepped hstep),
    pricesSnapped_step h.conserved h.snapped hstep⟩

theorem kept_of_reaches {P : TradeSimulator → SimulatorOp → Prop} (h : Kept cfg s)
    (hreach : ReachesBy (step cfg) P s s') : Kept cfg s' :=
  hreach.invariant (fun _ _ _ hkept _ hstep => kept_step hkept hstep) h

/-- On the grid, a request that raises a stop asks for levels that do. -/
theorem reaches_requests (h : Kept cfg s) (hreach : ReachesBy (step cfg) RaisesStops s s') :
    ReachesBy (step cfg) (RequestsBy cfg TightensStop) s s' := by
  have hkept : ReachesBy (step cfg) (fun s op => Kept cfg s ∧ RaisesStops s op) s s' :=
    hreach.strengthen (fun _ _ _ hbefore _ hstep => kept_step hbefore hstep) h
  exact hkept.mono fun s op ⟨hnow, hraises⟩ => requestsBy_of_raises hnow.snapped hraises

/-- A position open at two points of such a run has not had its stop loosened in between. -/
theorem stop_tightens (h : ReachesBy (step cfg) RaisesStops (Simulator.new cfg) s)
    (h' : ReachesBy (step cfg) RaisesStops s s') {k : String} {position position' : Position}
    (hposition : s.ledger.portfolio.getPosition k = some position)
    (hposition' : s'.ledger.portfolio.getPosition k = some position') :
    position'.direction = position.direction ∧
      Tightens position.direction position.stopLoss position'.stopLoss := by
  have hkept : Kept cfg s := kept_of_reaches kept_new h
  have hkept' : Kept cfg s' := kept_of_reaches hkept h'
  have hscheduled : ScheduledBy cfg TightensStop s := (levelsMove_of_reaches tightensStop_order
    conserved_new (fun _ _ h => by cases h) (reaches_requests kept_new h)).2
  obtain ⟨hmove, -⟩ := levelsMove_of_reaches tightensStop_order hkept.conserved hscheduled
    (reaches_requests hkept h')
  obtain ⟨hcontract, htightens⟩ :=
    hmove.of_open hkept.conserved hkept'.conserved hposition hposition'
  exact ⟨congrArg Contract.direction hcontract, htightens⟩

end Finiex.TrailingStops
