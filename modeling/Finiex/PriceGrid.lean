import Finiex.PositionLevels

namespace Finiex.PriceGrid

open Finiex.Types
open Finiex.Lib
open Finiex.Lib.Run
open Finiex.Lib.Rounding
open Finiex.Positions
open Finiex.Broker
open Finiex.Orders
open Finiex.Portfolio
open Finiex.Portfolio.PortfolioManager
open Finiex.PortfolioRefresh
open Finiex.PortfolioFrames
open Finiex.PortfolioLedger
open Finiex.Executor
open Finiex.ExecutorFills
open Finiex.OrderBooks
open Finiex.Simulator
open Finiex.SimulatorSpecs
open Finiex.SimulatorSteps
open Finiex.SimulatorConservation
open Finiex.SimulatorLedger
open Finiex.SimulatorOrders
open Finiex.PositionLevels

/-- The price is a whole number of steps of `10 ^ -digits`. -/
def OnGrid (digits : ℕ) (price : Option ℚ) : Prop :=
  ∀ p, price = some p → ∃ n : ℤ, p = n / 10 ^ digits

theorem onGrid_none (digits : ℕ) : OnGrid digits none := fun _ h => by cases h

theorem onGrid_zero (digits : ℕ) : OnGrid digits (some 0) := by
  intro p hp
  cases hp
  exact ⟨0, by simp⟩

theorem onGrid_roundPrice (digits : ℕ) (price : Option ℚ) :
    OnGrid digits (roundPrice digits price) := by
  intro p hp
  obtain ⟨x, -, rfl⟩ := Option.map_eq_some_iff.mp hp
  exact ⟨_, rfl⟩

theorem OnGrid.or {digits : ℕ} {price other : Option ℚ} (h : OnGrid digits price)
    (h' : OnGrid digits other) : OnGrid digits (price.or other) := by
  cases price with
  | none => exact h'
  | some p => exact h

theorem OnGrid.roundTo_eq {digits : ℕ} {p : ℚ} (h : OnGrid digits (some p)) :
    roundTo digits p = p := by
  obtain ⟨n, rfl⟩ := h p rfl
  exact roundTo_of_grid (div_mul_cancel₀ _ (by positivity))

structure ModificationOnGrid (digits : ℕ) (mod : ModificationRequest) : Prop where
  price : OnGrid digits mod.newPrice
  limitPrice : OnGrid digits mod.newLimitPrice
  stopLoss : OnGrid digits mod.newStopLoss
  takeProfit : OnGrid digits mod.newTakeProfit

/-- Every price of the order, and of the modification in flight on it. -/
structure PricesOnGrid (digits : ℕ) (order : PendingOrder) : Prop where
  entryPrice : OnGrid digits order.entryPrice
  limitPrice : OnGrid digits order.orderKwargs.limitPrice
  stopLoss : OnGrid digits order.orderKwargs.stopLoss
  takeProfit : OnGrid digits order.orderKwargs.takeProfit
  modification : ∀ mod, order.pendingModification = some mod → ModificationOnGrid digits mod

variable (cfg : SimulatorConfig)

/-- The order's prices lie on the grid of its symbol. -/
def OrderOnGrid (order : PendingOrder) : Prop :=
  ∃ spec, cfg.executor.broker.symbols.get? order.symbol = some spec ∧
    PricesOnGrid spec.digits order

/-- The levels lie on the grid of the symbol. -/
def LevelsOnGrid (symbol : String) (levels : Option ℚ × Option ℚ) : Prop :=
  ∃ spec, cfg.executor.broker.symbols.get? symbol = some spec ∧
    OnGrid spec.digits levels.1 ∧ OnGrid spec.digits levels.2

def PositionsOnGrid (ledger : ExecutionLedger) : Prop :=
  ∀ k position, ledger.portfolio.getPosition k = some position →
    LevelsOnGrid cfg position.symbol (levels position)

/-- Levels on the grid stay there. -/
def KeepsGrid (c : Contract) (l l' : Option ℚ × Option ℚ) : Prop :=
  LevelsOnGrid cfg c.symbol l → LevelsOnGrid cfg c.symbol l'

theorem keepsGrid_order : LevelOrder (KeepsGrid cfg) where
  refl := fun _ _ h => h
  trans := fun h h' hgrid => h' (h hgrid)

variable {cfg} {s s' : TradeSimulator} {order : PendingOrder}

section Orders

theorem OrderOnGrid.becomes {order' : PendingOrder} (h : OrderOnGrid cfg order)
    (hbecomes : Becomes order order') : OrderOnGrid cfg order' := by
  obtain ⟨spec, hspec, hprices⟩ := h
  cases hbecomes with
  | same => exact ⟨spec, hspec, hprices⟩
  | converted htype =>
      refine ⟨spec, hspec, ?_, hprices.limitPrice, hprices.stopLoss, hprices.takeProfit,
        hprices.modification⟩
      change OnGrid spec.digits (some (order.orderKwargs.limitPrice.getD 0))
      cases hlimit : order.orderKwargs.limitPrice with
      | none => exact onGrid_zero _
      | some price => exact hlimit ▸ hprices.limitPrice

theorem OrderOnGrid.resolveModification {msc : ℤ} (h : OrderOnGrid cfg order) :
    OrderOnGrid cfg (resolveModification msc order) := by
  unfold Simulator.resolveModification
  split
  · next mod hdue =>
      obtain ⟨spec, hspec, hprices⟩ := h
      have hmod : ModificationOnGrid spec.digits mod := by
        unfold dueModification at hdue
        split at hdue
        · exact hprices.modification mod (Option.filter_eq_some_iff.mp hdue).1
        · cases hdue
      exact ⟨spec, hspec, hmod.price, hmod.limitPrice.or hprices.limitPrice, hmod.stopLoss,
        hmod.takeProfit, fun _ h => by cases h⟩
  · exact h

/-- A scheduled cancellation keeps the modification an order may still carry. -/
theorem OrderOnGrid.withState {state : PendingOrderExecutionState} (h : OrderOnGrid cfg order)
    (hmod : ∀ mod, state.pendingModification = some mod →
      order.pendingModification = some mod ∨ ∀ spec,
        cfg.executor.broker.symbols.get? order.symbol = some spec →
          ModificationOnGrid spec.digits mod) :
    OrderOnGrid cfg { order with executionState := state } := by
  obtain ⟨spec, hspec, hprices⟩ := h
  refine ⟨spec, hspec, hprices.entryPrice, hprices.limitPrice, hprices.stopLoss,
    hprices.takeProfit, fun mod hstate => ?_⟩
  rcases hmod mod hstate with hcarried | hgrid
  · exact hprices.modification mod hcarried
  · exact hgrid spec hspec

theorem orderOnGrid_accepted {request : OpenOrderRequest} {orderId : String} {tick : TickData}
    {delay : ℤ}
    (hvalid : submissionRejection cfg (normalizeOrderRequest cfg.executor.broker request) =
      .ok none) :
    OrderOnGrid cfg (pendingOpenOrder orderId
      (normalizeOrderRequest cfg.executor.broker request) tick delay) := by
  obtain ⟨verdict, hverdict, -⟩ := bind_eq_ok.mp hvalid
  cases hspec : cfg.executor.broker.symbols.get? request.symbol with
  | none => simp [normalizeOrderRequest, validateOrder, hspec] at hverdict
  | some spec =>
      simp only [normalizeOrderRequest, hspec]
      have hrounded := onGrid_roundPrice spec.digits
      refine ⟨spec, hspec, ?_, ?_, hrounded _, hrounded _, fun _ h => by cases h⟩
      · unfold pendingOpenOrder
        dsimp only
        split
        · next hprice => exact hprice ▸ hrounded request.price
        · next hstop => exact hstop ▸ hrounded request.stopPrice
        · next hstop => exact hstop ▸ hrounded request.stopPrice
        · exact onGrid_zero _
      · unfold pendingOpenOrder
        dsimp only
        split
        · exact hrounded _
        · exact onGrid_none _

/-- A scheduled modification of a resting order carries prices on the grid. -/
theorem modifyLimitOrder_onGrid {orderId : String} {newPrice : Setting ℚ}
    {newStopLoss newTakeProfit : Setting (Option ℚ)} {result : ModificationResult}
    (h : modifyLimitOrder cfg s orderId newPrice newStopLoss newTakeProfit = .ok (s', result)) :
    s' = s ∨ ∃ pending spec mod, findOrder s.activeLimitOrders orderId = some pending ∧
      cfg.executor.broker.symbols.get? pending.symbol = some spec ∧
      ModificationOnGrid spec.digits mod ∧
      s' = { s with
        activeLimitOrders := scheduleModification pending mod s.activeLimitOrders } := by
  unfold modifyLimitOrder at h
  split at h
  · cases h
    exact .inl rfl
  · next pending hfind =>
      split at h
      · cases h
        exact .inl rfl
      · split at h
        · cases h
          exact .inl rfl
        · obtain ⟨spec, hspec, h⟩ := bind_eq_ok.mp h
          obtain ⟨reference, -, h⟩ := bind_eq_ok.mp h
          split at h
          · cases h
            exact .inl rfl
          · obtain ⟨msc, -, h⟩ := bind_eq_ok.mp h
            cases h
            have hrounded := onGrid_roundPrice spec.digits
            exact .inr ⟨pending, spec, _, hfind, getSymbolSpecification_eq_ok.mp hspec,
              ⟨hrounded _, onGrid_none _, hrounded _, hrounded _⟩, rfl⟩

theorem modifyStopOrder_onGrid {orderId : String} {newStopPrice newLimitPrice : Setting ℚ}
    {newStopLoss newTakeProfit : Setting (Option ℚ)} {result : ModificationResult}
    (h : modifyStopOrder cfg s orderId newStopPrice newLimitPrice newStopLoss newTakeProfit =
      .ok (s', result)) :
    s' = s ∨ ∃ pending spec mod, findOrder s.activeStopOrders orderId = some pending ∧
      cfg.executor.broker.symbols.get? pending.symbol = some spec ∧
      ModificationOnGrid spec.digits mod ∧
      s' = { s with activeStopOrders := scheduleModification pending mod s.activeStopOrders } := by
  unfold modifyStopOrder at h
  split at h
  · cases h
    exact .inl rfl
  · split at h
    · cases h
      exact .inl rfl
    · next pending hfind =>
        split at h
        · cases h
          exact .inl rfl
        · split at h
          · cases h
            exact .inl rfl
          · dsimp only at h
            split at h
            · cases h
              exact .inl rfl
            · obtain ⟨spec, hspec, h⟩ := bind_eq_ok.mp h
              obtain ⟨reference, -, h⟩ := bind_eq_ok.mp h
              split at h
              · cases h
                exact .inl rfl
              · obtain ⟨msc, -, h⟩ := bind_eq_ok.mp h
                obtain ⟨stop, -, h⟩ := bind_eq_ok.mp h
                cases h
                have hrounded := onGrid_roundPrice spec.digits
                refine .inr ⟨pending, spec, _, hfind, getSymbolSpecification_eq_ok.mp hspec,
                  ⟨hrounded _, ?_, hrounded _, hrounded _⟩, rfl⟩
                dsimp only
                split
                · exact hrounded _
                · exact onGrid_none _

/-- Whatever is put in flight on a resting order leaves its list on the grid. -/
theorem updateOrder_onGrid {orders : List PendingOrder} {pending : PendingOrder} {orderId : String}
    {state : PendingOrderExecutionState} (h : ∀ order ∈ orders, OrderOnGrid cfg order)
    (hfind : findOrder orders orderId = some pending)
    (hmod : ∀ mod, state.pendingModification = some mod →
      pending.pendingModification = some mod ∨ ∀ spec,
        cfg.executor.broker.symbols.get? pending.symbol = some spec →
          ModificationOnGrid spec.digits mod) :
    ∀ order ∈ updateOrder orderId state orders, OrderOnGrid cfg order := by
  intro order hmem
  rcases mem_updateOrder hmem with hbefore | ⟨before, hbefore, rfl⟩
  · exact h order hbefore
  · cases hfind.symm.trans hbefore
    exact (h pending (List.mem_of_find?_eq_some hfind)).withState hmod

theorem scheduleModification_onGrid {orders : List PendingOrder} {pending : PendingOrder}
    {orderId : String} {spec : SymbolSpecification} {mod : ModificationRequest}
    (h : ∀ order ∈ orders, OrderOnGrid cfg order) (hfind : findOrder orders orderId = some pending)
    (hspec : cfg.executor.broker.symbols.get? pending.symbol = some spec)
    (hmod : ModificationOnGrid spec.digits mod) :
    ∀ order ∈ scheduleModification pending mod orders, OrderOnGrid cfg order := by
  rw [scheduleModification, findOrder_id hfind]
  refine updateOrder_onGrid h hfind fun mod' hmod' => .inr fun spec' hspec' => ?_
  cases hmod'
  cases hspec.symm.trans hspec'
  exact hmod

theorem scheduleCancel_onGrid {market : MarketState} {orders orders' : List PendingOrder}
    {orderId : String} {scheduled : Bool} (h : ∀ order ∈ orders, OrderOnGrid cfg order)
    (hcancel : scheduleCancel market orders orderId = .ok (orders', scheduled)) :
    ∀ order ∈ orders', OrderOnGrid cfg order := by
  obtain ⟨-, rfl⟩ | ⟨-, pending, msc, hfind, -, -, rfl⟩ := scheduleCancel_eq_ok hcancel
  · exact h
  · exact updateOrder_onGrid h hfind fun mod hmod => .inl hmod

end Orders

section Positions

theorem positionsOnGrid_of_keeps {ledger ledger' : ExecutionLedger}
    (h : PositionsOnGrid cfg ledger) (hkeep : KeepsPositions ledger.portfolio ledger'.portfolio) :
    PositionsOnGrid cfg ledger' := by
  intro k position' hposition'
  obtain ⟨position, hposition, hcontract, hlevels⟩ := hkeep k position' hposition'
  rw [hlevels, show position'.symbol = position.symbol from congrArg Contract.symbol hcontract]
  exact h k position hposition

theorem positionsOnGrid_openFill {market : MarketState} {ledger ledger' : ExecutionLedger}
    {fillPrice : Option ℚ} {entryType : EntryType} {fillType : FillType}
    (h : PositionsOnGrid cfg ledger) (horder : OrderOnGrid cfg order)
    (hfill : fillOpenOrder cfg.executor market ledger order fillPrice entryType fillType =
      .ok ledger') : PositionsOnGrid cfg ledger' := by
  obtain ⟨tick, spec, entryPrice, pm, -, -, -, -, hpm, hend⟩ := fillOpenOrder_eq_ok hfill
  have hfunds : PositionsOnGrid cfg { ledger with portfolio := pm } := by
    rcases hpm with rfl | hensure
    · exact h
    · exact positionsOnGrid_of_keeps h (ensure_keeps_positions hensure)
  rcases hend with ⟨reason, message, rfl⟩ |
      ⟨tickValue, bid, ask, entryFee, trades, seq, pm', now, -, -, hopen, rfl⟩
  · exact hfunds
  · obtain ⟨now', costs, balances, -, rfl⟩ := openPosition_eq_ok hopen
    intro k position hposition
    by_cases hkey : k = order.pendingOrderId
    · subst hkey
      cases (Dict.get?_set_self _ _ _).symm.trans hposition
      obtain ⟨spec', hspec', hprices⟩ := horder
      exact ⟨spec', hspec', hprices.stopLoss, hprices.takeProfit⟩
    · exact hfunds k position ((Dict.get?_set_ne _ _ hkey).symm.trans hposition)

/-- What is asked of the positions: the grid, where the broker holds their SL/TP. -/
def NativeOnGrid (cfg : SimulatorConfig) (ledger : ExecutionLedger) : Prop :=
  nativeSlTp cfg = true → PositionsOnGrid cfg ledger

theorem gridRule (cfg : SimulatorConfig) :
    ProcessingRule cfg (OrderOnGrid cfg) (NativeOnGrid cfg) where
  becomes := OrderOnGrid.becomes
  openFill := fun h horder hfill hnative => positionsOnGrid_openFill (h hnative) horder hfill
  closeFill := fun h hfill hnative => positionsOnGrid_of_keeps (h hnative) (fillCloseOrder_keeps hfill)
  notes := by
    intro ledger ledger' hportfolio _ h hnative
    refine positionsOnGrid_of_keeps (h hnative) ?_
    rw [hportfolio]
    exact keepsPositions_of_eq rfl

/-- Any request to modify a position of a broker that holds SL/TP asks for levels on the grid. -/
theorem requestsBy_keepsGrid (hnative : nativeSlTp cfg = true) (s : TradeSimulator)
    (op : SimulatorOp) : RequestsBy cfg (KeepsGrid cfg) s op := by
  rintro positionId stopLoss takeProfit - position - ⟨spec, hspec, -⟩
  have hspec' : cfg.executor.broker.symbols.get? position.symbol = some spec := hspec
  refine ⟨spec, hspec, ?_⟩
  simp only [requestedLevels, hnative, if_true, hspec']
  exact ⟨onGrid_roundPrice _ _, onGrid_roundPrice _ _⟩

/-- The loop over the scheduled modifications keeps the levels of positions on the grid. -/
theorem positionsOnGrid_resolved (h : PositionsOnGrid cfg s.ledger)
    (hscheduled : ScheduledBy cfg (KeepsGrid cfg) s)
    (hresolve : resolvePendingOperations s = .ok s') : PositionsOnGrid cfg s'.ledger := by
  intro k position' hposition'
  rcases resolvePendingOperations_handled hresolve k with
    ⟨hsame, -⟩ | ⟨-, mod, hmod, hsame | ⟨position, hposition, hset⟩⟩
  · exact h k position' (hsame.symm.trans hposition')
  · exact h k position' (hsame.symm.trans hposition')
  · cases hset.symm.trans hposition'
    exact (hscheduled k mod hmod).2.2 position hposition (h k position hposition)

end Positions

section Runs

/-- The orders, and where the broker holds SL/TP the positions, are on the grid. -/
structure PricesSnapped (cfg : SimulatorConfig) (s : TradeSimulator) : Prop where
  orders : AllOrders (OrderOnGrid cfg) s
  positions : NativeOnGrid cfg s.ledger
  scheduled : nativeSlTp cfg = true → ScheduledBy cfg (KeepsGrid cfg) s

theorem carries_resolved (h : PricesSnapped cfg s)
    (hresolve : resolvePendingOperations s = .ok s') :
    Carries (OrderOnGrid cfg) (NativeOnGrid cfg) s'.pendingPositionModifications s' :=
  ⟨h.orders.resolvePendingOperations OrderOnGrid.resolveModification hresolve,
    fun hnative => positionsOnGrid_resolved (h.positions hnative) (h.scheduled hnative) hresolve,
    rfl⟩

theorem orders_onTick {tick : TickData} (hinv : Conserved [] s) (h : PricesSnapped cfg s)
    (htick : onTick cfg s tick = .ok s') :
    AllOrders (OrderOnGrid cfg) s' ∧ NativeOnGrid cfg s'.ledger := by
  obtain ⟨processed, hprocess, -⟩ := bind_eq_ok.mp htick
  obtain ⟨resolved, -, -, hresolve, -, -, -, -⟩ := processPendingOrders_phases hinv hprocess
  have hreceived : PricesSnapped cfg (receiveTick s tick) :=
    ⟨h.orders.frame rfl rfl rfl, h.positions, h.scheduled⟩
  have hend : Carries (OrderOnGrid cfg) (NativeOnGrid cfg) resolved.pendingPositionModifications s' := by
    refine Carries.onTick (gridRule cfg) hinv (fun resolved' hresolve' => ?_) htick
    cases hresolve.symm.trans hresolve'
    exact carries_resolved hreceived hresolve
  exact ⟨hend.orders, hend.ledger⟩

theorem orders_heartbeat (h : PricesSnapped cfg s) (hbeat : heartbeat cfg s = .ok s') :
    AllOrders (OrderOnGrid cfg) s' ∧ NativeOnGrid cfg s'.ledger := by
  obtain ⟨rfl, -⟩ | ⟨_, _, resolved, -, -, hresolve, hdrain⟩ := heartbeat_eq_ok hbeat
  · exact ⟨h.orders, h.positions⟩
  · have hend := (carries_resolved h hresolve).drainLatencyQueue (gridRule cfg) hdrain
    exact ⟨hend.orders, hend.ledger⟩

theorem orders_step {op : SimulatorOp} (hinv : Conserved [] s) (h : PricesSnapped cfg s)
    (hstep : step cfg s op = .ok s') : AllOrders (OrderOnGrid cfg) s' := by
  obtain ⟨hqueued, hlimits, hstops⟩ := h.orders
  cases op with
  | tick tick => exact (orders_onTick hinv h hstep).1
  | heartbeat => exact (orders_heartbeat h hstep).1
  | setCurrentTime now =>
      cases hstep
      exact ⟨hqueued, hlimits, hstops⟩
  | openOrder request =>
      obtain ⟨⟨s₁, result⟩, hopen, rfl⟩ := map_eq_ok.mp hstep
      obtain ⟨normalized, rfl, ⟨reason, message, rfl⟩ | ⟨tick, htick, hvalid, rfl⟩⟩ :=
        openOrder_eq_ok hopen
      · exact ⟨hqueued, hlimits, hstops⟩
      · refine ⟨fun order hmem hopened => ?_, hlimits, hstops⟩
        rcases Dict.mem_values_set hmem with rfl | hbefore
        · exact orderOnGrid_accepted hvalid
        · exact hqueued order hbefore hopened
  | closePosition positionId lots =>
      obtain ⟨⟨s₁, result⟩, hclose, rfl⟩ := map_eq_ok.mp hstep
      obtain ⟨-, rfl, -⟩ | ⟨position, tick, -, -, -, rfl⟩ := closePosition_eq_ok hclose
      · exact ⟨hqueued, hlimits, hstops⟩
      · refine ⟨fun order hmem hopened => ?_, hlimits, hstops⟩
        rcases Dict.mem_values_set hmem with rfl | hbefore
        · cases hopened
        · exact hqueued order hbefore hopened
  | cancelLimitOrder orderId =>
      obtain ⟨⟨s₁, answer⟩, hcancel, rfl⟩ := map_eq_ok.mp hstep
      obtain ⟨⟨orders, scheduled⟩, hschedule, hpure⟩ := bind_eq_ok.mp hcancel
      cases hpure
      exact ⟨hqueued, scheduleCancel_onGrid hlimits hschedule, hstops⟩
  | cancelStopOrder orderId =>
      obtain ⟨⟨s₁, answer⟩, hcancel, rfl⟩ := map_eq_ok.mp hstep
      unfold cancelStopOrder at hcancel
      split at hcancel
      · cases hcancel
        exact ⟨hqueued, hlimits, hstops⟩
      · obtain ⟨⟨orders, scheduled⟩, hschedule, hpure⟩ := bind_eq_ok.mp hcancel
        cases hpure
        exact ⟨hqueued, hlimits, scheduleCancel_onGrid hstops hschedule⟩
  | modifyLimitOrder orderId price stopLoss takeProfit =>
      obtain ⟨⟨s₁, result⟩, hmodify, rfl⟩ := map_eq_ok.mp hstep
      obtain rfl | ⟨pending, spec, mod, hfind, hspec, hmod, rfl⟩ := modifyLimitOrder_onGrid hmodify
      · exact ⟨hqueued, hlimits, hstops⟩
      · exact ⟨hqueued, scheduleModification_onGrid hlimits hfind hspec hmod, hstops⟩
  | modifyStopOrder orderId stop limit stopLoss takeProfit =>
      obtain ⟨⟨s₁, result⟩, hmodify, rfl⟩ := map_eq_ok.mp hstep
      obtain rfl | ⟨pending, spec, mod, hfind, hspec, hmod, rfl⟩ := modifyStopOrder_onGrid hmodify
      · exact ⟨hqueued, hlimits, hstops⟩
      · exact ⟨hqueued, hlimits, scheduleModification_onGrid hstops hfind hspec hmod⟩
  | modifyPosition positionId stopLoss takeProfit =>
      obtain ⟨⟨s₁, result⟩, hmodify, rfl⟩ := map_eq_ok.mp hstep
      obtain ⟨-, modifications, rfl | rfl⟩ := modifyPosition_eq_ok hmodify
      · exact ⟨hqueued, hlimits, hstops⟩
      · exact ⟨hqueued, hlimits, hstops⟩
  | recordGuardRejection result =>
      cases hstep
      exact ⟨hqueued, hlimits, hstops⟩
  | getAccountInfo direction =>
      obtain ⟨⟨pm, info⟩, -, hpure⟩ := bind_eq_ok.mp hstep
      cases hpure
      exact ⟨hqueued, hlimits, hstops⟩

theorem positions_step {op : SimulatorOp} (hinv : Conserved [] s) (h : PricesSnapped cfg s)
    (hstep : step cfg s op = .ok s') : NativeOnGrid cfg s'.ledger := by
  intro hnative
  have hkept : ∀ {ledger' : ExecutionLedger},
      KeepsPositions s.ledger.portfolio ledger'.portfolio → PositionsOnGrid cfg ledger' :=
    fun hkeep => positionsOnGrid_of_keeps (h.positions hnative) hkeep
  have hsame : ∀ {ledger' : ExecutionLedger},
      ledger'.portfolio.openPositions = s.ledger.portfolio.openPositions →
      PositionsOnGrid cfg ledger' :=
    fun hpositions => hkept (keepsPositions_of_eq hpositions)
  cases step_stepped hstep with
  | ticked htick => exact (orders_onTick hinv h htick).2 hnative
  | beat hbeat => exact (orders_heartbeat h hbeat).2 hnative
  | positionModified =>
      obtain ⟨⟨answered, result⟩, hmodify, hanswered⟩ := map_eq_ok.mp hstep
      obtain rfl | ⟨position, hposition, ⟨-, mod, -, rfl⟩ | ⟨hnot, -⟩⟩ :=
        modifyPosition_requested hmodify
      · exact hanswered ▸ h.positions hnative
      · exact hanswered ▸ h.positions hnative
      · cases hnative.symm.trans hnot
  | queried hensure => exact hkept (ensure_keeps_positions hensure)
  | clockSet => exact hsame rfl
  | refused => exact hsame rfl
  | accepted htick hvalid => exact hsame rfl
  | closeAccepted hposition htick => exact hsame rfl
  | ignored hclose => exact hsame rfl
  | limitScheduled hfind hstate hcall => exact hsame rfl
  | stopScheduled hfind hstate hcall => exact hsame rfl
  | positionScheduled => exact hsame rfl
  | guardRecorded => exact hsame rfl

theorem pricesSnapped_step {op : SimulatorOp} (hinv : Conserved [] s) (h : PricesSnapped cfg s)
    (hstep : step cfg s op = .ok s') : PricesSnapped cfg s' where
  orders := orders_step hinv h hstep
  positions := positions_step hinv h hstep
  scheduled := fun hnative => (levelsMove_step (keepsGrid_order cfg) hinv (h.scheduled hnative)
    (requestsBy_keepsGrid hnative s op) hstep).2

theorem pricesSnapped_new : PricesSnapped cfg (Simulator.new cfg) where
  orders := allOrders_new
  positions := fun _ _ _ h => by cases h
  scheduled := fun _ _ _ h => by cases h

/-- Over any run every price of every order stays on the grid of its symbol, and so do the levels
of every position where the broker holds them. -/
theorem prices_stay_on_grid {ops : List SimulatorOp}
    (hrun : run (step cfg) (Simulator.new cfg) ops = .ok s) :
    AllOrders (OrderOnGrid cfg) s ∧
      (nativeSlTp cfg = true → ∀ k position, s.ledger.portfolio.getPosition k = some position →
        LevelsOnGrid cfg position.symbol (levels position) ∧
          ∀ mod, s.pendingPositionModifications.get? k = some mod →
            LevelsOnGrid cfg position.symbol (targetLevels mod)) := by
  have hall : Conserved [] s ∧ PricesSnapped cfg s := by
    refine run_invariant (P := fun s => Conserved [] s ∧ PricesSnapped cfg s) ?_
      ⟨conserved_new, pricesSnapped_new⟩ hrun
    rintro s op s' ⟨hinv, hsnapped⟩ hstep
    exact ⟨stepped_conserved hinv (step_stepped hstep), pricesSnapped_step hinv hsnapped hstep⟩
  obtain ⟨-, horders, hpositions, hscheduled⟩ := hall
  refine ⟨horders, fun hnative k position hposition => ?_⟩
  have hgrid := hpositions hnative k position hposition
  exact ⟨hgrid, fun mod hmod => (hscheduled hnative k mod hmod).2.2 position hposition hgrid⟩

def nativeForex : SimulatorConfig where
  executor := { portfolio := { usdAccount with
    broker := { forexBroker with capabilities := { nativePositionSlTp := true } } } }
  inboundDelay := fun _ => 5

def longWithStop : OpenOrderRequest where
  symbol := "EURUSD"
  orderType := .market
  direction := .long
  lots := 1
  stopLoss := some (10950 / 10000 + 1 / 3000000)

def stopOffGrid : List SimulatorOp :=
  [.tick (eurusdTick (11000 / 10000) (11002 / 10000) 1000),
    .openOrder longWithStop,
    .tick (eurusdTick (11001 / 10000) (11003 / 10000) 1010),
    .modifyPosition "pos_eurusd_1" (.given (some (10960 / 10000 + 1 / 3000000))) .unset]

theorem stopOffGrid_levels :
    (run (step nativeForex) (Simulator.new nativeForex) stopOffGrid).map
        (fun s => (s.ledger.portfolio.openPositions.values.map levels,
          s.pendingPositionModifications.values.map targetLevels)) =
      .ok ([(some (10950 / 10000), none)], [(some (10960 / 10000), none)]) := by
  decide +kernel

theorem prices_stay_on_grid_stopOffGrid :
    ∃ s, run (step nativeForex) (Simulator.new nativeForex) stopOffGrid = .ok s ∧
      AllOrders (OrderOnGrid nativeForex) s ∧
      ∀ k position, s.ledger.portfolio.getPosition k = some position →
        LevelsOnGrid nativeForex position.symbol (levels position) := by
  obtain ⟨s, hrun, -⟩ := exists_of_map_eq_ok stopOffGrid_levels
  obtain ⟨horders, hpositions⟩ := prices_stay_on_grid hrun
  exact ⟨s, hrun, horders, fun k position hposition => (hpositions rfl k position hposition).1⟩

end Runs

end Finiex.PriceGrid
