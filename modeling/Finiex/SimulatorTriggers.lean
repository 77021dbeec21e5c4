import Finiex.SimulatorLedger

namespace Finiex.SimulatorTriggers

open Finiex.Types
open Finiex.Lib
open Finiex.Lib.Run
open Finiex.Positions
open Finiex.Orders
open Finiex.OrderBooks
open Finiex.Portfolio
open Finiex.Portfolio.PortfolioManager
open Finiex.PortfolioLedger
open Finiex.PortfolioFrames
open Finiex.Executor
open Finiex.ExecutorFills
open Finiex.Simulator
open Finiex.SimulatorSpecs
open Finiex.SimulatorSteps
open Finiex.SimulatorConservation
open Finiex.SimulatorLedger

section Positions

variable {cfg : SimulatorConfig} {s s' : TradeSimulator} {tick : TickData}

def Triggered (tick : TickData) (position : Position) : Prop :=
  position.symbol = tick.symbol ∧ (position.isSlTriggered tick.bid tick.ask = true ∨
    position.isTpTriggered tick.bid tick.ask = true)

theorem triggered_congr {position position' : Position}
    (hcontract : contract position' = contract position)
    (hlevels : levels position' = levels position) :
    Triggered tick position' ↔ Triggered tick position := by
  obtain ⟨-, hsymbol, hdirection, -, -⟩ : position'.positionId = position.positionId ∧
      position'.symbol = position.symbol ∧ position'.direction = position.direction ∧
      position'.entryPrice = position.entryPrice ∧ position'.digits = position.digits := by
    simpa [contract] using hcontract
  obtain ⟨hstop, htake⟩ := Prod.mk.inj hlevels
  simp only [Triggered, Position.isSlTriggered, Position.isTpTriggered, hsymbol, hdirection, hstop,
    htake]

theorem fillCloseOrder_synthetic {market : MarketState} {ledger ledger' : ExecutionLedger}
    {positionId : String} {level : Option ℚ} {closeReason : CloseReason}
    (h : fillCloseOrder cfg.executor market ledger (createSyntheticCloseOrder positionId) level
      closeReason = .ok ledger') :
    ledger'.portfolio.getPosition positionId = none := by
  obtain ⟨tick, -, ⟨rfl, hposition | hlots⟩ | ⟨position, spec, closePrice, exitTickValue, closing,
    seq, trades, pm, pnl, now, result, -, -, -, -, -, -, hclosing, hclose, -, rfl⟩⟩ :=
    fillCloseOrder_eq_ok h
  · exact hposition
  · cases hlots
  · have hfull : closing = none := hclosing
    subst hfull
    exact (closePositionPortfolio_frame hclose).2.1

theorem checkSlTpTriggers_clears (hsound : PositionsSound cfg.executor s.ledger)
    (hcheck : checkSlTpTriggers cfg s tick = .ok s') :
    ∀ k position, s'.ledger.portfolio.getPosition k = some position → ¬ Triggered tick position := by
  obtain ⟨ledger, hloop, hpure⟩ := bind_eq_ok.mp hcheck
  cases hpure
  -- what is still open is unchanged, and still to be visited if it is triggered
  have hend := foldlM_induct (P := fun remaining (ledger : ExecutionLedger) =>
    ∀ k position, ledger.portfolio.getPosition k = some position →
      ∃ before, s.ledger.portfolio.getPosition k = some before ∧
        contract position = contract before ∧ levels position = levels before ∧
        (Triggered tick before → before ∈ remaining)) ?_ ?_ hloop
  · intro k position hposition htriggered
    obtain ⟨before, -, hcontract, hlevels, hvisit⟩ := hend k position hposition
    exact List.not_mem_nil (hvisit ((triggered_congr hcontract hlevels).mp htriggered))
  · intro visited rest ledger₁ ledger₂ hinv hstep k position hposition
    obtain ⟨rfl, hquiet⟩ | ⟨level, closeReason, closed, -, -, hfill, rfl⟩ :=
      checkSlTpTrigger_eq_ok hstep
    · obtain ⟨before, hbefore, hcontract, hlevels, hvisit⟩ := hinv k position hposition
      refine ⟨before, hbefore, hcontract, hlevels, fun htriggered => ?_⟩
      rcases List.mem_cons.mp (hvisit htriggered) with rfl | hmem
      · obtain ⟨hstop, htake⟩ := hquiet htriggered.1
        rcases htriggered.2 with h | h
        · rw [hstop] at h
          cases h
        · rw [htake] at h
          cases h
      · exact hmem
    · obtain ⟨kept, hkept, hcontract', hlevels'⟩ := fillCloseOrder_keeps hfill k position hposition
      obtain ⟨before, hbefore, hcontract, hlevels, hvisit⟩ := hinv k kept hkept
      refine ⟨before, hbefore, hcontract'.trans hcontract, hlevels'.trans hlevels,
        fun htriggered => ?_⟩
      rcases List.mem_cons.mp (hvisit htriggered) with rfl | hmem
      · have hkey := (hsound k before hbefore).1
        have hgone := fillCloseOrder_synthetic hfill
        rw [hkey] at hgone
        cases hgone.symm.trans hposition
      · exact hmem
  · intro k position hposition
    exact ⟨position, hposition, rfl, rfl, fun _ => Dict.mem_values_of_get? hposition⟩

end Positions

section Orders

variable {cfg : SimulatorConfig} {s s' : TradeSimulator} {tick : TickData}

/-- An order of the tick's symbol has a price that this tick does not reach. -/
def Unreached (reached : TickData → Option OrderDirection → ℚ → Bool) (tick : TickData)
    (order : PendingOrder) : Prop :=
  order.symbol = tick.symbol →
    ∃ price, order.entryPrice = some price ∧ reached tick order.direction price = false

theorem unreached_of_not_reached {reached : TickData → Option OrderDirection → ℚ → Bool}
    {market : MarketState} {order : PendingOrder} (htick : market.currentTick = some tick)
    (hnot : isPriceReached reached market order = .ok false) : Unreached reached tick order :=
  fun hsymbol => isPriceReached_eq_ok htick hsymbol hnot

/-- No modification of the order is due at `msc`. -/
def NotDue (msc : ℤ) (order : PendingOrder) : Prop := dueModification msc order = none

theorem notDue_resolveModification (msc : ℤ) (order : PendingOrder) :
    NotDue msc (resolveModification msc order) := by
  unfold resolveModification
  cases hdue : dueModification msc order with
  | none => exact hdue
  | some mod => rfl

theorem resolveModification_eq_self {msc : ℤ} {order : PendingOrder} (h : NotDue msc order) :
    resolveModification msc order = order := by
  unfold resolveModification
  rw [show dueModification msc order = none from h]

theorem notDue_of_fresh {msc : ℤ} {order : PendingOrder} (h : order.executionState = {}) :
    NotDue msc order := by
  simp [NotDue, dueModification, PendingOrder.inFlightOperation, h]

theorem notDue_becomes {msc : ℤ} {order order' : PendingOrder} (hbecomes : Becomes order order')
    (h : NotDue msc order) : NotDue msc order' := by
  cases hbecomes with
  | same => exact h
  | converted htype => exact h

theorem notDue_scheduled {market : MarketState} {order : PendingOrder} {fromStops : Bool}
    {state : PendingOrderExecutionState} (htick : market.currentTick = some tick)
    (h : Scheduled market order fromStops state) (before : PendingOrder) :
    NotDue (getTickMsc tick) { before with executionState := state } := by
  cases h with
  | cancel hidle hmsc => simp [NotDue, dueModification, PendingOrder.inFlightOperation]
  | @modify msc mod hidle hmsc happly hprice hlimit =>
      obtain ⟨tick', htick', rfl⟩ := getCurrentMsc_eq_ok.mp hmsc
      obtain rfl : tick' = tick := Option.some.inj (htick'.symm.trans htick)
      have hlate : getTickMsc tick' < mod.applyAtMsc := by
        rw [happly]
        exact Int.lt_add_one_iff.mpr le_rfl
      simp [NotDue, dueModification, PendingOrder.inFlightOperation,
        PendingOrder.pendingModification, hlate]

/-- Queued orders carry no operation. -/
def QueueIdle (s : TradeSimulator) : Prop :=
  ∀ order ∈ s.latencyQueue.values, order.executionState = {}

/-- Orders with this property are those that a failed price test lets rest. -/
def Tested (reached : TickData → Option OrderDirection → ℚ → Bool) (tick : TickData)
    (Q : PendingOrder → Prop) : Prop :=
  ∀ market order, market.currentTick = some tick →
    isPriceReached reached market order = .ok false → Q order

theorem tested_unreached (reached : TickData → Option OrderDirection → ℚ → Bool) :
    Tested reached tick (Unreached reached tick) :=
  fun _ _ htick hnot => unreached_of_not_reached htick hnot

theorem tested_true (reached : TickData → Option OrderDirection → ℚ → Bool) :
    Tested reached tick fun _ => True :=
  fun _ _ _ _ => trivial

/-- What holds of the resting orders at `tick`: a property of the limits, one of the stops,
and nothing due; queued orders are idle. -/
structure Resting (L S : PendingOrder → Prop) (tick : TickData) (s : TradeSimulator) : Prop where
  current : s.market.currentTick = some tick
  limits : ∀ order ∈ s.activeLimitOrders, L order ∧ NotDue (getTickMsc tick) order
  stops : ∀ order ∈ s.activeStopOrders, S order ∧ NotDue (getTickMsc tick) order
  queue : QueueIdle s

abbrev Calm (tick : TickData) : TradeSimulator → Prop :=
  Resting (Unreached limitReached tick) (Unreached stopReached tick) tick

section Placing

variable {L S : PendingOrder → Prop}

theorem Resting.placed {order : PendingOrder} (hL : Tested limitReached tick L)
    (hS : Tested stopReached tick S) (h : Resting L S tick s)
    (hdue : NotDue (getTickMsc tick) order) (hplaced : Placed cfg s order s') :
    Resting L S tick s' := by
  have hmem : ∀ (Q : PendingOrder → Prop) (orders : List PendingOrder), Q order →
      (∀ o ∈ orders, Q o ∧ NotDue (getTickMsc tick) o) →
      ∀ o ∈ orders ++ [order], Q o ∧ NotDue (getTickMsc tick) o := by
    intro Q orders hQ horders o hmem
    rcases List.mem_append.mp hmem with hold | hnew
    · exact horders o hold
    · rw [List.mem_singleton.mp hnew]
      exact ⟨hQ, hdue⟩
  cases hplaced with
  | filled htype hprice hfill => exact ⟨h.current, h.limits, h.stops, h.queue⟩
  | restsAsLimit htype hnot =>
      exact ⟨h.current, hmem L _ (hL _ _ h.current hnot) h.limits, h.stops, h.queue⟩
  | restsAsStop htype hnot =>
      exact ⟨h.current, h.limits, hmem S _ (hS _ _ h.current hnot) h.stops, h.queue⟩

theorem Resting.resolved {order : PendingOrder} (hL : Tested limitReached tick L)
    (hS : Tested stopReached tick S) (h : Resting L S tick s)
    (hidle : order.executionState = {}) (hresolved : Resolved cfg s order s') :
    Resting L S tick s' := by
  cases hresolved with
  | stressRejected hopen => exact ⟨h.current, h.limits, h.stops, h.queue⟩
  | @activated calls placedOrder placed hopen hbecomes hplaced =>
      have hasked : Resting L S tick { s with stressCalls := calls } :=
        ⟨h.current, h.limits, h.stops, h.queue⟩
      have hend := hasked.placed hL hS (notDue_becomes hbecomes (notDue_of_fresh hidle)) hplaced
      exact ⟨hend.current, hend.limits, hend.stops, hend.queue⟩
  | closed hclose hfill => exact ⟨h.current, h.limits, h.stops, h.queue⟩

theorem Resting.drainLatencyQueue {msc : ℤ} (hL : Tested limitReached tick L)
    (hS : Tested stopReached tick S) (h : Resting L S tick s)
    (hdrain : drainLatencyQueue cfg s msc = .ok s') : Resting L S tick s' := by
  have hend := foldlM_induct (P := fun rest s =>
    (∀ order ∈ rest, order.executionState = {}) ∧ Resting L S tick s) ?_ ?_ hdrain
  · exact hend.2
  · rintro order rest s₁ s₂ ⟨hidle, hresting⟩ hstep
    refine ⟨fun o hmem => hidle o (List.mem_cons_of_mem order hmem), ?_⟩
    exact hresting.resolved hL hS (hidle order List.mem_cons_self)
      (fillResolvedOrder_resolved hstep)
  · refine ⟨fun order hmem => h.queue order (List.mem_of_mem_filter hmem), h.current, h.limits,
      h.stops, fun order hmem => h.queue order ?_⟩
    rw [Dict.values_filter] at hmem
    exact List.mem_of_mem_filter hmem

end Placing

theorem Calm.drainLatencyQueue {msc : ℤ} (h : Calm tick s)
    (hdrain : drainLatencyQueue cfg s msc = .ok s') : Calm tick s' :=
  Resting.drainLatencyQueue (tested_unreached _) (tested_unreached _) h hdrain

theorem Calm.resolvePendingOperations (h : Calm tick s)
    (hresolve : resolvePendingOperations s = .ok s') : Calm tick s' := by
  obtain ⟨tick', portfolio, modifications, htick', -, rfl⟩ :=
    resolvePendingOperations_eq_ok hresolve
  obtain rfl : tick' = tick := Option.some.inj (htick'.symm.trans h.current)
  refine ⟨h.current, fun order hmem => ?_, fun order hmem => ?_, h.queue⟩
  · obtain ⟨before, hbefore, rfl, -⟩ := mem_resolveActiveOrders.mp hmem
    rw [resolveModification_eq_self (h.limits before hbefore).2]
    exact h.limits before hbefore
  · obtain ⟨before, hbefore, rfl, -⟩ := mem_resolveActiveOrders.mp hmem
    rw [resolveModification_eq_self (h.stops before hbefore).2]
    exact h.stops before hbefore

theorem Calm.heartbeat (h : Calm tick s) (hbeat : heartbeat cfg s = .ok s') : Calm tick s' := by
  obtain ⟨rfl, -⟩ | ⟨_, _, resolved, -, -, hresolve, hdrain⟩ := heartbeat_eq_ok hbeat
  · exact h
  · exact Calm.drainLatencyQueue (Calm.resolvePendingOperations h hresolve) hdrain

theorem Calm.stepped {op : SimulatorOp} (h : Calm tick s) (hop : ∀ next, op ≠ .tick next)
    (hstep : Stepped cfg s op s') : Calm tick s' := by
  cases hstep with
  | ticked htick => exact absurd rfl (hop _)
  | beat hbeat => exact Calm.heartbeat h hbeat
  | clockSet => exact ⟨h.current, h.limits, h.stops, h.queue⟩
  | refused => exact ⟨h.current, h.limits, h.stops, h.queue⟩
  | accepted htick hvalid =>
      refine ⟨h.current, h.limits, h.stops, fun order hmem => ?_⟩
      rcases Dict.mem_values_set hmem with rfl | hold
      · rfl
      · exact h.queue order hold
  | closeAccepted hposition htick =>
      refine ⟨h.current, h.limits, h.stops, fun order hmem => ?_⟩
      rcases Dict.mem_values_set hmem with rfl | hold
      · rfl
      · exact h.queue order hold
  | ignored hclose => exact h
  | limitScheduled hfind hstate hop =>
      refine ⟨h.current, fun order hmem => ?_, h.stops, h.queue⟩
      rcases mem_updateOrder hmem with hold | ⟨before, hbefore, rfl⟩
      · exact h.limits order hold
      · exact ⟨(h.limits before (mem_of_findOrder hbefore)).1,
          notDue_scheduled h.current hstate before⟩
  | stopScheduled hfind hstate hop =>
      refine ⟨h.current, h.limits, fun order hmem => ?_, h.queue⟩
      rcases mem_updateOrder hmem with hold | ⟨before, hbefore, rfl⟩
      · exact h.stops order hold
      · exact ⟨(h.stops before (mem_of_findOrder hbefore)).1,
          notDue_scheduled h.current hstate before⟩
  | positionScheduled => exact ⟨h.current, h.limits, h.stops, h.queue⟩
  | positionModified => exact ⟨h.current, h.limits, h.stops, h.queue⟩
  | guardRecorded => exact ⟨h.current, h.limits, h.stops, h.queue⟩
  | queried hensure => exact ⟨h.current, h.limits, h.stops, h.queue⟩

end Orders

section Ticks

variable {cfg : SimulatorConfig} {s s' : TradeSimulator} {tick : TickData}

/-- While the pending orders are processed, before the price tests. -/
abbrev Processing (tick : TickData) : TradeSimulator → Prop :=
  Resting (fun _ => True) (fun _ => True) tick

theorem processing_resolvePendingOperations (htick : s.market.currentTick = some tick)
    (hqueue : QueueIdle s) (hresolve : resolvePendingOperations s = .ok s') :
    Processing tick s' := by
  obtain ⟨tick', portfolio, modifications, htick', -, rfl⟩ :=
    resolvePendingOperations_eq_ok hresolve
  obtain rfl : tick' = tick := Option.some.inj (htick'.symm.trans htick)
  refine ⟨htick, fun order hmem => ?_, fun order hmem => ?_, hqueue⟩
  · obtain ⟨before, -, rfl, -⟩ := mem_resolveActiveOrders.mp hmem
    exact ⟨trivial, notDue_resolveModification _ before⟩
  · obtain ⟨before, -, rfl, -⟩ := mem_resolveActiveOrders.mp hmem
    exact ⟨trivial, notDue_resolveModification _ before⟩

theorem Processing.monitorLimitOrders (h : Processing tick s)
    (hmonitor : monitorLimitOrders cfg s = .ok s') :
    Resting (Unreached limitReached tick) (fun _ => True) tick s' := by
  obtain ⟨⟨ledger, remaining⟩, hloop, hpure⟩ := bind_eq_ok.mp hmonitor
  cases hpure
  have hend := foldlM_induct (P := fun rest (state : ExecutionLedger × List PendingOrder) =>
    (∀ order ∈ rest, NotDue (getTickMsc tick) order) ∧
      ∀ order ∈ state.2, Unreached limitReached tick order ∧ NotDue (getTickMsc tick) order)
    ?_ ⟨fun order hmem => (h.limits order hmem).2, fun order hmem => absurd hmem List.not_mem_nil⟩
    hloop
  · exact ⟨h.current, hend.2, h.stops, h.queue⟩
  · rintro order rest ⟨ledger₁, kept⟩ state ⟨hdue, hkept⟩ hstep
    refine ⟨fun o hmem => hdue o (List.mem_cons_of_mem order hmem), ?_⟩
    obtain ⟨hnot, rfl⟩ | ⟨entryType, fillType, ledger₂, hfill, rfl⟩ :=
      monitorLimitOrder_eq_ok hstep
    · intro o hmem
      rcases List.mem_append.mp hmem with hold | hnew
      · exact hkept o hold
      · rw [List.mem_singleton.mp hnew]
        exact ⟨unreached_of_not_reached h.current hnot, hdue order List.mem_cons_self⟩
    · exact hkept

/-- Phase 3 leaves only stops that the tick does not reach; a converted order rests only
where its limit is not reached either. -/
theorem Resting.monitorStopOrders
    (h : Resting (Unreached limitReached tick) (fun _ => True) tick s)
    (htypes : ∀ p ∈ s.activeStopOrders, p.orderType = some .stop ∨ p.orderType = some .stopLimit)
    (hmonitor : monitorStopOrders cfg s = .ok s') : Calm tick s' := by
  obtain ⟨⟨s₁, remaining⟩, hloop, hpure⟩ := bind_eq_ok.mp hmonitor
  cases hpure
  have hend := foldlM_induct (P := fun rest (state : TradeSimulator × List PendingOrder) =>
    (∀ p ∈ rest, (p.orderType = some .stop ∨ p.orderType = some .stopLimit) ∧
      NotDue (getTickMsc tick) p) ∧ Calm tick { state.1 with activeStopOrders := state.2 })
    ?_ ?_ hloop
  · exact hend.2
  · rintro order rest ⟨s₁, kept⟩ state ⟨hrest, hcalm⟩ hstep
    obtain ⟨htype, hdue⟩ := hrest order List.mem_cons_self
    refine ⟨fun p hp => hrest p (List.mem_cons_of_mem order hp), ?_⟩
    obtain ⟨hnot, rfl⟩ | ⟨placedOrder, s₂, hbecomes, hplaced, rfl⟩ :=
      monitorStopOrder_eq_ok htype hstep
    · have hrests : Placed cfg { s₁ with activeStopOrders := kept } order
          { s₁ with activeStopOrders := kept ++ [order] } := .restsAsStop htype hnot
      exact hcalm.placed (tested_unreached _) (tested_unreached _) hdue hrests
    · exact hcalm.placed (tested_unreached _) (tested_unreached _)
        (notDue_becomes hbecomes hdue) hplaced
  · exact ⟨fun p hp => ⟨htypes p hp, (h.stops p hp).2⟩, h.current, h.limits,
      fun order hmem => absurd hmem List.not_mem_nil, h.queue⟩

theorem calm_onTick (hconserved : Conserved [] s) (hqueue : QueueIdle s)
    (htick : onTick cfg s tick = .ok s') : Calm tick s' := by
  obtain ⟨s₁, hprocess, hcheck⟩ := bind_eq_ok.mp htick
  obtain ⟨s₂, s₃, s₄, hresolve, hdrain, hlimits, hmonitored, hstops⟩ :=
    processPendingOrders_phases hconserved hprocess
  have hreceived : (receiveTick s tick).market.currentTick = some tick := rfl
  have hresolved : Processing tick s₂ :=
    processing_resolvePendingOperations hreceived hqueue hresolve
  have hdrained : Processing tick s₃ := hresolved.drainLatencyQueue (tested_true _) (tested_true _)
    hdrain
  have hcalm : Calm tick s₁ :=
    (Processing.monitorLimitOrders hdrained hlimits).monitorStopOrders hmonitored.stops hstops
  obtain ⟨ledger, -, hpure⟩ := bind_eq_ok.mp hcheck
  cases hpure
  exact ⟨hcalm.current, hcalm.limits, hcalm.stops, hcalm.queue⟩

end Ticks

section Runs

variable {cfg : SimulatorConfig} {s s' : TradeSimulator}

theorem queueIdle_heartbeat (h : QueueIdle s) (hbeat : heartbeat cfg s = .ok s') :
    QueueIdle s' := by
  obtain ⟨rfl, -⟩ | ⟨tick, _, resolved, htick, -, hresolve, hdrain⟩ := heartbeat_eq_ok hbeat
  · exact h
  · have hresolved : Processing tick resolved :=
      processing_resolvePendingOperations htick h hresolve
    exact (hresolved.drainLatencyQueue (tested_true _) (tested_true _) hdrain).queue

theorem queueIdle_stepped {op : SimulatorOp} (hconserved : Conserved [] s) (h : QueueIdle s)
    (hstep : Stepped cfg s op s') : QueueIdle s' := by
  cases hstep with
  | ticked htick => exact (calm_onTick hconserved h htick).queue
  | beat hbeat => exact queueIdle_heartbeat h hbeat
  | accepted htick hvalid =>
      intro order hmem
      rcases Dict.mem_values_set hmem with rfl | hold
      · rfl
      · exact h order hold
  | closeAccepted hposition htick =>
      intro order hmem
      rcases Dict.mem_values_set hmem with rfl | hold
      · rfl
      · exact h order hold
  | clockSet => exact h
  | refused => exact h
  | ignored hclose => exact h
  | limitScheduled hfind hstate hop => exact h
  | stopScheduled hfind hstate hop => exact h
  | positionScheduled => exact h
  | positionModified => exact h
  | guardRecorded => exact h
  | queried hensure => exact h

/-- After a tick no position of its symbol is triggered; and after it and any calls and
heartbeats `later`, which may be none, no resting limit or stop order of its symbol is
reached. -/
theorem no_trigger_survives (cfg : SimulatorConfig) {ops later : List SimulatorOp}
    {s s' s'' : TradeSimulator} {tick : TickData}
    (hrun : run (step cfg) (Simulator.new cfg) ops = .ok s) (htick : onTick cfg s tick = .ok s')
    (hlater : ∀ op ∈ later, ∀ next, op ≠ .tick next)
    (hrest : run (step cfg) s' later = .ok s'') :
    (∀ position ∈ s'.ledger.portfolio.getOpenPositions, position.symbol = tick.symbol →
        position.isSlTriggered tick.bid tick.ask = false ∧
          position.isTpTriggered tick.bid tick.ask = false) ∧
      (∀ order ∈ s''.activeLimitOrders, order.symbol = tick.symbol →
        ∃ price, order.entryPrice = some price ∧
          limitReached tick order.direction price = false) ∧
      ∀ order ∈ s''.activeStopOrders, order.symbol = tick.symbol →
        ∃ price, order.entryPrice = some price ∧
          stopReached tick order.direction price = false := by
  obtain ⟨hconserved, hqueue⟩ : Conserved [] s ∧ QueueIdle s := by
    refine run_invariant (P := fun s => Conserved [] s ∧ QueueIdle s) ?_
      ⟨conserved_new, fun order hmem => absurd hmem List.not_mem_nil⟩ hrun
    rintro s op s' ⟨hconserved, hqueue⟩ hop
    have hstepped := step_stepped hop
    exact ⟨stepped_conserved hconserved hstepped, queueIdle_stepped hconserved hqueue hstepped⟩
  have hafter : Calm tick s' := calm_onTick hconserved hqueue htick
  have hcalm : Calm tick s'' := by
    clear htick
    induction later generalizing s' with
    | nil =>
        cases hrest
        exact hafter
    | cons op later ih =>
        obtain ⟨s₁, hop, hrest⟩ := run_cons_eq_ok.mp hrest
        have hnext := Calm.stepped hafter (hlater op List.mem_cons_self) (step_stepped hop)
        exact ih (fun o hmem => hlater o (List.mem_cons_of_mem op hmem)) hrest hnext
  refine ⟨fun position hmem hsymbol => ?_, fun order hmem => (hcalm.limits order hmem).1,
    fun order hmem => (hcalm.stops order hmem).1⟩
  obtain ⟨k, hposition⟩ := Dict.get?_of_mem_values hmem
  have hclear : ¬ Triggered tick position := by
    obtain ⟨s₁, hprocess, hcheck⟩ := bind_eq_ok.mp htick
    have hsound : PositionsSound cfg.executor s₁.ledger :=
      (path_processPendingOrders hconserved hprocess).invariant (fun _ _ => move_positionsSound)
        (positionsSound hrun)
    exact checkSlTpTriggers_clears hsound hcheck k position hposition
  constructor
  · by_contra hstop
    exact hclear ⟨hsymbol, .inl (by simpa using hstop)⟩
  · by_contra htake
    exact hclear ⟨hsymbol, .inr (by simpa using htake)⟩

def positionWithStop : List SimulatorOp :=
  [.tick (eurusdTick (11000 / 10000) (11002 / 10000) 1000),
    .openOrder { symbol := "EURUSD", orderType := .market, direction := .long, lots := 1,
                 stopLoss := some (10995 / 10000) },
    .openOrder { symbol := "EURUSD", orderType := .limit, direction := .long, lots := 1,
                 price := some (10990 / 10000) },
    .tick (eurusdTick (11001 / 10000) (11003 / 10000) 1010)]

/-- A tick that triggers the stop loss but does not reach the limit. -/
def stoppingTick : TickData := eurusdTick (10994 / 10000) (10996 / 10000) 1020

theorem positionWithStop_runs :
    (run (step forexSimulator) (Simulator.new forexSimulator) positionWithStop).bind
      (fun s => (onTick forexSimulator s stoppingTick).bind fun s' =>
        (run (step forexSimulator) s' [.heartbeat]).map fun s'' =>
          (s'.ledger.portfolio.openPositions.size, s''.activeLimitOrders.length)) =
        .ok (0, 1) := by
  decide +kernel

theorem no_trigger_survives_stoppingTick :
    ∃ s s' s'', run (step forexSimulator) (Simulator.new forexSimulator) positionWithStop = .ok s ∧
      onTick forexSimulator s stoppingTick = .ok s' ∧
      run (step forexSimulator) s' [.heartbeat] = .ok s'' ∧
      ∀ order ∈ s''.activeLimitOrders, order.symbol = stoppingTick.symbol →
        ∃ price, order.entryPrice = some price ∧
          limitReached stoppingTick order.direction price = false := by
  obtain ⟨s, hrun, hrest⟩ := bind_eq_ok.mp positionWithStop_runs
  obtain ⟨s', htick, hrest⟩ := bind_eq_ok.mp hrest
  obtain ⟨s'', hlater, -⟩ := exists_of_map_eq_ok hrest
  exact ⟨s, s', s'', hrun, htick, hlater,
    (no_trigger_survives forexSimulator hrun htick (by simp) hlater).2.1⟩

end Runs

end Finiex.SimulatorTriggers
