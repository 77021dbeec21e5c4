import Finiex.Simulator
import Finiex.ExecutorFills
import Finiex.Lib.Lists

namespace Finiex.SimulatorSpecs

open Finiex.Types
open Finiex.Lib
open Finiex.Lib.Run
open Finiex.Lib.Lists
open Finiex.Positions
open Finiex.Orders
open Finiex.Portfolio
open Finiex.Portfolio.PortfolioManager
open Finiex.Executor
open Finiex.ExecutorFills
open Finiex.Simulator

variable {cfg : SimulatorConfig}

theorem getCurrentMsc_eq_ok {market : MarketState} {msc : ℤ} :
    getCurrentMsc market = .ok msc ↔
      ∃ tick, market.currentTick = some tick ∧ getTickMsc tick = msc := by
  unfold getCurrentMsc requireTick
  cases market.currentTick with
  | none => simp [bind, Except.bind]
  | some tick => simp [bind, Except.bind, pure, Except.pure]

theorem isPriceReached_eq_ok {reached : TickData → Option OrderDirection → ℚ → Bool}
    {market : MarketState} {pending : PendingOrder} {tick : TickData} {answer : Bool}
    (htick : market.currentTick = some tick) (hsymbol : pending.symbol = tick.symbol)
    (h : isPriceReached reached market pending = .ok answer) :
    ∃ price, pending.entryPrice = some price ∧ reached tick pending.direction price = answer := by
  unfold isPriceReached at h
  rw [htick] at h
  simp only [hsymbol, ne_eq, not_true_eq_false, if_false] at h
  split at h
  · cases h
  · next price hprice =>
      cases h
      exact ⟨price, hprice, rfl⟩

theorem fillOpen_eq_ok {s s' : TradeSimulator} {pending : PendingOrder} {fillPrice : Option ℚ}
    {entryType : EntryType} {fillType : FillType}
    (h : fillOpen cfg s pending fillPrice entryType fillType = .ok s') :
    ∃ ledger, fillOpenOrder cfg.executor s.market s.ledger pending fillPrice entryType fillType =
      .ok ledger ∧ s' = { s with ledger := ledger } := by
  obtain ⟨ledger, hfill, hpure⟩ := bind_eq_ok.mp h
  cases hpure
  exact ⟨ledger, hfill, rfl⟩

/-- Where an OPEN order goes when the broker has it: filled at once, or resting. -/
inductive Placed (cfg : SimulatorConfig) (s : TradeSimulator) (pending : PendingOrder) :
    TradeSimulator → Prop
  | filled {fillPrice : Option ℚ} {entryType : EntryType} {fillType : FillType}
      {ledger : ExecutionLedger} (htype : pending.orderType ≠ some .stopLimit)
      (hprice : pending.orderType = some .limit → fillPrice = pending.entryPrice)
      (hfill : fillOpenOrder cfg.executor s.market s.ledger pending fillPrice entryType fillType =
        .ok ledger) :
      Placed cfg s pending { s with ledger := ledger }
  | restsAsLimit (htype : pending.orderType = some .limit)
      (hnot : isLimitPriceReached s.market pending = .ok false) :
      Placed cfg s pending { s with activeLimitOrders := s.activeLimitOrders ++ [pending] }
  | restsAsStop (htype : pending.orderType = some .stop ∨ pending.orderType = some .stopLimit)
      (hnot : isStopPriceReached s.market pending = .ok false) :
      Placed cfg s pending { s with activeStopOrders := s.activeStopOrders ++ [pending] }

theorem convertStopLimitToLimit_placed {s s' : TradeSimulator} {pending : PendingOrder}
    (h : convertStopLimitToLimit cfg s pending = .ok s') :
    Placed cfg s (convertedOrder pending) s' := by
  obtain ⟨reached, hreached, h⟩ := bind_eq_ok.mp h
  cases reached with
  | true =>
      obtain ⟨ledger, hfill, rfl⟩ := fillOpen_eq_ok h
      exact .filled (by simp [convertedOrder]) (fun _ => rfl) hfill
  | false =>
      cases h
      exact .restsAsLimit rfl hreached

/-- The orders a pending order may become on its way: itself, or the limit order a
triggered STOP_LIMIT order turns into. -/
inductive Becomes (pending : PendingOrder) : PendingOrder → Prop
  | same : Becomes pending pending
  | converted (htype : pending.orderType = some .stopLimit) :
      Becomes pending (convertedOrder pending)

theorem Becomes.id_eq {pending order : PendingOrder} (h : Becomes pending order) :
    order.pendingOrderId = pending.pendingOrderId := by
  cases h <;> rfl

theorem activateOrder_placed {s s' : TradeSimulator} {pending : PendingOrder}
    (h : activateOrder cfg s pending = .ok s') :
    ∃ order, Becomes pending order ∧ Placed cfg s order s' := by
  unfold activateOrder at h
  split at h
  · next htype =>
      obtain ⟨reached, hreached, h⟩ := bind_eq_ok.mp h
      cases reached with
      | true =>
          obtain ⟨ledger, hfill, rfl⟩ := fillOpen_eq_ok h
          exact ⟨pending, .same, .filled (by simp [htype]) (fun _ => rfl) hfill⟩
      | false =>
          cases h
          exact ⟨pending, .same, .restsAsLimit htype hreached⟩
  · next htype =>
      obtain ⟨reached, hreached, h⟩ := bind_eq_ok.mp h
      cases reached with
      | true =>
          obtain ⟨ledger, hfill, rfl⟩ := fillOpen_eq_ok h
          exact ⟨pending, .same, .filled (by simp [htype])
            (fun hlimit => by simp [htype] at hlimit) hfill⟩
      | false =>
          cases h
          exact ⟨pending, .same, .restsAsStop (.inl htype) hreached⟩
  · next htype =>
      obtain ⟨reached, hreached, h⟩ := bind_eq_ok.mp h
      cases reached with
      | true => exact ⟨_, .converted htype, convertStopLimitToLimit_placed h⟩
      | false =>
          cases h
          exact ⟨pending, .same, .restsAsStop (.inr htype) hreached⟩
  · next hlimit _ hstopLimit =>
      obtain ⟨ledger, hfill, rfl⟩ := fillOpen_eq_ok h
      exact ⟨pending, .same, .filled hstopLimit (fun htype => absurd htype hlimit) hfill⟩

/-- What one resolved order of the latency queue leads to. -/
inductive Resolved (cfg : SimulatorConfig) (s : TradeSimulator) (pending : PendingOrder) :
    TradeSimulator → Prop
  | stressRejected {calls rejections rejectionCount : ℕ} (hopen : pending.orderAction = .openOrder) :
      Resolved cfg s pending (recordOutcome { s with
        stressCalls := calls
        stressRejections := rejections
        ledger := rejectByStressTest cfg s.ledger pending rejectionCount } pending .rejected)
  | activated {calls : ℕ} {order : PendingOrder} {placed : TradeSimulator}
      (hopen : pending.orderAction = .openOrder) (hbecomes : Becomes pending order)
      (hplaced : Placed cfg { s with stressCalls := calls } order placed) :
      Resolved cfg s pending (recordOutcome placed pending .filled)
  | closed {ledger : ExecutionLedger} (hclose : pending.orderAction = .closeOrder)
      (hfill : fillCloseOrder cfg.executor s.market s.ledger pending none .manual = .ok ledger) :
      Resolved cfg s pending (recordOutcome { s with ledger := ledger } pending .filled)

theorem fillResolvedOrder_resolved {s s' : TradeSimulator} {pending : PendingOrder}
    (h : fillResolvedOrder cfg s pending = .ok s') : Resolved cfg s pending s' := by
  unfold fillResolvedOrder at h
  cases haction : pending.orderAction with
  | openOrder =>
      simp only [haction, stressTestShouldReject] at h
      cases hfilter : cfg.stressFilter with
      | none =>
          simp only [hfilter] at h
          obtain ⟨placed, hactivate, hpure⟩ := bind_eq_ok.mp h
          cases hpure
          obtain ⟨order, hbecomes, hplaced⟩ := activateOrder_placed hactivate
          exact .activated haction hbecomes hplaced
      | some triggers =>
          cases htriggers : triggers s.stressCalls with
          | true =>
              simp only [hfilter, htriggers, if_true] at h
              cases h
              exact .stressRejected haction
          | false =>
              simp only [hfilter, htriggers, Bool.false_eq_true, if_false] at h
              obtain ⟨placed, hactivate, hpure⟩ := bind_eq_ok.mp h
              cases hpure
              obtain ⟨order, hbecomes, hplaced⟩ := activateOrder_placed hactivate
              exact .activated haction hbecomes hplaced
  | closeOrder =>
      simp only [haction] at h
      obtain ⟨ledger, hfill, hpure⟩ := bind_eq_ok.mp h
      cases hpure
      exact .closed haction hfill

theorem monitorLimitOrder_eq_ok {market : MarketState} {ledger : ExecutionLedger}
    {remaining : List PendingOrder} {pending : PendingOrder}
    {state' : ExecutionLedger × List PendingOrder}
    (h : monitorLimitOrder cfg market (ledger, remaining) pending = .ok state') :
    (isLimitPriceReached market pending = .ok false ∧
        state' = (ledger, remaining ++ [pending])) ∨
      ∃ entryType fillType ledger',
        fillOpenOrder cfg.executor market ledger pending pending.entryPrice entryType fillType =
          .ok ledger' ∧ state' = (ledger', remaining) := by
  obtain ⟨reached, hreached, h⟩ := bind_eq_ok.mp h
  cases reached with
  | true =>
      obtain ⟨ledger', hfill, hpure⟩ := bind_eq_ok.mp h
      cases hpure
      exact .inr ⟨_, _, ledger', hfill, rfl⟩
  | false =>
      cases h
      exact .inl ⟨hreached, rfl⟩

theorem Placed.withStops {s s' : TradeSimulator} {order : PendingOrder}
    (h : Placed cfg s order s') (htype : order.orderType = some .limit)
    (stops : List PendingOrder) :
    Placed cfg { s with activeStopOrders := stops } order
      { s' with activeStopOrders := stops } := by
  cases h with
  | filled hfilled hprice hfill => exact .filled hfilled hprice hfill
  | restsAsLimit htype hnot => exact .restsAsLimit htype hnot
  | restsAsStop hstop hnot => simp [htype] at hstop

theorem monitorStopOrder_eq_ok {s : TradeSimulator} {remaining : List PendingOrder}
    {pending : PendingOrder} {state' : TradeSimulator × List PendingOrder}
    (htype : pending.orderType = some .stop ∨ pending.orderType = some .stopLimit)
    (h : monitorStopOrder cfg (s, remaining) pending = .ok state') :
    (isStopPriceReached s.market pending = .ok false ∧
        state' = (s, remaining ++ [pending])) ∨
      ∃ order s', Becomes pending order ∧
        Placed cfg { s with activeStopOrders := remaining } order
          { s' with activeStopOrders := remaining } ∧ state' = (s', remaining) := by
  obtain ⟨reached, hreached, h⟩ := bind_eq_ok.mp h
  cases reached with
  | true =>
      rcases htype with htype | htype
      · simp only [htype, if_true] at h
        obtain ⟨s', hfill, hpure⟩ := bind_eq_ok.mp h
        cases hpure
        obtain ⟨ledger, hledger, rfl⟩ := fillOpen_eq_ok hfill
        refine .inr ⟨pending, _, .same, ?_, rfl⟩
        exact .filled (by simp [htype]) (fun hlimit => by simp [htype] at hlimit) hledger
      · simp only [htype, if_true] at h
        obtain ⟨s', hconvert, hpure⟩ := bind_eq_ok.mp h
        cases hpure
        exact .inr ⟨_, _, .converted htype,
          (convertStopLimitToLimit_placed hconvert).withStops rfl remaining, rfl⟩
  | false =>
      cases h
      exact .inl ⟨hreached, rfl⟩

theorem checkSlTpTrigger_eq_ok {market : MarketState} {tick : TickData}
    {ledger ledger' : ExecutionLedger} {position : Position}
    (h : checkSlTpTrigger cfg market tick ledger position = .ok ledger') :
    (ledger' = ledger ∧ (position.symbol = tick.symbol →
        position.isSlTriggered tick.bid tick.ask = false ∧
          position.isTpTriggered tick.bid tick.ask = false)) ∨
      ∃ level closeReason closed,
        ((closeReason = .slTriggered ∧ level = position.stopLoss ∧
            position.isSlTriggered tick.bid tick.ask = true) ∨
          (closeReason = .tpTriggered ∧ level = position.takeProfit ∧
            position.isTpTriggered tick.bid tick.ask = true)) ∧
        position.symbol = tick.symbol ∧
        fillCloseOrder cfg.executor market ledger (createSyntheticCloseOrder position.positionId)
          level closeReason = .ok closed ∧
        ledger' = { closed with slTpTriggered := closed.slTpTriggered + 1 } := by
  unfold checkSlTpTrigger at h
  split at h
  · next hsymbol =>
      cases h
      exact .inl ⟨rfl, fun heq => absurd heq hsymbol⟩
  · next hsymbol =>
      split at h
      · next hstop =>
          obtain ⟨closed, hfill, hpure⟩ := bind_eq_ok.mp h
          cases hpure
          exact .inr ⟨_, _, closed, .inl ⟨rfl, rfl, hstop⟩, not_not.mp hsymbol, hfill, rfl⟩
      · next hstop =>
          split at h
          · next htake =>
              obtain ⟨closed, hfill, hpure⟩ := bind_eq_ok.mp h
              cases hpure
              exact .inr ⟨_, _, closed, .inr ⟨rfl, rfl, htake⟩, not_not.mp hsymbol, hfill, rfl⟩
          · next htake =>
              cases h
              exact .inl ⟨rfl, fun _ => ⟨by simpa using hstop, by simpa using htake⟩⟩

/-- The resolution of scheduled operations works on the active lists, the position
modifications and SL/TP levels. -/
theorem resolvePendingOperations_eq_ok {s s' : TradeSimulator}
    (h : resolvePendingOperations s = .ok s') :
    ∃ tick portfolio modifications,
      s.market.currentTick = some tick ∧
      (portfolio, modifications) = s.pendingPositionModifications.keys.foldl
        (resolvePositionModification (getTickMsc tick))
        (s.ledger.portfolio, s.pendingPositionModifications) ∧
      s' = { s with
        ledger := { s.ledger with
          portfolio := portfolio
          log := s.ledger.log ++ resolutionEvents (getTickMsc tick) s.activeLimitOrders ++
            resolutionEvents (getTickMsc tick) s.activeStopOrders }
        activeLimitOrders := resolveActiveOrders (getTickMsc tick) s.activeLimitOrders
        activeStopOrders := resolveActiveOrders (getTickMsc tick) s.activeStopOrders
        pendingPositionModifications := modifications } := by
  obtain ⟨msc, hmsc, h⟩ := bind_eq_ok.mp h
  obtain ⟨tick, htick, rfl⟩ := getCurrentMsc_eq_ok.mp hmsc
  cases h
  exact ⟨tick, _, _, htick, rfl, rfl⟩

theorem mem_resolutionEvents {msc : ℤ} {orders : List PendingOrder} {event : AuditEvent}
    (h : event ∈ resolutionEvents msc orders) :
    (∃ orderId mod, event = .modificationResolved orderId mod) ∨
      ∃ orderId direction, event = .orderCancelled orderId direction := by
  rcases List.mem_append.mp h with hmem | hmem
  · obtain ⟨order, -, hdue⟩ := List.mem_filterMap.mp hmem
    obtain ⟨mod, -, rfl⟩ := Option.map_eq_some_iff.mp hdue
    exact .inl ⟨_, mod, rfl⟩
  · obtain ⟨order, -, rfl⟩ := List.mem_map.mp hmem
    exact .inr ⟨_, _, rfl⟩

/-- Any property of a portfolio that SL/TP modifications keep survives the loop over the
scheduled position modifications. -/
theorem resolvePositionModifications_induct {P : PortfolioManager → Prop} {msc : ℤ}
    (hstep : ∀ pm positionId stopLoss takeProfit,
      P pm → P (pm.modifyPosition positionId stopLoss takeProfit).1)
    {keys : List String} {pm pm' : PortfolioManager}
    {modifications modifications' : Dict String ModificationRequest} (hpm : P pm)
    (h : (pm', modifications') =
      keys.foldl (resolvePositionModification msc) (pm, modifications)) : P pm' := by
  induction keys generalizing pm modifications with
  | nil =>
      cases h
      exact hpm
  | cons key keys ih =>
      rw [List.foldl_cons] at h
      have hnext : P (resolvePositionModification msc (pm, modifications) key).1 := by
        unfold resolvePositionModification
        split
        · exact hpm
        · split
          · exact hstep _ _ _ _ hpm
          · exact hpm
      exact ih hnext h

theorem mem_resolveActiveOrders {msc : ℤ} {orders : List PendingOrder} {order : PendingOrder} :
    order ∈ resolveActiveOrders msc orders ↔
      ∃ before ∈ orders, order = resolveModification msc before ∧ cancelDue msc order = false := by
  rw [resolveActiveOrders, mem_foldl_erase_filter, List.mem_map]
  constructor
  · rintro ⟨⟨before, hmem, rfl⟩, hkeep⟩
    exact ⟨before, hmem, rfl, hkeep⟩
  · rintro ⟨before, hmem, rfl, hkeep⟩
    exact ⟨⟨before, hmem, rfl⟩, hkeep⟩

/-- The loop over an active list splits it into the cancelled and the remaining orders. -/
theorem resolveActiveOrders_perm (msc : ℤ) (orders : List PendingOrder) :
    (cancelledOrders msc orders ++ resolveActiveOrders msc orders).Perm
      (orders.map (resolveModification msc)) :=
  ((foldl_erase_filter_perm _ _).append_left _).trans (List.filter_append_perm _ _)

@[simp] theorem resolveModification_id (msc : ℤ) (order : PendingOrder) :
    (resolveModification msc order).pendingOrderId = order.pendingOrderId := by
  unfold resolveModification
  cases dueModification msc order <;> rfl

@[simp] theorem resolveModification_orderType (msc : ℤ) (order : PendingOrder) :
    (resolveModification msc order).orderType = order.orderType := by
  unfold resolveModification
  cases dueModification msc order <;> rfl

theorem heartbeat_eq_ok {s s' : TradeSimulator} (h : heartbeat cfg s = .ok s') :
    (s' = s ∧ (s.market.currentTick = none ∨ s.market.clockTime = none)) ∨
      ∃ tick now resolved, s.market.currentTick = some tick ∧ s.market.clockTime = some now ∧
        resolvePendingOperations s = .ok resolved ∧
        drainLatencyQueue cfg resolved (ghostMsc now) = .ok s' := by
  unfold heartbeat at h
  cases htick : s.market.currentTick with
  | none =>
      simp only [htick] at h
      cases h
      exact .inl ⟨rfl, .inl rfl⟩
  | some tick =>
      cases hclock : s.market.clockTime with
      | none =>
          simp only [htick, hclock] at h
          cases h
          exact .inl ⟨rfl, .inr rfl⟩
      | some now =>
          simp only [htick, hclock] at h
          obtain ⟨resolved, hresolve, hdrain⟩ := bind_eq_ok.mp h
          exact .inr ⟨tick, now, resolved, rfl, rfl, hresolve, hdrain⟩

section Ledgers

/-! What fills preserve, the phases of a tick preserve. -/

variable {P : ExecutionLedger → Prop} {s s' : TradeSimulator}
  (hopen : ∀ {market ledger ledger' order fillPrice entryType fillType}, P ledger →
    fillOpenOrder cfg.executor market ledger order fillPrice entryType fillType = .ok ledger' →
    P ledger')

include hopen

theorem Placed.ledger_induct {order : PendingOrder} (hP : P s.ledger)
    (hplaced : Placed cfg s order s') : P s'.ledger := by
  cases hplaced with
  | filled htype hprice hfill => exact hopen hP hfill
  | restsAsLimit htype hnot => exact hP
  | restsAsStop htype hnot => exact hP

theorem monitorLimitOrders_induct (hP : P s.ledger)
    (hmonitor : monitorLimitOrders cfg s = .ok s') : P s'.ledger := by
  obtain ⟨⟨ledger, remaining⟩, hloop, hpure⟩ := bind_eq_ok.mp hmonitor
  cases hpure
  refine foldlM_induct (P := fun _ (state : ExecutionLedger × List PendingOrder) => P state.1)
    ?_ hP hloop
  rintro order rest ⟨ledger₁, kept⟩ state hledger hstep
  obtain ⟨-, rfl⟩ | ⟨entryType, fillType, ledger₂, hfill, rfl⟩ := monitorLimitOrder_eq_ok hstep
  · exact hledger
  · exact hopen hledger hfill

theorem monitorStopOrders_induct (hP : P s.ledger)
    (htypes : ∀ p ∈ s.activeStopOrders, p.orderType = some .stop ∨ p.orderType = some .stopLimit)
    (hmonitor : monitorStopOrders cfg s = .ok s') : P s'.ledger := by
  obtain ⟨⟨s₁, remaining⟩, hloop, hpure⟩ := bind_eq_ok.mp hmonitor
  cases hpure
  have hend := foldlM_induct (P := fun rest (state : TradeSimulator × List PendingOrder) =>
    (∀ p ∈ rest, p.orderType = some .stop ∨ p.orderType = some .stopLimit) ∧
      P state.1.ledger) ?_ ⟨htypes, hP⟩ hloop
  · exact hend.2
  · rintro order rest ⟨s₁, kept⟩ state ⟨htypes, hledger⟩ hstep
    refine ⟨fun p hp => htypes p (List.mem_cons_of_mem order hp), ?_⟩
    obtain ⟨-, rfl⟩ | ⟨placedOrder, s₂, -, hplaced, rfl⟩ :=
      monitorStopOrder_eq_ok (htypes order List.mem_cons_self) hstep
    · exact hledger
    · have hkept : P { s₁ with activeStopOrders := kept }.ledger := hledger
      have hnext : P { s₂ with activeStopOrders := kept }.ledger := hplaced.ledger_induct hopen hkept
      exact hnext

omit hopen

theorem checkSlTpTriggers_induct {tick : TickData}
    (hclose : ∀ {market ledger ledger' order fillPrice closeReason}, P ledger →
      fillCloseOrder cfg.executor market ledger order fillPrice closeReason = .ok ledger' →
      P ledger')
    (hcount : ∀ {ledger}, P ledger → P { ledger with slTpTriggered := ledger.slTpTriggered + 1 })
    (hP : P s.ledger) (hcheck : checkSlTpTriggers cfg s tick = .ok s') : P s'.ledger := by
  obtain ⟨ledger, hloop, hpure⟩ := bind_eq_ok.mp hcheck
  cases hpure
  refine foldlM_induct (P := fun _ ledger => P ledger) ?_ hP hloop
  intro position rest ledger₁ ledger₂ hledger hstep
  obtain ⟨rfl, -⟩ | ⟨level, closeReason, closed, -, -, hfill, rfl⟩ := checkSlTpTrigger_eq_ok hstep
  · exact hledger
  · exact hcount (hclose hledger hfill)

end Ledgers

end Finiex.SimulatorSpecs
