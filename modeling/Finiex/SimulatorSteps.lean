import Finiex.OrderBooks
import Finiex.SimulatorSpecs

namespace Finiex.SimulatorSteps

open Finiex.Types
open Finiex.Lib
open Finiex.Lib.Run
open Finiex.Positions
open Finiex.Broker
open Finiex.Orders
open Finiex.OrderBooks
open Finiex.Portfolio
open Finiex.Portfolio.PortfolioManager
open Finiex.PortfolioLedger
open Finiex.Executor
open Finiex.ExecutorFills
open Finiex.Simulator
open Finiex.SimulatorSpecs

/-- An order apart from the operation in flight on it. -/
def terms (order : PendingOrder) : PendingOrder := { order with executionState := {} }

theorem updateOrder_terms (orderId : String) (state : PendingOrderExecutionState)
    (orders : List PendingOrder) :
    (updateOrder orderId state orders).map terms = orders.map terms := by
  induction orders with
  | nil => rfl
  | cons p ps ih =>
      rw [updateOrder]
      split
      · rfl
      · rw [List.map_cons, List.map_cons, ih]

theorem mem_updateOrder {orderId : String} {state : PendingOrderExecutionState}
    {orders : List PendingOrder} {order : PendingOrder}
    (h : order ∈ updateOrder orderId state orders) :
    order ∈ orders ∨ ∃ before, findOrder orders orderId = some before ∧
      order = { before with executionState := state } := by
  induction orders with
  | nil => exact absurd h (by simp [updateOrder])
  | cons p ps ih =>
      rw [updateOrder] at h
      split at h
      · next hid =>
          rcases List.mem_cons.mp h with rfl | hmem
          · exact .inr ⟨p, by simp [findOrder, hid], rfl⟩
          · exact .inl (List.mem_cons_of_mem p hmem)
      · next hid =>
          rcases List.mem_cons.mp h with rfl | hmem
          · exact .inl (List.mem_cons_self)
          · rcases ih hmem with hmem | ⟨before, hfind, heq⟩
            · exact .inl (List.mem_cons_of_mem p hmem)
            · refine .inr ⟨before, ?_, heq⟩
              simpa [findOrder, hid] using hfind

/-- What a call puts in flight on an idle resting order, to apply one millisecond later. -/
inductive Scheduled (market : MarketState) (pending : PendingOrder) (fromStops : Bool) :
    PendingOrderExecutionState → Prop
  | cancel {msc : ℤ} (hidle : pending.inFlightOperation = .none)
      (hmsc : getCurrentMsc market = .ok msc) :
      Scheduled market pending fromStops { pending.executionState with
        inFlightOperation := .pendingCancel
        cancelApplyAtMsc := some (msc + modifyCancelDelayMsc) }
  | modify {msc : ℤ} {mod : ModificationRequest} (hidle : pending.inFlightOperation = .none)
      (hmsc : getCurrentMsc market = .ok msc)
      (happly : mod.applyAtMsc = msc + modifyCancelDelayMsc)
      (hprice : mod.newPrice ≠ none)
      (hlimit : mod.newLimitPrice ≠ none ↔
        fromStops = true ∧ pending.orderType = some .stopLimit) :
      Scheduled market pending fromStops { pending.executionState with
        inFlightOperation := .pendingModify
        pendingModification := some mod }

section Calls

variable {cfg : SimulatorConfig}

theorem scheduleCancel_eq_ok {market : MarketState} {orders orders' : List PendingOrder}
    {orderId : String} {scheduled : Bool}
    (h : scheduleCancel market orders orderId = .ok (orders', scheduled)) :
    (scheduled = false ∧ orders' = orders) ∨
      (scheduled = true ∧ ∃ pending msc, findOrder orders orderId = some pending ∧
        pending.inFlightOperation = .none ∧ getCurrentMsc market = .ok msc ∧
        orders' = updateOrder orderId { pending.executionState with
          inFlightOperation := .pendingCancel
          cancelApplyAtMsc := some (msc + modifyCancelDelayMsc) } orders) := by
  unfold scheduleCancel at h
  split at h
  · cases h
    exact .inl ⟨rfl, rfl⟩
  · next pending hfind =>
      split at h
      · cases h
        exact .inl ⟨rfl, rfl⟩
      · next hidle =>
          obtain ⟨msc, hmsc, h⟩ := bind_eq_ok.mp h
          cases h
          exact .inr ⟨rfl, pending, msc, hfind, not_not.mp hidle, hmsc, rfl⟩

theorem requirePrice_eq_ok {price : Option ℚ} {p : ℚ} :
    requirePrice price = .ok p ↔ price = some p := by
  cases price <;> simp [requirePrice]

theorem modifyLimitOrder_eq_ok {s s' : TradeSimulator} {orderId : String} {newPrice : Setting ℚ}
    {newStopLoss newTakeProfit : Setting (Option ℚ)} {result : ModificationResult}
    (h : modifyLimitOrder cfg s orderId newPrice newStopLoss newTakeProfit = .ok (s', result)) :
    s' = s ∨ result.success = true ∧
      ∃ pending state, findOrder s.activeLimitOrders orderId = some pending ∧
        Scheduled s.market pending false state ∧
        s' = { s with activeLimitOrders := updateOrder orderId state s.activeLimitOrders } := by
  unfold modifyLimitOrder at h
  split at h
  · cases h
    exact .inl rfl
  · next pending hfind =>
      split at h
      · cases h
        exact .inl rfl
      · next hidle =>
          split at h
          · cases h
            exact .inl rfl
          · obtain ⟨spec, -, h⟩ := bind_eq_ok.mp h
            obtain ⟨reference, hreference, h⟩ := bind_eq_ok.mp h
            split at h
            · cases h
              exact .inl rfl
            · obtain ⟨msc, hmsc, h⟩ := bind_eq_ok.mp h
              cases h
              simp only [scheduleModification, findOrder_id hfind]
              refine .inr ⟨rfl, pending, _, hfind,
                .modify (not_not.mp hidle) hmsc ?_ ?_ ?_, rfl⟩
              · rfl
              · rw [requirePrice_eq_ok.mp hreference]
                simp
              · simp

theorem modifyStopOrder_eq_ok {s s' : TradeSimulator} {orderId : String}
    {newStopPrice newLimitPrice : Setting ℚ} {newStopLoss newTakeProfit : Setting (Option ℚ)}
    {result : ModificationResult}
    (h : modifyStopOrder cfg s orderId newStopPrice newLimitPrice newStopLoss newTakeProfit =
      .ok (s', result)) :
    s' = s ∨ result.success = true ∧
      ∃ pending state, findOrder s.activeStopOrders orderId = some pending ∧
        Scheduled s.market pending true state ∧
        s' = { s with activeStopOrders := updateOrder orderId state s.activeStopOrders } := by
  unfold modifyStopOrder at h
  split at h
  · cases h
    exact .inl rfl
  · split at h
    · cases h
      exact .inl rfl
    · next pending hfind =>
        split at h
        · cases h
          exact .inl rfl
        · next hidle =>
            split at h
            · cases h
              exact .inl rfl
            · dsimp only at h
              split at h
              · cases h
                exact .inl rfl
              · obtain ⟨spec, -, h⟩ := bind_eq_ok.mp h
                obtain ⟨reference, hreference, h⟩ := bind_eq_ok.mp h
                split at h
                · cases h
                  exact .inl rfl
                · obtain ⟨msc, hmsc, h⟩ := bind_eq_ok.mp h
                  obtain ⟨stop, hstop, h⟩ := bind_eq_ok.mp h
                  cases h
                  simp only [scheduleModification, findOrder_id hfind]
                  refine .inr ⟨rfl, pending, _, hfind,
                    .modify (not_not.mp hidle) hmsc ?_ ?_ ?_, rfl⟩
                  · rfl
                  · rw [requirePrice_eq_ok.mp hstop]
                    simp
                  · by_cases htype : pending.orderType = some .stopLimit
                    · simp only [htype, decide_true, if_true] at hreference ⊢
                      rw [requirePrice_eq_ok.mp hreference]
                      simp
                    · simp [htype]

/-- The simulator once it has counted a request and given it an order id. -/
def issued (s : TradeSimulator) (symbol : String) : TradeSimulator :=
  { s with
    orderCounter := s.orderCounter + 1
    ledger := { s.ledger with
      portfolio := (s.ledger.portfolio.getNextPositionId symbol).1
      ordersSent := s.ledger.ordersSent + 1 } }

def issuedId (s : TradeSimulator) (symbol : String) : String :=
  positionIdOf symbol (s.ledger.portfolio.positionCounter + 1)

variable (cfg) in
def refuse (s : TradeSimulator) (request : OpenOrderRequest) (reason : RejectionReason)
    (message : RejectionMessage) : TradeSimulator :=
  let s₁ := issued s request.symbol
  let counted := { s₁.ledger with ordersRejected := s₁.ledger.ordersRejected + 1 }
  let rejection := createRejectionResult (issuedId s request.symbol) reason message
  { s₁ with ledger := counted.appendResult cfg.executor .submission rejection }

variable (cfg) in
def accept (s : TradeSimulator) (request : OpenOrderRequest) (tick : TickData) :
    TradeSimulator :=
  let orderId := issuedId s request.symbol
  let s₁ := storeOrder (issued s request.symbol)
    (pendingOpenOrder orderId request tick (cfg.inboundDelay s.delaysDrawn))
  let result := pendingResult s₁ orderId request
  { s₁ with ledger := s₁.ledger.appendResult cfg.executor .submission result }

theorem openOrder_eq_ok {s s' : TradeSimulator} {request : OpenOrderRequest}
    {result : OrderResult} (h : openOrder cfg s request = .ok (s', result)) :
    ∃ normalized, normalized = normalizeOrderRequest cfg.executor.broker request ∧
      ((∃ reason message, s' = refuse cfg s normalized reason message) ∨
        ∃ tick, s.market.currentTick = some tick ∧
          submissionRejection cfg normalized = .ok none ∧ s' = accept cfg s normalized tick) := by
  refine ⟨_, rfl, ?_⟩
  unfold openOrder at h
  obtain ⟨rejection, hrejection, h⟩ := bind_eq_ok.mp h
  cases rejection with
  | some verdict =>
      cases h
      exact .inl ⟨_, _, rfl⟩
  | none =>
      obtain ⟨queued, hqueued, h⟩ := bind_eq_ok.mp h
      obtain ⟨tick, htick, hpure⟩ := bind_eq_ok.mp hqueued
      cases hpure
      cases h
      exact .inr ⟨tick, requireTick_eq_ok.mp htick, hrejection, rfl⟩

theorem closePosition_eq_ok {s s' : TradeSimulator} {positionId : String} {lots : Option ℚ}
    {result : OrderResult} (h : closePosition cfg s positionId lots = .ok (s', result)) :
    (s.ledger.portfolio.getPosition positionId = none ∧ s' = s ∧ result.status = .rejected) ∨
      ∃ position tick, s.ledger.portfolio.getPosition positionId = some position ∧
        s.market.currentTick = some tick ∧ result.status = .pending ∧
        s' = storeOrder s
          (pendingCloseOrder positionId tick (cfg.inboundDelay s.delaysDrawn) lots) := by
  unfold closePosition at h
  split at h
  · next hposition =>
      cases h
      exact .inl ⟨hposition, rfl, rfl⟩
  · next position hposition =>
      obtain ⟨queued, hqueued, h⟩ := bind_eq_ok.mp h
      obtain ⟨tick, htick, hpure⟩ := bind_eq_ok.mp hqueued
      obtain ⟨now, -, h⟩ := bind_eq_ok.mp h
      cases hpure
      cases h
      exact .inr ⟨position, tick, hposition, requireTick_eq_ok.mp htick, rfl, rfl⟩

theorem portfolio_modifyPosition_refused {pm : PortfolioManager} {positionId : String}
    {newStopLoss newTakeProfit : Setting (Option ℚ)}
    (h : (pm.modifyPosition positionId newStopLoss newTakeProfit).2.success = false) :
    (pm.modifyPosition positionId newStopLoss newTakeProfit).1 = pm := by
  unfold PortfolioManager.modifyPosition at h ⊢
  cases hposition : pm.getPosition positionId with
  | none => rfl
  | some position =>
      simp only [hposition] at h ⊢
      cases hprice : pm.currentPrices.get? position.symbol with
      | none => rfl
      | some quote =>
          simp only [hprice] at h ⊢
          split at h
          · rfl
          · cases h

theorem modifyPosition_eq_ok {s s' : TradeSimulator} {positionId : String}
    {newStopLoss newTakeProfit : Setting (Option ℚ)} {result : ModificationResult}
    (h : Simulator.modifyPosition cfg s positionId newStopLoss newTakeProfit = .ok (s', result)) :
    (result.success = false → s' = s) ∧
      ∃ modifications, s' = { s with pendingPositionModifications := modifications } ∨
        s' = { s with ledger := { s.ledger with portfolio :=
          (s.ledger.portfolio.modifyPosition positionId newStopLoss newTakeProfit).1 } } := by
  unfold Simulator.modifyPosition at h
  split at h
  · cases h
    refine ⟨fun hrefused => ?_, ∅, .inr rfl⟩
    have hsame := portfolio_modifyPosition_refused hrefused
    exact congrArg (fun pm => { s with ledger := { s.ledger with portfolio := pm } }) hsame
  · split at h
    · cases h
      exact ⟨fun _ => rfl, _, .inl rfl⟩
    · split at h
      · cases h
        exact ⟨fun _ => rfl, _, .inl rfl⟩
      · obtain ⟨spec, -, h⟩ := bind_eq_ok.mp h
        obtain ⟨msc, -, h⟩ := bind_eq_ok.mp h
        cases h
        exact ⟨nofun, _, .inl rfl⟩

end Calls

inductive Stepped (cfg : SimulatorConfig) (s : TradeSimulator) :
    SimulatorOp → TradeSimulator → Prop
  | ticked {tick : TickData} {s' : TradeSimulator} (h : onTick cfg s tick = .ok s') :
      Stepped cfg s (.tick tick) s'
  | beat {s' : TradeSimulator} (h : heartbeat cfg s = .ok s') : Stepped cfg s .heartbeat s'
  | clockSet {now : Instant} : Stepped cfg s (.setCurrentTime now)
      { s with market := { s.market with clockTime := some now } }
  | refused {request normalized : OpenOrderRequest} {reason : RejectionReason}
      {message : RejectionMessage} :
      Stepped cfg s (.openOrder request) (refuse cfg s normalized reason message)
  | accepted {request normalized : OpenOrderRequest} {tick : TickData}
      (htick : s.market.currentTick = some tick)
      (hvalid : submissionRejection cfg normalized = .ok none) :
      Stepped cfg s (.openOrder request) (accept cfg s normalized tick)
  | closeAccepted {positionId : String} {lots : Option ℚ} {position : Position} {tick : TickData}
      (hposition : s.ledger.portfolio.getPosition positionId = some position)
      (htick : s.market.currentTick = some tick) :
      Stepped cfg s (.closePosition positionId lots) (storeOrder s
        (pendingCloseOrder positionId tick (cfg.inboundDelay s.delaysDrawn) lots))
  | ignored {op : SimulatorOp}
      (hclose : ∀ positionId lots, op = .closePosition positionId lots →
        s.ledger.portfolio.getPosition positionId = none) : Stepped cfg s op s
  | limitScheduled {op : SimulatorOp} {orderId : String} {pending : PendingOrder}
      {state : PendingOrderExecutionState}
      (hfind : findOrder s.activeLimitOrders orderId = some pending)
      (hstate : Scheduled s.market pending false state)
      (hop : ∀ positionId lots, op ≠ .closePosition positionId lots) : Stepped cfg s op
        { s with activeLimitOrders := updateOrder orderId state s.activeLimitOrders }
  | stopScheduled {op : SimulatorOp} {orderId : String} {pending : PendingOrder}
      {state : PendingOrderExecutionState}
      (hfind : findOrder s.activeStopOrders orderId = some pending)
      (hstate : Scheduled s.market pending true state)
      (hop : ∀ positionId lots, op ≠ .closePosition positionId lots) : Stepped cfg s op
        { s with activeStopOrders := updateOrder orderId state s.activeStopOrders }
  | positionScheduled {positionId : String} {newStopLoss newTakeProfit : Setting (Option ℚ)}
      {modifications : Dict String ModificationRequest} :
      Stepped cfg s (.modifyPosition positionId newStopLoss newTakeProfit)
        { s with pendingPositionModifications := modifications }
  | positionModified {positionId : String} {newStopLoss newTakeProfit : Setting (Option ℚ)} :
      Stepped cfg s (.modifyPosition positionId newStopLoss newTakeProfit)
        { s with ledger := { s.ledger with portfolio :=
          (s.ledger.portfolio.modifyPosition positionId newStopLoss newTakeProfit).1 } }
  | guardRecorded {result : OrderResult} : Stepped cfg s (.recordGuardRejection result)
      { s with ledger := s.ledger.recordGuardRejection cfg.executor result }
  | queried {direction : OrderDirection} {pm : PortfolioManager}
      (h : s.ledger.portfolio.ensurePositionsUpdated cfg.executor.portfolio s.market.clockTime =
        .ok pm) :
      Stepped cfg s (.getAccountInfo direction) { s with ledger := { s.ledger with portfolio := pm } }

theorem step_stepped {cfg : SimulatorConfig} {s s' : TradeSimulator} {op : SimulatorOp}
    (h : step cfg s op = .ok s') : Stepped cfg s op s' := by
  cases op with
  | tick tick => exact .ticked h
  | heartbeat => exact .beat h
  | setCurrentTime now =>
      cases h
      exact .clockSet
  | openOrder request =>
      obtain ⟨⟨s₁, result⟩, hopen, rfl⟩ := map_eq_ok.mp h
      obtain ⟨normalized, -, ⟨reason, message, rfl⟩ | ⟨tick, htick, hvalid, rfl⟩⟩ :=
        openOrder_eq_ok hopen
      · exact .refused
      · exact .accepted htick hvalid
  | closePosition positionId lots =>
      obtain ⟨⟨s₁, result⟩, hclose, rfl⟩ := map_eq_ok.mp h
      obtain ⟨hposition, rfl, -⟩ | ⟨position, tick, hposition, htick, -, rfl⟩ :=
        closePosition_eq_ok hclose
      · refine .ignored fun _ _ heq => ?_
        cases heq
        exact hposition
      · exact .closeAccepted hposition htick
  | cancelLimitOrder orderId =>
      obtain ⟨⟨s₁, answer⟩, hcancel, rfl⟩ := map_eq_ok.mp h
      obtain ⟨⟨orders, scheduled⟩, hschedule, hpure⟩ := bind_eq_ok.mp hcancel
      cases hpure
      obtain ⟨-, rfl⟩ | ⟨-, pending, msc, hfind, hidle, hmsc, rfl⟩ :=
        scheduleCancel_eq_ok hschedule
      · exact .ignored (by simp)
      · exact .limitScheduled hfind (.cancel hidle hmsc) (by simp)
  | cancelStopOrder orderId =>
      obtain ⟨⟨s₁, answer⟩, hcancel, rfl⟩ := map_eq_ok.mp h
      unfold cancelStopOrder at hcancel
      split at hcancel
      · cases hcancel
        exact .ignored (by simp)
      · obtain ⟨⟨orders, scheduled⟩, hschedule, hpure⟩ := bind_eq_ok.mp hcancel
        cases hpure
        obtain ⟨-, rfl⟩ | ⟨-, pending, msc, hfind, hidle, hmsc, rfl⟩ :=
          scheduleCancel_eq_ok hschedule
        · exact .ignored (by simp)
        · exact .stopScheduled hfind (.cancel hidle hmsc) (by simp)
  | modifyLimitOrder orderId price stopLoss takeProfit =>
      obtain ⟨⟨s₁, result⟩, hmodify, rfl⟩ := map_eq_ok.mp h
      obtain rfl | ⟨-, pending, state, hfind, hstate, rfl⟩ := modifyLimitOrder_eq_ok hmodify
      · exact .ignored (by simp)
      · exact .limitScheduled hfind hstate (by simp)
  | modifyStopOrder orderId stop limit stopLoss takeProfit =>
      obtain ⟨⟨s₁, result⟩, hmodify, rfl⟩ := map_eq_ok.mp h
      obtain rfl | ⟨-, pending, state, hfind, hstate, rfl⟩ := modifyStopOrder_eq_ok hmodify
      · exact .ignored (by simp)
      · exact .stopScheduled hfind hstate (by simp)
  | modifyPosition positionId stopLoss takeProfit =>
      obtain ⟨⟨s₁, result⟩, hmodify, rfl⟩ := map_eq_ok.mp h
      obtain ⟨-, modifications, rfl | rfl⟩ := modifyPosition_eq_ok hmodify
      · exact .positionScheduled
      · exact .positionModified
  | recordGuardRejection result =>
      cases h
      exact .guardRecorded
  | getAccountInfo direction =>
      obtain ⟨⟨pm, info⟩, hinfo, hpure⟩ := bind_eq_ok.mp h
      cases hpure
      exact .queried (getAccountInfo_eq_ok hinfo)

def forexSimulator : SimulatorConfig where
  executor := { portfolio := usdAccount }
  inboundDelay := fun _ => 5

end Finiex.SimulatorSteps
