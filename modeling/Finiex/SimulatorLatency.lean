import Finiex.SimClock
import Finiex.SimulatorAnnouncements
import Finiex.SimulatorCloses
import Finiex.SimulatorLedger

namespace Finiex.SimulatorLatency

open Finiex.Types
open Finiex.Lib
open Finiex.Lib.Run
open Finiex.Positions
open Finiex.Orders
open Finiex.OrderBooks
open Finiex.Portfolio
open Finiex.PortfolioLedger
open Finiex.Executor
open Finiex.ExecutorFills
open Finiex.AuditTrail
open Finiex.Simulator
open Finiex.SimulatorSpecs
open Finiex.SimulatorSteps
open Finiex.SimulatorConservation
open Finiex.SimulatorCloses
open Finiex.SimulatorAnnouncements
open Finiex.SimulatorLedger
open Finiex.SimClock

/-- The moment up to which a step works off the latency queue. -/
def workedUpTo (s : TradeSimulator) : SimulatorOp → Option ℤ
  | .tick tick => some (getTickMsc tick)
  | .heartbeat =>
      match s.market.currentTick, s.market.clockTime with
      | some _, some now => some (ghostMsc now)
      | _, _ => none
  | _ => none

/-- The step does not reach the moment. -/
def IsBefore (moment : ℤ) (s : TradeSimulator) (op : SimulatorOp) : Prop :=
  ∀ msc ∈ workedUpTo s op, msc < moment

instance (moment : ℤ) (s : TradeSimulator) (op : SimulatorOp) : Decidable (IsBefore moment s op) :=
  inferInstanceAs (Decidable (∀ msc ∈ workedUpTo s op, msc < moment))

variable {cfg : SimulatorConfig} {s s' : TradeSimulator}

section Queue

theorem placed_latencyQueue {order : PendingOrder} (h : Placed cfg s order s') :
    s'.latencyQueue = s.latencyQueue := by
  cases h <;> rfl

theorem resolved_latencyQueue {order : PendingOrder} (h : Resolved cfg s order s') :
    s'.latencyQueue = s.latencyQueue := by
  cases h with
  | stressRejected hopen => rfl
  | activated hopen hbecomes hplaced =>
      have hqueue := placed_latencyQueue hplaced
      exact hqueue
  | closed hclose hfill => rfl

theorem drain_latencyQueue {msc : ℤ} (h : drainLatencyQueue cfg s msc = .ok s') :
    s'.latencyQueue = s.latencyQueue.filter fun order => !latencyElapsed msc order := by
  refine foldlM_induct (P := fun _ (now : TradeSimulator) => now.latencyQueue =
    s.latencyQueue.filter fun order => !latencyElapsed msc order) ?_ rfl h
  intro order rest now next hnow hstep
  rw [← hnow]
  exact resolved_latencyQueue (fillResolvedOrder_resolved hstep)

/-- The phases of a step that works off the queue: it is drained once, before and after that
nothing is queued and the log only grows. -/
theorem drained_of_step {op : SimulatorOp} {msc : ℤ} (hinv : Conserved [] s)
    (hmoment : workedUpTo s op = some msc) (hstep : step cfg s op = .ok s') :
    ∃ resolved drained, Conserved [] resolved ∧ resolved.market = s'.market ∧
      resolved.latencyQueue = s.latencyQueue ∧ drainLatencyQueue cfg resolved msc = .ok drained ∧
      Quiet drained s' := by
  cases op with
  | tick tick =>
      cases hmoment
      obtain ⟨processed, hprocess, hcheck⟩ := bind_eq_ok.mp hstep
      obtain ⟨resolved, drained, monitored, hresolve, hdrain, hlimits, hmonitored, hstops⟩ :=
        processPendingOrders_phases hinv hprocess
      have hmarket : s'.market = processed.market := by
        obtain ⟨ledger, -, hpure⟩ := bind_eq_ok.mp hcheck
        cases hpure
        rfl
      refine ⟨resolved, drained, (hinv.receiveTick tick).resolvePendingOperations hresolve, ?_,
        (quiet_resolvePendingOperations hresolve).queue, hdrain, ?_⟩
      · rw [hmarket, processPendingOrders_market hprocess,
          resolvePendingOperations_market hresolve]
      · exact ((quiet_monitorLimitOrders hlimits).trans
          (quiet_monitorStopOrders hmonitored.stops hstops)).trans (quiet_checkSlTpTriggers hcheck)
  | heartbeat =>
      obtain ⟨-, hnone⟩ | ⟨tick, now, resolved, htick, hclock, hresolve, hdrain⟩ :=
        heartbeat_eq_ok hstep
      · rcases hnone with hnone | hnone
        · simp [workedUpTo, hnone] at hmoment
        · cases htick : s.market.currentTick with
          | none => simp [workedUpTo, htick] at hmoment
          | some tick => simp [workedUpTo, htick, hnone] at hmoment
      · simp only [workedUpTo, htick, hclock, Option.some.injEq] at hmoment
        subst hmoment
        refine ⟨resolved, s', hinv.resolvePendingOperations hresolve, ?_,
          (quiet_resolvePendingOperations hresolve).queue, hdrain, .refl s'⟩
        rw [drainLatencyQueue_market hdrain]
  | _ => cases hmoment

/-- A step that reaches a moment takes from the queue what is due at it. -/
theorem queue_of_step {op : SimulatorOp} {msc : ℤ} (hinv : Conserved [] s)
    (hmoment : workedUpTo s op = some msc) (hstep : step cfg s op = .ok s') :
    s'.latencyQueue = s.latencyQueue.filter fun order => !latencyElapsed msc order := by
  obtain ⟨resolved, drained, -, -, hqueue, hdrain, hquiet⟩ := drained_of_step hinv hmoment hstep
  rw [hquiet.queue, drain_latencyQueue hdrain, hqueue]

theorem quote_of_worked {op : SimulatorOp} {msc : ℤ} (hmoment : workedUpTo s op = some msc)
    (hstep : step cfg s op = .ok s') : ∃ quote, s'.market.currentTick = some quote := by
  cases op with
  | tick tick =>
      refine ⟨tick, ?_⟩
      obtain ⟨processed, hprocess, hcheck⟩ := bind_eq_ok.mp hstep
      obtain ⟨ledger, -, hpure⟩ := bind_eq_ok.mp hcheck
      cases hpure
      exact congrArg MarketState.currentTick (processPendingOrders_market hprocess)
  | heartbeat =>
      cases htick : s.market.currentTick with
      | none => simp [workedUpTo, htick] at hmoment
      | some tick =>
          refine ⟨tick, ?_⟩
          rw [← htick]
          exact congrArg MarketState.currentTick (heartbeat_market hstep)
  | _ => cases hmoment

theorem mem_openIds_of_queued {id : String} {order : PendingOrder} (hinv : Conserved [] s)
    (hget : s.latencyQueue.get? id = some order) (hopen : order.isOpen = true) :
    id ∈ openIds s.latencyQueue.values := by
  rw [← hinv.keyed id order hget]
  exact List.mem_map_of_mem (List.mem_filter.mpr ⟨Dict.mem_values_of_get? hget, hopen⟩)

theorem waiting_of_before {order : PendingOrder} {moment msc : ℤ}
    (hfillAt : order.timing.brokerFillMsc = some moment) (hbefore : msc < moment) :
    latencyElapsed msc order = false := by
  simp [latencyElapsed, hfillAt, hbefore]

theorem stored_latencyQueue {id : String} {order stored : PendingOrder}
    (hget : s.latencyQueue.get? id = some order) (hother : id ≠ stored.pendingOrderId) :
    (storeOrder s stored).latencyQueue.get? id = some order := by
  rw [← hget]
  exact Dict.get?_set_ne s.latencyQueue stored hother

theorem stays_queued {op : SimulatorOp} {id : String} {order : PendingOrder} {moment : ℤ}
    (hinv : Conserved [] s) (hget : s.latencyQueue.get? id = some order)
    (hopen : order.isOpen = true) (hfillAt : order.timing.brokerFillMsc = some moment)
    (hbefore : IsBefore moment s op) (hstep : step cfg s op = .ok s') :
    s'.latencyQueue.get? id = some order := by
  have hqueued := mem_openIds_of_queued hinv hget hopen
  have haccepted : id ∈ acceptedIds s.ledger :=
    hinv.mem_accepted (by simp only [places, List.mem_append, hqueued, true_or])
  cases hmoment : workedUpTo s op with
  | some msc =>
      rw [queue_of_step hinv hmoment hstep, Dict.get?_eq_some_iff]
      refine List.mem_filter.mpr ⟨(Dict.get?_eq_some_iff _).mp hget, ?_⟩
      simp [waiting_of_before hfillAt (hbefore msc hmoment)]
  | none =>
      cases step_stepped hstep with
      | ticked htick => cases hmoment
      | beat hbeat =>
          obtain ⟨rfl, -⟩ | ⟨tick, now, resolved, htick, hclock, -, -⟩ := heartbeat_eq_ok hbeat
          · exact hget
          · simp [workedUpTo, htick, hclock] at hmoment
      | accepted htick hvalid =>
          refine stored_latencyQueue (s := issued s _) hget ?_
          rintro rfl
          exact hinv.issuedId_fresh _ haccepted
      | closeAccepted hposition htick =>
          refine stored_latencyQueue hget ?_
          rintro rfl
          exact hinv.not_queued_of_filled (hinv.positions _ (by simp [hposition])) hqueued
      | _ => exact hget

end Queue

section Execution

def SettledAt (quote : TickData) (direction : OrderDirection) (orderId : String)
    (log : List AuditEvent) : Prop :=
  ∃ result, result.orderId = orderId ∧
    (AuditEvent.result .fill result ∈ log ∧ (result.status = .rejected ∨
        result.status = .executed ∧
          result.executedPrice = some (entrySide direction quote.bid quote.ask)) ∨
      AuditEvent.result .stressTest result ∈ log)

theorem SettledAt.mono {quote : TickData} {direction : OrderDirection} {orderId : String}
    {log log' : List AuditEvent} (h : SettledAt quote direction orderId log)
    (hgrows : log <+: log') : SettledAt quote direction orderId log' := by
  obtain ⟨result, hid, ⟨hmem, hend⟩ | hmem⟩ := h
  · exact ⟨result, hid, .inl ⟨hgrows.subset hmem, hend⟩⟩
  · exact ⟨result, hid, .inr (hgrows.subset hmem)⟩

theorem settledAt_of_fill {market : MarketState} {ledger ledger' : ExecutionLedger}
    {order : PendingOrder} {direction : OrderDirection} {quote : TickData} {entryType : EntryType}
    {fillType : FillType} (htick : market.currentTick = some quote)
    (hdirection : order.direction = some direction)
    (h : fillOpenOrder cfg.executor market ledger order none entryType fillType = .ok ledger') :
    SettledAt quote direction order.pendingOrderId ledger'.log := by
  unfold fillOpenOrder at h
  obtain ⟨current, hcurrent, h⟩ := bind_eq_ok.mp h
  obtain ⟨⟨bid, ask⟩, hprice, h⟩ := bind_eq_ok.mp h
  obtain ⟨rfl, rfl⟩ : quote.bid = bid ∧ quote.ask = ask := by
    simp only [getCurrentPrice, htick] at hprice
    split at hprice
    · cases hprice
      exact ⟨rfl, rfl⟩
    · cases hprice
  obtain ⟨spec, -, h⟩ := bind_eq_ok.mp h
  obtain ⟨tickValue, -, h⟩ := bind_eq_ok.mp h
  obtain ⟨⟨pm, rejection⟩, -, h⟩ := bind_eq_ok.mp h
  have hrecorded : ∀ (log : List AuditEvent) (first second : AuditEvent),
      first ∈ log ++ [first] ++ [second] := by simp
  dsimp only at h
  split at h
  · cases h
    exact ⟨_, rfl, .inl ⟨hrecorded _ _ _, .inl rfl⟩⟩
  · obtain ⟨⟨seq, trades⟩, -, h⟩ := bind_eq_ok.mp h
    obtain ⟨opened, -, h⟩ := bind_eq_ok.mp h
    obtain ⟨now, -, h⟩ := bind_eq_ok.mp h
    cases h
    refine ⟨_, rfl, .inl ⟨hrecorded _ _ _, .inr ⟨rfl, ?_⟩⟩⟩
    rw [openOrderResult, hdirection]
    rfl

theorem settledAt_of_resolved {order : PendingOrder} {direction : OrderDirection}
    {quote : TickData} (htick : s.market.currentTick = some quote)
    (hopen : order.orderAction = .openOrder) (hmarket : order.orderType = some .market)
    (hdirection : order.direction = some direction) (h : fillResolvedOrder cfg s order = .ok s') :
    SettledAt quote direction order.pendingOrderId s'.ledger.log := by
  unfold fillResolvedOrder at h
  simp only [hopen, stressTestShouldReject_eq] at h
  cases hverdict : filterRejects cfg s.stressCalls with
  | true =>
      simp only [hverdict, if_true] at h
      cases h
      refine ⟨createRejectionResult order.pendingOrderId .brokerError
        (.stressTest (s.stressRejections + 1)), rfl, .inr ?_⟩
      simp [recordOutcome, rejectByStressTest, ExecutionLedger.record,
        ExecutionLedger.appendResult]
  | false =>
      simp only [hverdict, Bool.false_eq_true, if_false] at h
      obtain ⟨placed, hactivate, hpure⟩ := bind_eq_ok.mp h
      cases hpure
      unfold activateOrder at hactivate
      rw [hmarket] at hactivate
      obtain ⟨ledger, hfill, rfl⟩ := fillOpen_eq_ok hactivate
      exact (settledAt_of_fill htick hdirection hfill).mono (List.prefix_append _ _)

theorem settledAt_of_drain {order : PendingOrder} {direction : OrderDirection} {quote : TickData}
    {msc : ℤ} (htick : s.market.currentTick = some quote) (hmem : order ∈ s.latencyQueue.values)
    (hdue : latencyElapsed msc order = true) (hopen : order.orderAction = .openOrder)
    (hmarket : order.orderType = some .market) (hdirection : order.direction = some direction)
    (h : drainLatencyQueue cfg s msc = .ok s') :
    SettledAt quote direction order.pendingOrderId s'.ledger.log := by
  have hend := foldlM_induct (P := fun rest (now : TradeSimulator) =>
    now.market = s.market ∧
      (order ∈ rest ∨ SettledAt quote direction order.pendingOrderId now.ledger.log)) ?_ ?_ h
  · obtain ⟨-, hnone | hsettled⟩ := hend
    · exact absurd hnone List.not_mem_nil
    · exact hsettled
  · rintro visited rest now next ⟨hnow, hwaits⟩ hstep
    have hresolved := fillResolvedOrder_resolved hstep
    refine ⟨(resolved_market hresolved).trans hnow, ?_⟩
    rcases hwaits with hwaits | hsettled
    · rcases List.mem_cons.mp hwaits with rfl | hrest
      · exact .inr (settledAt_of_resolved (by rw [hnow, htick]) hopen hmarket hdirection hstep)
      · exact .inl hrest
    · exact .inr (hsettled.mono (path_resolved hresolved).log_grows)
  · exact ⟨rfl, .inl (List.mem_filter.mpr ⟨hmem, hdue⟩)⟩

end Execution

section Runs

theorem openOrder_queued {request : OpenOrderRequest} {result : OrderResult} {tick : TickData}
    (htick : s.market.currentTick = some tick) (hopen : openOrder cfg s request = .ok (s', result))
    (hpending : result.status = .pending) :
    ∃ order, s'.latencyQueue.get? result.orderId = some order ∧ order.isOpen = true ∧
      order.orderType = some request.orderType ∧ order.direction = some request.direction ∧
      order.timing.brokerFillMsc = some (getTickMsc tick + cfg.inboundDelay s.delaysDrawn) := by
  unfold openOrder at hopen
  obtain ⟨rejection, hrejection, h⟩ := bind_eq_ok.mp hopen
  cases rejection with
  | some verdict =>
      cases h
      cases hpending
  | none =>
      obtain ⟨queued, hqueued, h⟩ := bind_eq_ok.mp h
      obtain ⟨current, hcurrent, hpure⟩ := bind_eq_ok.mp hqueued
      cases (requireTick_eq_ok.mp hcurrent).symm.trans htick
      cases hpure
      cases h
      refine ⟨_, Dict.get?_set_self _ _ _, rfl, ?_, ?_, rfl⟩
      · unfold normalizeOrderRequest pendingOpenOrder
        split <;> rfl
      · unfold normalizeOrderRequest pendingOpenOrder
        split <;> rfl

theorem stays_queued_run {id : String} {order : PendingOrder} {moment : ℤ}
    {ops : List SimulatorOp} (hinv : Conserved [] s)
    (hget : s.latencyQueue.get? id = some order) (hopen : order.isOpen = true)
    (hfillAt : order.timing.brokerFillMsc = some moment)
    (hbefore : StepsAll (step cfg) (IsBefore moment) s ops) (hrun : run (step cfg) s ops = .ok s') :
    Conserved [] s' ∧ s'.latencyQueue.get? id = some order := by
  refine run_invariant_of_stepsAll
    (I := fun now => Conserved [] now ∧ now.latencyQueue.get? id = some order) ?_ ⟨hinv, hget⟩
    hbefore hrun
  rintro now op next ⟨hnow, hqueued⟩ hearly hstep
  exact ⟨stepped_conserved hnow (step_stepped hstep),
    stays_queued hnow hqueued hopen hfillAt hearly hstep⟩

theorem not_settled_of_queued {id : String} {order : PendingOrder} (hinv : Conserved [] s)
    (hget : s.latencyQueue.get? id = some order) (hopen : order.isOpen = true) :
    id ∉ filledIds s.ledger ∧ id ∉ rejectedIds s.ledger := by
  have hone := hinv.count_places_le_one id
  have hqueued := List.count_pos_iff.mpr (mem_openIds_of_queued hinv hget hopen)
  simp only [places, List.count_append] at hone
  refine ⟨fun hfilled => ?_, fun hrejected => ?_⟩
  · have hpos := List.count_pos_iff.mpr hfilled
    omega
  · have hpos := List.count_pos_iff.mpr hrejected
    omega

/-- An accepted order is neither filled nor rejected before the moment at which the broker has
it, and it leaves the latency queue at the first tick or heartbeat that reaches this moment; a
market order is settled there, at the quote in force. -/
theorem executes_when_due (cfg : SimulatorConfig) {before between : List SimulatorOp}
    {request : OpenOrderRequest} {result : OrderResult} {tick : TickData} {op : SimulatorOp}
    {msc : ℤ} {s s₁ s₂ s₃ : TradeSimulator}
    (hrun : run (step cfg) (Simulator.new cfg) before = .ok s)
    (htick : s.market.currentTick = some tick)
    (hopen : openOrder cfg s request = .ok (s₁, result)) (hpending : result.status = .pending)
    (hearly : StepsAll (step cfg)
      (IsBefore (getTickMsc tick + cfg.inboundDelay s.delaysDrawn)) s₁ between)
    (hbetween : run (step cfg) s₁ between = .ok s₂)
    (hmoment : workedUpTo s₂ op = some msc)
    (hdue : getTickMsc tick + cfg.inboundDelay s.delaysDrawn ≤ msc)
    (hstep : step cfg s₂ op = .ok s₃) :
    (result.orderId ∉ filledIds s₂.ledger ∧ result.orderId ∉ rejectedIds s₂.ledger) ∧
      s₃.latencyQueue.get? result.orderId = none ∧
      (request.orderType = .market → ∃ quote, s₃.market.currentTick = some quote ∧
        SettledAt quote request.direction result.orderId s₃.ledger.log) := by
  have hinv : Conserved [] s :=
    run_invariant (fun _ _ _ hnow hop => stepped_conserved hnow (step_stepped hop)) conserved_new
      hrun
  have haccepted : step cfg s (.openOrder request) = .ok s₁ := map_eq_ok.mpr ⟨_, hopen, rfl⟩
  obtain ⟨order, hqueued, hisOpen, htype, hdirection, hfillAt⟩ :=
    openOrder_queued htick hopen hpending
  obtain ⟨hinv₂, hwaits⟩ := stays_queued_run (stepped_conserved hinv (step_stepped haccepted))
    hqueued hisOpen hfillAt hearly hbetween
  have hid : order.pendingOrderId = result.orderId := hinv₂.keyed _ order hwaits
  have helapsed : latencyElapsed msc order = true := by simp [latencyElapsed, hfillAt, hdue]
  obtain ⟨resolved, drained, hresolved, hmarket, hqueue, hdrain, hquiet⟩ :=
    drained_of_step hinv₂ hmoment hstep
  refine ⟨not_settled_of_queued hinv₂ hwaits hisOpen, ?_, fun htypeMarket => ?_⟩
  · rw [queue_of_step hinv₂ hmoment hstep]
    cases hstays : (s₂.latencyQueue.filter fun order => !latencyElapsed msc order).get?
        result.orderId with
    | none => rfl
    | some kept =>
        have hkept := List.mem_filter.mp ((Dict.get?_eq_some_iff _).mp hstays)
        cases hwaits.symm.trans ((Dict.get?_eq_some_iff _).mpr hkept.1)
        simp [helapsed] at hkept
  · obtain ⟨quote, hquote⟩ := quote_of_worked hmoment hstep
    refine ⟨quote, hquote, ?_⟩
    have hmem : order ∈ resolved.latencyQueue.values := by
      rw [hqueue]
      exact Dict.mem_values_of_get? hwaits
    have hsettled := settledAt_of_drain (by rw [hmarket, hquote]) hmem helapsed
      (by simpa [PendingOrder.isOpen] using hisOpen) (by rw [htype, htypeMarket]) hdirection hdrain
    obtain ⟨events, hlog, -⟩ := hquiet.events
    rw [hid] at hsettled
    exact hsettled.mono ⟨events, hlog.symm⟩

def marketLong : OpenOrderRequest where
  symbol := "EURUSD"
  orderType := .market
  direction := .long
  lots := 1

theorem marketLong_run :
    ((run (step forexSimulator) (Simulator.new forexSimulator)
          [.tick (eurusdTick (11000 / 10000) (11002 / 10000) 1000)]) >>= fun s =>
        openOrder forexSimulator s marketLong >>= fun opened =>
          run (step forexSimulator) opened.1
              [.tick (eurusdTick (11001 / 10000) (11003 / 10000) 1004)] >>= fun waiting =>
            (step forexSimulator waiting
              (.tick (eurusdTick (11004 / 10000) (11006 / 10000) 1005))).map fun settled =>
        ((s.market.currentTick, s.delaysDrawn), (opened.2.status, opened.2.orderId),
          decide (StepsAll (step forexSimulator) (IsBefore 1005) opened.1
            [.tick (eurusdTick (11001 / 10000) (11003 / 10000) 1004)]),
          filledIds settled.ledger)) =
      .ok ((some (eurusdTick (11000 / 10000) (11002 / 10000) 1000), 0), (.pending, "pos_eurusd_1"),
        true, ["pos_eurusd_1"]) := by
  decide +kernel

/-- With a latency of five milliseconds an order waits over a tick after four, and is filled at
the next one. -/
theorem executes_when_due_marketLong :
    ∃ (s s₁ s₂ s₃ : TradeSimulator) (result : OrderResult) (quote : TickData),
      run (step forexSimulator) (Simulator.new forexSimulator)
          [.tick (eurusdTick (11000 / 10000) (11002 / 10000) 1000)] = .ok s ∧
      openOrder forexSimulator s marketLong = .ok (s₁, result) ∧
      run (step forexSimulator) s₁
          [.tick (eurusdTick (11001 / 10000) (11003 / 10000) 1004)] = .ok s₂ ∧
      step forexSimulator s₂ (.tick (eurusdTick (11004 / 10000) (11006 / 10000) 1005)) = .ok s₃ ∧
      (result.orderId ∉ filledIds s₂.ledger ∧ result.orderId ∉ rejectedIds s₂.ledger) ∧
      s₃.latencyQueue.get? result.orderId = none ∧
      s₃.market.currentTick = some quote ∧
      SettledAt quote .long result.orderId s₃.ledger.log ∧
      filledIds s₃.ledger = ["pos_eurusd_1"] := by
  obtain ⟨s, hrun, hrest⟩ := bind_eq_ok.mp marketLong_run
  obtain ⟨⟨s₁, result⟩, hopen, hrest⟩ := bind_eq_ok.mp hrest
  obtain ⟨s₂, hbetween, hrest⟩ := bind_eq_ok.mp hrest
  obtain ⟨s₃, hstep, hfacts⟩ := exists_of_map_eq_ok hrest
  simp only [Prod.mk.injEq] at hfacts
  obtain ⟨⟨htick, hdrawn⟩, ⟨hpending, -⟩, hearly, hfilled⟩ := hfacts
  have hdue : getTickMsc (eurusdTick (11000 / 10000) (11002 / 10000) 1000) +
      forexSimulator.inboundDelay s.delaysDrawn = 1005 := by
    rw [hdrawn]
    rfl
  obtain ⟨hwaits, hleft, hsettled⟩ := executes_when_due forexSimulator hrun htick hopen hpending
    (by rw [hdue]; exact of_decide_eq_true hearly) hbetween rfl (by rw [hdue]; exact le_rfl) hstep
  obtain ⟨quote, hquote, hat⟩ := hsettled rfl
  exact ⟨s, s₁, s₂, s₃, result, quote, hrun, hopen, hbetween, hstep, hwaits, hleft, hquote, hat,
    hfilled⟩

end Runs

end Finiex.SimulatorLatency
