import Finiex.SimulatorAnnouncements
import Finiex.SimulatorLedger

namespace Finiex.SimulatorCancels

open Finiex.Types
open Finiex.Lib
open Finiex.Lib.Run
open Finiex.Positions
open Finiex.Orders
open Finiex.OrderBooks
open Finiex.Portfolio
open Finiex.Portfolio.PortfolioManager
open Finiex.PortfolioLedger
open Finiex.Executor
open Finiex.ExecutorFills
open Finiex.AuditTrail
open Finiex.Simulator
open Finiex.SimulatorSpecs
open Finiex.SimulatorSteps
open Finiex.SimulatorConservation
open Finiex.SimulatorAnnouncements
open Finiex.SimulatorLedger

section Marks

variable {id : String} {applyAt msc : ℤ} {order order' : PendingOrder}
  {orders : List PendingOrder}

/-- A cancellation is in flight on the order and applies at `applyAt`. -/
structure Doomed (applyAt : ℤ) (order : PendingOrder) : Prop where
  busy : order.inFlightOperation = .pendingCancel
  due : order.executionState.cancelApplyAtMsc = some applyAt

def Marked (id : String) (applyAt : ℤ) (order : PendingOrder) : Prop :=
  order.pendingOrderId = id → Doomed applyAt order

theorem Doomed.cancelDue_eq (h : Doomed applyAt order) (msc : ℤ) :
    cancelDue msc order = decide (applyAt ≤ msc) := by
  simp [cancelDue, h.busy, h.due]

theorem Doomed.resolveModification_eq (h : Doomed applyAt order) (msc : ℤ) :
    resolveModification msc order = order := by
  simp [resolveModification, dueModification, h.busy]

theorem Marked.resolveModification (h : Marked id applyAt order) (msc : ℤ) :
    Marked id applyAt (resolveModification msc order) := by
  intro hid
  rw [resolveModification_id] at hid
  rw [(h hid).resolveModification_eq]
  exact h hid

theorem Marked.becomes (h : Marked id applyAt order) (hbecomes : Becomes order order') :
    Marked id applyAt order' := by
  intro hid
  rw [hbecomes.id_eq] at hid
  cases hbecomes with
  | same => exact h hid
  | converted htype => exact ⟨(h hid).busy, (h hid).due⟩

/-- Resolving a list cancels the marked order exactly when its apply time is reached. -/
theorem mem_cancelledOrders_iff (h : ∀ order ∈ orders, Marked id applyAt order) (msc : ℤ) :
    id ∈ orderIds (cancelledOrders msc orders) ↔ id ∈ orderIds orders ∧ applyAt ≤ msc := by
  simp only [orderIds, cancelledOrders, List.mem_map, List.mem_filter]
  constructor
  · rintro ⟨_, ⟨⟨order, hmem, rfl⟩, hdue⟩, hid⟩
    rw [resolveModification_id] at hid
    have hdoomed := h order hmem hid
    rw [hdoomed.resolveModification_eq, hdoomed.cancelDue_eq, decide_eq_true_eq] at hdue
    exact ⟨⟨order, hmem, hid⟩, hdue⟩
  · rintro ⟨⟨order, hmem, hid⟩, hreached⟩
    have hdoomed := h order hmem hid
    have hkept := hdoomed.resolveModification_eq msc
    refine ⟨order, ⟨⟨order, hmem, hkept⟩, ?_⟩, hid⟩
    rw [hdoomed.cancelDue_eq]
    exact decide_eq_true hreached

end Marks

/-- No tick has reached the apply time yet: wherever the order rests it is marked, it is not
queued again, and it has not been cancelled. -/
structure Flagged (id : String) (applyAt : ℤ) (s : TradeSimulator) : Prop where
  early : ∀ tick, s.market.currentTick = some tick → getTickMsc tick < applyAt
  limits : ∀ order ∈ s.activeLimitOrders, Marked id applyAt order
  stops : ∀ order ∈ s.activeStopOrders, Marked id applyAt order
  queue : ∀ order ∈ s.latencyQueue.values, order.isOpen = true → order.pendingOrderId ≠ id
  uncancelled : id ∉ cancelledIds s.ledger

section Phases

variable {cfg : SimulatorConfig} {id : String} {applyAt : ℤ} {s s' : TradeSimulator}

theorem fillOpenOrder_cancelledIds {market : MarketState} {ledger ledger' : ExecutionLedger}
    {order : PendingOrder} {fillPrice : Option ℚ} {entryType : EntryType} {fillType : FillType}
    (hfill : fillOpenOrder cfg.executor market ledger order fillPrice entryType fillType =
      .ok ledger') : cancelledIds ledger' = cancelledIds ledger := by
  rcases fillOpenOrder_ends hfill with hends | hends
  · exact hends.cancelledIds_eq
  · exact hends.cancelledIds_eq

theorem Flagged.frame (h : Flagged id applyAt s)
    (hcurrent : s'.market.currentTick = s.market.currentTick)
    (hlimits : s'.activeLimitOrders = s.activeLimitOrders)
    (hstops : s'.activeStopOrders = s.activeStopOrders)
    (hqueue : s'.latencyQueue = s.latencyQueue)
    (hcancelled : cancelledIds s'.ledger = cancelledIds s.ledger) : Flagged id applyAt s' := by
  obtain ⟨hearly, hlimit, hstop, hqueued, huncancelled⟩ := h
  constructor <;> simp only [hcurrent, hlimits, hstops, hqueue, hcancelled] <;> assumption

theorem Flagged.placed {order : PendingOrder} (h : Flagged id applyAt s)
    (hmarked : Marked id applyAt order) (hplaced : Placed cfg s order s') :
    Flagged id applyAt s' := by
  cases hplaced with
  | filled htype hprice hfill => exact h.frame rfl rfl rfl rfl (fillOpenOrder_cancelledIds hfill)
  | restsAsLimit htype hnot =>
      refine ⟨h.early, ?_, h.stops, h.queue, h.uncancelled⟩
      exact List.forall_mem_append.mpr ⟨h.limits, List.forall_mem_singleton.mpr hmarked⟩
  | restsAsStop htype hnot =>
      refine ⟨h.early, h.limits, ?_, h.queue, h.uncancelled⟩
      exact List.forall_mem_append.mpr ⟨h.stops, List.forall_mem_singleton.mpr hmarked⟩

theorem Flagged.recordOutcome (h : Flagged id applyAt s) (order : PendingOrder)
    (outcome : PendingOrderOutcome) : Flagged id applyAt (recordOutcome s order outcome) :=
  h.frame rfl rfl rfl rfl (ends_outcome s.ledger order outcome).cancelledIds_eq

theorem Flagged.resolved {order : PendingOrder} (h : Flagged id applyAt s)
    (hother : order.isOpen = true → order.pendingOrderId ≠ id)
    (hresolved : Resolved cfg s order s') : Flagged id applyAt s' := by
  cases hresolved with
  | @stressRejected calls rejections rejectionCount hopen =>
      have hrejected : Flagged id applyAt { s with
          stressCalls := calls
          stressRejections := rejections
          ledger := rejectByStressTest cfg s.ledger order rejectionCount } :=
        h.frame rfl rfl rfl rfl
          (ends_rejectByStressTest cfg s.ledger order rejectionCount).cancelledIds_eq
      exact hrejected.recordOutcome order .rejected
  | @activated calls placedOrder placed hopen hbecomes hplaced =>
      have hasked : Flagged id applyAt { s with stressCalls := calls } :=
        h.frame rfl rfl rfl rfl rfl
      have hmarked : Marked id applyAt order := fun hid =>
        absurd hid (hother (by simp [PendingOrder.isOpen, hopen]))
      exact (hasked.placed (hmarked.becomes hbecomes) hplaced).recordOutcome order .filled
  | @closed ledger hclose hfill =>
      have hclosed : Flagged id applyAt { s with ledger := ledger } :=
        h.frame rfl rfl rfl rfl (fillCloseOrder_ends hfill).cancelledIds_eq
      exact hclosed.recordOutcome order .filled

theorem Flagged.drainLatencyQueue {msc : ℤ} (h : Flagged id applyAt s)
    (hdrain : drainLatencyQueue cfg s msc = .ok s') : Flagged id applyAt s' := by
  have hend := foldlM_induct (P := fun rest s =>
    (∀ order ∈ rest, order.isOpen = true → order.pendingOrderId ≠ id) ∧ Flagged id applyAt s)
    ?_ ?_ hdrain
  · exact hend.2
  · rintro order rest s₁ s₂ ⟨hother, hflagged⟩ hstep
    obtain ⟨hfirst, hrest⟩ := List.forall_mem_cons.mp hother
    exact ⟨hrest, hflagged.resolved hfirst (fillResolvedOrder_resolved hstep)⟩
  · refine ⟨fun order hmem => h.queue order (List.mem_of_mem_filter hmem), h.early, h.limits, h.stops,
      fun order hmem => h.queue order ?_, h.uncancelled⟩
    rw [Dict.values_filter] at hmem
    exact List.mem_of_mem_filter hmem

theorem Flagged.monitorLimitOrders (h : Flagged id applyAt s)
    (hmonitor : monitorLimitOrders cfg s = .ok s') : Flagged id applyAt s' := by
  obtain ⟨⟨ledger, remaining⟩, hloop, hpure⟩ := bind_eq_ok.mp hmonitor
  cases hpure
  have hend := foldlM_induct (P := fun rest (state : ExecutionLedger × List PendingOrder) =>
    (∀ order ∈ rest, Marked id applyAt order) ∧
      Flagged id applyAt { s with ledger := state.1, activeLimitOrders := state.2 }) ?_ ?_ hloop
  · exact hend.2
  · rintro order rest ⟨ledger₁, kept⟩ state ⟨hmarked, hflagged⟩ hstep
    obtain ⟨hfirst, hrest⟩ := List.forall_mem_cons.mp hmarked
    refine ⟨hrest, ?_⟩
    obtain ⟨hnot, rfl⟩ | ⟨entryType, fillType, ledger₂, hfill, rfl⟩ :=
      monitorLimitOrder_eq_ok hstep
    · refine ⟨hflagged.early, ?_, hflagged.stops, hflagged.queue, hflagged.uncancelled⟩
      exact List.forall_mem_append.mpr ⟨hflagged.limits, List.forall_mem_singleton.mpr hfirst⟩
    · exact hflagged.frame rfl rfl rfl rfl (fillOpenOrder_cancelledIds hfill)
  · exact ⟨h.limits, h.early, by simp, h.stops, h.queue, h.uncancelled⟩

/-- A STOP_LIMIT order takes its cancellation with it to the limit list. -/
theorem Flagged.monitorStopOrders (h : Flagged id applyAt s)
    (htypes : ∀ p ∈ s.activeStopOrders, p.orderType = some .stop ∨ p.orderType = some .stopLimit)
    (hmonitor : monitorStopOrders cfg s = .ok s') : Flagged id applyAt s' := by
  obtain ⟨⟨s₁, remaining⟩, hloop, hpure⟩ := bind_eq_ok.mp hmonitor
  cases hpure
  have hend := foldlM_induct (P := fun rest (state : TradeSimulator × List PendingOrder) =>
    (∀ p ∈ rest, (p.orderType = some .stop ∨ p.orderType = some .stopLimit) ∧
      Marked id applyAt p) ∧ Flagged id applyAt { state.1 with activeStopOrders := state.2 })
    ?_ ?_ hloop
  · exact hend.2
  · rintro order rest ⟨s₁, kept⟩ state ⟨hwaiting, hflagged⟩ hstep
    obtain ⟨⟨htype, hmarked⟩, hrest⟩ := List.forall_mem_cons.mp hwaiting
    refine ⟨hrest, ?_⟩
    obtain ⟨hnot, rfl⟩ | ⟨placedOrder, s₂, hbecomes, hplaced, rfl⟩ :=
      monitorStopOrder_eq_ok htype hstep
    · have hrests : Placed cfg { s₁ with activeStopOrders := kept } order
          { s₁ with activeStopOrders := kept ++ [order] } := .restsAsStop htype hnot
      exact hflagged.placed hmarked hrests
    · exact hflagged.placed (hmarked.becomes hbecomes) hplaced
  · exact ⟨fun p hp => ⟨htypes p hp, h.stops p hp⟩, h.early, h.limits, by simp, h.queue, h.uncancelled⟩

theorem Flagged.checkSlTpTriggers {tick : TickData} (h : Flagged id applyAt s)
    (hcheck : checkSlTpTriggers cfg s tick = .ok s') : Flagged id applyAt s' := by
  have huncancelled : id ∉ cancelledIds s'.ledger := by
    refine checkSlTpTriggers_induct (P := fun ledger => id ∉ cancelledIds ledger) ?_ ?_
      h.uncancelled hcheck
    · intro market ledger ledger' order fillPrice closeReason hnone hfill
      rwa [(fillCloseOrder_ends hfill).cancelledIds_eq]
    · intro ledger hnone
      exact hnone
  obtain ⟨ledger, -, hpure⟩ := bind_eq_ok.mp hcheck
  cases hpure
  exact ⟨h.early, h.limits, h.stops, h.queue, huncancelled⟩

theorem resolvePendingOperations_cancelledIds (hresolve : resolvePendingOperations s = .ok s') :
    ∃ tick, s.market.currentTick = some tick ∧ cancelledIds s'.ledger =
      cancelledIds s.ledger ++ orderIds (cancelledOrders (getTickMsc tick) s.activeLimitOrders) ++
        orderIds (cancelledOrders (getTickMsc tick) s.activeStopOrders) := by
  obtain ⟨tick, portfolio, modifications, htick, -, rfl⟩ :=
    resolvePendingOperations_eq_ok hresolve
  refine ⟨tick, htick, ?_⟩
  simp only [cancelledIds, List.filterMap_append, filterMap_cancelledId]

/-- Before the apply time is reached, no resolution cancels the order. -/
theorem Flagged.resolvePendingOperations (h : Flagged id applyAt s)
    (hresolve : resolvePendingOperations s = .ok s') : Flagged id applyAt s' := by
  have huncancelled : id ∉ cancelledIds s'.ledger := by
    obtain ⟨tick, htick, hcancelled⟩ := resolvePendingOperations_cancelledIds hresolve
    have hnot := not_le.mpr (h.early tick htick)
    rw [hcancelled, List.mem_append, List.mem_append, mem_cancelledOrders_iff h.limits,
      mem_cancelledOrders_iff h.stops]
    simp only [h.uncancelled, hnot, and_false, or_self, not_false_iff]
  obtain ⟨tick, portfolio, modifications, -, -, rfl⟩ := resolvePendingOperations_eq_ok hresolve
  refine ⟨h.early, fun order hmem => ?_, fun order hmem => ?_, h.queue, huncancelled⟩
  · obtain ⟨before, hbefore, rfl, -⟩ := mem_resolveActiveOrders.mp hmem
    exact (h.limits before hbefore).resolveModification _
  · obtain ⟨before, hbefore, rfl, -⟩ := mem_resolveActiveOrders.mp hmem
    exact (h.stops before hbefore).resolveModification _

end Phases

def restingIds (s : TradeSimulator) : List String :=
  orderIds s.activeLimitOrders ++ orderIds s.activeStopOrders

section Steps

variable {cfg : SimulatorConfig} {id : String} {applyAt : ℤ} {s s' : TradeSimulator}
  {tick : TickData}

theorem Flagged.onTick (hinv : Conserved [] s) (h : Flagged id applyAt s)
    (hearly : getTickMsc tick < applyAt) (htick : onTick cfg s tick = .ok s') :
    Flagged id applyAt s' := by
  obtain ⟨processed, hprocess, hcheck⟩ := bind_eq_ok.mp htick
  obtain ⟨resolved, drained, monitored, hresolve, hdrain, hlimits, hmonitored, hstops⟩ :=
    processPendingOrders_phases hinv hprocess
  have hreceived : Flagged id applyAt (receiveTick s tick) := by
    refine ⟨?_, h.limits, h.stops, h.queue, h.uncancelled⟩
    rintro current hcurrent
    obtain rfl : tick = current := Option.some.inj hcurrent
    exact hearly
  have hdrained := (hreceived.resolvePendingOperations hresolve).drainLatencyQueue hdrain
  have hprocessed := (hdrained.monitorLimitOrders hlimits).monitorStopOrders hmonitored.stops hstops
  exact hprocessed.checkSlTpTriggers hcheck

/-- The tick that reaches the apply time cancels the order, if it still rests. -/
theorem Flagged.cancelled_onTick (hinv : Conserved [] s) (h : Flagged id applyAt s)
    (hreached : applyAt ≤ getTickMsc tick) (hrests : id ∈ restingIds s)
    (htick : Simulator.onTick cfg s tick = .ok s') : id ∈ cancelledIds s'.ledger := by
  obtain ⟨processed, hprocess, hcheck⟩ := bind_eq_ok.mp htick
  obtain ⟨resolved, drained, monitored, hresolve, hdrain, hlimits, hmonitored, hstops⟩ :=
    processPendingOrders_phases hinv hprocess
  have hcancelled : id ∈ cancelledIds resolved.ledger := by
    obtain ⟨current, hcurrent, hcancelled⟩ := resolvePendingOperations_cancelledIds hresolve
    obtain rfl : tick = current := Option.some.inj hcurrent
    rw [hcancelled, List.append_assoc, List.mem_append, List.mem_append]
    rcases List.mem_append.mp hrests with hlimit | hstop
    · exact .inr (.inl ((mem_cancelledOrders_iff h.limits _).mpr ⟨hlimit, hreached⟩))
    · exact .inr (.inr ((mem_cancelledOrders_iff h.stops _).mpr ⟨hstop, hreached⟩))
  have hlater : Path cfg.executor resolved.ledger s'.ledger :=
    calc
      Path cfg.executor resolved.ledger drained.ledger := path_drainLatencyQueue hdrain
      Path cfg.executor _ monitored.ledger := path_monitorLimitOrders hlimits
      Path cfg.executor _ processed.ledger := path_monitorStopOrders hmonitored.stops hstops
      Path cfg.executor _ s'.ledger := path_checkSlTpTriggers hcheck
  exact (hlater.log_grows.filterMap cancelledId).subset hcancelled

theorem Flagged.heartbeat (h : Flagged id applyAt s) (hbeat : heartbeat cfg s = .ok s') :
    Flagged id applyAt s' := by
  obtain ⟨rfl, -⟩ | ⟨_, _, resolved, -, -, hresolve, hdrain⟩ := heartbeat_eq_ok hbeat
  · exact h
  · exact (h.resolvePendingOperations hresolve).drainLatencyQueue hdrain

/-- An idle order is not doomed, so a new operation is put in flight on other orders only. -/
theorem marked_updateOrder {market : MarketState} {orderId : String} {pending : PendingOrder}
    {fromStops : Bool} {state : PendingOrderExecutionState} {orders : List PendingOrder}
    (h : ∀ order ∈ orders, Marked id applyAt order)
    (hfind : findOrder orders orderId = some pending)
    (hstate : Scheduled market pending fromStops state) :
    ∀ order ∈ updateOrder orderId state orders, Marked id applyAt order := by
  intro order hmem
  rcases mem_updateOrder hmem with hold | ⟨before, hbefore, rfl⟩
  · exact h order hold
  · obtain rfl : before = pending := Option.some.inj (hbefore.symm.trans hfind)
    intro hid
    have hbusy := (h before (mem_of_findOrder hfind) hid).busy
    cases hstate with
    | cancel hidle hmsc => simp [hidle] at hbusy
    | modify hidle hmsc happly hprice hlimit => simp [hidle] at hbusy

theorem Flagged.stepped {op : SimulatorOp} (hinv : Conserved [] s)
    (haccepted : id ∈ acceptedIds s.ledger) (h : Flagged id applyAt s)
    (hop : ∀ tick, op = .tick tick → getTickMsc tick < applyAt) (hstep : Stepped cfg s op s') :
    Flagged id applyAt s' := by
  cases hstep with
  | ticked htick => exact h.onTick hinv (hop _ rfl) htick
  | beat hbeat => exact h.heartbeat hbeat
  | @accepted request normalized tick htick hvalid =>
      refine ⟨h.early, h.limits, h.stops, fun order hmem hopen => ?_, ?_⟩
      · rcases Dict.mem_values_set hmem with rfl | hold
        · rintro rfl
          exact hinv.issuedId_fresh normalized.symbol haccepted
        · exact h.queue order hold hopen
      · simpa [cancelledIds, cancelledId, accept, storeOrder, issued, ExecutionLedger.record,
          ExecutionLedger.appendResult] using h.uncancelled
  | closeAccepted hposition htick =>
      refine ⟨h.early, h.limits, h.stops, fun order hmem hopen => ?_, ?_⟩
      · rcases Dict.mem_values_set hmem with rfl | hold
        · cases hopen
        · exact h.queue order hold hopen
      · simpa [cancelledIds, cancelledId, storeOrder, ExecutionLedger.record] using h.uncancelled
  | refused =>
      refine h.frame rfl rfl rfl rfl ?_
      simp [cancelledIds, cancelledId, refuse, issued, ExecutionLedger.appendResult]
  | guardRecorded =>
      refine h.frame rfl rfl rfl rfl ?_
      simp [cancelledIds, cancelledId, ExecutionLedger.recordGuardRejection,
        ExecutionLedger.checkOrderHistoryLimit, ExecutionLedger.appendResult]
  | limitScheduled hfind hstate hcall =>
      exact ⟨h.early, marked_updateOrder h.limits hfind hstate, h.stops, h.queue, h.uncancelled⟩
  | stopScheduled hfind hstate hcall =>
      exact ⟨h.early, h.limits, marked_updateOrder h.stops hfind hstate, h.queue, h.uncancelled⟩
  | clockSet => exact h.frame rfl rfl rfl rfl rfl
  | ignored hclose => exact h
  | positionScheduled => exact h.frame rfl rfl rfl rfl rfl
  | positionModified => exact h.frame rfl rfl rfl rfl rfl
  | queried hensure => exact h.frame rfl rfl rfl rfl rfl

end Steps

section Waiting

variable {cfg : SimulatorConfig} {id : String} {applyAt : ℤ} {s s' t : TradeSimulator}

/-- A rejection of an accepted order for lack of margin or funds. -/
def fundsRejectedId : AuditEvent → Option String
  | .result .fill r => if r.status = .rejected then some r.orderId else none
  | _ => none

def fundsRejectedIds (ledger : ExecutionLedger) : List String :=
  ledger.log.filterMap fundsRejectedId

theorem mem_rejectedIds_iff {ledger : ExecutionLedger} :
    id ∈ rejectedIds ledger ↔ id ∈ fundsRejectedIds ledger ∨ id ∈ stressIds ledger.log := by
  have hevent : ∀ event, rejectedId event = some id ↔
      fundsRejectedId event = some id ∨ ∃ r, stressResult event = some r ∧ r.orderId = id := by
    intro event
    cases event with
    | result source r => cases source <;> simp [rejectedId, fundsRejectedId, stressResult]
    | _ => simp [rejectedId, fundsRejectedId, stressResult]
  simp only [rejectedIds, fundsRejectedIds, stressIds, List.mem_map, List.mem_filterMap, hevent]
  constructor
  · rintro ⟨event, hmem, hfunds | ⟨r, hstress, rfl⟩⟩
    · exact .inl ⟨event, hmem, hfunds⟩
    · exact .inr ⟨r, ⟨event, hmem, hstress⟩, rfl⟩
  · rintro (⟨event, hmem, hfunds⟩ | ⟨r, ⟨event, hmem, hstress⟩, rfl⟩)
    · exact ⟨event, hmem, .inl hfunds⟩
    · exact ⟨event, hmem, .inr ⟨r, hstress, rfl⟩⟩

theorem mem_stressRejects {calls : ℕ} {orders : List PendingOrder} {order : PendingOrder}
    (h : order ∈ stressRejects cfg calls orders) : order ∈ orders ∧ order.isOpen = true := by
  induction orders generalizing calls with
  | nil => simp [stressRejects] at h
  | cons first rest ih =>
      rw [stressRejects] at h
      split at h
      · next hopen =>
          rcases List.mem_append.mp h with hfirst | hrest
          · split at hfirst
            · rw [List.mem_singleton.mp hfirst]
              exact ⟨List.mem_cons_self, hopen⟩
            · simp at hfirst
          · exact ⟨List.mem_cons_of_mem first (ih hrest).1, (ih hrest).2⟩
      · exact ⟨List.mem_cons_of_mem first (ih h).1, (ih h).2⟩

theorem mem_of_resolvedAt {op : SimulatorOp} {order : PendingOrder} (h : order ∈ resolvedAt s op) :
    order ∈ s.latencyQueue.values := by
  cases op with
  | tick tick => exact List.mem_of_mem_filter h
  | heartbeat =>
      simp only [resolvedAt] at h
      split at h
      · exact List.mem_of_mem_filter h
      · simp at h
  | _ => simp [resolvedAt] at h

/-- The state of a session while the cancellation of a resting order waits for its apply
time. The order may have been filled or rejected in the meantime. -/
structure Waiting (cfg : SimulatorConfig) (id : String) (applyAt : ℤ) (s : TradeSimulator) :
    Prop where
  running : Running cfg s
  accepted : id ∈ acceptedIds s.ledger
  unstressed : id ∉ stressIds s.ledger.log
  flagged : Flagged id applyAt s

theorem step_log_grows {op : SimulatorOp} (h : Running cfg s) (hstep : step cfg s op = .ok s') :
    s.ledger.log <+: s'.ledger.log :=
  (path_stepped h.1 (step_stepped hstep)).log_grows

theorem waiting_step {op : SimulatorOp} (h : Waiting cfg id applyAt s)
    (hop : ∀ tick, op = .tick tick → getTickMsc tick < applyAt)
    (hstep : step cfg s op = .ok s') : Waiting cfg id applyAt s' := by
  refine ⟨running_step h.running hstep, ?_, ?_, ?_⟩
  · exact ((step_log_grows h.running hstep).filterMap acceptedId).subset h.accepted
  · rw [stressIds_step h.running.1 h.running.2 hstep, List.mem_append, not_or]
    refine ⟨h.unstressed, fun hrejected => ?_⟩
    obtain ⟨order, hmem, hid⟩ := List.mem_map.mp hrejected
    obtain ⟨hresolved, hopen⟩ := mem_stressRejects hmem
    exact h.flagged.queue order (mem_of_resolvedAt hresolved) hopen hid
  · exact h.flagged.stepped h.running.1 h.accepted hop (step_stepped hstep)

/-- A waiting order rests, or `_fill_open_order` has ended it. -/
theorem Waiting.rests_or_ended (h : Waiting cfg id applyAt s) :
    id ∈ restingIds s ∨ id ∈ filledIds s.ledger ∨ id ∈ fundsRejectedIds s.ledger := by
  have hplace : id ∈ places s := by
    have hlocated := h.running.1.located id
    have hone := List.count_eq_one_of_mem h.running.1.nodup h.accepted
    rw [List.count_nil] at hlocated
    exact List.count_pos_iff.mp (by omega)
  have hqueue : id ∉ openIds s.latencyQueue.values := by
    intro hmem
    obtain ⟨order, hqueued, hid⟩ := List.mem_map.mp hmem
    obtain ⟨hvalue, hopen⟩ := List.mem_filter.mp hqueued
    exact h.flagged.queue order hvalue hopen hid
  simp only [places, List.mem_append, hqueue, h.flagged.uncancelled, mem_rejectedIds_iff,
    h.unstressed, false_or, or_false] at hplace
  simpa only [restingIds, List.mem_append, or_assoc] using hplace

end Waiting

section Fates

variable {cfg : SimulatorConfig} {id : String} {applyAt : ℤ} {later : List SimulatorOp}
  {s s₁ t t' : TradeSimulator}

/-- One of the ticks reaches the apply time. -/
def Reached (applyAt : ℤ) (ops : List SimulatorOp) : Prop :=
  ∃ tick, .tick tick ∈ ops ∧ applyAt ≤ getTickMsc tick

/-- The cancellation is still in flight: the order rests in one of the two lists. -/
structure StillRests (id : String) (applyAt : ℤ) (later : List SimulatorOp)
    (t : TradeSimulator) : Prop where
  unreached : ¬ Reached applyAt later
  rests : (restingIds t).count id = 1
  unfilled : id ∉ filledIds t.ledger
  unrejected : id ∉ rejectedIds t.ledger
  uncancelled : id ∉ cancelledIds t.ledger

/-- Before a tick reached the apply time the order was filled, or rejected for lack of margin
or funds; it is never cancelled. -/
structure EndedBefore (cfg : SimulatorConfig) (id : String) (applyAt : ℤ) (s : TradeSimulator)
    (later : List SimulatorOp) (t : TradeSimulator) : Prop where
  ended : ∃ early rest u, later = early ++ rest ∧ run (step cfg) s early = .ok u ∧
    ¬ Reached applyAt early ∧ (id ∈ filledIds u.ledger ∨ id ∈ fundsRejectedIds u.ledger)
  once : (filledIds t.ledger).count id + (rejectedIds t.ledger).count id = 1
  gone : id ∉ restingIds t
  uncancelled : id ∉ cancelledIds t.ledger

/-- The order was cancelled once; it is never filled or rejected. -/
structure CancelledOnce (id : String) (applyAt : ℤ) (later : List SimulatorOp)
    (t : TradeSimulator) : Prop where
  reached : Reached applyAt later
  once : (cancelledIds t.ledger).count id = 1
  gone : id ∉ restingIds t
  unfilled : id ∉ filledIds t.ledger
  unrejected : id ∉ rejectedIds t.ledger

theorem run_log_grows (h : Running cfg s) (hrun : run (step cfg) s later = .ok t) :
    Running cfg t ∧ s.ledger.log <+: t.ledger.log := by
  refine run_invariant (P := fun t => Running cfg t ∧ s.ledger.log <+: t.ledger.log) ?_
    ⟨h, List.prefix_rfl⟩ hrun
  rintro u op u' ⟨hrunning, hgrows⟩ hstep
  exact ⟨running_step hrunning hstep, hgrows.trans (step_log_grows hrunning hstep)⟩

/-- A waiting order rests until a tick reaches the apply time, unless it ends before; that
tick cancels it. -/
theorem waiting_run (h : Waiting cfg id applyAt s) (hrun : run (step cfg) s later = .ok t) :
    (¬ Reached applyAt later ∧ id ∈ restingIds t) ∨
      (∃ early rest u, later = early ++ rest ∧ run (step cfg) s early = .ok u ∧
        ¬ Reached applyAt early ∧ (id ∈ filledIds u.ledger ∨ id ∈ fundsRejectedIds u.ledger) ∧
        u.ledger.log <+: t.ledger.log) ∨
      (Reached applyAt later ∧ id ∈ cancelledIds t.ledger) := by
  induction later generalizing s with
  | nil =>
      cases hrun
      have hnone : ¬ Reached applyAt [] := by simp [Reached]
      rcases h.rests_or_ended with hrests | hended
      · exact .inl ⟨hnone, hrests⟩
      · exact .inr (.inl ⟨[], [], t, rfl, rfl, hnone, hended, List.prefix_rfl⟩)
  | cons op later ih =>
      obtain ⟨s', hop, hrest⟩ := run_cons_eq_ok.mp hrun
      by_cases hreached : ∃ tick, op = .tick tick ∧ applyAt ≤ getTickMsc tick
      · rcases h.rests_or_ended with hrests | hended
        · obtain ⟨tick, rfl, hdue⟩ := hreached
          have hcancelled := h.flagged.cancelled_onTick h.running.1 hdue hrests hop
          obtain ⟨-, hgrows⟩ := run_log_grows (running_step h.running hop) hrest
          refine .inr (.inr ⟨⟨tick, List.mem_cons_self, hdue⟩, ?_⟩)
          exact (hgrows.filterMap cancelledId).subset hcancelled
        · obtain ⟨-, hgrows⟩ := run_log_grows h.running hrun
          exact .inr (.inl ⟨[], op :: later, s, rfl, rfl, by simp [Reached], hended, hgrows⟩)
      · have hearly : ∀ tick, op = .tick tick → getTickMsc tick < applyAt :=
          fun tick heq => not_le.mp fun hdue => hreached ⟨tick, heq, hdue⟩
        have hcons : ∀ ops, Reached applyAt (op :: ops) ↔ Reached applyAt ops := by
          intro ops
          constructor
          · rintro ⟨tick, hmem, hdue⟩
            rcases List.mem_cons.mp hmem with heq | hmem
            · exact absurd ⟨tick, heq.symm, hdue⟩ hreached
            · exact ⟨tick, hmem, hdue⟩
          · rintro ⟨tick, hmem, hdue⟩
            exact ⟨tick, List.mem_cons_of_mem op hmem, hdue⟩
        rcases ih (waiting_step h hearly hop) hrest with hrests |
          ⟨early, rest, u, rfl, hearlier, hended⟩ | hcancelled
        · exact .inl (by rwa [hcons])
        · refine .inr (.inl ⟨op :: early, rest, u, rfl, ?_, by rwa [hcons]⟩)
          exact run_cons_eq_ok.mpr ⟨s', hop, hearlier⟩
        · exact .inr (.inr (by rwa [hcons]))

/-- Also once the session has ended, an accepted order is in at most one of these places. -/
theorem Located.count_le_one (h : Located t id) :
    (restingIds t).count id + (cancelledIds t.ledger).count id + (filledIds t.ledger).count id +
      (rejectedIds t.ledger).count id ≤ 1 := by
  simp only [Located, pendingIds, withdrawnIds, restingIds, List.count_append] at h ⊢
  omega

/-- The end of a session leaves the resting orders in their lists. -/
theorem Running.ended (h : Running cfg t) (hid : id ∈ acceptedIds t.ledger)
    (hend : t' = t ∨ closeAllRemainingOrders cfg t = .ok t') :
    Located t' id ∧ t.ledger.log <+: t'.ledger.log ∧ restingIds t' = restingIds t := by
  rcases hend with rfl | hclosed
  · exact ⟨h.located hid, List.prefix_rfl, rfl⟩
  · have hgrows := (path_closeAllRemainingOrders hclosed).log_grows
    refine ⟨(h.closed hclosed).2 id ((hgrows.filterMap acceptedId).subset hid), hgrows, ?_⟩
    obtain ⟨ledger₁, -, hclosed⟩ := bind_eq_ok.mp hclosed
    obtain ⟨ledger₂, -, hclosed⟩ := bind_eq_ok.mp hclosed
    obtain ⟨ledger₃, -, hpure⟩ := bind_eq_ok.mp hclosed
    cases hpure
    rfl

theorem Waiting.fate (h : Waiting cfg id applyAt s) (hrun : run (step cfg) s later = .ok t)
    (hend : t' = t ∨ closeAllRemainingOrders cfg t = .ok t') :
    StillRests id applyAt later t' ∨ EndedBefore cfg id applyAt s later t' ∨
      CancelledOnce id applyAt later t' := by
  obtain ⟨hrunning, hgrows⟩ := run_log_grows h.running hrun
  have haccepted := (hgrows.filterMap acceptedId).subset h.accepted
  obtain ⟨hlocated, hended, hresting⟩ := Running.ended hrunning haccepted hend
  have hone := Located.count_le_one hlocated
  rcases waiting_run h hrun with ⟨hnot, hrests⟩ |
    ⟨early, rest, u, hlater, hearly, hnot, hexecuted, hgrown⟩ | ⟨hreached, hcancelled⟩
  · rw [← hresting] at hrests
    have hpos := List.count_pos_iff.mpr hrests
    refine .inl ⟨hnot, ?_, ?_, ?_, ?_⟩
    · omega
    all_goals
      rw [← List.count_eq_zero]
      omega
  · have hhere : id ∈ filledIds t'.ledger ∨ id ∈ rejectedIds t'.ledger := by
      have hlog := hgrown.trans hended
      rcases hexecuted with hfilled | hrejected
      · exact .inl ((hlog.filterMap filledId).subset hfilled)
      · exact .inr (mem_rejectedIds_iff.mpr
          (.inl ((hlog.filterMap fundsRejectedId).subset hrejected)))
    rw [← List.count_pos_iff, ← List.count_pos_iff] at hhere
    refine .inr (.inl ⟨⟨early, rest, u, hlater, hearly, hnot, hexecuted⟩, ?_, ?_, ?_⟩)
    · omega
    all_goals
      rw [← List.count_eq_zero]
      omega
  · have hhere : id ∈ cancelledIds t'.ledger := (hended.filterMap cancelledId).subset hcancelled
    have hpos := List.count_pos_iff.mpr hhere
    refine .inr (.inr ⟨hreached, ?_, ?_, ?_, ?_⟩)
    · omega
    all_goals
      rw [← List.count_eq_zero]
      omega

end Fates

section Calls

variable {cfg : SimulatorConfig} {id : String} {s s₁ : TradeSimulator}
  {orders orders' : List PendingOrder} {tick : TickData}

/-- A list changes at the first order with the id; there is no other one. -/
theorem executionState_of_mem_updateOrder {state : PendingOrderExecutionState}
    {order : PendingOrder} (hone : (orderIds orders).count id ≤ 1)
    (hmem : order ∈ updateOrder id state orders) (hid : order.pendingOrderId = id) :
    order.executionState = state := by
  induction orders with
  | nil => simp [updateOrder] at hmem
  | cons first rest ih =>
      rw [orderIds_cons] at hone
      rw [updateOrder] at hmem
      split at hmem
      · next hfirst =>
          rcases List.mem_cons.mp hmem with rfl | hrest
          · rfl
          · have hin : id ∈ orderIds rest := by
              rw [← hid]
              exact List.mem_map_of_mem hrest
            have hpos := List.count_pos_iff.mpr hin
            simp only [List.count_cons, hfirst, beq_self_eq_true, if_true] at hone
            omega
      · next hfirst =>
          rcases List.mem_cons.mp hmem with rfl | hrest
          · exact absurd hid hfirst
          · rw [List.count_cons] at hone
            exact ih (by omega) hrest

theorem marked_of_count {applyAt : ℤ} (hnone : (orderIds orders).count id = 0) :
    ∀ order ∈ orders, Marked id applyAt order := by
  intro order hmem hid
  rw [← hid] at hnone
  exact absurd (List.mem_map_of_mem hmem) (List.count_eq_zero.mp hnone)

theorem marked_of_cancel {pending : PendingOrder} {applyAt : ℤ}
    (hone : (orderIds orders).count id ≤ 1) :
    ∀ order ∈ updateOrder id { pending.executionState with
      inFlightOperation := .pendingCancel, cancelApplyAtMsc := some applyAt } orders,
      Marked id applyAt order := by
  intro order hmem hid
  have hstate := executionState_of_mem_updateOrder hone hmem hid
  constructor
  · simp [PendingOrder.inFlightOperation, hstate]
  · simp [hstate]

theorem waiting_scheduled (h : Running cfg s) (h₁ : Running cfg s₁)
    (htick : s.market.currentTick = some tick) (hrests : id ∈ restingIds s)
    (hmarket : s₁.market = s.market) (hledger : s₁.ledger = s.ledger)
    (hqueue : s₁.latencyQueue = s.latencyQueue)
    (hlimits : ∀ order ∈ s₁.activeLimitOrders,
      Marked id (getTickMsc tick + modifyCancelDelayMsc) order)
    (hstops : ∀ order ∈ s₁.activeStopOrders,
      Marked id (getTickMsc tick + modifyCancelDelayMsc) order) :
    Waiting cfg id (getTickMsc tick + modifyCancelDelayMsc) s₁ := by
  have hone := h.1.count_places_le_one id
  have hpos := List.count_pos_iff.mpr hrests
  simp only [places, restingIds, List.count_append] at hone hpos
  have hqueued : id ∉ openIds s.latencyQueue.values := List.count_eq_zero.mp (by omega)
  have hrejected : id ∉ rejectedIds s.ledger := List.count_eq_zero.mp (by omega)
  have huncancelled : id ∉ cancelledIds s.ledger := List.count_eq_zero.mp (by omega)
  have haccepted : id ∈ acceptedIds s.ledger := by
    refine h.1.mem_accepted ?_
    simp only [places, List.mem_append]
    rcases List.mem_append.mp hrests with hlimit | hstop
    · simp only [hlimit, true_or, or_true]
    · simp only [hstop, true_or, or_true]
  refine ⟨h₁, ?_, ?_, ?_, hlimits, hstops, fun order hmem hopen hid => ?_, ?_⟩
  · rwa [hledger]
  · rw [hledger]
    exact fun hstress => hrejected (mem_rejectedIds_iff.mpr (.inr hstress))
  · intro current hcurrent
    rw [hmarket, htick] at hcurrent
    obtain rfl : tick = current := Option.some.inj hcurrent
    exact Int.lt_add_one_iff.mpr le_rfl
  · rw [hqueue] at hmem
    refine hqueued ?_
    rw [← hid]
    exact List.mem_map_of_mem (List.mem_filter.mpr ⟨hmem, hopen⟩)
  · rwa [hledger]

theorem waiting_of_cancel (h : Running cfg s)
    (hcancel : cancelLimitOrder s id = .ok (s₁, true) ∨ cancelStopOrder cfg s id = .ok (s₁, true)) :
    ∃ tick, s.market.currentTick = some tick ∧
      Waiting cfg id (getTickMsc tick + modifyCancelDelayMsc) s₁ := by
  have hone := h.1.count_places_le_one id
  simp only [places, List.count_append] at hone
  rcases hcancel with hcancel | hcancel
  · have hstep : step cfg s (.cancelLimitOrder id) = .ok s₁ := map_eq_ok.mpr ⟨_, hcancel, rfl⟩
    have h₁ := running_step h hstep
    obtain ⟨⟨orders, scheduled⟩, hschedule, hpure⟩ := bind_eq_ok.mp hcancel
    cases hpure
    obtain ⟨hfalse, -⟩ | ⟨-, pending, msc, hfind, -, hmsc, rfl⟩ := scheduleCancel_eq_ok hschedule
    · cases hfalse
    · obtain ⟨tick, htick, rfl⟩ := getCurrentMsc_eq_ok.mp hmsc
      have hmem := mem_orderIds_of_findOrder hfind
      have hpos := List.count_pos_iff.mpr hmem
      refine ⟨tick, htick, waiting_scheduled h h₁ htick (List.mem_append_left _ hmem) rfl rfl rfl
        (marked_of_cancel (by omega)) (marked_of_count ?_)⟩
      show (orderIds s.activeStopOrders).count id = 0
      omega
  · have hstep : step cfg s (.cancelStopOrder id) = .ok s₁ := map_eq_ok.mpr ⟨_, hcancel, rfl⟩
    have h₁ := running_step h hstep
    unfold cancelStopOrder at hcancel
    split at hcancel
    · cases hcancel
    · obtain ⟨⟨orders, scheduled⟩, hschedule, hpure⟩ := bind_eq_ok.mp hcancel
      cases hpure
      obtain ⟨hfalse, -⟩ | ⟨-, pending, msc, hfind, -, hmsc, rfl⟩ :=
        scheduleCancel_eq_ok hschedule
      · cases hfalse
      · obtain ⟨tick, htick, rfl⟩ := getCurrentMsc_eq_ok.mp hmsc
        have hmem := mem_orderIds_of_findOrder hfind
        have hpos := List.count_pos_iff.mpr hmem
        refine ⟨tick, htick, waiting_scheduled h h₁ htick (List.mem_append_right _ hmem) rfl rfl
          rfl (marked_of_count ?_) (marked_of_cancel (by omega))⟩
        show (orderIds s.activeLimitOrders).count id = 0
        omega

inductive RefusedCall (cfg : SimulatorConfig) (s : TradeSimulator) : TradeSimulator → Prop
  | cancelLimitOrder {orderId : String} {s' : TradeSimulator}
      (h : cancelLimitOrder s orderId = .ok (s', false)) : RefusedCall cfg s s'
  | cancelStopOrder {orderId : String} {s' : TradeSimulator}
      (h : cancelStopOrder cfg s orderId = .ok (s', false)) : RefusedCall cfg s s'
  | modifyLimitOrder {orderId : String} {newPrice : Setting ℚ}
      {newStopLoss newTakeProfit : Setting (Option ℚ)} {s' : TradeSimulator}
      {result : ModificationResult}
      (h : modifyLimitOrder cfg s orderId newPrice newStopLoss newTakeProfit = .ok (s', result))
      (hresult : result.success = false) : RefusedCall cfg s s'
  | modifyStopOrder {orderId : String} {newStopPrice newLimitPrice : Setting ℚ}
      {newStopLoss newTakeProfit : Setting (Option ℚ)} {s' : TradeSimulator}
      {result : ModificationResult}
      (h : modifyStopOrder cfg s orderId newStopPrice newLimitPrice newStopLoss newTakeProfit =
        .ok (s', result))
      (hresult : result.success = false) : RefusedCall cfg s s'
  | modifyPosition {positionId : String} {newStopLoss newTakeProfit : Setting (Option ℚ)}
      {s' : TradeSimulator} {result : ModificationResult}
      (h : Simulator.modifyPosition cfg s positionId newStopLoss newTakeProfit = .ok (s', result))
      (hresult : result.success = false) : RefusedCall cfg s s'

theorem RefusedCall.unchanged {s' : TradeSimulator} (h : RefusedCall cfg s s') : s' = s := by
  cases h with
  | cancelLimitOrder h =>
      obtain ⟨⟨orders, scheduled⟩, hschedule, hpure⟩ := bind_eq_ok.mp h
      cases hpure
      obtain ⟨-, rfl⟩ | ⟨htrue, -⟩ := scheduleCancel_eq_ok hschedule
      · rfl
      · cases htrue
  | cancelStopOrder h =>
      unfold Simulator.cancelStopOrder at h
      split at h
      · cases h
        rfl
      · obtain ⟨⟨orders, scheduled⟩, hschedule, hpure⟩ := bind_eq_ok.mp h
        cases hpure
        obtain ⟨-, rfl⟩ | ⟨htrue, -⟩ := scheduleCancel_eq_ok hschedule
        · rfl
        · cases htrue
  | modifyLimitOrder h hresult =>
      rcases modifyLimitOrder_eq_ok h with hsame | ⟨hsuccess, -⟩
      · exact hsame
      · simp [hresult] at hsuccess
  | modifyStopOrder h hresult =>
      rcases modifyStopOrder_eq_ok h with hsame | ⟨hsuccess, -⟩
      · exact hsame
      · simp [hresult] at hsuccess
  | modifyPosition h hresult => exact (modifyPosition_eq_ok h).1 hresult

end Calls

section Runs

/-- A cancellation that was scheduled has one fate, in every later state of the session and at
its end: until a tick reaches the apply time it stays in flight while the order rests, unless
the order is filled or rejected for lack of margin or funds before; otherwise the order is
cancelled once and never filled or rejected. This holds also of a STOP_LIMIT order that moves
to the limit list meanwhile. A modification or cancellation that is refused changes nothing. -/
theorem cancel_has_one_fate (cfg : SimulatorConfig) {ops later : List SimulatorOp}
    {s s₁ t t' : TradeSimulator} {id : String}
    (hrun : run (step cfg) (Simulator.new cfg) ops = .ok s)
    (hcancel : cancelLimitOrder s id = .ok (s₁, true) ∨ cancelStopOrder cfg s id = .ok (s₁, true))
    (hlater : run (step cfg) s₁ later = .ok t)
    (hend : t' = t ∨ closeAllRemainingOrders cfg t = .ok t') :
    (∃ tick applyAt, s.market.currentTick = some tick ∧
      applyAt = getTickMsc tick + modifyCancelDelayMsc ∧
      (StillRests id applyAt later t' ∨ EndedBefore cfg id applyAt s₁ later t' ∨
        CancelledOnce id applyAt later t')) ∧
      ∀ u u', RefusedCall cfg u u' → u' = u := by
  have hrunning : Running cfg s :=
    run_invariant (fun s op s' hinv hop => running_step hinv hop)
      ⟨conserved_new, recorded_new⟩ hrun
  obtain ⟨tick, htick, hwaiting⟩ := waiting_of_cancel hrunning hcancel
  exact ⟨⟨tick, _, htick, rfl, hwaiting.fate hlater hend⟩, fun u u' h => h.unchanged⟩

def restingStopLimit : List SimulatorOp :=
  [.tick (eurusdTick (11000 / 10000) (11002 / 10000) 1000),
    .openOrder { symbol := "EURUSD", orderType := .stopLimit, direction := .long, lots := 1,
                 stopPrice := some (11010 / 10000), price := some (11005 / 10000) },
    .tick (eurusdTick (11001 / 10000) (11003 / 10000) 1010)]

/-- A tick of the same millisecond triggers the stop price, and a later one follows. -/
def triggeredThenLater : List SimulatorOp :=
  [.tick (eurusdTick (11010 / 10000) (11012 / 10000) 1010), .heartbeat,
    .tick (eurusdTick (11010 / 10000) (11012 / 10000) 1020)]

theorem restingStopLimit_cancelled :
    ((run (step forexSimulator) (Simulator.new forexSimulator) restingStopLimit).bind fun s =>
      (cancelStopOrder forexSimulator s "pos_eurusd_1").bind fun answer =>
        (run (step forexSimulator) answer.1 triggeredThenLater).map fun t =>
          (answer.2, s.market.currentTick.map getTickMsc, cancelledIds t.ledger)) =
      .ok (true, some 1010, ["pos_eurusd_1"]) := by
  decide +kernel

theorem cancel_has_one_fate_triggered :
    ∃ s s₁ t, run (step forexSimulator) (Simulator.new forexSimulator) restingStopLimit = .ok s ∧
      cancelStopOrder forexSimulator s "pos_eurusd_1" = .ok (s₁, true) ∧
      run (step forexSimulator) s₁ triggeredThenLater = .ok t ∧
      CancelledOnce "pos_eurusd_1" 1011 triggeredThenLater t := by
  obtain ⟨s, hrun, hrest⟩ := bind_eq_ok.mp restingStopLimit_cancelled
  obtain ⟨⟨s₁, scheduled⟩, hcancel, hrest⟩ := bind_eq_ok.mp hrest
  obtain ⟨t, hlater, hvalues⟩ := exists_of_map_eq_ok hrest
  simp only [Prod.mk.injEq] at hvalues
  obtain ⟨rfl, hmsc, hcancelled⟩ := hvalues
  refine ⟨s, s₁, t, hrun, hcancel, hlater, ?_⟩
  obtain ⟨⟨tick, applyAt, htick, rfl, hfate⟩, -⟩ :=
    cancel_has_one_fate forexSimulator hrun (.inr hcancel) hlater (.inl rfl)
  have happly : getTickMsc tick + modifyCancelDelayMsc = 1011 := by
    rw [htick, Option.map_some, Option.some.injEq] at hmsc
    rw [hmsc]
    rfl
  rw [happly] at hfate
  rcases hfate with hrests | hended | honce
  · exact absurd hrests.uncancelled (by simp [hcancelled])
  · exact absurd hended.uncancelled (by simp [hcancelled])
  · exact honce

theorem restingStopLimit_ended :
    ((run (step forexSimulator) (Simulator.new forexSimulator) restingStopLimit).bind fun s =>
      (cancelStopOrder forexSimulator s "pos_eurusd_1").bind fun answer =>
        (closeAllRemainingOrders forexSimulator answer.1).map fun t =>
          (answer.2, filledIds t.ledger, rejectedIds t.ledger, cancelledIds t.ledger)) =
      .ok (true, [], [], []) := by
  decide +kernel

/-- A session that ends before a tick reaches the apply time leaves the order resting: it is
neither filled nor rejected, and its cancellation is never resolved. -/
theorem cancel_unresolved_at_end :
    ∃ s s₁ t, run (step forexSimulator) (Simulator.new forexSimulator) restingStopLimit = .ok s ∧
      cancelStopOrder forexSimulator s "pos_eurusd_1" = .ok (s₁, true) ∧
      closeAllRemainingOrders forexSimulator s₁ = .ok t ∧
      "pos_eurusd_1" ∉ filledIds t.ledger ∧ "pos_eurusd_1" ∉ rejectedIds t.ledger ∧
      "pos_eurusd_1" ∉ cancelledIds t.ledger := by
  obtain ⟨s, hrun, hrest⟩ := bind_eq_ok.mp restingStopLimit_ended
  obtain ⟨⟨s₁, scheduled⟩, hcancel, hrest⟩ := bind_eq_ok.mp hrest
  obtain ⟨t, hended, hvalues⟩ := exists_of_map_eq_ok hrest
  simp only [Prod.mk.injEq] at hvalues
  obtain ⟨rfl, hfilled, hrejected, hcancelled⟩ := hvalues
  exact ⟨s, s₁, t, hrun, hcancel, hended, by simp [hfilled], by simp [hrejected],
    by simp [hcancelled]⟩

end Runs

end Finiex.SimulatorCancels
