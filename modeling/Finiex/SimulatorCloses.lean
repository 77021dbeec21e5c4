import Finiex.SimulatorConservation

namespace Finiex.SimulatorCloses

open Finiex.Types
open Finiex.Lib
open Finiex.Lib.Run
open Finiex.Positions
open Finiex.Orders
open Finiex.OrderBooks
open Finiex.Portfolio
open Finiex.Portfolio.PortfolioManager
open Finiex.PortfolioLedger
open Finiex.Executor
open Finiex.ExecutorFills
open Finiex.AuditTrail
open Finiex.Simulator
open Finiex.SimulatorSpecs
open Finiex.SimulatorSteps
open Finiex.SimulatorConservation

section Trail

def receivedClose : AuditEvent → Option PendingOrder
  | .orderReceived order => if order.isOpen then none else some order
  | _ => none

def passedClose : AuditEvent → Option PendingOrder
  | .fillCloseOrder order .manual => some order
  | _ => none

def forcedClose : AuditEvent → Option PendingOrder
  | .outcome order .forceClosed => if order.isOpen then none else some order
  | _ => none

def receivedCloses (ledger : ExecutionLedger) : List PendingOrder :=
  ledger.log.filterMap receivedClose

/-- The submissions handed to `_fill_close_order`. -/
def passedCloses (ledger : ExecutionLedger) : List PendingOrder := ledger.log.filterMap passedClose

def forcedCloses (ledger : ExecutionLedger) : List PendingOrder := ledger.log.filterMap forcedClose

def closeOrders (orders : List PendingOrder) : List PendingOrder :=
  orders.filter fun order => !order.isOpen

/-- The event says nothing about a submitted close. -/
def Unrelated (event : AuditEvent) : Prop :=
  receivedClose event = none ∧ passedClose event = none ∧ forcedClose event = none

theorem unrelated_of_isFillRecord {event : AuditEvent} (h : isFillRecord event = true) :
    Unrelated event := by
  cases event <;> first | exact ⟨rfl, rfl, rfl⟩ | cases h

theorem unrelated_resolutionEvents {msc : ℤ} {orders : List PendingOrder} {event : AuditEvent}
    (h : event ∈ resolutionEvents msc orders) : Unrelated event := by
  obtain ⟨orderId, mod, rfl⟩ | ⟨orderId, direction, rfl⟩ := mem_resolutionEvents h
  · exact ⟨rfl, rfl, rfl⟩
  · exact ⟨rfl, rfl, rfl⟩

end Trail

/-- The latency queue and the events about submitted closes are as before. -/
structure Quiet (s s' : TradeSimulator) : Prop where
  queue : s'.latencyQueue = s.latencyQueue
  events : ∃ events, s'.ledger.log = s.ledger.log ++ events ∧ ∀ event ∈ events, Unrelated event

namespace Quiet

variable {s s' s'' : TradeSimulator}

theorem of_log (events : List AuditEvent) (hqueue : s'.latencyQueue = s.latencyQueue)
    (hlog : s'.ledger.log = s.ledger.log ++ events) (hevents : ∀ event ∈ events, Unrelated event) :
    Quiet s s' :=
  ⟨hqueue, events, hlog, hevents⟩

theorem refl (s : TradeSimulator) : Quiet s s :=
  of_log [] rfl (List.append_nil _).symm (by simp)

theorem trans (h : Quiet s s') (h' : Quiet s' s'') : Quiet s s'' := by
  obtain ⟨hqueue, events, hlog, hevents⟩ := h
  obtain ⟨hqueue', events', hlog', hevents'⟩ := h'
  refine ⟨hqueue'.trans hqueue, events ++ events', ?_, fun event hevent => ?_⟩
  · rw [hlog', hlog, List.append_assoc]
  · rcases List.mem_append.mp hevent with hmem | hmem
    · exact hevents event hmem
    · exact hevents' event hmem

end Quiet

/-- Every submitted close is passed on, forced, queued, in hand or among the `lost`. -/
structure Settled (lost inHand : List PendingOrder) (s : TradeSimulator) : Prop where
  balanced : ∀ order, (receivedCloses s.ledger).count order =
    (passedCloses s.ledger).count order + (forcedCloses s.ledger).count order +
      (closeOrders s.latencyQueue.values).count order + (closeOrders inHand).count order +
      lost.count order
  queued : ∀ order ∈ s.latencyQueue.values, order.isOpen = false →
    order.pendingOrderId ∈ filledIds s.ledger

theorem settled_nil_iff {lost : List PendingOrder} {s : TradeSimulator} (h : Settled lost [] s) :
    Settled [] [] s ↔ lost = [] := by
  constructor
  · intro hnil
    refine List.eq_nil_iff_forall_not_mem.mpr fun order hmem => ?_
    have hbalanced := h.balanced order
    rw [hnil.balanced order] at hbalanced
    have hpos := List.count_pos_iff.mpr hmem
    rw [List.count_nil] at hbalanced
    omega
  · rintro rfl
    exact h

theorem closeOrders_cons (order : PendingOrder) (rest : List PendingOrder) :
    closeOrders (order :: rest) = closeOrders [order] ++ closeOrders rest := by
  rw [closeOrders, ← List.singleton_append, List.filter_append]
  rfl

theorem count_closeOrders_filter (p : PendingOrder → Bool) (orders : List PendingOrder)
    (order : PendingOrder) :
    (closeOrders (orders.filter p)).count order +
        (closeOrders (orders.filter fun o => !p o)).count order =
      (closeOrders orders).count order := by
  have hperm := (List.filter_append_perm p orders).filter fun o => !o.isOpen
  rw [List.filter_append] at hperm
  rw [← List.count_append]
  exact hperm.count_eq order

section Log

variable {ledger ledger' : ExecutionLedger} {events : List AuditEvent}

theorem receivedCloses_of_log (hlog : ledger'.log = ledger.log ++ events) :
    receivedCloses ledger' = receivedCloses ledger ++ events.filterMap receivedClose := by
  rw [receivedCloses, hlog, List.filterMap_append]
  rfl

theorem passedCloses_of_log (hlog : ledger'.log = ledger.log ++ events) :
    passedCloses ledger' = passedCloses ledger ++ events.filterMap passedClose := by
  rw [passedCloses, hlog, List.filterMap_append]
  rfl

theorem forcedCloses_of_log (hlog : ledger'.log = ledger.log ++ events) :
    forcedCloses ledger' = forcedCloses ledger ++ events.filterMap forcedClose := by
  rw [forcedCloses, hlog, List.filterMap_append]
  rfl

theorem filledIds_of_log (hlog : ledger'.log = ledger.log ++ events) {id : String}
    (hid : id ∈ filledIds ledger) : id ∈ filledIds ledger' := by
  rw [filledIds, hlog, List.filterMap_append]
  exact List.mem_append_left _ hid

end Log

theorem Settled.quiet {lost inHand : List PendingOrder} {s s' : TradeSimulator}
    (h : Settled lost inHand s) (hquiet : Quiet s s') : Settled lost inHand s' := by
  obtain ⟨hqueue, events, hlog, hevents⟩ := hquiet
  have hreceived : events.filterMap receivedClose = [] :=
    List.filterMap_eq_nil_iff.mpr fun event hevent => (hevents event hevent).1
  have hpassed : events.filterMap passedClose = [] :=
    List.filterMap_eq_nil_iff.mpr fun event hevent => (hevents event hevent).2.1
  have hforced : events.filterMap forcedClose = [] :=
    List.filterMap_eq_nil_iff.mpr fun event hevent => (hevents event hevent).2.2
  constructor
  · intro order
    rw [receivedCloses_of_log hlog, passedCloses_of_log hlog, forcedCloses_of_log hlog, hreceived,
      hpassed, hforced, hqueue]
    simpa only [List.append_nil] using h.balanced order
  · intro order hmem hclosed
    rw [hqueue] at hmem
    exact filledIds_of_log hlog (h.queued order hmem hclosed)

section Phases

variable {cfg : SimulatorConfig} {s s' : TradeSimulator}

theorem quiet_openFill {order : PendingOrder} {fillPrice : Option ℚ} {entryType : EntryType}
    {fillType : FillType} {ledger : ExecutionLedger}
    (hfill : fillOpenOrder cfg.executor s.market s.ledger order fillPrice entryType fillType =
      .ok ledger) : Quiet s { s with ledger := ledger } := by
  obtain ⟨records, hlog, hrecords⟩ := fillOpenOrder_log hfill
  exact .of_log records rfl hlog fun event hevent =>
    unrelated_of_isFillRecord (hrecords event hevent)

theorem quiet_placed {order : PendingOrder} (h : Placed cfg s order s') : Quiet s s' := by
  cases h with
  | filled htype hprice hfill => exact quiet_openFill hfill
  | restsAsLimit htype hnot => exact .of_log [] rfl (List.append_nil _).symm (by simp)
  | restsAsStop htype hnot => exact .of_log [] rfl (List.append_nil _).symm (by simp)

theorem quiet_recordOutcome {order : PendingOrder} {outcome : PendingOrderOutcome}
    (houtcome : outcome ≠ .forceClosed) : Quiet s (recordOutcome s order outcome) := by
  refine .of_log [.outcome order outcome] rfl rfl ?_
  rintro event hmem
  rw [List.mem_singleton.mp hmem]
  cases outcome with
  | forceClosed => exact absurd rfl houtcome
  | filled => exact ⟨rfl, rfl, rfl⟩
  | rejected => exact ⟨rfl, rfl, rfl⟩
  | timedOut => exact ⟨rfl, rfl, rfl⟩

theorem Settled.skip_open {lost rest : List PendingOrder} {order : PendingOrder}
    (h : Settled lost (order :: rest) s) (hopen : order.orderAction = .openOrder) :
    Settled lost rest s := by
  have hnone : closeOrders [order] = [] := by simp [closeOrders, PendingOrder.isOpen, hopen]
  refine ⟨fun o => ?_, h.queued⟩
  rw [h.balanced o, closeOrders_cons, hnone, List.nil_append]

theorem Settled.resolved {lost rest : List PendingOrder} {order : PendingOrder}
    (h : Settled lost (order :: rest) s) (hresolved : Resolved cfg s order s') :
    Settled lost rest s' := by
  cases hresolved with
  | @stressRejected calls rejections rejectionCount hopen =>
      have hrejected : Quiet s { s with
          stressCalls := calls
          stressRejections := rejections
          ledger := rejectByStressTest cfg s.ledger order rejectionCount } :=
        .of_log [.result .stressTest _] rfl rfl (by simp [Unrelated, receivedClose, passedClose,
          forcedClose])
      exact (h.skip_open hopen).quiet (hrejected.trans (quiet_recordOutcome (by simp)))
  | @activated calls placedOrder placed hopen hbecomes hplaced =>
      have hasked : Quiet s { s with stressCalls := calls } :=
        .of_log [] rfl (List.append_nil _).symm (by simp)
      exact (h.skip_open hopen).quiet
        ((hasked.trans (quiet_placed hplaced)).trans (quiet_recordOutcome (by simp)))
  | @closed ledger hclose hfill =>
      have hclosed : order.isOpen = false := by simp [PendingOrder.isOpen, hclose]
      have hone : closeOrders [order] = [order] := by simp [closeOrders, hclosed]
      obtain ⟨records, hlog, hrecords⟩ := fillCloseOrder_log hfill
      let s₁ : TradeSimulator :=
        { s with ledger := s.ledger.record (.fillCloseOrder order .manual) }
      have hpassed : Settled lost rest s₁ := by
        have hnote : s₁.ledger.log = s.ledger.log ++ [.fillCloseOrder order .manual] := rfl
        refine ⟨fun o => ?_, fun o hmem ho => filledIds_of_log hnote (h.queued o hmem ho)⟩
        have hbalanced := h.balanced o
        rw [closeOrders_cons, hone] at hbalanced
        have hqueue : s₁.latencyQueue = s.latencyQueue := rfl
        rw [receivedCloses_of_log hnote, passedCloses_of_log hnote, forcedCloses_of_log hnote,
          hqueue]
        simp only [List.filterMap_cons, List.filterMap_nil, receivedClose, passedClose,
          forcedClose, List.append_nil, List.count_append] at hbalanced ⊢
        omega
      have hquiet : Quiet s₁ { s with ledger := ledger } := by
        refine .of_log records rfl ?_ fun event hevent =>
          unrelated_of_isFillRecord (hrecords event hevent)
        rw [hlog]
        exact (List.append_assoc _ [_] _).symm
      exact hpassed.quiet (hquiet.trans (quiet_recordOutcome (by simp)))

theorem Settled.drainLatencyQueue {lost : List PendingOrder} {msc : ℤ} (h : Settled lost [] s)
    (hdrain : drainLatencyQueue cfg s msc = .ok s') : Settled lost [] s' := by
  refine foldlM_induct (P := fun rest s => Settled lost rest s) ?_ ?_ hdrain
  · intro order rest s₁ s₂ hinv hstep
    exact hinv.resolved (fillResolvedOrder_resolved hstep)
  · refine ⟨fun order => ?_, fun order hmem hclosed => ?_⟩
    · have hbalanced := h.balanced order
      have hsplit := count_closeOrders_filter (latencyElapsed msc) s.latencyQueue.values order
      have hnil : closeOrders [] = [] := rfl
      rw [hnil, List.count_nil] at hbalanced
      simp only [Dict.values_filter] at hbalanced ⊢
      omega
    · rw [Dict.values_filter] at hmem
      exact h.queued order (List.mem_of_mem_filter hmem) hclosed

theorem quiet_monitorLimitOrders (hmonitor : monitorLimitOrders cfg s = .ok s') : Quiet s s' := by
  obtain ⟨⟨ledger, remaining⟩, hloop, hpure⟩ := bind_eq_ok.mp hmonitor
  cases hpure
  refine foldlM_induct (P := fun _ state => Quiet s
    { s with ledger := state.1, activeLimitOrders := state.2 }) ?_ ?_ hloop
  · rintro order rest ⟨ledger₁, kept⟩ state hinv hstep
    obtain ⟨hnot, rfl⟩ | ⟨entryType, fillType, ledger₂, hfill, rfl⟩ := monitorLimitOrder_eq_ok hstep
    · exact ⟨hinv.queue, hinv.events⟩
    · have hfilled : Quiet { s with ledger := ledger₁, activeLimitOrders := kept }
          { s with ledger := ledger₂, activeLimitOrders := kept } := quiet_openFill hfill
      exact hinv.trans hfilled
  · exact .of_log [] rfl (List.append_nil _).symm (by simp)

theorem quiet_monitorStopOrders
    (htypes : ∀ p ∈ s.activeStopOrders, p.orderType = some .stop ∨ p.orderType = some .stopLimit)
    (hmonitor : monitorStopOrders cfg s = .ok s') : Quiet s s' := by
  obtain ⟨⟨s₁, remaining⟩, hloop, hpure⟩ := bind_eq_ok.mp hmonitor
  cases hpure
  have hend := foldlM_induct (P := fun rest (state : TradeSimulator × List PendingOrder) =>
    (∀ p ∈ rest, p.orderType = some .stop ∨ p.orderType = some .stopLimit) ∧
      Quiet s { state.1 with activeStopOrders := state.2 }) ?_ ?_ hloop
  · exact hend.2
  · rintro order rest ⟨s₁, kept⟩ state ⟨htypes, hinv⟩ hstep
    refine ⟨fun p hp => htypes p (List.mem_cons_of_mem order hp), ?_⟩
    obtain ⟨hnot, rfl⟩ | ⟨placedOrder, s₂, hbecomes, hplaced, rfl⟩ :=
      monitorStopOrder_eq_ok (htypes order List.mem_cons_self) hstep
    · exact ⟨hinv.queue, hinv.events⟩
    · exact hinv.trans (quiet_placed hplaced)
  · exact ⟨htypes, .of_log [] rfl (List.append_nil _).symm (by simp)⟩

theorem quiet_resolvePendingOperations (hresolve : resolvePendingOperations s = .ok s') :
    Quiet s s' := by
  obtain ⟨tick, portfolio, modifications, -, -, rfl⟩ := resolvePendingOperations_eq_ok hresolve
  refine .of_log _ rfl (List.append_assoc _ _ _) fun event hevent => ?_
  rcases List.mem_append.mp hevent with hmem | hmem
  · exact unrelated_resolutionEvents hmem
  · exact unrelated_resolutionEvents hmem

/-- A close that does not come from the latency queue says nothing about submitted closes. -/
theorem quiet_closeFill {ledger : ExecutionLedger} {order : PendingOrder}
    {fillPrice : Option ℚ} {closeReason : CloseReason} (hreason : closeReason ≠ .manual)
    (hfill : fillCloseOrder cfg.executor s.market s.ledger order fillPrice closeReason =
      .ok ledger) : Quiet s { s with ledger := ledger } := by
  obtain ⟨records, hlog, hrecords⟩ := fillCloseOrder_log hfill
  refine .of_log _ rfl hlog fun event hevent => ?_
  rcases List.mem_cons.mp hevent with rfl | hmem
  · cases closeReason with
    | manual => exact absurd rfl hreason
    | slTriggered => exact ⟨rfl, rfl, rfl⟩
    | tpTriggered => exact ⟨rfl, rfl, rfl⟩
    | scenarioEnd => exact ⟨rfl, rfl, rfl⟩
  · exact unrelated_of_isFillRecord (hrecords event hmem)

theorem quiet_checkSlTpTriggers {tick : TickData}
    (hcheck : checkSlTpTriggers cfg s tick = .ok s') : Quiet s s' := by
  obtain ⟨ledger, hloop, hpure⟩ := bind_eq_ok.mp hcheck
  cases hpure
  refine foldlM_induct (P := fun _ ledger => Quiet s { s with ledger := ledger }) ?_ (.refl s) hloop
  intro position rest ledger₁ ledger₂ hinv hstep
  obtain ⟨rfl, -⟩ | ⟨level, closeReason, closed, hreason, -, hfill, rfl⟩ :=
    checkSlTpTrigger_eq_ok hstep
  · exact hinv
  · have hother : closeReason ≠ .manual := by
      rcases hreason with ⟨rfl, -⟩ | ⟨rfl, -⟩
      · simp
      · simp
    have hclosed : Quiet { s with ledger := ledger₁ } { s with ledger := closed } :=
      quiet_closeFill hother hfill
    exact ⟨hinv.queue, (hinv.trans hclosed).events⟩

theorem quiet_receiveTick (tick : TickData) : Quiet s (receiveTick s tick) :=
  .of_log [] rfl (List.append_nil _).symm (by simp)

theorem Settled.onTick {lost : List PendingOrder} {tick : TickData} (hinv : Conserved [] s)
    (h : Settled lost [] s) (htick : onTick cfg s tick = .ok s') : Settled lost [] s' := by
  obtain ⟨s₁, hprocess, hcheck⟩ := bind_eq_ok.mp htick
  obtain ⟨s₂, s₃, s₄, hresolve, hdrain, hlimits, hmonitored, hstops⟩ :=
    processPendingOrders_phases hinv hprocess
  have hresolved := (h.quiet (quiet_receiveTick tick)).quiet (quiet_resolvePendingOperations hresolve)
  have hquiet := (quiet_monitorLimitOrders hlimits).trans
    (quiet_monitorStopOrders hmonitored.stops hstops)
  exact (hresolved.drainLatencyQueue hdrain).quiet
    (hquiet.trans (quiet_checkSlTpTriggers hcheck))

theorem Settled.heartbeat {lost : List PendingOrder} (h : Settled lost [] s)
    (hbeat : heartbeat cfg s = .ok s') : Settled lost [] s' := by
  obtain ⟨rfl, -⟩ | ⟨_, _, resolved, -, -, hresolve, hdrain⟩ := heartbeat_eq_ok hbeat
  · exact h
  · exact (h.quiet (quiet_resolvePendingOperations hresolve)).drainLatencyQueue hdrain

end Phases

section Calls

variable {cfg : SimulatorConfig} {s s' : TradeSimulator}

def ClosesOnce (s : TradeSimulator) : SimulatorOp → Prop
  | .closePosition positionId _ =>
      s.ledger.portfolio.getPosition positionId = none ∨ isPendingClose s positionId = false
  | _ => True

instance (s : TradeSimulator) (op : SimulatorOp) : Decidable (ClosesOnce s op) := by
  unfold ClosesOnce
  split <;> infer_instance

/-- A queued order is an accepted OPEN order or the close of a filled order. -/
theorem accepted_of_queued {lost : List PendingOrder} (hinv : Conserved [] s)
    (h : Settled lost [] s) {order : PendingOrder} (hmem : order ∈ s.latencyQueue.values) :
    order.pendingOrderId ∈ acceptedIds s.ledger := by
  cases hopen : order.isOpen with
  | true => exact hinv.mem_accepted (mem_places_of_queued hmem hopen)
  | false =>
      have hfilled := h.queued order hmem hopen
      exact hinv.mem_accepted (by simp only [places, List.mem_append, hfilled, true_or, or_true])

theorem Settled.accept {lost : List PendingOrder} (hinv : Conserved [] s) (h : Settled lost [] s)
    (request : OpenOrderRequest) (tick : TickData) :
    Settled lost [] (accept cfg s request tick) := by
  let s₁ := SimulatorSteps.accept cfg s request tick
  let order := pendingOpenOrder (issuedId s request.symbol) request tick
    (cfg.inboundDelay s.delaysDrawn)
  have hnone : s.latencyQueue.get? order.pendingOrderId = none := by
    cases hqueued : s.latencyQueue.get? order.pendingOrderId with
    | none => rfl
    | some old =>
        have hold := accepted_of_queued hinv h (Dict.mem_values_of_get? hqueued)
        rw [hinv.keyed _ old hqueued] at hold
        exact absurd hold (hinv.issuedId_fresh request.symbol)
  let events : List AuditEvent := [.orderReceived order, .result .submission
    (pendingResult (issued s request.symbol) (issuedId s request.symbol) request)]
  have hlog : s₁.ledger.log = s.ledger.log ++ events := List.append_assoc _ [_] [_]
  have hreceived : events.filterMap receivedClose = [] := rfl
  have hpassed : events.filterMap passedClose = [] := rfl
  have hforced : events.filterMap forcedClose = [] := rfl
  have hqueue : s₁.latencyQueue = s.latencyQueue.set order.pendingOrderId order := rfl
  have hset := s.latencyQueue.values_set_perm order.pendingOrderId order
  rw [Dict.erase_eq_self_of_get?_none hnone] at hset
  refine ⟨fun o => ?_, fun o hmem hclosed => filledIds_of_log hlog ?_⟩
  · have hcloses : (closeOrders s₁.latencyQueue.values).count o =
        (closeOrders s.latencyQueue.values).count o :=
      (hset.filter fun o : PendingOrder => !o.isOpen).count_eq o
    show (receivedCloses s₁.ledger).count o = (passedCloses s₁.ledger).count o +
      (forcedCloses s₁.ledger).count o + (closeOrders s₁.latencyQueue.values).count o +
      (closeOrders []).count o + lost.count o
    rw [receivedCloses_of_log hlog, passedCloses_of_log hlog, forcedCloses_of_log hlog, hcloses,
      hreceived, hpassed, hforced, List.append_nil, List.append_nil, List.append_nil]
    exact h.balanced o
  · rw [hqueue] at hmem
    rcases Dict.mem_values_set hmem with rfl | hold
    · cases hclosed
    · exact h.queued o hold hclosed

theorem Settled.closeAccepted {lost : List PendingOrder} {positionId : String}
    {position : Position} {tick : TickData} {delay : ℤ} {lots : Option ℚ}
    (hinv : Conserved [] s) (h : Settled lost [] s)
    (hposition : s.ledger.portfolio.getPosition positionId = some position) :
    ∃ overwritten,
      Settled (overwritten ++ lost) [] (storeOrder s (pendingCloseOrder positionId tick delay lots)) ∧
      (overwritten = [] ↔ isPendingClose s positionId = false) := by
  let order := pendingCloseOrder positionId tick delay lots
  let s₁ := storeOrder s order
  have hfilled : positionId ∈ filledIds s.ledger := hinv.positions positionId (by simp [hposition])
  have hlog : s₁.ledger.log = s.ledger.log ++ [.orderReceived order] := rfl
  have hset := (s.latencyQueue.values_set_perm positionId order).filter fun o => !o.isOpen
  have hqueued : ∀ o ∈ s₁.latencyQueue.values, o.isOpen = false →
      o.pendingOrderId ∈ filledIds s₁.ledger := by
    intro o hmem hclosed
    apply filledIds_of_log hlog
    rcases Dict.mem_values_set hmem with rfl | hold
    · exact hfilled
    · exact h.queued o hold hclosed
  have hbalanced : ∀ overwritten,
      (∀ o, (closeOrders s.latencyQueue.values).count o =
        overwritten.count o + (closeOrders (s.latencyQueue.erase positionId).values).count o) →
      Settled (overwritten ++ lost) [] s₁ := by
    intro overwritten hsplit
    refine ⟨fun o => ?_, hqueued⟩
    have hold := h.balanced o
    have hcount : (closeOrders s₁.latencyQueue.values).count o =
        [order].count o + (closeOrders (s.latencyQueue.erase positionId).values).count o := by
      rw [← List.count_append]
      exact hset.count_eq o
    rw [receivedCloses_of_log hlog, passedCloses_of_log hlog, forcedCloses_of_log hlog, hcount]
    rw [hsplit o] at hold
    have hreceived : [AuditEvent.orderReceived order].filterMap receivedClose = [order] := rfl
    rw [hreceived]
    simp only [List.filterMap_cons, List.filterMap_nil, passedClose, forcedClose,
      List.append_nil, List.count_append] at hold ⊢
    omega
  cases hget : s.latencyQueue.get? positionId with
  | none =>
      refine ⟨[], hbalanced [] fun o => ?_, iff_of_true rfl ?_⟩
      · rw [Dict.erase_eq_self_of_get?_none hget, List.count_nil, Nat.zero_add]
      · refine List.any_eq_false.mpr fun o hmem => ?_
        obtain ⟨k, hk⟩ := Dict.get?_of_mem_values hmem
        have hkey := hinv.keyed k o hk
        have hne : o.pendingOrderId ≠ positionId := by
          rintro heq
          rw [← hkey, heq, hget] at hk
          cases hk
        simp [hne]
  | some old =>
      have hkey := hinv.keyed positionId old hget
      have hclosed : old.isOpen = false := by
        by_contra hopen
        apply hinv.not_queued_of_filled hfilled
        rw [← hkey]
        exact List.mem_map_of_mem (List.mem_filter.mpr
          ⟨Dict.mem_values_of_get? hget, by simpa using hopen⟩)
      have hsplit := (Dict.values_perm_of_get? hget).filter fun o => !o.isOpen
      rw [List.filter_cons, hclosed] at hsplit
      refine ⟨[old], hbalanced [old] fun o => ?_, iff_of_false (by simp) ?_⟩
      · rw [← List.count_append]
        exact hsplit.count_eq o
      · have hpending : isPendingClose s positionId = true := by
          refine List.any_eq_true.mpr ⟨old, Dict.mem_values_of_get? hget, ?_⟩
          have haction : old.orderAction = .closeOrder := by
            cases hact : old.orderAction with
            | closeOrder => rfl
            | openOrder => simp [PendingOrder.isOpen, hact] at hclosed
          simp [haction, hkey]
        simp [hpending]

theorem closesOnce_of_ne {op : SimulatorOp}
    (hop : ∀ positionId lots, op ≠ .closePosition positionId lots) : ClosesOnce s op := by
  cases op with
  | closePosition positionId lots => exact absurd rfl (hop positionId lots)
  | _ => trivial

/-- A step overwrites at most the close in flight of the position it closes. -/
theorem step_settled {lost : List PendingOrder} {op : SimulatorOp} (hinv : Conserved [] s)
    (h : Settled lost [] s) (hstep : Stepped cfg s op s') :
    ∃ overwritten, Settled (overwritten ++ lost) [] s' ∧ (overwritten = [] ↔ ClosesOnce s op) := by
  have hkeep : ClosesOnce s op → Quiet s s' →
      ∃ overwritten, Settled (overwritten ++ lost) [] s' ∧ (overwritten = [] ↔ ClosesOnce s op) :=
    fun honce hquiet => ⟨[], h.quiet hquiet, iff_of_true rfl honce⟩
  have hlog : ∀ ledger : ExecutionLedger, ledger.log = ledger.log ++ [] :=
    fun ledger => (List.append_nil ledger.log).symm
  cases hstep with
  | ticked htick => exact ⟨[], h.onTick hinv htick, iff_of_true rfl trivial⟩
  | beat hbeat => exact ⟨[], h.heartbeat hbeat, iff_of_true rfl trivial⟩
  | accepted htick hvalid => exact ⟨[], h.accept hinv _ _, iff_of_true rfl trivial⟩
  | closeAccepted hposition htick =>
      obtain ⟨overwritten, hsettled, hiff⟩ := h.closeAccepted hinv hposition
      refine ⟨overwritten, hsettled, hiff.trans ?_⟩
      simp [ClosesOnce, hposition]
  | ignored hclose =>
      refine hkeep ?_ (.refl s)
      cases op with
      | closePosition positionId lots => exact .inl (hclose positionId lots rfl)
      | _ => trivial
  | refused =>
      refine hkeep trivial (.of_log [.result .submission _] rfl rfl fun event hevent => ?_)
      rw [List.mem_singleton.mp hevent]
      exact ⟨rfl, rfl, rfl⟩
  | guardRecorded =>
      refine hkeep trivial (.of_log [.result .orderGuard _] rfl rfl fun event hevent => ?_)
      rw [List.mem_singleton.mp hevent]
      exact ⟨rfl, rfl, rfl⟩
  | limitScheduled hfind hstate hop =>
      exact hkeep (closesOnce_of_ne hop) (.of_log [] rfl (hlog _) (by simp))
  | stopScheduled hfind hstate hop =>
      exact hkeep (closesOnce_of_ne hop) (.of_log [] rfl (hlog _) (by simp))
  | clockSet => exact hkeep trivial (.of_log [] rfl (hlog _) (by simp))
  | positionScheduled => exact hkeep trivial (.of_log [] rfl (hlog _) (by simp))
  | positionModified => exact hkeep trivial (.of_log [] rfl (hlog _) (by simp))
  | queried hensure => exact hkeep trivial (.of_log [] rfl (hlog _) (by simp))

end Calls

section Runs

variable {cfg : SimulatorConfig} {s s' : TradeSimulator}

theorem Settled.closeAllRemainingOrders {lost : List PendingOrder} (h : Settled lost [] s)
    (hend : closeAllRemainingOrders cfg s = .ok s') :
    Settled lost [] s' ∧ s'.latencyQueue = ∅ := by
  obtain ⟨ledger₁, hpositions, hend⟩ := bind_eq_ok.mp hend
  obtain ⟨ledger₂, hlimits, hend⟩ := bind_eq_ok.mp hend
  obtain ⟨ledger₃, hstops, hpure⟩ := bind_eq_ok.mp hend
  cases hpure
  have hclosed : Quiet s { s with ledger := ledger₁ } := by
    refine foldlM_induct (P := fun _ ledger => Quiet s { s with ledger := ledger }) ?_
      (.refl s) hpositions
    intro position rest ledger ledger' hinv hstep
    have hfill : Quiet { s with ledger := ledger } { s with ledger := ledger' } :=
      quiet_closeFill (by simp) hstep
    exact hinv.trans hfill
  have hexpire : ∀ orders : List PendingOrder, ∀ ledger ledger',
      orders.foldlM (expireOrder cfg.executor s.market) ledger = .ok ledger' →
      Quiet { s with ledger := ledger } { s with ledger := ledger' } := by
    intro orders ledger ledger' hloop
    refine foldlM_induct (P := fun _ ledger' =>
      Quiet { s with ledger := ledger } { s with ledger := ledger' }) ?_ (.refl _) hloop
    intro order rest ledger₁ ledger₂ hinv hstep
    obtain ⟨now, -, hpure⟩ := bind_eq_ok.mp hstep
    cases hpure
    let ledger₃ := ledger₁.appendResult cfg.executor .expiry (expiredResult order now)
    have hexpired : Quiet { s with ledger := ledger₁ } { s with ledger := ledger₃ } :=
      .of_log [.result .expiry (expiredResult order now)] rfl rfl fun event hevent => by
        rw [List.mem_singleton.mp hevent]
        exact ⟨rfl, rfl, rfl⟩
    exact hinv.trans hexpired
  have hbefore : Settled lost [] { s with ledger := ledger₃ } :=
    h.quiet ((hclosed.trans (hexpire _ _ _ hlimits)).trans (hexpire _ _ _ hstops))
  let outcomes := s.latencyQueue.values.map fun order => AuditEvent.outcome order .forceClosed
  let s₁ := clearPending { s with ledger := ledger₃ }
  have hlog : s₁.ledger.log = ledger₃.log ++ outcomes := rfl
  have hreceived : outcomes.filterMap receivedClose = [] :=
    List.filterMap_eq_nil_iff.mpr fun event hevent => by
      obtain ⟨order, -, rfl⟩ := List.mem_map.mp hevent
      rfl
  have hpassed : outcomes.filterMap passedClose = [] :=
    List.filterMap_eq_nil_iff.mpr fun event hevent => by
      obtain ⟨order, -, rfl⟩ := List.mem_map.mp hevent
      rfl
  have hforced : outcomes.filterMap forcedClose = closeOrders s.latencyQueue.values := by
    rw [List.filterMap_map, closeOrders, ← List.filterMap_eq_filter]
    refine List.filterMap_congr fun order _ => ?_
    simp only [Function.comp_apply, forcedClose, Option.guard]
    by_cases hopen : order.isOpen = true <;> simp [hopen]
  refine ⟨⟨fun order => ?_, by simp [Dict.values, EmptyCollection.emptyCollection, Dict.empty,
    clearPending]⟩, rfl⟩
  show (receivedCloses s₁.ledger).count order = (passedCloses s₁.ledger).count order +
    (forcedCloses s₁.ledger).count order + (closeOrders []).count order +
    (closeOrders []).count order + lost.count order
  have hbalanced := hbefore.balanced order
  rw [receivedCloses_of_log hlog, passedCloses_of_log hlog, forcedCloses_of_log hlog, hreceived,
    hpassed, hforced, List.append_nil, List.append_nil, List.count_append]
  have hnil : closeOrders [] = [] := rfl
  simp only [hnil, List.count_nil] at hbalanced ⊢
  omega

/-- At the end of a session every accepted close has been passed on or forced, once each,
exactly when no close was accepted while one of the same position was in flight. -/
theorem closes_settle (cfg : SimulatorConfig) {ops : List SimulatorOp} {s s' : TradeSimulator}
    (hrun : run (step cfg) (Simulator.new cfg) ops = .ok s)
    (hend : closeAllRemainingOrders cfg s = .ok s') :
    (receivedCloses s'.ledger).Perm (passedCloses s'.ledger ++ forcedCloses s'.ledger) ↔
      StepsAll (step cfg) ClosesOnce (Simulator.new cfg) ops := by
  let Inv := fun s => Conserved [] s ∧ ∃ lost, Settled lost [] s
  have hinit : Settled [] [] (Simulator.new cfg) := by
    refine ⟨fun _ => rfl, fun order hmem => ?_⟩
    exact absurd hmem List.not_mem_nil
  have hstep : ∀ s op s', Inv s → step cfg s op = .ok s' →
      Inv s' ∧ (Settled [] [] s' ↔ Settled [] [] s ∧ ClosesOnce s op) := by
    rintro s op s' ⟨hinv, lost, hsettled⟩ hop
    obtain ⟨overwritten, hsettled', honce⟩ := step_settled hinv hsettled (step_stepped hop)
    refine ⟨⟨stepped_conserved hinv (step_stepped hop), _, hsettled'⟩, ?_⟩
    rw [settled_nil_iff hsettled', settled_nil_iff hsettled, List.append_eq_nil_iff, honce]
    exact and_comm
  have hgood := run_iff_stepsAll hstep ⟨conserved_new, [], hinit⟩ hrun
  obtain ⟨-, lost, hsettled⟩ : Inv s :=
    run_invariant (fun s op s' hinv hop => (hstep s op s' hinv hop).1)
      ⟨conserved_new, [], hinit⟩ hrun
  obtain ⟨hsettled', hqueue⟩ := hsettled.closeAllRemainingOrders hend
  have hperm : (receivedCloses s'.ledger).Perm (passedCloses s'.ledger ++ forcedCloses s'.ledger) ↔
      Settled [] [] s' := by
    have hempty : closeOrders s'.latencyQueue.values = [] := by
      rw [hqueue]
      rfl
    rw [List.perm_iff_count]
    constructor
    · intro hcount
      refine ⟨fun order => ?_, hsettled'.queued⟩
      rw [hcount order, hempty, List.count_append]
      rfl
    · intro hnil order
      rw [hnil.balanced order, hempty, List.count_append]
      rfl
  rw [hperm, settled_nil_iff hsettled', ← settled_nil_iff hsettled, hgood]
  exact and_iff_right hinit

def oneClose : List SimulatorOp :=
  [.tick (eurusdTick (11000 / 10000) (11002 / 10000) 1000),
    .openOrder { symbol := "EURUSD", orderType := .market, direction := .long, lots := 1 },
    .tick (eurusdTick (11000 / 10000) (11002 / 10000) 1010),
    .closePosition "pos_eurusd_1" (some (3 / 10))]

/-- A second close of the position before the latency of the first one has elapsed. -/
def overlappingCloses : List SimulatorOp :=
  oneClose ++ [.closePosition "pos_eurusd_1" (some (2 / 10)),
    .tick (eurusdTick (11000 / 10000) (11002 / 10000) 1020)]

def endSession (cfg : SimulatorConfig) (ops : List SimulatorOp) :
    Except PyError TradeSimulator := do
  let s ← run (step cfg) (Simulator.new cfg) ops
  closeAllRemainingOrders cfg s

theorem overlappingCloses_counts :
    (endSession forexSimulator overlappingCloses).map (fun s =>
      ((receivedCloses s.ledger).map PendingOrder.closeLots,
        (passedCloses s.ledger).map PendingOrder.closeLots, (forcedCloses s.ledger).length)) =
      .ok ([some (3 / 10), some (2 / 10)], [some (2 / 10)], 0) := by
  decide +kernel

/-- Of two overlapping partial closes the first one is lost. -/
theorem overlapping_close_lost :
    ∃ s s', run (step forexSimulator) (Simulator.new forexSimulator) overlappingCloses = .ok s ∧
      closeAllRemainingOrders forexSimulator s = .ok s' ∧
      ¬ (receivedCloses s'.ledger).Perm (passedCloses s'.ledger ++ forcedCloses s'.ledger) := by
  obtain ⟨s', hsession, hcounts⟩ := exists_of_map_eq_ok overlappingCloses_counts
  obtain ⟨s, hrun, hend⟩ := bind_eq_ok.mp hsession
  refine ⟨s, s', hrun, hend, fun hperm => ?_⟩
  obtain ⟨hreceived, hrest⟩ := Prod.mk.inj hcounts
  obtain ⟨hpassed, hforced⟩ := Prod.mk.inj hrest
  have hlength := hperm.length_eq
  rw [List.length_append, hforced, ← List.length_map PendingOrder.closeLots, hreceived,
    ← List.length_map PendingOrder.closeLots, hpassed] at hlength
  simp at hlength

theorem oneClose_counts :
    (endSession forexSimulator oneClose).map (fun s => (receivedCloses s.ledger).length) =
      .ok 1 := by
  decide +kernel

theorem closes_settle_oneClose :
    ∃ s s', run (step forexSimulator) (Simulator.new forexSimulator) oneClose = .ok s ∧
      closeAllRemainingOrders forexSimulator s = .ok s' ∧
      ((receivedCloses s'.ledger).Perm (passedCloses s'.ledger ++ forcedCloses s'.ledger) ↔
        StepsAll (step forexSimulator) ClosesOnce (Simulator.new forexSimulator) oneClose) := by
  obtain ⟨s', hsession, -⟩ := exists_of_map_eq_ok oneClose_counts
  obtain ⟨s, hrun, hend⟩ := bind_eq_ok.mp hsession
  exact ⟨s, s', hrun, hend, closes_settle forexSimulator hrun hend⟩

end Runs

end Finiex.SimulatorCloses
