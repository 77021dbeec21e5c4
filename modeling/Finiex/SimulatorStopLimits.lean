import Finiex.SimulatorConservation
import Mathlib.Tactic.NormNum

namespace Finiex.SimulatorStopLimits

open Finiex.Types
open Finiex.Lib
open Finiex.Lib.Run
open Finiex.Lib.Lists
open Finiex.Orders
open Finiex.OrderBooks
open Finiex.Portfolio
open Finiex.Portfolio.PortfolioManager
open Finiex.PortfolioLedger
open Finiex.Executor
open Finiex.ExecutorFills
open Finiex.AuditTrail
open Finiex.Simulator
open Finiex.SimulatorSpecs
open Finiex.SimulatorSteps
open Finiex.SimulatorConservation

section Trail

def limitAfter (orderId : String) (limit : Option ℚ) : AuditEvent → Option ℚ
  | .orderReceived order =>
      if order.isOpen ∧ order.pendingOrderId = orderId then
        if order.orderType = some .stopLimit then order.orderKwargs.limitPrice else none
      else limit
  | .modificationResolved id mod =>
      if id = orderId then limit.bind fun _ => mod.newLimitPrice.or mod.newPrice else limit
  | _ => limit

/-- The limit price in force for a STOP_LIMIT order, `none` for any other order. -/
def effectiveLimit (log : List AuditEvent) (orderId : String) : Option ℚ :=
  log.foldl (limitAfter orderId) none

def FillsAtLimit (before : List AuditEvent) : AuditEvent → Prop
  | .result .fill result =>
      result.status = .executed → result.action = some .openAction →
        ∀ limit, effectiveLimit before result.orderId = some limit →
          result.executedPrice = some limit
  | _ => True

/-- The event neither sets a limit price nor fills an order. -/
def Plain (event : AuditEvent) : Prop :=
  (∀ orderId limit, limitAfter orderId limit event = limit) ∧ ∀ before, FillsAtLimit before event

theorem effectiveLimit_append (log events : List AuditEvent) (orderId : String) :
    effectiveLimit (log ++ events) orderId =
      events.foldl (limitAfter orderId) (effectiveLimit log orderId) :=
  List.foldl_append

theorem foldl_limitAfter_eq_self {orderId : String} {events : List AuditEvent}
    (h : ∀ event ∈ events, ∀ limit, limitAfter orderId limit event = limit) (limit : Option ℚ) :
    events.foldl (limitAfter orderId) limit = limit := by
  induction events with
  | nil => rfl
  | cons event events ih =>
      rw [List.foldl_cons, h event List.mem_cons_self]
      exact ih fun e hmem => h e (List.mem_cons_of_mem event hmem)

theorem effectiveLimit_plain {log events : List AuditEvent} (h : ∀ event ∈ events, Plain event)
    (orderId : String) : effectiveLimit (log ++ events) orderId = effectiveLimit log orderId := by
  rw [effectiveLimit_append]
  exact foldl_limitAfter_eq_self (fun event hmem => (h event hmem).1 orderId) _

end Trail

def limitOf (order : PendingOrder) : Option ℚ :=
  if order.orderType = some .stopLimit then order.orderKwargs.limitPrice
  else if order.orderKwargs.fromStopLimit then order.entryPrice
  else none

/-- The order carries the limit price in force for it. -/
structure Faithful (log : List AuditEvent) (order : PendingOrder) : Prop where
  limit : limitOf order = effectiveLimit log order.pendingOrderId
  waiting : order.orderType = some .stopLimit → order.orderKwargs.limitPrice ≠ none ∧
    ∀ mod, order.pendingModification = some mod → mod.newLimitPrice ≠ none
  converted : order.orderKwargs.fromStopLimit = true →
    order.orderType = some .limit ∧ order.entryPrice ≠ none
  modification : ∀ mod, order.pendingModification = some mod → mod.newPrice ≠ none

theorem Faithful.plain {log events : List AuditEvent} {order : PendingOrder}
    (h : Faithful log order) (hevents : ∀ event ∈ events, Plain event) :
    Faithful (log ++ events) order := by
  refine ⟨?_, h.waiting, h.converted, h.modification⟩
  rw [effectiveLimit_plain hevents]
  exact h.limit

theorem Faithful.becomes {log : List AuditEvent} {order order' : PendingOrder}
    (h : Faithful log order) (hbecomes : Becomes order order') : Faithful log order' := by
  cases hbecomes with
  | same => exact h
  | converted htype =>
      obtain ⟨hlimit, -⟩ := h.waiting htype
      obtain ⟨limit, hsome⟩ := Option.ne_none_iff_exists'.mp hlimit
      have hcarried : limitOf order = some limit := by
        rw [limitOf, if_pos htype, hsome]
      refine ⟨?_, ?_, ?_, h.modification⟩
      · have hconverted : limitOf (convertedOrder order) = some limit := by
          simp [limitOf, convertedOrder, hsome]
        rw [hconverted, ← hcarried]
        exact h.limit
      · simp [convertedOrder]
      · simp [convertedOrder]

/-- The invariant of the limit prices, with the orders `inHand` between two places. -/
structure Honoured (inHand : List PendingOrder) (s : TradeSimulator) : Prop where
  fills : EachAfter FillsAtLimit s.ledger.log
  hand : ∀ order ∈ inHand, Faithful s.ledger.log order
  queue : ∀ order ∈ s.latencyQueue.values, order.isOpen = true → Faithful s.ledger.log order
  limits : ∀ order ∈ s.activeLimitOrders,
    Faithful s.ledger.log order ∧ order.orderType = some .limit
  stops : ∀ order ∈ s.activeStopOrders, Faithful s.ledger.log order

theorem Honoured.plain {inHand : List PendingOrder} {s : TradeSimulator} {ledger : ExecutionLedger}
    {events : List AuditEvent} (h : Honoured inHand s) (hlog : ledger.log = s.ledger.log ++ events)
    (hevents : ∀ event ∈ events, Plain event) : Honoured inHand { s with ledger := ledger } := by
  refine ⟨?_, ?_, ?_, ?_, ?_⟩ <;> simp only [hlog]
  · exact h.fills.append fun event hmem before => (hevents event hmem).2 before
  · exact fun order hmem => (h.hand order hmem).plain hevents
  · exact fun order hmem hopen => (h.queue order hmem hopen).plain hevents
  · exact fun order hmem => ⟨(h.limits order hmem).1.plain hevents, (h.limits order hmem).2⟩
  · exact fun order hmem => (h.stops order hmem).plain hevents

section Fills

variable {cfg : SimulatorConfig} {s s' : TradeSimulator}

/-- A fill of an order that carries the limit price in force executes at it. -/
theorem Honoured.openFill {inHand : List PendingOrder} {order : PendingOrder}
    {fillPrice : Option ℚ} {entryType : EntryType} {fillType : FillType}
    {ledger : ExecutionLedger} (h : Honoured inHand s) (hfaithful : Faithful s.ledger.log order)
    (htype : order.orderType ≠ some .stopLimit)
    (hprice : order.orderType = some .limit → fillPrice = order.entryPrice)
    (hfill : fillOpenOrder cfg.executor s.market s.ledger order fillPrice entryType fillType =
      .ok ledger) : Honoured inHand { s with ledger := ledger } := by
  have hcarried : ∀ limit, effectiveLimit s.ledger.log order.pendingOrderId = some limit →
      fillPrice = some limit := by
    intro limit heffective
    rw [← hfaithful.limit, limitOf, if_neg htype] at heffective
    split at heffective
    · next hfrom =>
        rw [hprice (hfaithful.converted hfrom).1]
        exact heffective
    · cases heffective
  obtain ⟨tick, spec, entryPrice, pm, -, -, -, hentry, -, hend⟩ := fillOpenOrder_eq_ok hfill
  obtain ⟨result, hlog, hresult⟩ : ∃ result : OrderResult,
      ledger.log = (s.ledger.log ++ [.result .fill result]) ++
        [.notified order.direction result (some order.pendingOrderId)] ∧
      FillsAtLimit s.ledger.log (.result .fill result) := by
    rcases hend with ⟨reason, message, rfl⟩ |
        ⟨tickValue, bid, ask, entryFee, trades, seq, pm', now, -, -, -, rfl⟩
    · exact ⟨_, rfl, fun hstatus => by cases hstatus⟩
    · refine ⟨_, rfl, fun _ _ limit heffective => ?_⟩
      exact congrArg some (hentry limit (hcarried limit heffective))
  have hkeep : ∀ o, Faithful s.ledger.log o → Faithful ledger.log o := by
    intro o ho
    refine ⟨?_, ho.waiting, ho.converted, ho.modification⟩
    rw [hlog, effectiveLimit_append, effectiveLimit_append]
    exact ho.limit
  refine ⟨?_, ?_, ?_, ?_, ?_⟩
  · show EachAfter FillsAtLimit ledger.log
    rw [hlog]
    exact eachAfter_concat.mpr ⟨eachAfter_concat.mpr ⟨h.fills, hresult⟩, trivial⟩
  · exact fun o hmem => hkeep o (h.hand o hmem)
  · exact fun o hmem hopen => hkeep o (h.queue o hmem hopen)
  · exact fun o hmem => ⟨hkeep o (h.limits o hmem).1, (h.limits o hmem).2⟩
  · exact fun o hmem => hkeep o (h.stops o hmem)

theorem plain_closeFill {ledger : ExecutionLedger} {order : PendingOrder}
    {fillPrice : Option ℚ} {closeReason : CloseReason}
    (hfill : fillCloseOrder cfg.executor s.market s.ledger order fillPrice closeReason =
      .ok ledger) :
    ∃ events, ledger.log = s.ledger.log ++ events ∧ ∀ event ∈ events, Plain event := by
  obtain ⟨tick, -, ⟨rfl, -⟩ | ⟨position, spec, closePrice, exitTickValue, closing, seq, trades, pm,
    pnl, now, result, -, -, -, -, -, -, -, -, hresult, rfl⟩⟩ := fillCloseOrder_eq_ok hfill
  · refine ⟨[.fillCloseOrder order closeReason], rfl, fun event hmem => ?_⟩
    rw [List.mem_singleton.mp hmem]
    exact ⟨fun _ _ => rfl, fun _ => trivial⟩
  · refine ⟨_, List.append_assoc _ _ _, fun event hmem => ?_⟩
    rcases List.mem_append.mp hmem with hmem | hmem
    · simp only [List.mem_cons, List.not_mem_nil, or_false] at hmem
      rcases hmem with rfl | rfl | rfl
      · exact ⟨fun _ _ => rfl, fun _ => trivial⟩
      · exact ⟨fun _ _ => rfl, fun _ => trivial⟩
      · refine ⟨fun _ _ => rfl, fun _ _ haction => ?_⟩
        rw [hresult] at haction
        cases haction
    · obtain ⟨lots, -, rfl⟩ := List.mem_map.mp hmem
      exact ⟨fun _ _ => rfl, fun _ => trivial⟩

theorem Honoured.placed {inHand : List PendingOrder} {order : PendingOrder}
    (h : Honoured inHand s) (hfaithful : Faithful s.ledger.log order)
    (hplaced : Placed cfg s order s') : Honoured inHand s' := by
  cases hplaced with
  | filled htype hprice hfill => exact h.openFill hfaithful htype hprice hfill
  | restsAsLimit htype hnot =>
      refine ⟨h.fills, h.hand, h.queue, fun o hmem => ?_, h.stops⟩
      rcases List.mem_append.mp hmem with hold | hnew
      · exact h.limits o hold
      · rw [List.mem_singleton.mp hnew]
        exact ⟨hfaithful, htype⟩
  | restsAsStop htype hnot =>
      refine ⟨h.fills, h.hand, h.queue, h.limits, fun o hmem => ?_⟩
      rcases List.mem_append.mp hmem with hold | hnew
      · exact h.stops o hold
      · rw [List.mem_singleton.mp hnew]
        exact hfaithful

end Fills

section Phases

variable {cfg : SimulatorConfig} {s s' : TradeSimulator}

theorem Honoured.note {inHand : List PendingOrder} {ledger : ExecutionLedger} {event : AuditEvent}
    (h : Honoured inHand s) (hlog : ledger.log = s.ledger.log ++ [event]) (hevent : Plain event) :
    Honoured inHand { s with ledger := ledger } :=
  h.plain hlog fun e hmem => by
    rw [List.mem_singleton.mp hmem]
    exact hevent

theorem Honoured.release {inHand inHand' : List PendingOrder} (h : Honoured inHand s)
    (hsubset : inHand' ⊆ inHand) : Honoured inHand' s :=
  ⟨h.fills, fun order hmem => h.hand order (hsubset hmem), h.queue, h.limits, h.stops⟩

theorem Honoured.resolved {inHand : List PendingOrder} {order : PendingOrder}
    (h : Honoured inHand s) (hfaithful : order.isOpen = true → Faithful s.ledger.log order)
    (hresolved : Resolved cfg s order s') : Honoured inHand s' := by
  cases hresolved with
  | @stressRejected calls rejections rejectionCount hopen =>
      have hasked : Honoured inHand { s with
          stressCalls := calls, stressRejections := rejections } :=
        ⟨h.fills, h.hand, h.queue, h.limits, h.stops⟩
      have hrejected : Honoured inHand { s with
          stressCalls := calls
          stressRejections := rejections
          ledger := rejectByStressTest cfg s.ledger order rejectionCount } :=
        hasked.note rfl ⟨fun _ _ => rfl, fun _ => trivial⟩
      exact hrejected.note rfl ⟨fun _ _ => rfl, fun _ => trivial⟩
  | @activated calls placedOrder placed hopen hbecomes hplaced =>
      have hasked : Honoured inHand { s with stressCalls := calls } :=
        ⟨h.fills, h.hand, h.queue, h.limits, h.stops⟩
      have hnow : Faithful s.ledger.log order := hfaithful (by simp [PendingOrder.isOpen, hopen])
      exact (hasked.placed (hnow.becomes hbecomes) hplaced).note rfl
        ⟨fun _ _ => rfl, fun _ => trivial⟩
  | closed hclose hfill =>
      obtain ⟨events, hlog, hevents⟩ := plain_closeFill hfill
      exact (h.plain hlog hevents).note rfl ⟨fun _ _ => rfl, fun _ => trivial⟩

theorem Honoured.drainLatencyQueue {msc : ℤ} (h : Honoured [] s)
    (hdrain : drainLatencyQueue cfg s msc = .ok s') : Honoured [] s' := by
  refine foldlM_induct (P := fun rest s => Honoured (rest.filter PendingOrder.isOpen) s) ?_ ?_
    hdrain
  · intro order rest s₁ s₂ hinv hstep
    have hrest : rest.filter PendingOrder.isOpen ⊆
        (order :: rest).filter PendingOrder.isOpen :=
      List.filter_subset _ (List.subset_cons_self order rest)
    refine (hinv.release hrest).resolved (fun hopen => hinv.hand order ?_)
      (fillResolvedOrder_resolved hstep)
    exact List.mem_filter.mpr ⟨List.mem_cons_self, hopen⟩
  · refine ⟨h.fills, fun order hmem => ?_, fun order hmem => ?_, h.limits, h.stops⟩
    · obtain ⟨hready, hopen⟩ := List.mem_filter.mp hmem
      exact h.queue order (List.mem_of_mem_filter hready) hopen
    · rw [Dict.values_filter] at hmem
      exact h.queue order (List.mem_of_mem_filter hmem)

theorem Honoured.monitorLimitOrders (h : Honoured [] s)
    (hmonitor : monitorLimitOrders cfg s = .ok s') : Honoured [] s' := by
  obtain ⟨⟨ledger, remaining⟩, hloop, hpure⟩ := bind_eq_ok.mp hmonitor
  cases hpure
  have hend := foldlM_induct (P := fun rest (state : ExecutionLedger × List PendingOrder) =>
    (∀ order ∈ rest, order.orderType = some .limit) ∧
      Honoured rest { s with ledger := state.1, activeLimitOrders := state.2 }) ?_ ?_ hloop
  · exact hend.2
  · rintro order rest ⟨ledger₁, kept⟩ state ⟨htypes, hinv⟩ hstep
    refine ⟨fun o hmem => htypes o (List.mem_cons_of_mem order hmem), ?_⟩
    have hrest := hinv.release (List.subset_cons_self order rest)
    have htype := htypes order List.mem_cons_self
    have hfaithful := hinv.hand order List.mem_cons_self
    obtain ⟨hnot, rfl⟩ | ⟨entryType, fillType, ledger₂, hfill, rfl⟩ :=
      monitorLimitOrder_eq_ok hstep
    · refine ⟨hrest.fills, hrest.hand, hrest.queue, fun o hmem => ?_, hrest.stops⟩
      rcases List.mem_append.mp hmem with hold | hnew
      · exact hrest.limits o hold
      · rw [List.mem_singleton.mp hnew]
        exact ⟨hfaithful, htype⟩
    · exact hrest.openFill hfaithful (by simp [htype]) (fun _ => rfl) hfill
  · exact ⟨fun order hmem => (h.limits order hmem).2, h.fills,
      fun order hmem => (h.limits order hmem).1, h.queue,
      fun order hmem => absurd hmem List.not_mem_nil, h.stops⟩

theorem Honoured.monitorStopOrders (h : Honoured [] s)
    (htypes : ∀ p ∈ s.activeStopOrders, p.orderType = some .stop ∨ p.orderType = some .stopLimit)
    (hmonitor : monitorStopOrders cfg s = .ok s') : Honoured [] s' := by
  obtain ⟨⟨s₁, remaining⟩, hloop, hpure⟩ := bind_eq_ok.mp hmonitor
  cases hpure
  have hend := foldlM_induct (P := fun rest (state : TradeSimulator × List PendingOrder) =>
    (∀ p ∈ rest, p.orderType = some .stop ∨ p.orderType = some .stopLimit) ∧
      Honoured rest { state.1 with activeStopOrders := state.2 }) ?_ ?_ hloop
  · exact hend.2
  · rintro order rest ⟨s₁, kept⟩ state ⟨htypes, hinv⟩ hstep
    refine ⟨fun p hp => htypes p (List.mem_cons_of_mem order hp), ?_⟩
    have hrest := hinv.release (List.subset_cons_self order rest)
    have htype := htypes order List.mem_cons_self
    have hfaithful := hinv.hand order List.mem_cons_self
    obtain ⟨hnot, rfl⟩ | ⟨placedOrder, s₂, hbecomes, hplaced, rfl⟩ :=
      monitorStopOrder_eq_ok htype hstep
    · have hrests : Placed cfg { s₁ with activeStopOrders := kept } order
          { s₁ with activeStopOrders := kept ++ [order] } := .restsAsStop htype hnot
      exact hrest.placed hfaithful hrests
    · exact hrest.placed (hfaithful.becomes hbecomes) hplaced
  · exact ⟨htypes, h.fills, h.stops, h.queue, h.limits,
      fun order hmem => absurd hmem List.not_mem_nil⟩

theorem Honoured.checkSlTpTriggers {tick : TickData} (h : Honoured [] s)
    (hcheck : checkSlTpTriggers cfg s tick = .ok s') : Honoured [] s' := by
  obtain ⟨ledger, hloop, hpure⟩ := bind_eq_ok.mp hcheck
  cases hpure
  refine foldlM_induct (P := fun _ ledger => Honoured [] { s with ledger := ledger }) ?_ h hloop
  intro position rest ledger₁ ledger₂ hinv hstep
  obtain ⟨rfl, -⟩ | ⟨level, closeReason, closed, -, -, hfill, rfl⟩ := checkSlTpTrigger_eq_ok hstep
  · exact hinv
  · obtain ⟨events, hlog, hevents⟩ := plain_closeFill (s := { s with ledger := ledger₁ }) hfill
    exact hinv.plain hlog hevents

end Phases

section Resolution

def resolvedLimit (msc : ℤ) (order : PendingOrder) (limit : Option ℚ) : Option ℚ :=
  match dueModification msc order with
  | some mod => limit.bind fun _ => mod.newLimitPrice.or mod.newPrice
  | none => limit

def modificationEvents (msc : ℤ) (orders : List PendingOrder) : List AuditEvent :=
  orders.filterMap fun pending => (dueModification msc pending).map
    (AuditEvent.modificationResolved pending.pendingOrderId)

theorem foldl_modificationEvents_of_not_mem {msc : ℤ} {orderId : String}
    {orders : List PendingOrder} (h : orderId ∉ orderIds orders) (limit : Option ℚ) :
    (modificationEvents msc orders).foldl (limitAfter orderId) limit = limit := by
  refine foldl_limitAfter_eq_self (fun event hmem limit => ?_) limit
  obtain ⟨order, horder, hdue⟩ := List.mem_filterMap.mp hmem
  obtain ⟨mod, -, rfl⟩ := Option.map_eq_some_iff.mp hdue
  have hne : order.pendingOrderId ≠ orderId := by
    rintro rfl
    exact h (List.mem_map_of_mem horder)
  simp [limitAfter, hne]

theorem foldl_resolutionEvents (msc : ℤ) (orderId : String) (orders : List PendingOrder)
    (limit : Option ℚ) : (resolutionEvents msc orders).foldl (limitAfter orderId) limit =
      (modificationEvents msc orders).foldl (limitAfter orderId) limit := by
  rw [resolutionEvents, List.foldl_append]
  refine foldl_limitAfter_eq_self (fun event hmem limit => ?_) _
  obtain ⟨order, -, rfl⟩ := List.mem_map.mp hmem
  rfl

theorem foldl_modificationEvents {msc : ℤ} {orders : List PendingOrder}
    (hnodup : (orderIds orders).Nodup) {order : PendingOrder} (hmem : order ∈ orders)
    (limit : Option ℚ) :
    (modificationEvents msc orders).foldl (limitAfter order.pendingOrderId) limit =
      resolvedLimit msc order limit := by
  induction orders generalizing limit with
  | nil => exact absurd hmem List.not_mem_nil
  | cons p ps ih =>
      obtain ⟨hnot, hrest⟩ := List.nodup_cons.mp hnodup
      have hsplit : modificationEvents msc (p :: ps) =
          ((dueModification msc p).map
            (AuditEvent.modificationResolved p.pendingOrderId)).toList ++
              modificationEvents msc ps := by
        rw [modificationEvents, List.filterMap_cons]
        cases dueModification msc p <;> rfl
      rw [hsplit, List.foldl_append]
      rcases List.mem_cons.mp hmem with rfl | hmem
      · rw [foldl_modificationEvents_of_not_mem hnot, resolvedLimit]
        cases dueModification msc order with
        | none => rfl
        | some mod => simp [limitAfter]
      · rw [ih hrest hmem]
        have hne : p.pendingOrderId ≠ order.pendingOrderId := by
          intro heq
          apply hnot
          rw [heq]
          exact List.mem_map_of_mem hmem
        cases dueModification msc p with
        | none => rfl
        | some mod => simp [limitAfter, hne]

/-- A due modification of a converted order that was made for its trigger would move the
limit away from the limit value it carries. -/
def KeepsLimit (msc : ℤ) (order : PendingOrder) : Prop :=
  order.orderKwargs.fromStopLimit = true →
    ∀ mod ∈ dueModification msc order, mod.newLimitPrice = none ∨ mod.newLimitPrice = mod.newPrice

instance (msc : ℤ) (order : PendingOrder) : Decidable (KeepsLimit msc order) :=
  inferInstanceAs (Decidable (_ → _))

theorem dueModification_eq_some {msc : ℤ} {order : PendingOrder} {mod : ModificationRequest}
    (h : dueModification msc order = some mod) : order.pendingModification = some mod := by
  unfold dueModification at h
  split at h
  · exact (Option.filter_eq_some_iff.mp h).1
  · cases h

theorem Faithful.resolve {log log' : List AuditEvent} {msc : ℤ} {order : PendingOrder}
    (h : Faithful log order) (hkeeps : KeepsLimit msc order)
    (hlog : effectiveLimit log' order.pendingOrderId =
      resolvedLimit msc order (effectiveLimit log order.pendingOrderId)) :
    Faithful log' (resolveModification msc order) := by
  rw [← h.limit, resolvedLimit] at hlog
  unfold resolveModification
  cases hdue : dueModification msc order with
  | none =>
      rw [hdue] at hlog
      exact ⟨hlog.symm, h.waiting, h.converted, h.modification⟩
  | some mod =>
      have hmod := dueModification_eq_some hdue
      have hprice := h.modification mod hmod
      simp only [hdue] at hlog
      by_cases htype : order.orderType = some .stopLimit
      · obtain ⟨hlimit, hmods⟩ := h.waiting htype
        obtain ⟨limit, hnew⟩ := Option.ne_none_iff_exists'.mp (hmods mod hmod)
        obtain ⟨old, hold⟩ := Option.ne_none_iff_exists'.mp hlimit
        refine ⟨?_, ?_, ?_, ?_⟩
        · show limitOf _ = effectiveLimit log' order.pendingOrderId
          rw [hlog, limitOf, limitOf, if_pos htype, hold]
          simp [applyPendingModification, htype, hnew]
        · simp [applyPendingModification, PendingOrder.pendingModification, hnew]
        · intro hfrom
          have hconverted := (h.converted hfrom).1
          rw [htype] at hconverted
          cases hconverted
        · simp [applyPendingModification, PendingOrder.pendingModification]
      · refine ⟨?_, fun hstop => absurd hstop htype, fun hfrom => ⟨(h.converted hfrom).1, hprice⟩, ?_⟩
        · show limitOf _ = effectiveLimit log' order.pendingOrderId
          have htype' : (applyPendingModification order mod).orderType ≠ some .stopLimit := htype
          rw [hlog, limitOf, limitOf, if_neg htype, if_neg htype']
          cases hfrom : order.orderKwargs.fromStopLimit with
          | false => simp [applyPendingModification, hfrom]
          | true =>
              obtain ⟨price, hentry⟩ := Option.ne_none_iff_exists'.mp (h.converted hfrom).2
              simp only [applyPendingModification, hfrom, if_true, hentry, Option.bind_some]
              rcases hkeeps hfrom mod hdue with hnone | hsame
              · rw [hnone]
                rfl
              · rw [hsame]
                cases mod.newPrice <;> rfl
        · simp [applyPendingModification, PendingOrder.pendingModification]

theorem plain_resolutionEvents_fills {msc : ℤ} {orders : List PendingOrder} {event : AuditEvent}
    (hmem : event ∈ resolutionEvents msc orders) (before : List AuditEvent) :
    FillsAtLimit before event := by
  obtain ⟨orderId, mod, rfl⟩ | ⟨orderId, direction, rfl⟩ := mem_resolutionEvents hmem
  · trivial
  · trivial

variable {s s' : TradeSimulator}

theorem Honoured.resolvePendingOperations (hconserved : Conserved [] s) (h : Honoured [] s)
    (hkeeps : ∀ tick, s.market.currentTick = some tick →
      ∀ order ∈ s.activeLimitOrders, KeepsLimit (getTickMsc tick) order)
    (hresolve : resolvePendingOperations s = .ok s') : Honoured [] s' := by
  obtain ⟨tick, portfolio, modifications, htick, -, rfl⟩ := resolvePendingOperations_eq_ok hresolve
  let msc := getTickMsc tick
  have hcount : ∀ orderId, (openIds s.latencyQueue.values).count orderId +
      (orderIds s.activeLimitOrders).count orderId +
      (orderIds s.activeStopOrders).count orderId ≤ 1 := by
    intro orderId
    have hone := hconserved.count_places_le_one orderId
    simp only [places, List.count_append] at hone
    omega
  have hlimitIds : (orderIds s.activeLimitOrders).Nodup :=
    List.nodup_iff_count_le_one.mpr fun orderId => by
      have := hcount orderId
      omega
  have hstopIds : (orderIds s.activeStopOrders).Nodup :=
    List.nodup_iff_count_le_one.mpr fun orderId => by
      have := hcount orderId
      omega
  let log' := s.ledger.log ++ resolutionEvents msc s.activeLimitOrders ++
    resolutionEvents msc s.activeStopOrders
  have hfold : ∀ orderId, effectiveLimit log' orderId =
      (modificationEvents msc s.activeStopOrders).foldl (limitAfter orderId)
        ((modificationEvents msc s.activeLimitOrders).foldl (limitAfter orderId)
          (effectiveLimit s.ledger.log orderId)) := by
    intro orderId
    rw [effectiveLimit_append, effectiveLimit_append, foldl_resolutionEvents,
      foldl_resolutionEvents]
  have hmemId : ∀ {orders : List PendingOrder} {order}, order ∈ orders →
      0 < (orderIds orders).count order.pendingOrderId := fun hmem =>
    List.count_pos_iff.mpr (List.mem_map_of_mem hmem)
  refine ⟨?_, fun order hmem => absurd hmem List.not_mem_nil, fun order hmem hopen => ?_,
    fun order hmem => ?_, fun order hmem => ?_⟩
  · show EachAfter FillsAtLimit log'
    exact (h.fills.append fun event hmem before => plain_resolutionEvents_fills hmem before).append
      fun event hmem before => plain_resolutionEvents_fills hmem before
  · have hqueued : 0 < (openIds s.latencyQueue.values).count order.pendingOrderId :=
      hmemId (List.mem_filter.mpr ⟨hmem, hopen⟩)
    have hone := hcount order.pendingOrderId
    have hlimits : order.pendingOrderId ∉ orderIds s.activeLimitOrders :=
      List.count_eq_zero.mp (by omega)
    have hstops : order.pendingOrderId ∉ orderIds s.activeStopOrders :=
      List.count_eq_zero.mp (by omega)
    have hold := h.queue order hmem hopen
    refine ⟨?_, hold.waiting, hold.converted, hold.modification⟩
    show limitOf order = effectiveLimit log' order.pendingOrderId
    rw [hfold, foldl_modificationEvents_of_not_mem hlimits,
      foldl_modificationEvents_of_not_mem hstops]
    exact hold.limit
  · obtain ⟨before, hbefore, rfl, -⟩ := mem_resolveActiveOrders.mp hmem
    have hone := hcount before.pendingOrderId
    have hlisted := hmemId hbefore
    have hstops : before.pendingOrderId ∉ orderIds s.activeStopOrders :=
      List.count_eq_zero.mp (by omega)
    obtain ⟨hold, htype⟩ := h.limits before hbefore
    refine ⟨hold.resolve (hkeeps tick htick before hbefore) ?_, ?_⟩
    · show effectiveLimit log' before.pendingOrderId = _
      rw [hfold, foldl_modificationEvents hlimitIds hbefore,
        foldl_modificationEvents_of_not_mem hstops]
    · rw [resolveModification_orderType]
      exact htype
  · obtain ⟨before, hbefore, rfl, -⟩ := mem_resolveActiveOrders.mp hmem
    have hone := hcount before.pendingOrderId
    have hlisted := hmemId hbefore
    have hlimits : before.pendingOrderId ∉ orderIds s.activeLimitOrders :=
      List.count_eq_zero.mp (by omega)
    have hold := h.stops before hbefore
    have hwaiting : KeepsLimit msc before := by
      intro hfrom
      have hconverted := (hold.converted hfrom).1
      rcases hconserved.stops before hbefore with htype | htype
      · rw [htype] at hconverted
        cases hconverted
      · rw [htype] at hconverted
        cases hconverted
    refine hold.resolve hwaiting ?_
    show effectiveLimit log' before.pendingOrderId = _
    rw [hfold, foldl_modificationEvents_of_not_mem hlimits,
      foldl_modificationEvents hstopIds hbefore]

end Resolution

section Runs

variable {cfg : SimulatorConfig} {s s' : TradeSimulator}

/-- No due modification of a converted order carries a limit value that differs from its
trigger value. -/
def HonoursLimits (s : TradeSimulator) : SimulatorOp → Prop
  | .tick tick => ∀ order ∈ s.activeLimitOrders, KeepsLimit (getTickMsc tick) order
  | .heartbeat => ∀ tick ∈ s.market.currentTick,
      ∀ order ∈ s.activeLimitOrders, KeepsLimit (getTickMsc tick) order
  | _ => True

instance (s : TradeSimulator) (op : SimulatorOp) : Decidable (HonoursLimits s op) := by
  unfold HonoursLimits
  split <;> infer_instance

theorem Honoured.onTick {tick : TickData} (hconserved : Conserved [] s) (h : Honoured [] s)
    (hkeeps : HonoursLimits s (.tick tick)) (htick : onTick cfg s tick = .ok s') :
    Honoured [] s' := by
  obtain ⟨s₁, hprocess, hcheck⟩ := bind_eq_ok.mp htick
  obtain ⟨s₂, s₃, s₄, hresolve, hdrain, hlimits, hmonitored, hstops⟩ :=
    processPendingOrders_phases hconserved hprocess
  have hreceived := hconserved.receiveTick tick
  have hstart : Honoured [] (receiveTick s tick) :=
    ⟨h.fills, h.hand, h.queue, h.limits, h.stops⟩
  have hresolved : Honoured [] s₂ := by
    refine hstart.resolvePendingOperations hreceived (fun tick' htick' => ?_) hresolve
    obtain rfl : tick = tick' := Option.some.inj htick'
    exact hkeeps
  exact ((hresolved.drainLatencyQueue hdrain).monitorLimitOrders hlimits).monitorStopOrders
    hmonitored.stops hstops |>.checkSlTpTriggers hcheck

theorem Honoured.heartbeat (hconserved : Conserved [] s) (h : Honoured [] s)
    (hkeeps : HonoursLimits s .heartbeat) (hbeat : heartbeat cfg s = .ok s') : Honoured [] s' := by
  obtain ⟨rfl, -⟩ | ⟨_, _, resolved, -, -, hresolve, hdrain⟩ := heartbeat_eq_ok hbeat
  · exact h
  · exact (h.resolvePendingOperations hconserved hkeeps hresolve).drainLatencyQueue hdrain

theorem Faithful.scheduled {log : List AuditEvent} {market : MarketState} {order : PendingOrder}
    {fromStops : Bool} {state : PendingOrderExecutionState} (h : Faithful log order)
    (hstate : Scheduled market order fromStops state)
    (hplace : order.orderType = some .stopLimit → fromStops = true) :
    Faithful log { order with executionState := state } := by
  cases hstate with
  | cancel hidle hmsc => exact ⟨h.limit, h.waiting, h.converted, h.modification⟩
  | modify hidle hmsc happly hprice hlimit =>
      refine ⟨h.limit, fun htype => ⟨(h.waiting htype).1, ?_⟩, h.converted, ?_⟩
      · rintro mod hmod
        cases hmod
        exact hlimit.mpr ⟨hplace htype, htype⟩
      · rintro mod hmod
        cases hmod
        exact hprice

theorem requirePositive_eq_none {price : Option ℚ} {message : Option ℚ → RejectionMessage}
    (h : requirePositive price message = none) : price ≠ none := by
  cases price with
  | none => cases h
  | some p => simp

theorem stopLimit_prices {request : OpenOrderRequest}
    (hvalid : submissionRejection cfg request = .ok none) (htype : request.orderType = .stopLimit) :
    request.stopPrice ≠ none ∧ request.price ≠ none := by
  have htyped : orderTypeRejection request = none := by
    obtain ⟨rejection, hrejection, hvalid⟩ := bind_eq_ok.mp hvalid
    cases rejection with
    | some message => cases hvalid
    | none =>
        simp only at hvalid
        split at hvalid
        · cases hvalid
        · exact Except.ok.inj hvalid
  simp only [orderTypeRejection, htype, Option.map_eq_none_iff, Option.or_eq_none_iff] at htyped
  exact ⟨requirePositive_eq_none htyped.1, requirePositive_eq_none htyped.2⟩

theorem Honoured.accept {request : OpenOrderRequest} {tick : TickData}
    (hconserved : Conserved [] s) (h : Honoured [] s)
    (hvalid : submissionRejection cfg request = .ok none) :
    Honoured [] (accept cfg s request tick) := by
  let s₁ := SimulatorSteps.accept cfg s request tick
  let order := pendingOpenOrder (issuedId s request.symbol) request tick
    (cfg.inboundDelay s.delaysDrawn)
  let result := pendingResult (issued s request.symbol) (issuedId s request.symbol) request
  have hlog : s₁.ledger.log = (s.ledger.log ++ [.orderReceived order]) ++
    [.result .submission result] := rfl
  have hopen : order.isOpen = true := rfl
  have hlimit : ∀ orderId, effectiveLimit s₁.ledger.log orderId =
      limitAfter orderId (effectiveLimit s.ledger.log orderId) (.orderReceived order) := by
    intro orderId
    rw [hlog, effectiveLimit_append, effectiveLimit_append]
    rfl
  -- the new order id is fresh, so the orders already there keep their limits
  have hkeep : ∀ o, o.pendingOrderId ∈ places s → Faithful s.ledger.log o →
      Faithful s₁.ledger.log o := by
    intro o hplaced ho
    have hne : order.pendingOrderId ≠ o.pendingOrderId := by
      intro heq
      apply hconserved.issuedId_fresh request.symbol
      have haccepted := hconserved.mem_accepted hplaced
      rwa [← heq] at haccepted
    refine ⟨?_, ho.waiting, ho.converted, ho.modification⟩
    rw [hlimit, limitAfter, if_neg fun hboth => hne hboth.2]
    exact ho.limit
  have hnew : Faithful s₁.ledger.log order := by
    refine ⟨?_, fun htype => ⟨?_, ?_⟩, ?_, ?_⟩
    · rw [hlimit, limitAfter, if_pos ⟨hopen, rfl⟩, limitOf]
      rfl
    · have hrequest : request.orderType = .stopLimit := Option.some.inj htype
      obtain ⟨hstop, hprice⟩ := stopLimit_prices hvalid hrequest
      obtain ⟨stop, hsome⟩ := Option.ne_none_iff_exists'.mp hstop
      simp only [order, pendingOpenOrder, hrequest, hsome]
      exact hprice
    · rintro mod hmod
      cases hmod
    · intro hfrom
      cases hfrom
    · rintro mod hmod
      cases hmod
  refine ⟨?_, fun o hmem => absurd hmem List.not_mem_nil, fun o hmem ho => ?_, fun o hmem => ?_,
    fun o hmem => ?_⟩
  · show EachAfter FillsAtLimit s₁.ledger.log
    rw [hlog]
    exact eachAfter_concat.mpr ⟨eachAfter_concat.mpr ⟨h.fills, trivial⟩, trivial⟩
  · rcases Dict.mem_values_set hmem with rfl | hold
    · exact hnew
    · exact hkeep o (mem_places_of_queued hold ho) (h.queue o hold ho)
  · exact ⟨hkeep o (mem_places_of_limit hmem) (h.limits o hmem).1, (h.limits o hmem).2⟩
  · exact hkeep o (mem_places_of_stop hmem) (h.stops o hmem)

theorem Honoured.stepped {op : SimulatorOp} (hconserved : Conserved [] s) (h : Honoured [] s)
    (hkeeps : HonoursLimits s op) (hstep : Stepped cfg s op s') : Honoured [] s' := by
  cases hstep with
  | ticked htick => exact h.onTick hconserved hkeeps htick
  | beat hbeat => exact h.heartbeat hconserved hkeeps hbeat
  | accepted htick hvalid => exact h.accept hconserved hvalid
  | clockSet => exact ⟨h.fills, h.hand, h.queue, h.limits, h.stops⟩
  | ignored hclose => exact h
  | positionScheduled => exact ⟨h.fills, h.hand, h.queue, h.limits, h.stops⟩
  | positionModified => exact ⟨h.fills, h.hand, h.queue, h.limits, h.stops⟩
  | queried hensure => exact ⟨h.fills, h.hand, h.queue, h.limits, h.stops⟩
  | @refused request normalized reason message =>
      have hrefused : Honoured [] { s with
          ledger := (refuse cfg s normalized reason message).ledger } :=
        h.note rfl ⟨fun _ _ => rfl, fun _ => trivial⟩
      exact ⟨hrefused.fills, hrefused.hand, hrefused.queue, hrefused.limits, hrefused.stops⟩
  | guardRecorded => exact h.note rfl ⟨fun _ _ => rfl, fun _ => trivial⟩
  | @closeAccepted positionId lots position tick hposition htick =>
      let order := pendingCloseOrder positionId tick (cfg.inboundDelay s.delaysDrawn) lots
      have hreceived : Honoured [] { s with ledger := s.ledger.record (.orderReceived order) } :=
        h.note rfl ⟨fun _ _ => rfl, fun _ => trivial⟩
      refine ⟨hreceived.fills, hreceived.hand, fun o hmem hopen => ?_, hreceived.limits,
        hreceived.stops⟩
      rcases Dict.mem_values_set hmem with rfl | hold
      · cases hopen
      · exact hreceived.queue o hold hopen
  | limitScheduled hfind hstate hop =>
      refine ⟨h.fills, h.hand, h.queue, fun order hmem => ?_, h.stops⟩
      rcases mem_updateOrder hmem with hold | ⟨before, hbefore, rfl⟩
      · exact h.limits order hold
      · obtain rfl := Option.some.inj (hbefore.symm.trans hfind)
        obtain ⟨hfaithful, htype⟩ := h.limits before (mem_of_findOrder hbefore)
        refine ⟨hfaithful.scheduled hstate fun hstop => ?_, htype⟩
        rw [htype] at hstop
        cases hstop
  | stopScheduled hfind hstate hop =>
      refine ⟨h.fills, h.hand, h.queue, h.limits, fun order hmem => ?_⟩
      rcases mem_updateOrder hmem with hold | ⟨before, hbefore, rfl⟩
      · exact h.stops order hold
      · obtain rfl := Option.some.inj (hbefore.symm.trans hfind)
        exact (h.stops before (mem_of_findOrder hbefore)).scheduled hstate fun _ => rfl

/-- In every run that resolves no trigger modification on a converted order, every fill of
a STOP_LIMIT order executes at the limit price in force at the fill. -/
theorem stop_limit_fills (cfg : SimulatorConfig) {ops : List SimulatorOp} {s : TradeSimulator}
    (hrun : run (step cfg) (Simulator.new cfg) ops = .ok s)
    (hall : StepsAll (step cfg) HonoursLimits (Simulator.new cfg) ops) :
    EachAfter FillsAtLimit s.ledger.log := by
  have hinit : Honoured [] (Simulator.new cfg) :=
    ⟨eachAfter_nil, fun _ hmem => absurd hmem List.not_mem_nil,
      fun _ hmem => absurd hmem List.not_mem_nil, fun _ hmem => absurd hmem List.not_mem_nil,
      fun _ hmem => absurd hmem List.not_mem_nil⟩
  have hinv : Conserved [] s ∧ Honoured [] s := by
    refine run_invariant_of_stepsAll (I := fun s => Conserved [] s ∧ Honoured [] s) ?_
      ⟨conserved_new, hinit⟩ hall hrun
    rintro s op s' ⟨hconserved, hhonoured⟩ hkeeps hop
    have hstepped := step_stepped hop
    exact ⟨stepped_conserved hconserved hstepped,
      hhonoured.stepped hconserved hkeeps hstepped⟩
  exact hinv.2.fills

def waitingStopLimit : List SimulatorOp :=
  [.tick (eurusdTick (11000 / 10000) (11002 / 10000) 1000),
    .openOrder { symbol := "EURUSD", orderType := .stopLimit, direction := .long, lots := 1,
                 stopPrice := some (11010 / 10000), price := some (11005 / 10000) },
    .tick (eurusdTick (11000 / 10000) (11002 / 10000) 1010)]

def triggeredStopLimit : List SimulatorOp :=
  waitingStopLimit ++ [.tick (eurusdTick (11008 / 10000) (11010 / 10000) 1020),
    .tick (eurusdTick (11002 / 10000) (11004 / 10000) 1030)]

theorem triggeredStopLimit_runs :
    (run (step forexSimulator) (Simulator.new forexSimulator) triggeredStopLimit).map
      (fun s => filledIds s.ledger) = .ok ["pos_eurusd_1"] := by
  decide +kernel

theorem stop_limit_fills_triggered :
    ∃ s, run (step forexSimulator) (Simulator.new forexSimulator) triggeredStopLimit = .ok s ∧
      EachAfter FillsAtLimit s.ledger.log := by
  obtain ⟨s, hrun, -⟩ := exists_of_map_eq_ok triggeredStopLimit_runs
  exact ⟨s, hrun, stop_limit_fills forexSimulator hrun (by decide +kernel)⟩

/-- A modification to stop 1.1012 and limit 1.1004 is in flight when a tick of the same
millisecond triggers the order; the next tick resolves it. -/
def modifiedInFlight : List SimulatorOp :=
  waitingStopLimit ++
    [.modifyStopOrder "pos_eurusd_1" (.given (11012 / 10000)) (.given (11004 / 10000)) .unset .unset,
      .tick (eurusdTick (11008 / 10000) (11010 / 10000) 1010),
      .tick (eurusdTick (11009 / 10000) (11011 / 10000) 1011)]

def openedAt (orderId : String) : AuditEvent → Option ℚ
  | .result .fill result =>
      if result.status = .executed ∧ result.action = some .openAction ∧ result.orderId = orderId
      then result.executedPrice else none
  | _ => none

theorem not_fillsAtLimit_of_openedAt {log : List AuditEvent} {event : AuditEvent}
    {orderId : String} {executed limit : ℚ} (hopened : openedAt orderId event = some executed)
    (hlimit : effectiveLimit log orderId = some limit) (hne : executed ≠ limit) :
    ¬ FillsAtLimit log event := by
  intro hfills
  unfold openedAt at hopened
  split at hopened
  · next result =>
      split at hopened
      · next hfacts =>
          obtain ⟨hstatus, haction, rfl⟩ := hfacts
          have hexecuted := hfills hstatus haction limit hlimit
          rw [hopened] at hexecuted
          exact hne (Option.some.inj hexecuted)
      · cases hopened
  · cases hopened

theorem modifiedInFlight_fill :
    (run (step forexSimulator) (Simulator.new forexSimulator) modifiedInFlight).map
      (fun s => (s.ledger.log[4]?.bind (openedAt "pos_eurusd_1"),
        effectiveLimit (s.ledger.log.take 4) "pos_eurusd_1")) =
      .ok (some (11012 / 10000), some (11004 / 10000)) := by
  decide +kernel

/-- The stop price of the modification is applied as the limit price. -/
theorem trigger_applied_as_limit :
    ∃ s, run (step forexSimulator) (Simulator.new forexSimulator) modifiedInFlight = .ok s ∧
      ¬ EachAfter FillsAtLimit s.ledger.log := by
  obtain ⟨s, hrun, hfill⟩ := exists_of_map_eq_ok modifiedInFlight_fill
  refine ⟨s, hrun, fun hall => ?_⟩
  obtain ⟨hevent, hlimit⟩ := Prod.mk.inj hfill
  obtain ⟨event, hget, hopened⟩ := Option.bind_eq_some_iff.mp hevent
  refine not_fillsAtLimit_of_openedAt hopened hlimit ?_ (hall.at_index hget)
  norm_num

end Runs

end Finiex.SimulatorStopLimits
