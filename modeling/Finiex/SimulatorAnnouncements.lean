import Finiex.Lib.Lists
import Finiex.SimulatorConservation

namespace Finiex.SimulatorAnnouncements

open Finiex.Types
open Finiex.Lib
open Finiex.Lib.Lists
open Finiex.Lib.Run
open Finiex.Orders
open Finiex.OrderBooks
open Finiex.Portfolio
open Finiex.Portfolio.PortfolioManager
open Finiex.PortfolioLedger
open Finiex.Executor
open Finiex.ExecutorFills
open Finiex.AuditTrail
open Finiex.Simulator
open Finiex.SimulatorSpecs
open Finiex.SimulatorSteps
open Finiex.SimulatorConservation

section Views

/-- What `_fill_open_order` appends to the order history: a fill, or a rejection for lack of
margin or funds. -/
def fillResult : AuditEvent → Option OrderResult
  | .result .fill r =>
      if r.status = .rejected ∨ r.status = .executed ∧ r.action = some .openAction then some r
      else none
  | _ => none

def stressResult : AuditEvent → Option OrderResult
  | .result .stressTest r => some r
  | _ => none

/-- A result appended to the order history that ends an accepted OPEN order. -/
def terminalResult (event : AuditEvent) : Option OrderResult :=
  (fillResult event).or (stressResult event)

def historyResult : AuditEvent → Option OrderResult
  | .result _ r => some r
  | _ => none

/-- The pending order and the result that the outcome listeners are called with. -/
def announcement : AuditEvent → Option (Option String × OrderResult)
  | .notified _ r pendingId => some (pendingId, r)
  | _ => none

/-- An OPEN order that the end of the session takes out of the latency queue. -/
def forcedId : AuditEvent → Option String
  | .outcome pending .forceClosed =>
      if pending.isOpen then some pending.pendingOrderId else none
  | _ => none

def stressIds (log : List AuditEvent) : List String :=
  (log.filterMap stressResult).map OrderResult.orderId

def terminalResults (ledger : ExecutionLedger) : List OrderResult :=
  ledger.log.filterMap terminalResult

def announcedResults (ledger : ExecutionLedger) : List OrderResult :=
  (ledger.log.filterMap announcement).map Prod.snd

def terminalOf (ledger : ExecutionLedger) (id : String) : List OrderResult :=
  (terminalResults ledger).filter fun r => r.orderId = id

def announcedFor (ledger : ExecutionLedger) (id : String) : List OrderResult :=
  ((ledger.log.filterMap announcement).filter fun told => told.1 = some id).map Prod.snd

def pendingIds (s : TradeSimulator) : List String :=
  openIds s.latencyQueue.values ++ orderIds s.activeLimitOrders ++ orderIds s.activeStopOrders

/-- Orders that ended without a fill or a rejection. -/
def withdrawnIds (ledger : ExecutionLedger) : List String :=
  cancelledIds ledger ++ ledger.log.filterMap forcedId

/-- A pending order has not been announced; one that has left the pending worlds, and was not
withdrawn, has one terminal result in the history and was announced once, with that result. -/
def AnnouncedOnce (s : TradeSimulator) (id : String) : Prop :=
  (id ∈ pendingIds s → announcedFor s.ledger id = []) ∧
    (id ∉ pendingIds s → id ∉ withdrawnIds s.ledger →
      ∃ result, terminalOf s.ledger id = [result] ∧ announcedFor s.ledger id = [result])

/-- The listeners are told about the order whose result was appended just before. -/
def ToldAfterResult (before : List AuditEvent) : AuditEvent → Prop
  | .notified _ result pendingId =>
      pendingId = some result.orderId ∧ ∃ earlier, before = earlier ++ [.result .fill result]
  | _ => True

end Views

section StressTest

variable (cfg : SimulatorConfig)

def filterRejects (calls : ℕ) : Bool := cfg.stressFilter.any fun triggers => triggers calls

/-- The answers the seeded filter has given after one more order. -/
def nextCall (calls : ℕ) : ℕ := if cfg.stressFilter.isSome then calls + 1 else calls

def stressRejects : ℕ → List PendingOrder → List PendingOrder
  | _, [] => []
  | calls, order :: rest =>
      if order.isOpen then
        (if filterRejects cfg calls then [order] else []) ++
          stressRejects (nextCall cfg calls) rest
      else stressRejects calls rest

def resolvedAt (s : TradeSimulator) : SimulatorOp → List PendingOrder
  | .tick tick => (processUpToMsc (getTickMsc tick) s.latencyQueue).1
  | .heartbeat =>
      match s.market.currentTick, s.market.clockTime with
      | some _, some now => (processUpToMsc (ghostMsc now) s.latencyQueue).1
      | _, _ => []
  | _ => []

def stressRejected (s : TradeSimulator) (op : SimulatorOp) : List String :=
  orderIds (stressRejects cfg s.stressCalls (resolvedAt s op))

/-- The stress test does not reject this order at the step. -/
def Spares (id : String) (s : TradeSimulator) (op : SimulatorOp) : Prop :=
  id ∉ stressRejected cfg s op

instance (id : String) (s : TradeSimulator) (op : SimulatorOp) : Decidable (Spares cfg id s op) :=
  inferInstanceAs (Decidable (id ∉ stressRejected cfg s op))

def SparesAll (s : TradeSimulator) (op : SimulatorOp) : Prop := stressRejected cfg s op = []

theorem stressTestShouldReject_eq (s : TradeSimulator) (pending : PendingOrder) :
    stressTestShouldReject cfg s pending =
      if filterRejects cfg s.stressCalls then
        ({ s with
            stressCalls := nextCall cfg s.stressCalls
            stressRejections := s.stressRejections + 1
            ledger := rejectByStressTest cfg s.ledger pending (s.stressRejections + 1) }, true)
      else ({ s with stressCalls := nextCall cfg s.stressCalls }, false) := by
  unfold stressTestShouldReject filterRejects nextCall
  cases cfg.stressFilter with
  | none => rfl
  | some triggers => rfl

end StressTest

section Logs

/-- The event neither ends an accepted OPEN order nor tells anybody. -/
def Plain (event : AuditEvent) : Prop :=
  fillResult event = none ∧ stressResult event = none ∧ announcement event = none

theorem fillResult_or_stressResult (event : AuditEvent) :
    fillResult event = none ∨ stressResult event = none := by
  cases event with
  | result source r => cases source <;> simp [fillResult, stressResult]
  | _ => exact .inl rfl

theorem sublist_terminalResults (log : List AuditEvent) :
    (log.filterMap fillResult).Sublist (log.filterMap terminalResult) := by
  induction log with
  | nil => exact .slnil
  | cons event log ih =>
      rw [List.filterMap_cons, List.filterMap_cons, terminalResult]
      cases fillResult event with
      | some r => exact ih.cons_cons r
      | none =>
          cases stressResult event with
          | none => exact ih
          | some r => exact ih.cons r

theorem length_terminalResults (p : OrderResult → Bool) (log : List AuditEvent) :
    ((log.filterMap terminalResult).filter p).length =
      ((log.filterMap fillResult).filter p).length +
        ((log.filterMap stressResult).filter p).length := by
  induction log with
  | nil => rfl
  | cons event log ih =>
      rw [List.filterMap_cons, List.filterMap_cons, List.filterMap_cons, terminalResult]
      rcases fillResult_or_stressResult event with hnone | hnone
      · rw [hnone, Option.none_or]
        cases stressResult event with
        | none => exact ih
        | some r =>
            simp only [List.filter_cons]
            split
            · simp only [List.length_cons, ih]
              omega
            · exact ih
      · rw [hnone, Option.or_none]
        cases fillResult event with
        | none => exact ih
        | some r =>
            simp only [List.filter_cons]
            split
            · simp only [List.length_cons, ih]
              omega
            · exact ih

/-- The results of the fills are all terminal results where the stress test rejects nothing. -/
theorem terminalResults_eq_iff (p : OrderResult → Bool) (log : List AuditEvent) :
    (log.filterMap terminalResult).filter p = (log.filterMap fillResult).filter p ↔
      (log.filterMap stressResult).filter p = [] := by
  have hlength := length_terminalResults p log
  rw [← List.length_eq_zero_iff]
  constructor
  · intro heq
    rw [heq] at hlength
    omega
  · intro hnone
    have hsublist := (sublist_terminalResults log).filter p
    exact (hsublist.eq_of_length (by omega)).symm

theorem count_terminalResult (event : AuditEvent) (id : String) :
    ((terminalResult event).toList.filter fun r => r.orderId = id).length =
      (filledId event).toList.count id + (rejectedId event).toList.count id := by
  have hsingle : ∀ r : OrderResult,
      ([r].filter fun r => r.orderId = id).length = [r.orderId].count id := by
    intro r
    by_cases hid : r.orderId = id <;> simp [hid]
  cases event with
  | result source r =>
      cases source with
      | fill =>
          by_cases hrejected : r.status = .rejected
          · simpa [terminalResult, fillResult, stressResult, filledId, rejectedId, hrejected]
              using hsingle r
          · by_cases hfilled : r.status = .executed ∧ r.action = some .openAction
            · simpa [terminalResult, fillResult, stressResult, filledId, rejectedId, hfilled]
                using hsingle r
            · simp [terminalResult, fillResult, stressResult, filledId, rejectedId, hrejected,
                hfilled]
      | stressTest =>
          simpa [terminalResult, fillResult, stressResult, filledId, rejectedId] using hsingle r
      | _ => rfl
  | _ => rfl

theorem length_terminalOf (ledger : ExecutionLedger) (id : String) :
    (terminalOf ledger id).length =
      (filledIds ledger).count id + (rejectedIds ledger).count id := by
  unfold terminalOf terminalResults filledIds rejectedIds
  induction ledger.log with
  | nil => rfl
  | cons event log ih =>
      have hcons : ∀ {β : Type} (view : AuditEvent → Option β),
          (event :: log).filterMap view = (view event).toList ++ log.filterMap view := by
        intro β view
        rw [List.filterMap_cons]
        cases view event <;> rfl
      rw [hcons, hcons, hcons, List.filter_append, List.length_append, List.count_append,
        List.count_append, ih, count_terminalResult event id]
      omega

end Logs

/-- The ledger of a running session: the listeners were told the results of the fills, each
right after it was appended, and the stress test rejected these orders. -/
structure Recorded (cfg : ExecutorConfig) (ledger : ExecutionLedger)
    (rejected forced : List String) : Prop where
  announcements : ledger.log.filterMap announcement =
    (ledger.log.filterMap fillResult).map fun r => (some r.orderId, r)
  told : EachAfter ToldAfterResult ledger.log
  stressed : stressIds ledger.log = rejected
  forced : ledger.log.filterMap forcedId = forced
  history : ledger.orderHistory =
    (ledger.log.filterMap historyResult).foldl (appendBounded cfg.orderHistoryMax) []

namespace Recorded

variable {cfg : ExecutorConfig} {ledger ledger' : ExecutionLedger} {rejected forced : List String}

theorem append {events : List AuditEvent} (h : Recorded cfg ledger rejected forced)
    (hlog : ledger'.log = ledger.log ++ events)
    (hannouncements : events.filterMap announcement =
      (events.filterMap fillResult).map fun r => (some r.orderId, r))
    (htold : EachAfter ToldAfterResult (ledger.log ++ events))
    (hhistory : ledger'.orderHistory = (events.filterMap historyResult).foldl
      (appendBounded cfg.orderHistoryMax) ledger.orderHistory) :
    Recorded cfg ledger' (rejected ++ stressIds events)
      (forced ++ events.filterMap forcedId) where
  announcements := by
    rw [hlog, List.filterMap_append, List.filterMap_append, List.map_append, h.announcements,
      hannouncements]
  told := by
    rw [hlog]
    exact htold
  stressed := by
    rw [hlog, stressIds, List.filterMap_append, List.map_append, ← h.stressed]
    rfl
  forced := by
    rw [hlog, List.filterMap_append, h.forced]
  history := by
    rw [hhistory, hlog, List.filterMap_append, List.foldl_append, h.history]

theorem plain {events : List AuditEvent} (h : Recorded cfg ledger rejected forced)
    (hlog : ledger'.log = ledger.log ++ events) (hevents : ∀ event ∈ events, Plain event)
    (hhistory : ledger'.orderHistory = (events.filterMap historyResult).foldl
      (appendBounded cfg.orderHistoryMax) ledger.orderHistory) :
    Recorded cfg ledger' rejected (forced ++ events.filterMap forcedId) := by
  have hfills : events.filterMap fillResult = [] :=
    List.filterMap_eq_nil_iff.mpr fun event hmem => (hevents event hmem).1
  have hstress : events.filterMap stressResult = [] :=
    List.filterMap_eq_nil_iff.mpr fun event hmem => (hevents event hmem).2.1
  have hannounced : events.filterMap announcement = [] :=
    List.filterMap_eq_nil_iff.mpr fun event hmem => (hevents event hmem).2.2
  have htold : EachAfter ToldAfterResult (ledger.log ++ events) := by
    refine h.told.append fun event hmem before => ?_
    cases event with
    | notified direction r pendingId => exact absurd (hevents _ hmem).2.2 (by simp [announcement])
    | _ => trivial
  have happend := h.append hlog (by rw [hannounced, hfills]; rfl) htold hhistory
  rwa [stressIds, hstress, List.map_nil, List.append_nil] at happend

theorem quiet {events : List AuditEvent} (h : Recorded cfg ledger rejected forced)
    (hlog : ledger'.log = ledger.log ++ events) (hevents : ∀ event ∈ events, Plain event)
    (hhistory : ledger'.orderHistory = (events.filterMap historyResult).foldl
      (appendBounded cfg.orderHistoryMax) ledger.orderHistory)
    (hforced : events.filterMap forcedId = []) : Recorded cfg ledger' rejected forced := by
  have hplain := h.plain hlog hevents hhistory
  rwa [hforced, List.append_nil] at hplain

theorem note {event : AuditEvent} (h : Recorded cfg ledger rejected forced)
    (hlog : ledger'.log = ledger.log ++ [event])
    (hhistory : ledger'.orderHistory = ledger.orderHistory) (hplain : Plain event)
    (hresult : historyResult event = none) (hforced : forcedId event = none) :
    Recorded cfg ledger' rejected forced := by
  refine h.quiet hlog (by simpa using hplain) ?_ (by simp [hforced])
  simpa [hresult] using hhistory

/-- A result that ends no accepted OPEN order. -/
theorem result {source : ResultSource} {r : OrderResult} (h : Recorded cfg ledger rejected forced)
    (hlog : ledger'.log = ledger.log ++ [.result source r])
    (hhistory : ledger'.orderHistory = appendBounded cfg.orderHistoryMax ledger.orderHistory r)
    (hfill : fillResult (.result source r) = none)
    (hstress : stressResult (.result source r) = none) : Recorded cfg ledger' rejected forced := by
  refine h.quiet hlog (fun event hmem => ?_) hhistory rfl
  rw [List.mem_singleton.mp hmem]
  exact ⟨hfill, hstress, rfl⟩

theorem announced {direction : Option OrderDirection} {r : OrderResult}
    (h : Recorded cfg ledger rejected forced)
    (hlog : ledger'.log =
      ledger.log ++ [.result .fill r, .notified direction r (some r.orderId)])
    (hhistory : ledger'.orderHistory = appendBounded cfg.orderHistoryMax ledger.orderHistory r)
    (hfill : fillResult (.result .fill r) = some r) : Recorded cfg ledger' rejected forced := by
  have htold : EachAfter ToldAfterResult
      (ledger.log ++ [.result .fill r, .notified direction r (some r.orderId)]) := by
    have hlast : ToldAfterResult (ledger.log ++ [.result .fill r])
        (.notified direction r (some r.orderId)) := ⟨rfl, ledger.log, rfl⟩
    rw [← List.singleton_append, ← List.append_assoc]
    exact eachAfter_concat.mpr ⟨eachAfter_concat.mpr ⟨h.told, trivial⟩, hlast⟩
  have hfills : [AuditEvent.result .fill r, .notified direction r (some r.orderId)].filterMap
      fillResult = [r] := by
    rw [List.filterMap_cons, hfill]
    rfl
  have happend := h.append hlog (by rw [hfills]; rfl) htold hhistory
  rw [← List.append_nil rejected, ← List.append_nil forced]
  exact happend

/-- The rejection of the stress test, which nobody is told about. -/
theorem stressTest {r : OrderResult} (h : Recorded cfg ledger rejected forced)
    (hlog : ledger'.log = ledger.log ++ [.result .stressTest r])
    (hhistory : ledger'.orderHistory = appendBounded cfg.orderHistoryMax ledger.orderHistory r) :
    Recorded cfg ledger' (rejected ++ [r.orderId]) forced := by
  have htold : EachAfter ToldAfterResult (ledger.log ++ [.result .stressTest r]) :=
    eachAfter_concat.mpr ⟨h.told, trivial⟩
  have happend := h.append hlog rfl htold hhistory
  rwa [show [AuditEvent.result .stressTest r].filterMap forcedId = [] from rfl, List.append_nil]
    at happend

theorem frame (h : Recorded cfg ledger rejected forced) (hlog : ledger'.log = ledger.log)
    (hhistory : ledger'.orderHistory = ledger.orderHistory) :
    Recorded cfg ledger' rejected forced := by
  obtain ⟨hannouncements, htold, hstressed, hforced, hresults⟩ := h
  constructor <;> simp only [hlog, hhistory] <;> assumption

end Recorded

section Fills

variable {cfg : ExecutorConfig} {market : MarketState} {ledger ledger' : ExecutionLedger}
  {rejected forced : List String}

theorem Recorded.fillOpenOrder {pending : PendingOrder} {fillPrice : Option ℚ}
    {entryType : EntryType} {fillType : FillType} (h : Recorded cfg ledger rejected forced)
    (hfill : fillOpenOrder cfg market ledger pending fillPrice entryType fillType = .ok ledger') :
    Recorded cfg ledger' rejected forced := by
  obtain ⟨tick, spec, entryPrice, pm, -, -, -, -, -, hend⟩ := fillOpenOrder_eq_ok hfill
  rcases hend with ⟨reason, message, rfl⟩ |
      ⟨tickValue, bid, ask, entryFee, trades, seq, pm', now, -, -, -, rfl⟩
  · exact h.announced (List.append_assoc _ [_] [_]) rfl rfl
  · exact h.announced (List.append_assoc _ [_] [_]) rfl rfl

theorem Recorded.fillCloseOrder {pending : PendingOrder} {fillPrice : Option ℚ}
    {closeReason : CloseReason} (h : Recorded cfg ledger rejected forced)
    (hfill : fillCloseOrder cfg market ledger pending fillPrice closeReason = .ok ledger') :
    Recorded cfg ledger' rejected forced := by
  obtain ⟨tick, -, ⟨rfl, -⟩ | ⟨position, spec, closePrice, exitTickValue, closing, seq, trades, pm,
    pnl, now, result, -, -, -, -, -, -, -, -, rfl, rfl⟩⟩ := fillCloseOrder_eq_ok hfill
  · exact h.note rfl rfl ⟨rfl, rfl, rfl⟩ rfl rfl
  · have hplain : ∀ result : OrderResult, result.status = .executed →
        result.action = some .closeAction → Plain (.result .fill result) := by
      intro result hstatus haction
      simp [Plain, fillResult, stressResult, announcement, hstatus, haction]
    cases closing with
    | none =>
        refine h.quiet (List.append_assoc _ _ _) ?_ rfl rfl
        simp only [Option.toList, List.map_nil, List.append_nil, List.forall_mem_cons]
        exact ⟨⟨rfl, rfl, rfl⟩, ⟨rfl, rfl, rfl⟩, hplain _ rfl rfl, by simp⟩
    | some lots =>
        refine h.quiet (List.append_assoc _ _ _) ?_ rfl rfl
        simp only [Option.toList, List.map_cons, List.map_nil, List.cons_append,
          List.nil_append, List.forall_mem_cons]
        exact ⟨⟨rfl, rfl, rfl⟩, ⟨rfl, rfl, rfl⟩, hplain _ rfl rfl, ⟨rfl, rfl, rfl⟩, by simp⟩

end Fills

section Phases

variable {cfg : SimulatorConfig} {s s' : TradeSimulator} {rejected forced : List String}

theorem Recorded.placed {order : PendingOrder} (h : Recorded cfg.executor s.ledger rejected forced)
    (hplaced : Placed cfg s order s') : Recorded cfg.executor s'.ledger rejected forced :=
  hplaced.ledger_induct Recorded.fillOpenOrder h

theorem Recorded.recordOutcome {outcome : PendingOrderOutcome}
    (h : Recorded cfg.executor s.ledger rejected forced) (order : PendingOrder)
    (hpassed : outcome ≠ .forceClosed) :
    Recorded cfg.executor (recordOutcome s order outcome).ledger rejected forced := by
  have hforced : forcedId (.outcome order outcome) = none := by
    cases outcome <;> first | rfl | exact absurd rfl hpassed
  exact h.note rfl rfl ⟨rfl, rfl, rfl⟩ rfl hforced

theorem placed_stressCalls {order : PendingOrder} (hplaced : Placed cfg s order s') :
    s'.stressCalls = s.stressCalls := by
  cases hplaced <;> rfl

/-- One order of the latency queue is asked about if it is an OPEN order. -/
theorem Recorded.fillResolvedOrder {order : PendingOrder}
    (h : Recorded cfg.executor s.ledger rejected forced) (rest : List PendingOrder)
    (hresolve : fillResolvedOrder cfg s order = .ok s') :
    ∃ asked, orderIds (stressRejects cfg s.stressCalls (order :: rest)) =
        asked ++ orderIds (stressRejects cfg s'.stressCalls rest) ∧
      Recorded cfg.executor s'.ledger (rejected ++ asked) forced := by
  unfold Simulator.fillResolvedOrder at hresolve
  cases haction : order.orderAction with
  | openOrder =>
      have hopen : order.isOpen = true := by simp [PendingOrder.isOpen, haction]
      rw [stressRejects, hopen, if_pos rfl]
      simp only [haction, stressTestShouldReject_eq] at hresolve
      cases hanswer : filterRejects cfg s.stressCalls with
      | true =>
          simp only [hanswer, if_true] at hresolve
          cases hresolve
          refine ⟨[order.pendingOrderId], rfl, ?_⟩
          let rejection := createRejectionResult order.pendingOrderId .brokerError
            (.stressTest (s.stressRejections + 1))
          have hasked : Recorded cfg.executor
              (rejectByStressTest cfg s.ledger order (s.stressRejections + 1))
              (rejected ++ [rejection.orderId]) forced := h.stressTest rfl rfl
          have hnoted : Plain (.outcome order .rejected) := ⟨rfl, rfl, rfl⟩
          exact hasked.note rfl rfl hnoted rfl rfl
      | false =>
          simp only [hanswer, Bool.false_eq_true, if_false] at hresolve
          obtain ⟨placed, hactivate, hpure⟩ := bind_eq_ok.mp hresolve
          cases hpure
          obtain ⟨placedOrder, -, hplaced⟩ := activateOrder_placed hactivate
          refine ⟨[], ?_, ?_⟩
          · rw [List.nil_append]
            exact congrArg (fun calls => orderIds (stressRejects cfg calls rest))
              (placed_stressCalls hplaced).symm
          · rw [List.append_nil]
            have hasked : Recorded cfg.executor
                { s with stressCalls := nextCall cfg s.stressCalls }.ledger rejected forced := h
            exact (hasked.placed hplaced).recordOutcome order (by decide)
  | closeOrder =>
      have hclose : order.isOpen = false := by simp [PendingOrder.isOpen, haction]
      simp only [haction] at hresolve
      obtain ⟨ledger, hfill, hpure⟩ := bind_eq_ok.mp hresolve
      cases hpure
      rw [stressRejects, hclose]
      refine ⟨[], rfl, ?_⟩
      rw [List.append_nil]
      have hnoted : Plain (.outcome order .filled) := ⟨rfl, rfl, rfl⟩
      exact (h.fillCloseOrder hfill).note rfl rfl hnoted rfl rfl

theorem Recorded.drainLatencyQueue {msc : ℤ} (h : Recorded cfg.executor s.ledger rejected forced)
    (hdrain : drainLatencyQueue cfg s msc = .ok s') :
    Recorded cfg.executor s'.ledger (rejected ++
      orderIds (stressRejects cfg s.stressCalls (processUpToMsc msc s.latencyQueue).1)) forced := by
  let total := rejected ++
    orderIds (stressRejects cfg s.stressCalls (processUpToMsc msc s.latencyQueue).1)
  have hend := foldlM_induct (P := fun rest (s : TradeSimulator) => ∃ asked,
    asked ++ orderIds (stressRejects cfg s.stressCalls rest) = total ∧
      Recorded cfg.executor s.ledger asked forced) ?_ ?_ hdrain
  · obtain ⟨asked, htotal, hrecorded⟩ := hend
    rw [stressRejects, orderIds_nil, List.append_nil] at htotal
    rwa [htotal] at hrecorded
  · rintro order rest s₁ s₂ ⟨asked, htotal, hrecorded⟩ hstep
    obtain ⟨answered, hsplit, hnext⟩ := hrecorded.fillResolvedOrder rest hstep
    refine ⟨asked ++ answered, ?_, hnext⟩
    rw [← htotal, hsplit, List.append_assoc]
  · exact ⟨rejected, rfl, h⟩

theorem Recorded.monitorLimitOrders (h : Recorded cfg.executor s.ledger rejected forced)
    (hmonitor : monitorLimitOrders cfg s = .ok s') :
    Recorded cfg.executor s'.ledger rejected forced :=
  monitorLimitOrders_induct Recorded.fillOpenOrder h hmonitor

theorem Recorded.monitorStopOrders (h : Recorded cfg.executor s.ledger rejected forced)
    (htypes : ∀ p ∈ s.activeStopOrders, p.orderType = some .stop ∨ p.orderType = some .stopLimit)
    (hmonitor : monitorStopOrders cfg s = .ok s') :
    Recorded cfg.executor s'.ledger rejected forced :=
  monitorStopOrders_induct Recorded.fillOpenOrder h htypes hmonitor

theorem Recorded.checkSlTpTriggers {tick : TickData}
    (h : Recorded cfg.executor s.ledger rejected forced)
    (hcheck : checkSlTpTriggers cfg s tick = .ok s') :
    Recorded cfg.executor s'.ledger rejected forced := by
  apply checkSlTpTriggers_induct Recorded.fillCloseOrder ?_ h hcheck
  intro ledger hrecorded
  exact hrecorded.frame rfl rfl

theorem plain_resolutionEvents {msc : ℤ} {orders : List PendingOrder} {event : AuditEvent}
    (hmem : event ∈ resolutionEvents msc orders) :
    Plain event ∧ historyResult event = none ∧ forcedId event = none := by
  obtain ⟨orderId, mod, rfl⟩ | ⟨orderId, direction, rfl⟩ := mem_resolutionEvents hmem
  · exact ⟨⟨rfl, rfl, rfl⟩, rfl, rfl⟩
  · exact ⟨⟨rfl, rfl, rfl⟩, rfl, rfl⟩

theorem Recorded.resolvePendingOperations (h : Recorded cfg.executor s.ledger rejected forced)
    (hresolve : resolvePendingOperations s = .ok s') :
    Recorded cfg.executor s'.ledger rejected forced ∧ s'.latencyQueue = s.latencyQueue ∧
      s'.stressCalls = s.stressCalls := by
  obtain ⟨tick, portfolio, modifications, -, -, rfl⟩ := resolvePendingOperations_eq_ok hresolve
  refine ⟨?_, rfl, rfl⟩
  let events := resolutionEvents (getTickMsc tick) s.activeLimitOrders ++
    resolutionEvents (getTickMsc tick) s.activeStopOrders
  have hevents : ∀ event ∈ events,
      Plain event ∧ historyResult event = none ∧ forcedId event = none := by
    intro event hmem
    rcases List.mem_append.mp hmem with hmem | hmem
    · exact plain_resolutionEvents hmem
    · exact plain_resolutionEvents hmem
  have hresults : events.filterMap historyResult = [] :=
    List.filterMap_eq_nil_iff.mpr fun event hmem => (hevents event hmem).2.1
  have hforced : events.filterMap forcedId = [] :=
    List.filterMap_eq_nil_iff.mpr fun event hmem => (hevents event hmem).2.2
  refine h.quiet (List.append_assoc _ _ _) (fun event hmem => (hevents event hmem).1) ?_ hforced
  rw [hresults]
  rfl

end Phases

section Steps

variable {cfg : SimulatorConfig} {s s' : TradeSimulator} {rejected forced : List String}

theorem Recorded.onTick {tick : TickData} (hinv : Conserved [] s)
    (h : Recorded cfg.executor s.ledger rejected forced) (htick : onTick cfg s tick = .ok s') :
    Recorded cfg.executor s'.ledger (rejected ++ stressRejected cfg s (.tick tick)) forced := by
  obtain ⟨s₁, hprocess, hcheck⟩ := bind_eq_ok.mp htick
  obtain ⟨s₂, s₃, s₄, hresolve, hdrain, hlimits, hmonitored, hstops⟩ :=
    processPendingOrders_phases hinv hprocess
  have hreceived : Recorded cfg.executor (receiveTick s tick).ledger rejected forced :=
    h.frame rfl rfl
  obtain ⟨hresolved, hqueue, hcalls⟩ := hreceived.resolvePendingOperations hresolve
  have hdrained := hresolved.drainLatencyQueue hdrain
  rw [hqueue, hcalls] at hdrained
  exact ((hdrained.monitorLimitOrders hlimits).monitorStopOrders hmonitored.stops
    hstops).checkSlTpTriggers hcheck

theorem Recorded.heartbeat (h : Recorded cfg.executor s.ledger rejected forced)
    (hbeat : heartbeat cfg s = .ok s') :
    Recorded cfg.executor s'.ledger (rejected ++ stressRejected cfg s .heartbeat) forced := by
  obtain ⟨rfl, hmissing⟩ | ⟨tick, now, resolved, htick, hclock, hresolve, hdrain⟩ :=
    heartbeat_eq_ok hbeat
  · have hnone : resolvedAt s' .heartbeat = [] := by
      rcases hmissing with htick | hclock
      · simp only [resolvedAt, htick]
      · simp only [resolvedAt, hclock]
        split
        · contradiction
        · rfl
    rw [stressRejected, hnone, stressRejects, orderIds_nil, List.append_nil]
    exact h
  · obtain ⟨hresolved, hqueue, hcalls⟩ := h.resolvePendingOperations hresolve
    have hdrained := hresolved.drainLatencyQueue hdrain
    have hready : resolvedAt s .heartbeat =
        (processUpToMsc (ghostMsc now) s.latencyQueue).1 := by
      simp only [resolvedAt, htick, hclock]
    rw [stressRejected, hready]
    rwa [hqueue, hcalls] at hdrained

theorem Recorded.stepped {op : SimulatorOp} (h : Recorded cfg.executor s.ledger rejected forced)
    (htick : ∀ tick, op ≠ .tick tick) (hbeat : op ≠ .heartbeat)
    (hstep : Stepped cfg s op s') : Recorded cfg.executor s'.ledger rejected forced := by
  cases hstep with
  | @ticked tick s' _ => exact absurd rfl (htick tick)
  | beat _ => exact absurd rfl hbeat
  | refused => exact h.result rfl rfl rfl rfl
  | @accepted request normalized tick _ _ =>
      let order := pendingOpenOrder (issuedId s normalized.symbol) normalized tick
        (cfg.inboundDelay s.delaysDrawn)
      have hreceived : Plain (.orderReceived order) := ⟨rfl, rfl, rfl⟩
      have hnoted : Recorded cfg.executor (s.ledger.record (.orderReceived order)) rejected
          forced := h.note rfl rfl hreceived rfl rfl
      exact hnoted.result rfl rfl rfl rfl
  | @closeAccepted positionId lots position tick _ _ =>
      let order := pendingCloseOrder positionId tick (cfg.inboundDelay s.delaysDrawn) lots
      have hreceived : Plain (.orderReceived order) := ⟨rfl, rfl, rfl⟩
      exact h.note rfl rfl hreceived rfl rfl
  | guardRecorded => exact h.result rfl rfl rfl rfl
  | clockSet => exact h
  | ignored _ => exact h
  | limitScheduled _ _ _ => exact h
  | stopScheduled _ _ _ => exact h
  | positionScheduled => exact h
  | positionModified => exact h.frame rfl rfl
  | queried _ => exact h.frame rfl rfl

/-- A step announces the results of its fills, and adds the orders that the stress test
rejects. -/
theorem Recorded.step {op : SimulatorOp} (hinv : Conserved [] s)
    (h : Recorded cfg.executor s.ledger rejected forced) (hstep : step cfg s op = .ok s') :
    Recorded cfg.executor s'.ledger (rejected ++ stressRejected cfg s op) forced := by
  have hcall : (∀ tick, op ≠ .tick tick) → op ≠ .heartbeat → stressRejected cfg s op = [] →
      Recorded cfg.executor s'.ledger (rejected ++ stressRejected cfg s op) forced := by
    intro htick hbeat hnone
    rw [hnone, List.append_nil]
    exact h.stepped htick hbeat (step_stepped hstep)
  cases op with
  | tick tick => exact h.onTick hinv hstep
  | heartbeat => exact h.heartbeat hstep
  | _ => exact hcall (fun _ => nofun) nofun rfl

theorem Recorded.closeAllRemainingOrders (h : Recorded cfg.executor s.ledger rejected [])
    (hinv : Conserved [] s) (hend : closeAllRemainingOrders cfg s = .ok s') :
    Recorded cfg.executor s'.ledger rejected (openIds s.latencyQueue.values) ∧
      pendingIds s' = orderIds s.activeLimitOrders ++ orderIds s.activeStopOrders ∧
      ∃ ledger, Conserved [] { s with ledger := ledger } ∧
        s'.ledger.log = ledger.log ++
          s.latencyQueue.values.map fun order => AuditEvent.outcome order .forceClosed := by
  obtain ⟨ledger₁, hpositions, hend⟩ := bind_eq_ok.mp hend
  obtain ⟨ledger₂, hlimits, hend⟩ := bind_eq_ok.mp hend
  obtain ⟨ledger₃, hstops, hpure⟩ := bind_eq_ok.mp hend
  cases hpure
  let Inv := fun ledger : ExecutionLedger =>
    Recorded cfg.executor ledger rejected [] ∧ Conserved [] { s with ledger := ledger }
  have hclosed : Inv ledger₁ := by
    refine foldlM_induct (P := fun _ ledger => Inv ledger) ?_ ⟨h, hinv⟩ hpositions
    rintro position rest ledger ledger' ⟨hrecorded, hconserved⟩ hfill
    exact ⟨hrecorded.fillCloseOrder hfill, hconserved.of_quiet (fillCloseOrder_ends hfill)⟩
  have hexpire : ∀ (orders : List PendingOrder) ledger ledger', Inv ledger →
      orders.foldlM (expireOrder cfg.executor s.market) ledger = .ok ledger' → Inv ledger' := by
    intro orders ledger ledger' hstart hloop
    refine foldlM_induct (P := fun _ ledger' => Inv ledger') ?_ hstart hloop
    rintro order rest ledger₁ ledger₂ ⟨hrecorded, hconserved⟩ hexpired
    obtain ⟨now, -, hpure⟩ := bind_eq_ok.mp hexpired
    cases hpure
    refine ⟨hrecorded.result rfl rfl rfl rfl, hconserved.of_quiet ?_⟩
    exact moves_of_log [.result .expiry (expiredResult order now)] rfl rfl rfl rfl rfl le_rfl
      fun _ hk => .inl hk
  obtain ⟨hrecorded, hconserved⟩ := hexpire _ _ _ (hexpire _ _ _ hclosed hlimits) hstops
  refine ⟨?_, rfl, ledger₃, hconserved, rfl⟩
  let events := s.latencyQueue.values.map fun order => AuditEvent.outcome order .forceClosed
  have hresults : events.filterMap historyResult = [] :=
    List.filterMap_eq_nil_iff.mpr fun event hmem => by
      obtain ⟨order, -, rfl⟩ := List.mem_map.mp hmem
      rfl
  have hforced : events.filterMap forcedId = openIds s.latencyQueue.values := by
    rw [List.filterMap_map, openIds, orderIds, ← List.filterMap_eq_filter, List.map_filterMap]
    refine List.filterMap_congr fun order _ => ?_
    by_cases hopen : order.isOpen = true <;> simp [forcedId, hopen, Option.guard]
  rw [← hforced, ← List.nil_append (events.filterMap forcedId)]
  refine hrecorded.plain rfl (fun event hmem => ?_) ?_
  · obtain ⟨order, -, rfl⟩ := List.mem_map.mp hmem
    exact ⟨rfl, rfl, rfl⟩
  · rw [hresults]
    rfl

end Steps

section Outcomes

variable {cfg : ExecutorConfig} {s : TradeSimulator} {rejected forced : List String} {id : String}

theorem Recorded.announcedFor_eq (h : Recorded cfg s.ledger rejected forced) (id : String) :
    announcedFor s.ledger id =
      (s.ledger.log.filterMap fillResult).filter fun r => r.orderId = id := by
  rw [announcedFor, h.announcements, List.filter_map, List.map_map]
  simp only [Function.comp_def, Option.some.injEq, List.map_id']

theorem Recorded.announcedResults_eq (h : Recorded cfg s.ledger rejected forced) :
    announcedResults s.ledger = s.ledger.log.filterMap fillResult := by
  rw [announcedResults, h.announcements, List.map_map]
  exact List.map_id' _

/-- The order is in one of the pending worlds, or has ended in one way. -/
def Located (s : TradeSimulator) (id : String) : Prop :=
  (pendingIds s).count id + (withdrawnIds s.ledger).count id + (filledIds s.ledger).count id +
    (rejectedIds s.ledger).count id = 1

/-- An order is announced as it should be when the listeners were told every terminal result
of it. -/
theorem announcedOnce_iff (hlocated : Located s id)
    (hsublist : (announcedFor s.ledger id).Sublist (terminalOf s.ledger id)) :
    AnnouncedOnce s id ↔ terminalOf s.ledger id = announcedFor s.ledger id := by
  have hlength := length_terminalOf s.ledger id
  unfold Located at hlocated
  constructor
  · rintro ⟨-, hended⟩
    by_cases hnone : terminalOf s.ledger id = []
    · rw [hnone] at hsublist ⊢
      exact (List.sublist_nil.mp hsublist).symm
    · have hpos := List.length_pos_iff.mpr hnone
      have hpending : id ∉ pendingIds s := List.count_eq_zero.mp (by omega)
      have hwithdrawn : id ∉ withdrawnIds s.ledger := List.count_eq_zero.mp (by omega)
      obtain ⟨result, hterminal, hannounced⟩ := hended hpending hwithdrawn
      rw [hterminal, hannounced]
  · intro heq
    constructor
    · intro hpending
      have hpos := List.count_pos_iff.mpr hpending
      rw [← heq]
      exact List.length_eq_zero_iff.mp (by omega)
    · intro hpending hwithdrawn
      rw [← List.count_eq_zero] at hpending hwithdrawn
      obtain ⟨result, hterminal⟩ := List.length_eq_one_iff.mp
        (show (terminalOf s.ledger id).length = 1 by omega)
      exact ⟨result, hterminal, heq.symm.trans hterminal⟩

theorem Recorded.announcedOnce_iff (h : Recorded cfg s.ledger rejected forced)
    (hlocated : Located s id) : AnnouncedOnce s id ↔ id ∉ rejected := by
  have hsublist : (announcedFor s.ledger id).Sublist (terminalOf s.ledger id) := by
    rw [h.announcedFor_eq]
    exact (sublist_terminalResults s.ledger.log).filter _
  rw [SimulatorAnnouncements.announcedOnce_iff hlocated hsublist, h.announcedFor_eq, terminalOf,
    terminalResults, terminalResults_eq_iff, ← h.stressed, stressIds, List.filter_eq_nil_iff,
    List.mem_map]
  simp only [decide_eq_true_eq, not_exists, not_and]

theorem Recorded.announcedResults_iff (h : Recorded cfg s.ledger rejected forced) :
    announcedResults s.ledger = terminalResults s.ledger ↔ rejected = [] := by
  have hall := terminalResults_eq_iff (fun _ => true) s.ledger.log
  simp only [List.filter_true] at hall
  rw [h.announcedResults_eq, terminalResults, eq_comm, hall, ← h.stressed, stressIds,
    List.map_eq_nil_iff]

end Outcomes

section Runs

variable {cfg : SimulatorConfig} {ops : List SimulatorOp} {s s' : TradeSimulator}

theorem recorded_new : Recorded cfg.executor (Simulator.new cfg).ledger [] [] where
  announcements := rfl
  told := eachAfter_nil
  stressed := rfl
  forced := rfl
  history := rfl

theorem stressIds_step {op : SimulatorOp} {rejected : List String} (hinv : Conserved [] s)
    (h : Recorded cfg.executor s.ledger rejected []) (hstep : step cfg s op = .ok s') :
    stressIds s'.ledger.log = stressIds s.ledger.log ++ stressRejected cfg s op := by
  rw [(h.step hinv hstep).stressed, h.stressed]

def Running (cfg : SimulatorConfig) (s : TradeSimulator) : Prop :=
  Conserved [] s ∧ Recorded cfg.executor s.ledger (stressIds s.ledger.log) []

theorem running_step {op : SimulatorOp} (h : Running cfg s) (hstep : step cfg s op = .ok s') :
    Running cfg s' := by
  refine ⟨stepped_conserved h.1 (step_stepped hstep), ?_⟩
  rw [stressIds_step h.1 h.2 hstep]
  exact h.2.step h.1 hstep

/-- What concatenation keeps holds of all orders rejected in a run exactly when it holds of
those rejected at each step. -/
theorem stressIds_run (Keeps : List String → Prop)
    (hrun : run (step cfg) (Simulator.new cfg) ops = .ok s)
    (happend : ∀ xs ys, Keeps (xs ++ ys) ↔ Keeps xs ∧ Keeps ys) (hnil : Keeps []) :
    Keeps (stressIds s.ledger.log) ↔
      StepsAll (step cfg) (fun s op => Keeps (stressRejected cfg s op)) (Simulator.new cfg) ops := by
  have hstep : ∀ s op s', Running cfg s → step cfg s op = .ok s' →
      Running cfg s' ∧ (Keeps (stressIds s'.ledger.log) ↔
        Keeps (stressIds s.ledger.log) ∧ Keeps (stressRejected cfg s op)) := by
    intro s op s' hrunning hstep
    refine ⟨running_step hrunning hstep, ?_⟩
    rw [stressIds_step hrunning.1 hrunning.2 hstep]
    exact happend _ _
  have hall := run_iff_stepsAll hstep ⟨conserved_new, recorded_new⟩ hrun
  exact hall.trans (and_iff_right hnil)

theorem Running.located {id : String} (h : Running cfg s) (hid : id ∈ acceptedIds s.ledger) :
    Located s id := by
  have hlocated := h.1.located id
  have hone := List.count_eq_one_of_mem h.1.nodup hid
  simp only [places, List.count_append, List.count_nil] at hlocated
  rw [Located, pendingIds, withdrawnIds, h.2.forced, List.append_nil]
  simp only [List.count_append]
  omega

theorem Running.closed (h : Running cfg s) (hend : closeAllRemainingOrders cfg s = .ok s') :
    (∃ forced, Recorded cfg.executor s'.ledger (stressIds s.ledger.log) forced) ∧
      ∀ id ∈ acceptedIds s'.ledger, Located s' id := by
  obtain ⟨hrecorded, hpending, ledger, hconserved, hlog⟩ :=
    h.2.closeAllRemainingOrders h.1 hend
  refine ⟨⟨_, hrecorded⟩, fun id hid => ?_⟩
  have hview : ∀ view : AuditEvent → Option String,
      (∀ order, view (.outcome order .forceClosed) = none) →
      s'.ledger.log.filterMap view = ledger.log.filterMap view := by
    intro view hview
    rw [hlog, List.filterMap_append, List.filterMap_map]
    have hnone : s.latencyQueue.values.filterMap
        (view ∘ fun order => AuditEvent.outcome order .forceClosed) = [] :=
      List.filterMap_eq_nil_iff.mpr fun order _ => hview order
    rw [hnone, List.append_nil]
  rw [acceptedIds, hview acceptedId fun _ => rfl] at hid
  have hone : (places { s with ledger := ledger }).count id = 1 := by
    have hlocated := hconserved.located id
    rw [List.count_eq_one_of_mem hconserved.nodup hid, List.count_nil, Nat.zero_add] at hlocated
    exact hlocated.symm
  rw [Located, hpending, withdrawnIds, hrecorded.forced, filledIds, rejectedIds, cancelledIds,
    hview filledId fun _ => rfl, hview rejectedId fun _ => rfl, hview cancelledId fun _ => rfl]
  simp only [places, filledIds, rejectedIds, cancelledIds, List.count_append] at hone ⊢
  omega

/-- In every session, ended or not: the listeners are only told a result that has just been
appended to the order history. An accepted order is announced exactly once, with its terminal
result and not before, if and only if the stress test does not reject it; and the listeners
were told all terminal results, in the order of the history, if and only if the stress test
rejected no order. -/
theorem outcomes_announced (cfg : SimulatorConfig) {ops : List SimulatorOp}
    {s s' : TradeSimulator} (hrun : run (step cfg) (Simulator.new cfg) ops = .ok s)
    (hend : s' = s ∨ closeAllRemainingOrders cfg s = .ok s') :
    EachAfter ToldAfterResult s'.ledger.log ∧
      (∀ id ∈ acceptedIds s'.ledger,
        (AnnouncedOnce s' id ↔ StepsAll (step cfg) (Spares cfg id) (Simulator.new cfg) ops)) ∧
      (announcedResults s'.ledger = terminalResults s'.ledger ↔
        StepsAll (step cfg) (SparesAll cfg) (Simulator.new cfg) ops) := by
  have hrunning : Running cfg s :=
    run_invariant (fun s op s' hinv hop => running_step hinv hop)
      ⟨conserved_new, recorded_new⟩ hrun
  have hended : (∃ forced, Recorded cfg.executor s'.ledger (stressIds s.ledger.log) forced) ∧
      ∀ id ∈ acceptedIds s'.ledger, Located s' id := by
    rcases hend with rfl | hclosed
    · exact ⟨⟨_, hrunning.2⟩, fun id hid => hrunning.located hid⟩
    · exact hrunning.closed hclosed
  obtain ⟨⟨forced, hrecorded⟩, hlocated⟩ := hended
  refine ⟨hrecorded.told, fun id hid => ?_, ?_⟩
  · rw [hrecorded.announcedOnce_iff (hlocated id hid)]
    apply stressIds_run (fun ids => id ∉ ids) hrun
    · simp only [List.mem_append, not_or, implies_true]
    · exact List.not_mem_nil
  · rw [hrecorded.announcedResults_iff]
    apply stressIds_run (fun ids => ids = []) hrun
    · simp only [List.append_eq_nil_iff, implies_true]
    · rfl

theorem fillAndCancel_announced :
    ∃ s, run (step forexSimulator) (Simulator.new forexSimulator) fillAndCancel = .ok s ∧
      EachAfter ToldAfterResult s.ledger.log ∧
      (∀ id ∈ acceptedIds s.ledger, (AnnouncedOnce s id ↔
        StepsAll (step forexSimulator) (Spares forexSimulator id) (Simulator.new forexSimulator)
          fillAndCancel)) ∧
      (announcedResults s.ledger = terminalResults s.ledger ↔
        StepsAll (step forexSimulator) (SparesAll forexSimulator) (Simulator.new forexSimulator)
          fillAndCancel) := by
  obtain ⟨s, hrun, -⟩ := exists_of_map_eq_ok fillAndCancel_ids
  exact ⟨s, hrun, outcomes_announced forexSimulator hrun (.inl rfl)⟩

def stressedSimulator : SimulatorConfig :=
  { forexSimulator with stressFilter := some fun _ => true }

/-- A market order that the stress test rejects when its latency has elapsed. -/
def stressedOrder : List SimulatorOp :=
  [.tick (eurusdTick (11000 / 10000) (11002 / 10000) 1000),
    .openOrder { symbol := "EURUSD", orderType := .market, direction := .long, lots := 1 },
    .tick (eurusdTick (11001 / 10000) (11003 / 10000) 1010)]

theorem stressedOrder_outcome :
    (run (step stressedSimulator) (Simulator.new stressedSimulator) stressedOrder).map (fun s =>
      (acceptedIds s.ledger, pendingIds s ++ withdrawnIds s.ledger,
        (s.ledger.orderHistory.map OrderResult.status,
          (announcedFor s.ledger "pos_eurusd_1").length))) =
      .ok (["pos_eurusd_1"], [], [.pending, .rejected], 0) := by
  decide +kernel

theorem stressedOrder_unannounced :
    ∃ s, run (step stressedSimulator) (Simulator.new stressedSimulator) stressedOrder = .ok s ∧
      "pos_eurusd_1" ∈ acceptedIds s.ledger ∧
      s.ledger.orderHistory.map OrderResult.status = [.pending, .rejected] ∧
      ¬ AnnouncedOnce s "pos_eurusd_1" := by
  obtain ⟨s, hrun, houtcome⟩ := exists_of_map_eq_ok stressedOrder_outcome
  simp only [Prod.mk.injEq, List.append_eq_nil_iff] at houtcome
  obtain ⟨haccepted, ⟨hpending, hwithdrawn⟩, hhistory, hnone⟩ := houtcome
  refine ⟨s, hrun, by simp [haccepted], hhistory, ?_⟩
  rintro ⟨-, hended⟩
  obtain ⟨result, -, hannounced⟩ := hended (by simp [hpending]) (by simp [hwithdrawn])
  rw [hannounced] at hnone
  cases hnone

end Runs

end Finiex.SimulatorAnnouncements
