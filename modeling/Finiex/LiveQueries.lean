import Finiex.LiveOutcomes

namespace Finiex.LiveQueries

open Finiex.Types
open Finiex.Lib
open Finiex.Lib.Run
open Finiex.Orders
open Finiex.OrderBooks
open Finiex.Portfolio
open Finiex.Portfolio.PortfolioManager
open Finiex.Executor
open Finiex.AuditTrail
open Finiex.LiveTypes
open Finiex.Live
open Finiex.LiveSpecs
open Finiex.LiveBooks
open Finiex.LiveTrail
open Finiex.LiveSteps
open Finiex.LiveOperations
open Finiex.LiveOutcomes

variable {Raw : Type}

section Origins

structure Tracked (Raw : Type) where
  executor : LiveTradeExecutor Raw
  origins : List (Job × Except String Raw) := []

variable (cfg : LiveConfig Raw)

/-- The response to a job is put into the inbox, or taken from it. -/
def nextOrigins (t : Tracked Raw) : LiveOp Raw → List (Job × Except String Raw)
  | .workerDeliver answer =>
      match t.executor.requests.inHand with
      | some job => t.origins ++ [(job, answer)]
      | none => t.origins
  | .drain => t.origins.tail
  | _ => t.origins

def trackedStep (t : Tracked Raw) (op : LiveOp Raw) : Except PyError (Tracked Raw) := do
  let executor ← step cfg t.executor op
  return { executor := executor, origins := nextOrigins t op }

def start (cfg : LiveConfig Raw) : Tracked Raw where
  executor := Live.new cfg

/-- The inbox holds the responses to the jobs that are remembered. -/
structure Originated (t : Tracked Raw) : Prop where
  sound : LiveSound t.executor
  inbox : t.executor.requests.inbox = t.origins.map fun o => dispatch cfg.adapter o.2 o.1

variable {cfg}

theorem start_originated (cfg : LiveConfig Raw) : Originated cfg (start cfg) :=
  ⟨new_sound cfg, rfl⟩

theorem trackedStep_originated {t t' : Tracked Raw} {op : LiveOp Raw} (h : Originated cfg t)
    (hstep : trackedStep cfg t op = .ok t') : Originated cfg t' := by
  obtain ⟨executor, hexecutor, hpure⟩ := bind_eq_ok.mp hstep
  cases hpure
  refine ⟨stepped_sound h.sound (step_stepped h.sound hexecutor), ?_⟩
  have hloops : executor.requests.inbox = (nextLoops cfg t.executor op).2 :=
    congrArg Prod.snd (step_loops h.sound hexecutor)
  show executor.requests.inbox = _
  rw [hloops]
  cases op with
  | workerDeliver answer =>
      show (t.executor.requests.deliver _).inbox = _
      rw [Pipeline.deliver, nextOrigins]
      cases t.executor.requests.inHand with
      | none => exact h.inbox
      | some job =>
          show t.executor.requests.inbox ++ [_] = _
          rw [h.inbox, List.map_append]
          rfl
  | drain =>
      show t.executor.requests.inbox.tail = t.origins.tail.map _
      rw [h.inbox, List.map_tail]
  | _ => exact h.inbox

end Origins

section Queries

inductive StatusQuery
  | resting (orderId brokerRef : String)
  | inTransit (brokerRef : String)

variable (cfg : LiveConfig Raw)

/-- The status query whose answer an operation processes, with what came of the roundtrip. A
parse error of a direct query is not caught. -/
def processedQuery (t : Tracked Raw) :
    LiveOp Raw → Option (StatusQuery × Except String (BrokerResponse Raw))
  | .drain =>
      match t.origins with
      | (.query orderId ref, answer) :: _ =>
          some (.resting orderId ref, answer >>= (cfg.adapter.parseQueryResponse · ref))
      | _ => none
  | .poll answer =>
      match t.executor.polling with
      | [] => none
      | pending :: _ =>
          match pending.confirmedRef with
          | none => none
          | some ref =>
              match queryOrderSync cfg ref answer with
              | .error _ => none
              | .ok response =>
                  match answer with
                  | .error text => some (.inTransit ref, .error text)
                  | .ok _ => some (.inTransit ref, .ok response)
  | _ => none

def Waiting (s : LiveTradeExecutor Raw) : StatusQuery → Prop
  | .resting orderId ref =>
      ∃ order, findOrder s.activeLimitOrders orderId = some order ∧ order.brokerRef = some ref
  | .inTransit ref =>
      ∃ orderId order, s.brokerRefIndex.get? ref = some orderId ∧
        s.pendingOrders.get? orderId = some order

/-- Nothing is recorded, and no order changes but for the mark of the query. -/
structure Kept (query : StatusQuery) (s s' : LiveTradeExecutor Raw) : Prop where
  ledger : s'.ledger = s.ledger
  pendings : s'.pendingOrders = s.pendingOrders
  limits : s'.activeLimitOrders = match query with
    | .inTransit _ => s.activeLimitOrders
    | .resting orderId _ =>
        match findOrder s.activeLimitOrders orderId with
        | none => s.activeLimitOrders
        | some order => replaceOrder (clearQuery order) s.activeLimitOrders

def statusRejection : AuditEvent → Option String
  | .result (.queryResponse _) result => some result.orderId
  | _ => none

def statusRejections (s : LiveTradeExecutor Raw) : List String :=
  s.ledger.log.filterMap statusRejection

def Ended (status : BrokerOrderStatus) : Prop :=
  status = .rejected ∨ status = .cancelled ∨ status = .expired

/-- A failed query leaves its order alone, and an order is only rejected when the broker has
reported its end. -/
def Harmless (t : Tracked Raw) (op : LiveOp Raw) : Prop :=
  ∀ s', step cfg t.executor op = .ok s' →
    match processedQuery cfg t op with
    | none => statusRejections s' = statusRejections t.executor
    | some (query, .error _) => Kept query t.executor s'
    | some (_, .ok response) =>
        statusRejections s' = statusRejections t.executor ∨ Ended response.status

/-- A query that fails does not name an order that still waits under its reference. -/
def Unaffected (t : Tracked Raw) (op : LiveOp Raw) : Prop :=
  match processedQuery cfg t op with
  | some (query, .error _) => ¬Waiting t.executor query
  | _ => True

end Queries

section Records

variable {cfg : LiveConfig Raw} {s s' : LiveTradeExecutor Raw}

theorem statusRejections_append {events : List AuditEvent}
    (hlog : s'.ledger.log = s.ledger.log ++ events)
    (hnone : ∀ event ∈ events, statusRejection event = none) :
    statusRejections s' = statusRejections s := by
  rw [statusRejections, hlog, List.filterMap_append, List.filterMap_eq_nil_iff.mpr hnone,
    List.append_nil]
  rfl

theorem statusRejection_of_isCloseRecord {event : AuditEvent} (h : isCloseRecord event = true) :
    statusRejection event = none := by
  cases event with
  | result source r =>
      cases source with
      | queryResponse action => cases h
      | _ => rfl
  | _ => rfl

theorem fillOpen_statusRejections {pending : PendingOrder} {fillPrice : Option ℚ}
    {entryType : EntryType} {fillType : FillType}
    (h : fillOpen cfg s pending fillPrice entryType fillType = .ok s') :
    statusRejections s' = statusRejections s := by
  obtain ⟨ledger, hledger, hpure⟩ := bind_eq_ok.mp h
  cases hpure
  obtain ⟨result, -, -, -, hext⟩ := fillOpenOrder_extends hledger
  refine statusRejections_append hext.log fun event hevent => ?_
  rcases List.mem_cons.mp hevent with rfl | hevent
  · rfl
  · rw [List.mem_singleton.mp hevent]
    rfl

theorem fillByAction_statusRejections {action : PendingOrderAction} {pending : PendingOrder}
    {fillPrice : Option ℚ} (h : fillByAction cfg s action pending fillPrice = .ok s') :
    statusRejections s' = statusRejections s := by
  cases action with
  | openOrder => exact fillOpen_statusRejections h
  | closeOrder =>
      obtain ⟨ledger, hledger, hpure⟩ := bind_eq_ok.mp h
      cases hpure
      obtain ⟨events, hclose, hext, -⟩ := fillCloseOrder_extends hledger
      exact statusRejections_append hext.log fun event hevent =>
        statusRejection_of_isCloseRecord (hclose event hevent)

theorem takeByRef_statusRejections (s : LiveTradeExecutor Raw) (ref : Option String) :
    statusRejections (takeByRef s ref).1 = statusRejections s := by
  rcases takeByRef_cases s ref with htake | ⟨_, _, -, -, htake⟩
  · rw [htake]
  · rw [htake]
    rfl

theorem recordRejection_statusRejections {source : ResultSource}
    {direction : Option OrderDirection} {rejection : OrderResult} {pendingId : Option String}
    (hsource : ∀ action, source ≠ .queryResponse action) :
    statusRejections (recordRejection cfg s source direction rejection pendingId) =
      statusRejections s := by
  refine statusRejections_append (List.append_assoc _ [_] [_]) fun event hevent => ?_
  rcases List.mem_cons.mp hevent with rfl | hevent
  · cases source with
    | queryResponse action => exact absurd rfl (hsource action)
    | _ => rfl
  · rw [List.mem_singleton.mp hevent]
    rfl

/-- Handling a response to anything but a status query records no rejection by one. -/
theorem handled_statusRejections {response : Response Raw} (h : Handled cfg s response s')
    (hother : ∀ orderId reply, response ≠ .query orderId reply) :
    statusRejections s' = statusRejections s := by
  cases h with
  | unknown _ => rfl
  | untouched _ => rfl
  | positionModified _ _ _ => rfl
  | @marketRejected orderId action orderType response pending _ _ =>
      refine recordRejection_statusRejections (s := discardPending s pending) fun kind heq => ?_
      cases heq
  | marketConfirmed _ _ => rfl
  | marketFilled htype hget hne hfill =>
      refine (fillByAction_statusRejections hfill).trans ?_
      rw [markFilled, takeByRef_statusRejections]
      rfl
  | @limitRejected orderId action response pending _ =>
      refine recordRejection_statusRejections (s := removeLimitOrder s pending) fun kind heq => ?_
      cases heq
  | limitConfirmed _ _ => rfl
  | limitDeferred _ => rfl
  | limitFilled order hid hmem hfill =>
      have hfilled := fillOpen_statusRejections hfill
      exact hfilled
  | modifyRejected _ =>
      refine recordRejection_statusRejections (s := s) fun kind heq => ?_
      cases heq
  | modified _ =>
      show ((swapBrokerRef _ _ _).1.ledger.log.filterMap _) = _
      rw [(swapBrokerRef_frame _ _ _).1]
      rfl
  | cancelRefused _ =>
      refine statusRejections_append rfl fun event hevent => ?_
      rw [List.mem_singleton.mp hevent]
      rfl
  | cancelled _ =>
      refine statusRejections_append rfl fun event hevent => ?_
      rw [List.mem_singleton.mp hevent]
      rfl
  | tradesAppended _ => rfl
  | queryCleared _ => exact absurd rfl (hother _ _)
  | queryEnded _ => exact absurd rfl (hother _ _)

theorem handleQueryResponse_statusRejections {orderId : String} {reply : BrokerResponse Raw}
    (h : handleQueryResponse cfg s orderId reply = .ok s') :
    statusRejections s' = statusRejections s ∨ Ended reply.status := by
  rw [handleQueryResponse] at h
  split at h
  · cases h
    exact .inl rfl
  · simp only at h
    split at h
    · cases h
      exact .inl rfl
    · split at h
      · have hfilled := fillOpen_statusRejections h
        exact .inl hfilled
      · next hfilled =>
          split at h
          · next hterminal =>
              refine .inr ?_
              rw [BrokerResponse.isTerminal] at hterminal
              rw [BrokerResponse.isFilled] at hfilled
              cases hstatus : reply.status with
              | filled => simp [hstatus] at hfilled
              | rejected => exact .inl rfl
              | cancelled => exact .inr (.inl rfl)
              | expired => exact .inr (.inr rfl)
              | pending => simp [hstatus] at hterminal
              | partiallyFilled => simp [hstatus] at hterminal
          · cases h
            exact .inl rfl

/-- Only the operations that process status queries record rejections by them. -/
theorem stepped_statusRejections {op : LiveOp Raw} (h : Stepped cfg s op s')
    (hdrain : op ≠ .drain) (hpoll : ∀ answer, op ≠ .poll answer) :
    statusRejections s' = statusRejections s := by
  have hledger : s'.ledger = s.ledger → statusRejections s' = statusRejections s := by
    intro heq
    rw [statusRejections, heq]
    rfl
  cases h with
  | quiet hquiet =>
      refine statusRejections_append hquiet.ledger.log fun event hevent => ?_
      cases hevent
  | guarded hquiet =>
      refine statusRejections_append hquiet.ledger.log fun event hevent => ?_
      rw [List.mem_singleton.mp hevent]
      rfl
  | refused request =>
      refine statusRejections_append rfl fun event hevent => ?_
      rw [List.mem_singleton.mp hevent]
      rfl
  | enqueued hother hquiet =>
      refine statusRejections_append hquiet.ledger.log fun event hevent => ?_
      cases hevent
  | registered request htype =>
      refine statusRejections_append (List.append_assoc _ [_] [_]) fun event hevent => ?_
      rcases List.mem_cons.mp hevent with rfl | hevent
      · rfl
      · rw [List.mem_singleton.mp hevent]
        rfl
  | rested request htype hnormalized =>
      refine statusRejections_append rfl fun event hevent => ?_
      rw [List.mem_singleton.mp hevent]
      rfl
  | closing hposition =>
      refine statusRejections_append rfl fun event hevent => ?_
      rw [List.mem_singleton.mp hevent]
      rfl
  | startedModify mod hfind href hidle hmod => exact hledger rfl
  | startedCancel hfind href hidle =>
      refine statusRejections_append rfl fun event hevent => ?_
      rw [List.mem_singleton.mp hevent]
      rfl
  | requestedCancel hfind href =>
      refine statusRejections_append rfl fun event hevent => ?_
      rw [List.mem_singleton.mp hevent]
      rfl
  | scheduled => exact hledger rfl
  | drained hinbox hhandled => exact absurd rfl hdrain
  | polled hpolling href hquery hpolled => exact absurd rfl (hpoll _)
  | @expired pending rest hexpiring =>
      have hsource : ∀ kind, ResultSource.timeout pending.orderAction ≠ .queryResponse kind := by
        intro kind heq
        cases heq
      rw [handleTimeout, recordRejection_statusRejections hsource, markRejected,
        takeByRef_statusRejections]
      refine statusRejections_append rfl fun event hevent => ?_
      rw [List.mem_singleton.mp hevent]
      rfl
  | ended hpendings hindex hlimits hitems hext hevents =>
      refine statusRejections_append hext.log fun event hevent => ?_
      rcases hevents event hevent with ⟨result, rfl, -⟩ | hclose | ⟨pending, rfl⟩
      · rfl
      · exact statusRejection_of_isCloseRecord hclose
      · rfl

end Records

section Steps

variable {cfg : LiveConfig Raw} {s s' : LiveTradeExecutor Raw} {t : Tracked Raw}

theorem recordRejection_ledger_ne {ledger : ExecutionLedger} {source : ResultSource}
    {direction : Option OrderDirection} {rejection : OrderResult} {pendingId : Option String}
    (hsame : s.ledger.ordersRejected = ledger.ordersRejected) :
    (recordRejection cfg s source direction rejection pendingId).ledger ≠ ledger := by
  intro heq
  have hcount : s.ledger.ordersRejected + 1 = ledger.ordersRejected :=
    congrArg ExecutionLedger.ordersRejected heq
  omega

/-- The failed query of a resting order is handled like its rejection, unless the order has
another reference by now. -/
theorem handleQueryResponse_failed {orderId ref text : String} :
    (∀ s', handleQueryResponse cfg s orderId (transportFailure ref text) = .ok s' →
      Kept (.resting orderId ref) s s') ↔ ¬Waiting s (.resting orderId ref) := by
  cases hfind : findOrder s.activeLimitOrders orderId with
  | none =>
      constructor
      · rintro - ⟨order, hfound, -⟩
        rw [hfind] at hfound
        cases hfound
      · intro _ s' h
        simp only [handleQueryResponse, hfind] at h
        cases h
        refine ⟨rfl, rfl, ?_⟩
        simp only [hfind]
  | some order =>
      by_cases href : order.brokerRef = some ref
      · have hsame : ¬(clearQuery order).brokerRef ≠
            some (transportFailure ref text : BrokerResponse Raw).brokerRef := not_not.mpr href
        have hresult : handleQueryResponse cfg s orderId (transportFailure ref text) =
            .ok (recordRejection cfg
              (removeLimitOrder (setLimitOrder s (clearQuery order)) (clearQuery order))
              (.queryResponse order.orderAction) order.direction
              (createRejectionResult orderId .brokerError (.brokerEnded .rejected
                (transportFailure ref text : BrokerResponse Raw).reasonText))
              (some order.pendingOrderId)) := by
          simp only [handleQueryResponse, hfind, if_neg hsame]
          rfl
        constructor
        · intro hkept
          exact absurd (hkept _ hresult).ledger (recordRejection_ledger_ne rfl)
        · intro hwaiting
          exact absurd ⟨order, hfind, href⟩ hwaiting
      · constructor
        · rintro - ⟨order', hfound, href'⟩
          rw [hfind] at hfound
          cases hfound
          exact href href'
        · intro _ s' h
          have hne : (clearQuery order).brokerRef ≠
              some (transportFailure ref text : BrokerResponse Raw).brokerRef := href
          simp only [handleQueryResponse, hfind, if_pos hne] at h
          cases h
          refine ⟨rfl, rfl, ?_⟩
          simp only [hfind]
          rfl

/-- The failed query of an order in transit is handled like its rejection, unless nothing is
pending under the reference. -/
theorem handleBrokerResponse_failed {ref text : String} :
    (∀ s', handleBrokerResponse cfg s ref (transportFailure ref text) = .ok s' →
      Kept (.inTransit ref) s s') ↔ ¬Waiting s (.inTransit ref) := by
  have hfailed : ∀ {taken rejected}, markRejected s (some ref) = (taken, some rejected) →
      handleBrokerResponse cfg s ref (transportFailure ref text) =
        .ok (recordRejection cfg (recordOutcome taken rejected .rejected)
          (.queryResponse rejected.orderAction) rejected.direction
          (createRejectionResult rejected.pendingOrderId .brokerError (.brokerRejected
            (transportFailure ref text : BrokerResponse Raw).reasonText))
          (some rejected.pendingOrderId)) := by
    intro taken rejected hmark
    simp only [handleBrokerResponse, transportFailure, hmark]
  have hunknown : ∀ {taken}, markRejected s (some ref) = (taken, none) →
      handleBrokerResponse cfg s ref (transportFailure ref text) = .ok taken := by
    intro taken hmark
    simp only [handleBrokerResponse, transportFailure, hmark]
  cases hindex : s.brokerRefIndex.get? ref with
  | none =>
      have hmark : markRejected s (some ref) = (s, none) := by
        simp only [markRejected, takeByRef, hindex]
      constructor
      · rintro - ⟨orderId, order, hfound, -⟩
        rw [hindex] at hfound
        cases hfound
      · intro _ s' h
        rw [hunknown hmark] at h
        cases h
        exact ⟨rfl, rfl, rfl⟩
  | some orderId =>
      have hmark := takeByRef_of_get? hindex
      cases hget : s.pendingOrders.get? orderId with
      | none =>
          rw [hget] at hmark
          constructor
          · rintro - ⟨orderId', order, hfound, hstored⟩
            rw [hindex] at hfound
            cases hfound
            rw [hget] at hstored
            cases hstored
          · intro _ s' h
            rw [hunknown hmark] at h
            cases h
            exact ⟨rfl, Dict.erase_eq_self_of_get?_none hget, rfl⟩
      | some order =>
          rw [hget] at hmark
          constructor
          · intro hkept
            exact absurd (hkept _ (hfailed hmark)).ledger (recordRejection_ledger_ne rfl)
          · intro hwaiting
            exact absurd ⟨orderId, order, hindex, hget⟩ hwaiting

def popped (s : LiveTradeExecutor Raw) (inbox : List (Response Raw)) : LiveTradeExecutor Raw :=
  { s with requests := { s.requests with inbox := inbox } }

theorem drain_of_origin {job : Job} {answer : Except String Raw}
    {rest : List (Job × Except String Raw)} (h : Originated cfg t)
    (horigins : t.origins = (job, answer) :: rest) :
    ∃ inbox, step cfg t.executor .drain =
      handleResponse cfg (popped t.executor inbox) (dispatch cfg.adapter answer job) := by
  have hinbox := h.inbox
  rw [horigins, List.map_cons] at hinbox
  exact ⟨_, by rw [step, drain, hinbox]; rfl⟩

def visited (s : LiveTradeExecutor Raw) (polling : List PendingOrder) : LiveTradeExecutor Raw :=
  { s with polling := polling }

theorem polled_statusRejections {ref : String} {response : BrokerResponse Raw}
    (h : Polled cfg s ref response s') :
    statusRejections s' = statusRejections s ∨ Ended response.status := by
  cases h with
  | idle _ _ => exact .inl rfl
  | unmatched _ => exact .inl (takeByRef_statusRejections s (some ref))
  | filled hstatus htaken hfill =>
      refine .inl ((fillByAction_statusRejections hfill).trans ?_)
      rw [← takeByRef_statusRejections s (some ref)]
      refine statusRejections_append rfl fun event hevent => ?_
      rw [List.mem_singleton.mp hevent]
      rfl
  | rejected hstatus htaken => exact .inr (.inl hstatus)

theorem poll_harmless_iff (answer : Except String Raw) :
    Harmless cfg t (.poll answer) ↔ Unaffected cfg t (.poll answer) := by
  cases hpolling : t.executor.polling with
  | nil =>
      have hnone : processedQuery cfg t (.poll answer) = none := by
        simp only [processedQuery, hpolling]
      rw [Harmless, Unaffected, hnone]
      refine iff_of_true (fun s' hstep => ?_) trivial
      rw [step, poll, hpolling] at hstep
      cases hstep
      rfl
  | cons pending rest =>
      have hstep : step cfg t.executor (.poll answer) =
          pollOrder cfg (fun _ => answer) (visited t.executor rest) pending := by
        rw [step, poll, hpolling]
        rfl
      cases href : pending.confirmedRef with
      | none =>
          have hnone : processedQuery cfg t (.poll answer) = none := by
            simp only [processedQuery, hpolling, href]
          rw [Harmless, Unaffected, hnone, hstep]
          refine iff_of_true (fun s' hpolled => ?_) trivial
          simp only [pollOrder, href] at hpolled
          cases hpolled
          rfl
      | some ref =>
          have hpoll : pollOrder cfg (fun _ => answer) (visited t.executor rest) pending =
              queryOrderSync cfg ref answer >>=
                handleBrokerResponse cfg (visited t.executor rest) ref := by
            simp only [pollOrder, href]
          cases hquery : queryOrderSync cfg ref answer with
          | error e =>
              have hnone : processedQuery cfg t (.poll answer) = none := by
                simp only [processedQuery, hpolling, href, hquery]
              rw [Harmless, Unaffected, hnone, hstep, hpoll, hquery]
              refine iff_of_true (fun s' hpolled => ?_) trivial
              cases hpolled
          | ok response =>
              cases answer with
              | error text =>
                  have hprocessed : processedQuery cfg t (.poll (.error text)) =
                      some (.inTransit ref, .error text) := by
                    simp only [processedQuery, hpolling, href, hquery]
                  cases hquery
                  rw [Harmless, Unaffected, hprocessed, hstep, hpoll]
                  have hfailed : (∀ s', handleBrokerResponse cfg (visited t.executor rest) ref
                        (transportFailure ref text) = .ok s' →
                      Kept (.inTransit ref) (visited t.executor rest) s') ↔
                      ¬Waiting (visited t.executor rest) (.inTransit ref) :=
                    handleBrokerResponse_failed
                  refine Iff.trans (forall_congr' fun s' => imp_congr_right fun _ => ?_) hfailed
                  exact ⟨fun hkept => ⟨hkept.ledger, hkept.pendings, hkept.limits⟩,
                    fun hkept => ⟨hkept.ledger, hkept.pendings, hkept.limits⟩⟩
              | ok raw =>
                  have hprocessed : processedQuery cfg t (.poll (.ok raw)) =
                      some (.inTransit ref, .ok response) := by
                    simp only [processedQuery, hpolling, href, hquery]
                  rw [Harmless, Unaffected, hprocessed, hstep, hpoll, hquery]
                  refine iff_of_true (fun s' hpolled => ?_) trivial
                  have hreported := polled_statusRejections (handleBrokerResponse_polled hpolled)
                  exact hreported

/-- A step keeps what a failed query must keep exactly when the query names no order that still
waits. -/
theorem harmless_iff_unaffected (h : Originated cfg t) (op : LiveOp Raw) :
    Harmless cfg t op ↔ Unaffected cfg t op := by
  by_cases hdrain : op = .drain
  · subst hdrain
    cases horigins : t.origins with
    | nil =>
        have hnone : processedQuery cfg t .drain = none := by
          simp only [processedQuery, horigins]
        have hinbox := h.inbox
        rw [horigins] at hinbox
        rw [Harmless, Unaffected, hnone]
        refine iff_of_true (fun s' hstep => ?_) trivial
        rw [step, drain, hinbox] at hstep
        cases hstep
        rfl
    | cons origin rest =>
        obtain ⟨job, answer⟩ := origin
        obtain ⟨inbox, hstep⟩ := drain_of_origin h horigins
        by_cases hquery : ∃ orderId ref, job = .query orderId ref
        · obtain ⟨orderId, ref, rfl⟩ := hquery
          have hprocessed : processedQuery cfg t .drain = some (.resting orderId ref,
              answer >>= (cfg.adapter.parseQueryResponse · ref)) := by
            simp only [processedQuery, horigins]
          rw [Harmless, Unaffected, hprocessed, hstep]
          cases hanswer : answer >>= (cfg.adapter.parseQueryResponse · ref) with
          | error text =>
              simp only [dispatch, hanswer, guarded]
              have hfailed : (∀ s', handleQueryResponse cfg (popped t.executor inbox) orderId
                    (transportFailure ref text) = .ok s' →
                  Kept (.resting orderId ref) (popped t.executor inbox) s') ↔
                  ¬Waiting (popped t.executor inbox) (.resting orderId ref) :=
                handleQueryResponse_failed
              refine Iff.trans (forall_congr' fun s' => imp_congr_right fun _ => ?_) hfailed
              exact ⟨fun hkept => ⟨hkept.ledger, hkept.pendings, hkept.limits⟩,
                fun hkept => ⟨hkept.ledger, hkept.pendings, hkept.limits⟩⟩
          | ok response =>
              simp only [dispatch, hanswer, guarded]
              refine iff_of_true (fun s' hhandle => ?_) trivial
              have hreported := handleQueryResponse_statusRejections hhandle
              exact hreported
        · have hnone : processedQuery cfg t .drain = none := by
            simp only [processedQuery, horigins]
            cases job with
            | query orderId ref => exact absurd ⟨orderId, ref, rfl⟩ hquery
            | _ => rfl
          rw [Harmless, Unaffected, hnone, hstep]
          refine iff_of_true (fun s' hhandle => ?_) trivial
          have hempty : (popped t.executor inbox).brokerRefIndex.get? "" = none := h.sound.emptyRef
          have hhandled := handled_statusRejections (handleResponse_handled hempty hhandle)
            fun orderId reply heq => ?_
          · exact hhandled
          · cases job with
            | query orderId ref => exact hquery ⟨orderId, ref, rfl⟩
            | tradesQuery orderId ref =>
                simp only [dispatch] at heq
                split at heq <;> cases heq
            | _ => cases heq
  · by_cases hpoll : ∃ answer, op = .poll answer
    · obtain ⟨answer, rfl⟩ := hpoll
      exact poll_harmless_iff answer
    · have hnone : processedQuery cfg t op = none := by
        cases op with
        | drain => exact absurd rfl hdrain
        | poll answer => exact absurd ⟨answer, rfl⟩ hpoll
        | _ => rfl
      rw [Harmless, Unaffected, hnone]
      refine iff_of_true (fun s' hstep => ?_) trivial
      exact stepped_statusRejections (step_stepped h.sound hstep) hdrain
        fun answer heq => hpoll ⟨answer, heq⟩

end Steps

section Runs

/-- Over every run, failed queries change nothing and rejections are the broker's exactly when no
failed query names an order that still waits under its reference. -/
theorem failed_queries_harmless (cfg : LiveConfig Raw) (ops : List (LiveOp Raw)) :
    StepsAll (trackedStep cfg) (Harmless cfg) (start cfg) ops ↔
      StepsAll (trackedStep cfg) (Unaffected cfg) (start cfg) ops :=
  stepsAll_congr (fun _ _ _ h hstep => trackedStep_originated h hstep)
    (fun _ op h => harmless_iff_unaffected h op) (start_originated cfg)

def failedPoll : List (LiveOp Kraken.RawResult) :=
  restingLimit ++ [.wallClock 10000000, .processActiveOrders] ++ failed "timed out"

def failedQuery (t : Tracked Kraken.RawResult) : Option (String × String) :=
  match processedQuery krakenSession t .drain with
  | some (.resting orderId ref, .error _) => some (orderId, ref)
  | _ => none

theorem failedPoll_runs :
    (run (trackedStep krakenSession) (start krakenSession) failedPoll).map (fun t =>
      (failedQuery t, t.executor.ledger.ordersRejected,
        (step krakenSession t.executor .drain).toOption.map fun s' =>
          (s'.activeLimitOrders.length, s'.ledger.ordersRejected))) =
      .ok (some ("pos_ethusd_1", "OID-1"), 0, some (0, 1)) := by
  decide +kernel

/-- The order is removed and counted as rejected, though the broker reported nothing. -/
theorem failed_query_rejects :
    ¬StepsAll (trackedStep krakenSession) (Harmless krakenSession) (start krakenSession)
      (failedPoll ++ [.drain]) := by
  intro hall
  obtain ⟨t, hrun, hfacts⟩ := exists_of_map_eq_ok failedPoll_runs
  have hharmless := hall.last hrun
  have hquery : failedQuery t = some ("pos_ethusd_1", "OID-1") := congrArg Prod.fst hfacts
  have hbefore : t.executor.ledger.ordersRejected = 0 := congrArg (·.2.1) hfacts
  obtain ⟨s', hstep, hafter⟩ := Option.map_eq_some_iff.mp (congrArg (·.2.2) hfacts)
  have hstep' : step krakenSession t.executor .drain = .ok s' := by
    cases hresult : step krakenSession t.executor .drain with
    | error e =>
        rw [hresult] at hstep
        cases hstep
    | ok s'' =>
        rw [hresult] at hstep
        cases hstep
        rfl
  have hkept := hharmless s' hstep'
  rw [failedQuery] at hquery
  split at hquery
  · next hprocessed =>
      rw [hprocessed] at hkept
      have hledger : s'.ledger.ordersRejected = t.executor.ledger.ordersRejected :=
        congrArg ExecutionLedger.ordersRejected hkept.ledger
      have hcounted : s'.ledger.ordersRejected = 1 := congrArg Prod.snd hafter
      omega
  · cases hquery

end Runs

end Finiex.LiveQueries
