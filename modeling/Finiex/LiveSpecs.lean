import Finiex.Live
import Finiex.OrderBooks

namespace Finiex.LiveSpecs

open Finiex.Types
open Finiex.Lib
open Finiex.Lib.Run
open Finiex.Orders
open Finiex.OrderBooks
open Finiex.Portfolio
open Finiex.Portfolio.PortfolioManager
open Finiex.Executor
open Finiex.LiveTypes
open Finiex.Live

variable {Raw : Type}

section Items

inductive ItemKind
  | limitSubmit | openSubmit | closeSubmit | edit | cancel | query | other
  deriving DecidableEq

abbrev Item := ItemKind × String

def submitKind (action : PendingOrderAction) (orderType : Types.OrderType) : ItemKind :=
  match orderType, action with
  | .limit, _ => .limitSubmit
  | _, .openOrder => .openSubmit
  | _, .closeOrder => .closeSubmit

def jobTag : Job → Item
  | .submit orderId action orderType _ => (submitKind action orderType, orderId)
  | .edit orderId _ _ _ _ _ => (.edit, orderId)
  | .cancel orderId _ => (.cancel, orderId)
  | .positionModify positionId _ _ _ => (.other, positionId)
  | .query orderId _ => (.query, orderId)
  | .tradesQuery orderId _ => (.other, orderId)

def responseTag : Response Raw → Item
  | .submit orderId action orderType _ => (submitKind action orderType, orderId)
  | .edit orderId _ => (.edit, orderId)
  | .cancel orderId _ => (.cancel, orderId)
  | .positionModify positionId _ => (.other, positionId)
  | .query orderId _ => (.query, orderId)
  | .tradesQuery response => (.other, response.orderId)

def inFlight (s : LiveTradeExecutor Raw) : List Item := s.requests.items jobTag responseTag

theorem responseTag_dispatch (adapter : BrokerAdapter Raw) (answer : Except String Raw)
    (job : Job) : responseTag (dispatch adapter answer job) = jobTag job := by
  cases job with
  | tradesQuery orderId brokerRef =>
      rw [dispatch]
      split <;> rfl
  | _ => rfl

end Items

theorem takeByRef_of_get? {s : LiveTradeExecutor Raw} {ref orderId : String}
    (h : s.brokerRefIndex.get? ref = some orderId) :
    takeByRef s (some ref) = ({ s with
        brokerRefIndex := s.brokerRefIndex.erase ref
        pendingOrders := s.pendingOrders.erase orderId },
      s.pendingOrders.get? orderId) := by
  rw [takeByRef]
  simp only [h]

theorem takeByRef_cases (s : LiveTradeExecutor Raw) (brokerRef : Option String) :
    takeByRef s brokerRef = (s, none) ∨ ∃ ref orderId,
      brokerRef = some ref ∧ s.brokerRefIndex.get? ref = some orderId ∧
      takeByRef s brokerRef = ({ s with
          brokerRefIndex := s.brokerRefIndex.erase ref
          pendingOrders := s.pendingOrders.erase orderId },
        s.pendingOrders.get? orderId) := by
  cases brokerRef with
  | none => exact .inl rfl
  | some ref =>
      cases hget : s.brokerRefIndex.get? ref with
      | none =>
          refine .inl ?_
          rw [takeByRef]
          simp only [hget]
      | some orderId => exact .inr ⟨ref, orderId, rfl, hget, takeByRef_of_get? hget⟩

variable (cfg : LiveConfig Raw)

inductive Handled (s : LiveTradeExecutor Raw) :
    Response Raw → LiveTradeExecutor Raw → Prop
  | unknown {response} :
      (responseTag response).2 ∉ orderIds s.activeLimitOrders → Handled s response s
  | untouched {response} :
      (responseTag response).1 = .other ∨ (responseTag response).1 = .openSubmit ∨
        (responseTag response).1 = .closeSubmit → Handled s response s
  | positionModified {positionId response} (modifications : Dict String ModificationRequest)
      (portfolio : PortfolioManager) :
      (portfolio = s.ledger.portfolio ∨ ∃ stopLoss takeProfit, portfolio =
        (s.ledger.portfolio.modifyPosition positionId stopLoss takeProfit).1) →
      Handled s (.positionModify positionId response) { s with
        pendingPositionModifications := modifications
        ledger := { s.ledger with portfolio := portfolio } }
  | marketRejected {orderId action orderType response pending} :
      orderType ≠ .limit → s.pendingOrders.get? orderId = some pending →
      Handled s (.submit orderId action orderType response)
        (recordAsyncRejection cfg (discardPending s pending) pending
          (createRejectionResult orderId .brokerError (.brokerRejected response.reasonText)))
  | marketConfirmed {orderId action orderType response pending} :
      orderType ≠ .limit → s.pendingOrders.get? orderId = some pending →
      Handled s (.submit orderId action orderType response)
        (confirmPending s orderId pending response.brokerRef)
  | marketFilled {orderId action orderType response pending s'} :
      orderType ≠ .limit → s.pendingOrders.get? orderId = some pending →
      response.brokerRef ≠ "" →
      fillByAction cfg (markFilled (confirmPending s orderId pending response.brokerRef)
          (some response.brokerRef)).1 action
        { pending with brokerRef := some response.brokerRef } response.fillPrice = .ok s' →
      Handled s (.submit orderId action orderType response) s'
  | limitRejected {orderId action response pending} :
      findOrder s.activeLimitOrders orderId = some pending →
      Handled s (.submit orderId action .limit response)
        (recordAsyncRejection cfg (removeLimitOrder s pending) pending
          (createRejectionResult orderId .brokerError
            (.brokerRejectedLimit response.reasonText)))
  | limitConfirmed {orderId action response pending} :
      findOrder s.activeLimitOrders orderId = some pending →
      pending.executionState.cancelRequested = false →
      Handled s (.submit orderId action .limit response)
        (setLimitOrder s { pending with brokerRef := some response.brokerRef })
  | limitDeferred {orderId action response pending} :
      findOrder s.activeLimitOrders orderId = some pending →
      Handled s (.submit orderId action .limit response)
        (issueDeferredCancel (setLimitOrder s { pending with brokerRef := some response.brokerRef })
          { pending with brokerRef := some response.brokerRef } response.brokerRef)
  | limitFilled {response fillPrice entryType fillType s'} (order : PendingOrder) :
      order.pendingOrderId = (responseTag response).2 →
      order.pendingOrderId ∈ orderIds s.activeLimitOrders →
      fillOpen cfg (removeLimitOrder (setLimitOrder s order) order) order fillPrice entryType
        fillType = .ok s' →
      Handled s response s'
  | modifyRejected {orderId response pending} :
      findOrder s.activeLimitOrders orderId = some pending →
      Handled s (.edit orderId response)
        (setLimitOrder (recordRejection cfg s .modifyResponse pending.direction
          (createRejectionResult orderId .brokerError (.modifyRejected response.reasonText))
          (some pending.pendingOrderId)) (clearModification pending))
  | modified {orderId response pending} :
      findOrder s.activeLimitOrders orderId = some pending →
      Handled s (.edit orderId response)
        (setLimitOrder
          (swapBrokerRef s (applyModification pending pending.pendingModification)
            response.brokerRef).1
          (clearModification
            (swapBrokerRef s (applyModification pending pending.pendingModification)
              response.brokerRef).2))
  | cancelRefused {orderId response pending} :
      findOrder s.activeLimitOrders orderId = some pending →
      Handled s (.cancel orderId response)
        { setLimitOrder s (clearOperation pending) with
          ledger := s.ledger.record (.cancelRefused orderId) }
  | cancelled {orderId response pending} :
      findOrder s.activeLimitOrders orderId = some pending →
      Handled s (.cancel orderId response)
        { removeLimitOrder s pending with
          ledger := s.ledger.record (.orderCancelled pending.pendingOrderId pending.direction) }
  | tradesAppended {response pending} :
      findOrder s.activeLimitOrders response.orderId = some pending →
      Handled s (.tradesQuery response)
        (setLimitOrder s (appendTrades pending response.trades))
  | queryCleared {orderId response pending} :
      findOrder s.activeLimitOrders orderId = some pending →
      Handled s (.query orderId response) (setLimitOrder s (clearQuery pending))
  | queryEnded {orderId response pending} :
      findOrder s.activeLimitOrders orderId = some pending →
      Handled s (.query orderId response)
        (recordRejection cfg
          (removeLimitOrder (setLimitOrder s (clearQuery pending)) (clearQuery pending))
          (.queryResponse pending.orderAction) pending.direction
          (createRejectionResult orderId .brokerError
            (.brokerEnded response.status response.reasonText))
          (some pending.pendingOrderId))

section Inversion

variable {cfg} {s s' : LiveTradeExecutor Raw}

theorem markFilled_confirmPending (orderId : String) {ref : String} (pending : PendingOrder)
    (hempty : s.brokerRefIndex.get? "" = none) :
    (ref = "" ∧ markFilled (confirmPending s orderId pending ref) (some ref) =
        (confirmPending s orderId pending ref, none)) ∨
      (ref ≠ "" ∧ (markFilled (confirmPending s orderId pending ref) (some ref)).2 =
        some { pending with brokerRef := some ref }) := by
  by_cases href : ref = ""
  · subst href
    refine .inl ⟨rfl, ?_⟩
    simp [markFilled, takeByRef, confirmPending, hempty]
  · have hindex : (confirmPending s orderId pending ref).brokerRefIndex.get? ref =
        some orderId := by
      simp [confirmPending, href]
    refine .inr ⟨href, ?_⟩
    rw [markFilled, takeByRef_of_get? hindex]
    simp [confirmPending]

theorem handleMarketSubmitResponse_handled {orderId : String} {action : PendingOrderAction}
    {orderType : Types.OrderType} {response : BrokerResponse Raw}
    (hempty : s.brokerRefIndex.get? "" = none) (htype : orderType ≠ .limit)
    (h : handleMarketSubmitResponse cfg s orderId action response = .ok s') :
    Handled cfg s (.submit orderId action orderType response) s' := by
  rw [handleMarketSubmitResponse] at h
  cases hget : s.pendingOrders.get? orderId with
  | none =>
      simp only [hget] at h
      cases h
      refine .untouched ?_
      cases orderType <;> cases action <;> simp_all [responseTag, submitKind]
  | some pending =>
      simp only [hget] at h
      split at h
      · cases h
        exact .marketRejected htype hget
      · split at h
        · rcases markFilled_confirmPending orderId pending hempty with
            ⟨-, hmark⟩ | ⟨hne, hmark⟩
          · rw [hmark] at h
            cases h
            exact .marketConfirmed htype hget
          · split at h
            · next s₁ hnone => rw [hnone] at hmark; cases hmark
            · next s₁ filled hsome =>
                rw [hsome] at hmark
                obtain rfl := Option.some.inj hmark
                refine .marketFilled htype hget hne ?_
                rw [hsome]
                exact h
        · cases h
          exact .marketConfirmed htype hget

theorem handleLimitSubmitResponse_handled {orderId : String} {action : PendingOrderAction}
    {response : BrokerResponse Raw}
    (h : handleLimitSubmitResponse cfg s orderId response = .ok s') :
    Handled cfg s (.submit orderId action .limit response) s' := by
  rw [handleLimitSubmitResponse] at h
  cases hfind : findOrder s.activeLimitOrders orderId with
  | none =>
      simp only [hfind] at h
      cases h
      exact .unknown (findOrder_eq_none.mp hfind)
  | some pending =>
      have hid := findOrder_id hfind
      simp only [hfind] at h
      split at h
      · cases h
        exact .limitRejected hfind
      · split at h
        · refine .limitFilled { pending with brokerRef := some response.brokerRef } hid ?_ h
          show pending.pendingOrderId ∈ _
          rw [hid]
          exact mem_orderIds_of_findOrder hfind
        · split at h
          · cases h
            exact .limitDeferred hfind
          · next hrequested =>
              cases h
              exact .limitConfirmed hfind (by simpa using hrequested)

theorem handleModifyResponse_handled {orderId : String} {response : BrokerResponse Raw}
    (h : handleModifyResponse cfg s orderId response = .ok s') :
    Handled cfg s (.edit orderId response) s' := by
  rw [handleModifyResponse] at h
  cases hfind : findOrder s.activeLimitOrders orderId with
  | none =>
      simp only [hfind] at h
      cases h
      exact .unknown (findOrder_eq_none.mp hfind)
  | some pending =>
      simp only [hfind] at h
      split at h
      · cases h
        exact .modifyRejected hfind
      · cases h
        exact .modified hfind

theorem handleCancelResponse_handled {orderId : String} {response : BrokerResponse Raw}
    (h : handleCancelResponse s orderId response = .ok s') :
    Handled cfg s (.cancel orderId response) s' := by
  rw [handleCancelResponse] at h
  cases hfind : findOrder s.activeLimitOrders orderId with
  | none =>
      simp only [hfind] at h
      cases h
      exact .unknown (findOrder_eq_none.mp hfind)
  | some pending =>
      simp only [hfind] at h
      split at h
      · cases h
        exact .cancelRefused hfind
      · obtain ⟨now, -, h⟩ := bind_eq_ok.mp h
        cases h
        exact .cancelled hfind

theorem handlePositionModifyResponse_handled {positionId : String}
    {response : BrokerResponse Raw}
    (h : handlePositionModifyResponse s positionId response = .ok s') :
    Handled cfg s (.positionModify positionId response) s' := by
  rw [handlePositionModifyResponse] at h
  split at h
  · cases h
    exact .untouched (.inl rfl)
  · split at h
    · cases h
      exact .positionModified _ _ (.inl rfl)
    · cases h
      exact .positionModified _ _ (.inr ⟨_, _, rfl⟩)

theorem handleTradesResponse_handled {response : TradesQueryResponse}
    (h : handleTradesResponse cfg s response = .ok s') :
    Handled cfg s (.tradesQuery response) s' := by
  rw [handleTradesResponse] at h
  split at h
  · cases h
    exact .untouched (.inl rfl)
  · cases hfind : findOrder s.activeLimitOrders response.orderId with
    | none =>
        simp only [hfind] at h
        cases h
        exact .untouched (.inl rfl)
    | some pending =>
        have hid := findOrder_id hfind
        simp only [hfind] at h
        split at h
        · cases h
          exact .untouched (.inl rfl)
        · split at h
          · refine .limitFilled (appendTrades pending response.trades) hid ?_ h
            show pending.pendingOrderId ∈ _
            rw [hid]
            exact mem_orderIds_of_findOrder hfind
          · cases h
            exact .tradesAppended hfind

theorem handleQueryResponse_handled {orderId : String} {response : BrokerResponse Raw}
    (h : handleQueryResponse cfg s orderId response = .ok s') :
    Handled cfg s (.query orderId response) s' := by
  rw [handleQueryResponse] at h
  cases hfind : findOrder s.activeLimitOrders orderId with
  | none =>
      simp only [hfind] at h
      cases h
      exact .unknown (findOrder_eq_none.mp hfind)
  | some pending =>
      have hid := findOrder_id hfind
      simp only [hfind] at h
      split at h
      · cases h
        exact .queryCleared hfind
      · split at h
        · refine .limitFilled (clearQuery pending) hid ?_ h
          show pending.pendingOrderId ∈ _
          rw [hid]
          exact mem_orderIds_of_findOrder hfind
        · split at h
          · cases h
            exact .queryEnded hfind
          · cases h
            exact .queryCleared hfind

theorem handleResponse_handled {response : Response Raw}
    (hempty : s.brokerRefIndex.get? "" = none)
    (h : handleResponse cfg s response = .ok s') : Handled cfg s response s' := by
  cases response with
  | submit orderId action orderType response =>
      by_cases htype : orderType = .limit
      · subst htype
        exact handleLimitSubmitResponse_handled h
      · apply handleMarketSubmitResponse_handled hempty htype
        cases orderType <;> first | exact h | exact absurd rfl htype
  | edit orderId response => exact handleModifyResponse_handled h
  | cancel orderId response => exact handleCancelResponse_handled h
  | positionModify positionId response => exact handlePositionModifyResponse_handled h
  | query orderId response => exact handleQueryResponse_handled h
  | tradesQuery response => exact handleTradesResponse_handled h

end Inversion

section Calls

variable {cfg} {s s' : LiveTradeExecutor Raw}

/-- The clock, and what the loops still have to visit: the calls of the decision leave it alone. -/
structure CallFrame (s s' : LiveTradeExecutor Raw) : Prop where
  market : s'.market = s.market
  expiring : s'.expiring = s.expiring
  inbox : s'.requests.inbox = s.requests.inbox

theorem openOrder_callFrame {request : OpenOrderRequest} {result : OrderResult}
    (h : openOrder cfg s request = .ok (s', result)) : CallFrame s s' := by
  rw [openOrder] at h
  simp only at h
  split at h
  · obtain ⟨message, -, h⟩ := bind_eq_ok.mp h
    cases message <;> cases h <;> exact ⟨rfl, rfl, rfl⟩
  · obtain ⟨message, -, h⟩ := bind_eq_ok.mp h
    cases message with
    | some message =>
        cases h
        exact ⟨rfl, rfl, rfl⟩
    | none =>
        obtain ⟨now, -, h⟩ := bind_eq_ok.mp h
        cases h
        exact ⟨rfl, rfl, rfl⟩
  · cases h
    exact ⟨rfl, rfl, rfl⟩

theorem closePosition_callFrame {positionId : String} {lots : Option ℚ} {result : OrderResult}
    (h : closePosition cfg s positionId lots = .ok (s', result)) : CallFrame s s' := by
  rw [closePosition] at h
  split at h
  · cases h
    exact ⟨rfl, rfl, rfl⟩
  · obtain ⟨now, -, h⟩ := bind_eq_ok.mp h
    cases h
    exact ⟨rfl, rfl, rfl⟩

theorem modifyPosition_callFrame {positionId : String} {stopLoss takeProfit : Setting (Option ℚ)}
    {result : ModificationResult}
    (h : Live.modifyPosition cfg s positionId stopLoss takeProfit = .ok (s', result)) :
    CallFrame s s' := by
  rw [Live.modifyPosition] at h
  split at h
  · cases h
    exact ⟨rfl, rfl, rfl⟩
  · split at h
    · cases h
      exact ⟨rfl, rfl, rfl⟩
    · split at h
      · cases h
        exact ⟨rfl, rfl, rfl⟩
      · obtain ⟨spec, -, h⟩ := bind_eq_ok.mp h
        cases h
        exact ⟨rfl, rfl, rfl⟩

theorem modifyLimitOrder_callFrame {orderId : String} {price : Setting ℚ}
    {stopLoss takeProfit : Setting (Option ℚ)} {result : ModificationResult}
    (h : modifyLimitOrder cfg s orderId price stopLoss takeProfit = .ok (s', result)) :
    CallFrame s s' := by
  rw [modifyLimitOrder] at h
  split at h
  · cases h
    exact ⟨rfl, rfl, rfl⟩
  · split at h
    · cases h
      exact ⟨rfl, rfl, rfl⟩
    · split at h
      · cases h
        exact ⟨rfl, rfl, rfl⟩
      · obtain ⟨spec, -, h⟩ := bind_eq_ok.mp h
        cases h
        exact ⟨rfl, rfl, rfl⟩

theorem cancelLimitOrder_callFrame (s : LiveTradeExecutor Raw) (orderId : String) :
    CallFrame s (cancelLimitOrder s orderId).1 := by
  unfold cancelLimitOrder
  split
  · exact ⟨rfl, rfl, rfl⟩
  · split
    · exact ⟨rfl, rfl, rfl⟩
    · split <;> exact ⟨rfl, rfl, rfl⟩

end Calls

end Finiex.LiveSpecs
