import Finiex.LiveBooks
import Finiex.LiveTrail
import Finiex.Kraken

namespace Finiex.LiveSteps

open Finiex.Types
open Finiex.Lib
open Finiex.Lib.Run
open Finiex.Lib.Rounding
open Finiex.Broker
open Finiex.Orders
open Finiex.OrderBooks
open Finiex.Portfolio
open Finiex.Portfolio.PortfolioManager
open Finiex.PortfolioRefresh
open Finiex.PortfolioLedger
open Finiex.PortfolioFrames
open Finiex.Executor
open Finiex.ExecutorFills
open Finiex.AuditTrail
open Finiex.LiveTypes
open Finiex.Live
open Finiex.LiveSpecs
open Finiex.LiveBooks
open Finiex.LiveTrail

variable {Raw : Type} {cfg : LiveConfig Raw} {s s' : LiveTradeExecutor Raw}

/-- The books of a state. -/
abbrev LiveSound (s : LiveTradeExecutor Raw) : Prop :=
  Sound s.pendingOrders s.brokerRefIndex s.activeLimitOrders (inFlight s) s.ledger.portfolio

section Ledgers

variable {pendings : Dict String PendingOrder} {index : Dict String String}
  {limits : List PendingOrder} {items : List Item} {ledger ledger' : ExecutionLedger}
  {events : List AuditEvent}

theorem sound_of_extends (h : Sound pendings index limits items ledger.portfolio)
    (hext : Extends ledger ledger' events) (hfills : events.filterMap filledId = []) :
    Sound pendings index limits items ledger'.portfolio := by
  refine h.portfolio hext.counter fun k hk => ?_
  rcases hext.positions k hk with hold | hnew
  · exact .inl hold
  · rw [hfills] at hnew
    cases hnew

theorem filledId_of_isCloseRecord {event : AuditEvent} (h : isCloseRecord event = true) :
    filledId event = none := by
  cases event with
  | result source r => cases source <;> simp_all [isCloseRecord, filledId]
  | _ => rfl

theorem fillCloseOrder_fills (h : ∀ event ∈ events, isCloseRecord event = true) :
    events.filterMap filledId = [] := by
  rw [List.filterMap_eq_nil_iff]
  exact fun event hevent => filledId_of_isCloseRecord (h event hevent)

theorem recordRejection_extends {source : ResultSource} {rejection : OrderResult}
    (hcounted : isCounted (.result source rejection) = true) (direction : Option OrderDirection)
    (pendingId : Option String) :
    Extends s.ledger (recordRejection cfg s source direction rejection pendingId).ledger
      [.result source rejection, .notified direction rejection pendingId] where
  log := List.append_assoc _ [_] [_]
  counted := by
    rw [List.countP_cons, List.countP_cons, hcounted]
    exact (Nat.add_assoc _ _ _).symm
  counter := le_rfl
  positions _ hk := .inl hk

theorem recordRejection_sound {source : ResultSource} {rejection : OrderResult}
    {direction : Option OrderDirection} {pendingId : Option String}
    (h : Sound pendings index limits items s.ledger.portfolio) :
    Sound pendings index limits items
      (recordRejection cfg s source direction rejection pendingId).ledger.portfolio := h

theorem fillOpenOrder_sound {market : MarketState} {pending : PendingOrder}
    {fillPrice : Option ℚ} {entryType : EntryType} {fillType : FillType}
    (h : Sound pendings index limits items ledger.portfolio)
    (hpending : ∀ p, pendings.get? pending.pendingOrderId = some p → p.isOpen = false)
    (hresting : pending.pendingOrderId ∉ orderIds limits)
    (hitem : (.openSubmit, pending.pendingOrderId) ∉ items)
    (hissued : Issued ledger.portfolio.positionCounter pending.pendingOrderId)
    (hfill : fillOpenOrder cfg.executor market ledger pending fillPrice entryType fillType =
      .ok ledger') : Sound pendings index limits items ledger'.portfolio := by
  obtain ⟨result, hid, -, -, hext⟩ := fillOpenOrder_extends hfill
  refine h.portfolio hext.counter fun k hk => ?_
  rcases hext.positions k hk with hold | hnew
  · exact .inl hold
  · obtain ⟨event, hevent, hfilled⟩ := List.mem_filterMap.mp hnew
    have hkey : k = pending.pendingOrderId := by
      rcases List.mem_cons.mp hevent with rfl | hevent
      · simp only [filledId] at hfilled
        split at hfilled
        · rw [← hid, Option.some.inj hfilled]
        · cases hfilled
      · cases List.mem_singleton.mp hevent
        cases hfilled
    rw [hkey]
    exact .inr ⟨hpending, hresting, hitem, hissued⟩

theorem fillCloseOrder_sound {market : MarketState} {pending : PendingOrder}
    {fillPrice : Option ℚ} {closeReason : CloseReason}
    (h : Sound pendings index limits items ledger.portfolio)
    (hfill : fillCloseOrder cfg.executor market ledger pending fillPrice closeReason =
      .ok ledger') : Sound pendings index limits items ledger'.portfolio := by
  obtain ⟨events, hclose, hext, -⟩ := fillCloseOrder_extends hfill
  exact sound_of_extends h hext (fillCloseOrder_fills hclose)

end Ledgers

section Fills

theorem fillByAction_sound {action : PendingOrderAction} {pending : PendingOrder}
    {fillPrice : Option ℚ} (h : LiveSound s)
    (hpending : s.pendingOrders.get? pending.pendingOrderId = none)
    (hresting : pending.pendingOrderId ∉ orderIds s.activeLimitOrders)
    (hitem : (.openSubmit, pending.pendingOrderId) ∉ inFlight s)
    (hissued : Issued s.ledger.portfolio.positionCounter pending.pendingOrderId)
    (hfill : fillByAction cfg s action pending fillPrice = .ok s') : LiveSound s' := by
  cases action with
  | openOrder =>
      obtain ⟨ledger, hledger, hpure⟩ := bind_eq_ok.mp hfill
      cases hpure
      refine fillOpenOrder_sound h (fun p hget => ?_) hresting hitem hissued hledger
      rw [hpending] at hget
      cases hget
  | closeOrder =>
      obtain ⟨ledger, hledger, hpure⟩ := bind_eq_ok.mp hfill
      cases hpure
      exact fillCloseOrder_sound h hledger

theorem takeByRef_sound (h : LiveSound s) (brokerRef : Option String) :
    LiveSound (takeByRef s brokerRef).1 := by
  rcases takeByRef_cases s brokerRef with htake | ⟨ref, orderId, -, -, htake⟩
  · rw [htake]
    exact h
  · rw [htake]
    exact (h.eraseIndex ref).erasePending orderId

/-- What a reference takes was pending under the id it is indexed for, and is nowhere else. -/
theorem takeByRef_taken {brokerRef : Option String} {pending : PendingOrder} (h : LiveSound s)
    (htaken : (takeByRef s brokerRef).2 = some pending) :
    s.pendingOrders.get? pending.pendingOrderId = some pending ∧
      (takeByRef s brokerRef).1.pendingOrders = s.pendingOrders.erase pending.pendingOrderId ∧
      (.openSubmit, pending.pendingOrderId) ∉ inFlight s := by
  rcases takeByRef_cases s brokerRef with htake | ⟨ref, orderId, -, hindex, htake⟩
  · rw [htake] at htaken
    cases htaken
  · rw [htake] at htaken ⊢
    have hget : s.pendingOrders.get? orderId = some pending := htaken
    have hid := h.keyed _ _ hget
    rw [hid]
    exact ⟨hget, rfl, fun hmem => (h.submitted _ hmem).2.2 ref hindex⟩

theorem pending_known (h : LiveSound s) {id : String} {pending : PendingOrder}
    (hget : s.pendingOrders.get? id = some pending) :
    id ∉ orderIds s.activeLimitOrders ∧ Issued s.ledger.portfolio.positionCounter id := by
  refine ⟨fun hmem => ?_, h.issued id (.pending ?_)⟩
  · rw [(h.resting id hmem).1] at hget
    cases hget
  · rw [hget]
    simp

theorem recordOutcome_sound (h : LiveSound s) (pending : PendingOrder)
    (outcome : PendingOrderOutcome) : LiveSound (recordOutcome s pending outcome) := h

theorem fillTaken_sound {brokerRef : Option String} {action : PendingOrderAction}
    {pending : PendingOrder} {fillPrice : Option ℚ} {outcome : PendingOrderOutcome}
    (h : LiveSound s) (htaken : (takeByRef s brokerRef).2 = some pending)
    (hfill : fillByAction cfg (recordOutcome (takeByRef s brokerRef).1 pending outcome) action
      pending fillPrice = .ok s') : LiveSound s' := by
  obtain ⟨hget, hpendings, hitem⟩ := takeByRef_taken h htaken
  obtain ⟨hresting, hissued⟩ := pending_known h hget
  have hsound := takeByRef_sound h brokerRef
  rcases takeByRef_cases s brokerRef with htake | ⟨ref, orderId, -, -, htake⟩
  · rw [htake] at htaken
    cases htaken
  · rw [htake] at hfill hsound hpendings
    refine fillByAction_sound (recordOutcome_sound hsound pending outcome) ?_ hresting hitem
      hissued hfill
    exact (congrArg (fun d => Dict.get? d _) hpendings).trans (Dict.get?_erase_self _ _)

end Fills

section Responses

theorem sound_of_popped {response : Response Raw}
    (h : Sound s.pendingOrders s.brokerRefIndex s.activeLimitOrders
      (responseTag response :: inFlight s) s.ledger.portfolio) : LiveSound s :=
  h.items_sublist (List.sublist_cons_self _ _)

theorem not_submitted_of_popped {orderId : String} {action : PendingOrderAction}
    {orderType : Types.OrderType} {response : BrokerResponse Raw} (htype : orderType ≠ .limit)
    (h : Sound s.pendingOrders s.brokerRefIndex s.activeLimitOrders
      (responseTag (.submit orderId action orderType response) :: inFlight s)
      s.ledger.portfolio) :
    (.openSubmit, orderId) ∉ inFlight s := by
  intro hmem
  cases action with
  | openOrder =>
      have hkind : submitKind .openOrder orderType = .openSubmit := by
        cases orderType <;> first | rfl | exact absurd rfl htype
      have hcount := h.submits orderId
      rw [responseTag, hkind, List.count_cons_self] at hcount
      have hpos := List.count_pos_iff.mpr hmem
      omega
  | closeOrder =>
      have hkind : submitKind .closeOrder orderType = .closeSubmit := by
        cases orderType <;> first | rfl | exact absurd rfl htype
      refine h.closing orderId ?_ (List.mem_cons_of_mem _ hmem)
      rw [responseTag, hkind]
      exact List.mem_cons_self

theorem confirmPending_sound {orderId ref : String} {pending : PendingOrder} (h : LiveSound s)
    (hget : s.pendingOrders.get? orderId = some pending)
    (hitem : (.openSubmit, orderId) ∉ inFlight s) :
    LiveSound (confirmPending s orderId pending ref) := by
  obtain ⟨-, hissued⟩ := pending_known h hget
  have hset := h.setPendingRef hget hitem (some ref)
  show Sound _ (if ref = "" then _ else _) _ _ _
  split
  · exact hset
  · next href => exact hset.setIndex href hitem hissued

theorem updateBrokerRef_sound {newRef : String} (h : LiveSound s) (oldRef : Option String)
    (hnew : newRef ≠ "") : LiveSound (updateBrokerRef s oldRef newRef) := by
  cases oldRef with
  | none => exact h
  | some old =>
      rw [updateBrokerRef]
      cases hindex : s.brokerRefIndex.get? old with
      | none => exact h
      | some orderId =>
          have hitem : (.openSubmit, orderId) ∉ inFlight s :=
            fun hmem => (h.submitted _ hmem).2.2 old hindex
          have hissued := h.issued orderId (.indexed hindex)
          have hmoved := (h.eraseIndex old).setIndex hnew hitem hissued
          simp only
          cases hget : s.pendingOrders.get? orderId with
          | none => exact hmoved
          | some pending =>
              exact hmoved.setPendingRef hget hitem (some newRef)

theorem setLimitOrder_sound (h : LiveSound s) (order : PendingOrder) :
    LiveSound (setLimitOrder s order) := by
  refine h.limits_sublist ?_
  rw [setLimitOrder, orderIds_replaceOrder]

theorem removeLimitOrder_sound (h : LiveSound s) (order : PendingOrder) :
    LiveSound (removeLimitOrder s order) :=
  h.limits_sublist (orderIds_erase_sublist order s.activeLimitOrders)

/-- A job other than the submission of a MARKET order may be enqueued for a known order. -/
theorem submit_sound {job : Job} (h : LiveSound s) (hopen : (jobTag job).1 ≠ .openSubmit)
    (hclose : (jobTag job).1 = .closeSubmit → (.openSubmit, (jobTag job).2) ∉ inFlight s)
    (hissued : (jobTag job).1 = .other ∨
      Issued s.ledger.portfolio.positionCounter (jobTag job).2) : LiveSound (submit s job) := by
  show Sound _ _ _ (Pipeline.items jobTag responseTag (s.requests.push job)) _
  rw [Pipeline.items_push]
  refine h.items_append fun item hitem => ?_
  cases List.mem_singleton.mp hitem
  exact ⟨hopen, hclose, hissued⟩

theorem handled_sound {response : Response Raw}
    (hpopped : Sound s.pendingOrders s.brokerRefIndex s.activeLimitOrders
      (responseTag response :: inFlight s) s.ledger.portfolio)
    (h : Handled cfg s response s') : LiveSound s' := by
  have hsound : LiveSound s := sound_of_popped hpopped
  cases h with
  | unknown _ => exact hsound
  | untouched _ => exact hsound
  | positionModified modifications portfolio hportfolio =>
      rcases hportfolio with rfl | ⟨stopLoss, takeProfit, rfl⟩
      · exact hsound
      · exact sound_of_extends hsound (modifyPosition_extends _ _ _ _) rfl
  | marketRejected htype hget =>
      refine recordRejection_sound ?_
      have hdropped := hsound.erasePending
      rw [discardPending]
      split
      · exact hdropped _
      · exact (hdropped _).eraseIndex _
  | marketConfirmed htype hget =>
      exact confirmPending_sound hsound hget (not_submitted_of_popped htype hpopped)
  | @marketFilled orderId action orderType response pending s' htype hget hne hfill =>
      have hitem := not_submitted_of_popped htype hpopped
      have hconfirmed : LiveSound (confirmPending s orderId pending response.brokerRef) :=
        confirmPending_sound hsound hget hitem
      obtain ⟨hresting, hissued⟩ := pending_known hsound hget
      have hid := hsound.keyed _ _ hget
      have hindex : (confirmPending s orderId pending response.brokerRef).brokerRefIndex.get?
          response.brokerRef = some orderId := by
        simp [confirmPending, hne]
      refine fillByAction_sound (takeByRef_sound hconfirmed (some response.brokerRef)) ?_ ?_ ?_ ?_
        hfill
      · show (takeByRef _ _).1.pendingOrders.get? pending.pendingOrderId = none
        rw [takeByRef_of_get? hindex, hid]
        exact Dict.get?_erase_self _ _
      · show pending.pendingOrderId ∉ orderIds (takeByRef _ _).1.activeLimitOrders
        rw [takeByRef_of_get? hindex, hid]
        exact hresting
      · show (.openSubmit, pending.pendingOrderId) ∉ inFlight (takeByRef _ _).1
        rw [takeByRef_of_get? hindex, hid]
        exact hitem
      · show Issued (takeByRef _ _).1.ledger.portfolio.positionCounter pending.pendingOrderId
        rw [takeByRef_of_get? hindex, hid]
        exact hissued
  | limitRejected hfind => exact recordRejection_sound (removeLimitOrder_sound hsound _)
  | limitConfirmed hfind _ => exact setLimitOrder_sound hsound _
  | @limitDeferred orderId action response pending hfind =>
      have hknown : orderId ∈ orderIds s.activeLimitOrders := mem_orderIds_of_findOrder hfind
      refine submit_sound (setLimitOrder_sound (setLimitOrder_sound hsound _) _) (by simp [jobTag])
        (by simp [jobTag]) (.inr ?_)
      show Issued s.ledger.portfolio.positionCounter pending.pendingOrderId
      rw [findOrder_id hfind]
      exact hsound.issued _ (.resting hknown)
  | @limitFilled response fillPrice entryType fillType s' order hid hmem hfill =>
      obtain ⟨ledger, hledger, hpure⟩ := bind_eq_ok.mp hfill
      cases hpure
      obtain ⟨hpending, -, hitem⟩ := hsound.resting _ hmem
      refine fillOpenOrder_sound
        (removeLimitOrder_sound (setLimitOrder_sound hsound order) order) (fun p hget => ?_)
        (fun hin => ?_) hitem (hsound.issued _ (.resting hmem)) hledger
      · rw [show (removeLimitOrder (setLimitOrder s order) order).pendingOrders =
          s.pendingOrders from rfl, hpending] at hget
        cases hget
      · obtain ⟨x, hx, hxid⟩ := List.mem_map.mp hin
        exact (mem_erase_replaceOrder hsound.nodup hmem hx).2 hxid
  | modifyRejected hfind => exact setLimitOrder_sound (recordRejection_sound hsound) _
  | @modified orderId response pending hfind =>
      refine setLimitOrder_sound ?_ _
      rw [swapBrokerRef]
      split
      · next hswap => exact updateBrokerRef_sound hsound _ hswap.1
      · exact hsound
  | cancelRefused hfind => exact setLimitOrder_sound hsound _
  | cancelled hfind => exact removeLimitOrder_sound hsound _
  | tradesAppended hfind => exact setLimitOrder_sound hsound _
  | queryCleared hfind => exact setLimitOrder_sound hsound _
  | queryEnded hfind =>
      exact recordRejection_sound (removeLimitOrder_sound (setLimitOrder_sound hsound _) _)

end Responses

section Loops

theorem queryOrderSync_eq_ok {ref : String} {answer : Except String Raw}
    {response : BrokerResponse Raw} (h : queryOrderSync cfg ref answer = .ok response) :
    (∃ text, answer = .error text ∧ response = transportFailure ref text) ∨
      ∃ raw, answer = .ok raw ∧ cfg.adapter.parseQueryResponse raw ref = .ok response := by
  cases answer with
  | error text =>
      cases h
      exact .inl ⟨text, rfl, rfl⟩
  | ok raw =>
      rw [queryOrderSync] at h
      cases hparse : cfg.adapter.parseQueryResponse raw ref with
      | error text =>
          simp only [hparse] at h
          cases h
      | ok parsed =>
          simp only [hparse] at h
          cases h
          exact .inr ⟨raw, rfl, hparse⟩

inductive Polled (cfg : LiveConfig Raw) (s : LiveTradeExecutor Raw) (ref : String)
    (response : BrokerResponse Raw) : LiveTradeExecutor Raw → Prop
  | idle : response.status ≠ .filled → response.status ≠ .rejected → Polled cfg s ref response s
  | unmatched : (takeByRef s (some ref)).2 = none →
      Polled cfg s ref response (takeByRef s (some ref)).1
  | filled {filled s'} : response.status = .filled → (takeByRef s (some ref)).2 = some filled →
      fillByAction cfg (recordOutcome (takeByRef s (some ref)).1 filled .filled)
        filled.orderAction filled response.fillPrice = .ok s' →
      Polled cfg s ref response s'
  | rejected {rejected} : response.status = .rejected →
      (takeByRef s (some ref)).2 = some rejected →
      Polled cfg s ref response
        (recordRejection cfg (recordOutcome (takeByRef s (some ref)).1 rejected .rejected)
          (.queryResponse rejected.orderAction) rejected.direction
          (createRejectionResult rejected.pendingOrderId .brokerError
            (.brokerRejected response.reasonText))
          (some rejected.pendingOrderId))

theorem handleBrokerResponse_polled {ref : String} {response : BrokerResponse Raw}
    (h : handleBrokerResponse cfg s ref response = .ok s') : Polled cfg s ref response s' := by
  rw [handleBrokerResponse] at h
  cases hstatus : response.status with
  | filled =>
      simp only [hstatus, markFilled] at h
      cases htake : takeByRef s (some ref) with
      | mk s₁ taken =>
          rw [htake] at h
          cases taken with
          | none =>
              cases h
              have hnone : (takeByRef s (some ref)).2 = none := congrArg Prod.snd htake
              have hstate : (takeByRef s (some ref)).1 = s' := congrArg Prod.fst htake
              exact hstate ▸ .unmatched hnone
          | some filled =>
              refine .filled hstatus (congrArg Prod.snd htake) ?_
              rw [htake]
              exact h
  | rejected =>
      simp only [hstatus, markRejected] at h
      cases htake : takeByRef s (some ref) with
      | mk s₁ taken =>
          rw [htake] at h
          cases taken with
          | none =>
              cases h
              have hnone : (takeByRef s (some ref)).2 = none := congrArg Prod.snd htake
              have hstate : (takeByRef s (some ref)).1 = s' := congrArg Prod.fst htake
              exact hstate ▸ .unmatched hnone
          | some rejected =>
              cases h
              have hrejected : Polled cfg s ref response _ :=
                .rejected hstatus (congrArg Prod.snd htake)
              rw [htake] at hrejected
              exact hrejected
  | _ =>
      simp only [hstatus] at h
      cases h
      exact .idle (by simp [hstatus]) (by simp [hstatus])

theorem polled_sound {ref : String} {response : BrokerResponse Raw} (hsound : LiveSound s)
    (h : Polled cfg s ref response s') : LiveSound s' := by
  cases h with
  | idle _ _ => exact hsound
  | unmatched _ => exact takeByRef_sound hsound _
  | filled _ htaken hfill => exact fillTaken_sound hsound htaken hfill
  | rejected _ _ =>
      exact recordRejection_sound (recordOutcome_sound (takeByRef_sound hsound _) _ _)

/-- One turn of the poll: the head of the loop is skipped, or its status is handled. -/
theorem poll_cases {answer : Except String Raw} (h : poll cfg s answer = .ok s') :
    (s.polling = [] ∧ s' = s) ∨ ∃ pending rest, s.polling = pending :: rest ∧
      ((pending.confirmedRef = none ∧ s' = { s with polling := rest }) ∨
        ∃ ref response, pending.confirmedRef = some ref ∧
          queryOrderSync cfg ref answer = .ok response ∧
          Polled cfg { s with polling := rest } ref response s') := by
  rw [poll] at h
  cases hpolling : s.polling with
  | nil =>
      simp only [hpolling] at h
      cases h
      exact .inl ⟨rfl, rfl⟩
  | cons pending rest =>
      simp only [hpolling, pollOrder] at h
      refine .inr ⟨pending, rest, rfl, ?_⟩
      cases href : pending.confirmedRef with
      | none =>
          simp only [href] at h
          cases h
          exact .inl ⟨rfl, rfl⟩
      | some ref =>
          simp only [href] at h
          obtain ⟨response, hquery, hhandle⟩ := bind_eq_ok.mp h
          exact .inr ⟨ref, response, rfl, hquery, handleBrokerResponse_polled hhandle⟩

theorem handleTimeout_sound (h : LiveSound s) (pending : PendingOrder) :
    LiveSound (handleTimeout cfg s pending) := by
  refine recordRejection_sound (takeByRef_sound (s := recordOutcome s pending .timedOut) ?_ _)
  exact recordOutcome_sound h pending .timedOut

theorem pollJob_tag {nowMs : ℚ} {order : PendingOrder} {job : Job}
    (h : pollJob cfg nowMs order = some job) :
    jobTag job = (.query, order.pendingOrderId) ∧ order.brokerRef ≠ none ∧
      order.executionState.inFlightQuery = false := by
  rw [pollJob] at h
  cases href : order.confirmedRef with
  | none =>
      simp only [href] at h
      cases h
  | some ref =>
      simp only [href] at h
      split at h
      · cases h
      · next hquery =>
          split at h
          · cases h
          · cases h
            refine ⟨rfl, fun hnone => ?_, by simpa using hquery⟩
            rw [PendingOrder.confirmedRef, hnone] at href
            cases href

@[simp] theorem schedulePoll_id (nowMs : ℚ) (order : PendingOrder) :
    (schedulePoll cfg nowMs order).pendingOrderId = order.pendingOrderId := by
  rw [schedulePoll]
  split <;> rfl

theorem processActiveOrders_sound (h : LiveSound s) : LiveSound (processActiveOrders cfg s) := by
  have hids : orderIds (processActiveOrders cfg s).activeLimitOrders =
      orderIds s.activeLimitOrders := by
    rw [processActiveOrders, orderIds, List.map_map]
    exact List.map_congr_left fun order _ => schedulePoll_id _ order
  have hjobs : Sound s.pendingOrders s.brokerRefIndex s.activeLimitOrders
      (inFlight (processActiveOrders cfg s)) s.ledger.portfolio := by
    show Sound _ _ _ (Pipeline.items jobTag responseTag (s.requests.pushAll _)) _
    rw [Pipeline.items_pushAll]
    refine h.items_append fun item hitem => ?_
    obtain ⟨job, hjob, rfl⟩ := List.mem_map.mp hitem
    obtain ⟨order, horder, hpoll⟩ := List.mem_filterMap.mp hjob
    rw [(pollJob_tag hpoll).1]
    exact ⟨by simp, by simp, .inr (h.issued _ (.resting (List.mem_map_of_mem horder)))⟩
  exact hjobs.limits_sublist (hids ▸ List.Sublist.refl _)

end Loops

section Steps

/-- Nothing in the books moves, and the log stands still. -/
structure Quiet (s s' : LiveTradeExecutor Raw) (events : List AuditEvent) : Prop where
  pendings : s'.pendingOrders = s.pendingOrders
  index : s'.brokerRefIndex = s.brokerRefIndex
  limits : s'.activeLimitOrders = s.activeLimitOrders
  items : inFlight s' = inFlight s
  ledger : Extends s.ledger s'.ledger events

def received (s : LiveTradeExecutor Raw) (request : OpenOrderRequest) : LiveTradeExecutor Raw :=
  (receiveRequest s request).1

def nextId (s : LiveTradeExecutor Raw) (request : OpenOrderRequest) : String :=
  (receiveRequest s request).2

/-- The price has no more decimals than the symbol. -/
def Snapped (broker : BrokerConfig) (symbol : String) (price : Option ℚ) : Prop :=
  ∀ spec, broker.symbols.get? symbol = some spec → roundPrice spec.digits price = price

theorem snapped_roundPrice {broker : BrokerConfig} {symbol : String} {spec : SymbolSpecification}
    (hspec : broker.symbols.get? symbol = some spec) (price : Option ℚ) :
    Snapped broker symbol (roundPrice spec.digits price) := by
  intro spec' hspec'
  rw [hspec] at hspec'
  cases hspec'
  cases price with
  | none => rfl
  | some p => exact congrArg some (roundTo_roundTo spec.digits p)

/-- What a modification of a limit order asks for. -/
structure LimitModification (broker : BrokerConfig) (symbol : String) (mod : ModificationRequest) :
    Prop where
  unpriced : mod.newLimitPrice = none
  price : Snapped broker symbol mod.newPrice
  stopLoss : Snapped broker symbol mod.newStopLoss
  takeProfit : Snapped broker symbol mod.newTakeProfit

theorem normalizeOrderRequest_symbol (broker : BrokerConfig) (request : OpenOrderRequest) :
    (normalizeOrderRequest broker request).symbol = request.symbol := by
  unfold normalizeOrderRequest
  split <;> rfl

theorem normalizeOrderRequest_normalized (broker : BrokerConfig) (request : OpenOrderRequest) :
    normalizeOrderRequest broker (normalizeOrderRequest broker request) =
      normalizeOrderRequest broker request := by
  have hround : ∀ digits price, roundPrice digits (roundPrice digits price) =
      roundPrice digits price := by
    intro digits price
    cases price with
    | none => rfl
    | some p => exact congrArg some (roundTo_roundTo digits p)
  rw [normalizeOrderRequest, normalizeOrderRequest_symbol]
  cases hspec : broker.symbols.get? request.symbol with
  | none => rfl
  | some spec =>
      simp only [normalizeOrderRequest, hspec, hround]

inductive Stepped (cfg : LiveConfig Raw) (s : LiveTradeExecutor Raw) :
    LiveOp Raw → LiveTradeExecutor Raw → Prop
  | quiet {op s'} : Quiet s s' [] → Stepped cfg s op s'
  | guarded {op s' result} : Quiet s s' [.result .orderGuard result] → Stepped cfg s op s'
  | refused {op reason message} (request : OpenOrderRequest) :
      Stepped cfg s op
        (refuse cfg (received s request) (nextId s request) reason message).1
  | enqueued {op s' job} : (jobTag job).1 = .other → Quiet s s' [] →
      Stepped cfg s op (submit s' job)
  | registered {op} (request : OpenOrderRequest) : request.orderType = .market →
      Stepped cfg s op (submitOrder cfg (registerPending (received s request)
        (pendingOpen cfg (received s request) (nextId s request) request none))
        (nextId s request) request).1
  | rested {op now} (request : OpenOrderRequest) : request.orderType = .limit →
      normalizeOrderRequest cfg.executor.broker request = request →
      Stepped cfg s op (submitOrder cfg { received s request with
          activeLimitOrders := s.activeLimitOrders ++
            [pendingLimit (received s request) (nextId s request) request now] }
        (nextId s request) request).1
  | closing {op positionId closeLots payload} : s.ledger.portfolio.getPosition positionId ≠ none →
      Stepped cfg s op (submit
        (registerPending s (pendingClose cfg s positionId (some closeLots) none))
        (.submit positionId .closeOrder .market payload))
  | startedModify {op orderId ref symbol price stopLoss takeProfit pending} (mod) :
      findOrder s.activeLimitOrders orderId = some pending → pending.brokerRef = some ref →
      pending.inFlightOperation = .none →
      LimitModification cfg.executor.broker pending.symbol mod →
      Stepped cfg s op (submit (setLimitOrder s (startModification pending mod))
        (.edit orderId ref symbol price stopLoss takeProfit))
  | startedCancel {orderId ref pending} :
      findOrder s.activeLimitOrders orderId = some pending → pending.brokerRef = some ref →
      pending.inFlightOperation = .none →
      Stepped cfg s (.cancelLimitOrder orderId)
        (submit (acceptCancel (setLimitOrder s (startCancel pending)) orderId)
          (.cancel orderId ref))
  | requestedCancel {orderId pending} :
      findOrder s.activeLimitOrders orderId = some pending → pending.brokerRef = none →
      Stepped cfg s (.cancelLimitOrder orderId)
        (acceptCancel (setLimitOrder s (requestCancel pending)) orderId)
  | scheduled : Stepped cfg s .processActiveOrders (processActiveOrders cfg s)
  | drained {response rest s'} : s.requests.inbox = response :: rest →
      Handled cfg { s with requests := { s.requests with inbox := rest } } response s' →
      Stepped cfg s .drain s'
  | polled {answer pending rest ref response s'} : s.polling = pending :: rest →
      pending.confirmedRef = some ref → queryOrderSync cfg ref answer = .ok response →
      Polled cfg { s with polling := rest } ref response s' →
      Stepped cfg s (.poll answer) s'
  | expired {pending rest} : s.expiring = pending :: rest →
      Stepped cfg s .expire (handleTimeout cfg { s with expiring := rest } pending)
  | ended {s' events} : s'.pendingOrders = ∅ → s'.brokerRefIndex = ∅ →
      s'.activeLimitOrders = s.activeLimitOrders → inFlight s' = inFlight s →
      Extends s.ledger s'.ledger events →
      (∀ event ∈ events, (∃ result, event = .result .expiry result ∧
          result.orderId ∈ orderIds s.activeLimitOrders) ∨
        isCloseRecord event = true ∨ ∃ pending, event = .outcome pending .forceClosed) →
      Stepped cfg s .closeAllRemainingOrders s'

theorem quiet_of_ledger {ledger : ExecutionLedger} {events : List AuditEvent}
    (h : Extends s.ledger ledger events) : Quiet s { s with ledger := ledger } events :=
  ⟨rfl, rfl, rfl, rfl, h⟩

theorem openOrder_stepped {request : OpenOrderRequest} {result : OrderResult} {op : LiveOp Raw}
    (h : openOrder cfg s request = .ok (s', result)) : Stepped cfg s op s' := by
  rw [openOrder] at h
  have hnormalized := normalizeOrderRequest_normalized cfg.executor.broker request
  revert h hnormalized
  generalize normalizeOrderRequest cfg.executor.broker request = normalized
  intro h hnormalized
  simp only at h
  split at h
  · next htype =>
      obtain ⟨message, -, h⟩ := bind_eq_ok.mp h
      cases message with
      | some message =>
          cases h
          exact .refused normalized
      | none =>
          cases h
          exact .registered normalized htype
  · next htype =>
      obtain ⟨message, -, h⟩ := bind_eq_ok.mp h
      cases message with
      | some message =>
          cases h
          exact .refused normalized
      | none =>
          obtain ⟨now, -, h⟩ := bind_eq_ok.mp h
          cases h
          exact .rested normalized htype hnormalized
  · cases h
    exact .refused normalized

theorem closePosition_stepped {positionId : String} {lots : Option ℚ} {result : OrderResult}
    {op : LiveOp Raw} (h : closePosition cfg s positionId lots = .ok (s', result)) :
    Stepped cfg s op s' := by
  rw [closePosition] at h
  cases hposition : s.ledger.portfolio.getPosition positionId with
  | none =>
      simp only [hposition] at h
      cases h
      exact .quiet ⟨rfl, rfl, rfl, rfl, .refl _⟩
  | some position =>
      simp only [hposition] at h
      obtain ⟨now, -, h⟩ := bind_eq_ok.mp h
      cases h
      refine .closing ?_
      rw [hposition]
      simp

theorem modifyPosition_stepped {positionId : String} {stopLoss takeProfit : Setting (Option ℚ)}
    {result : ModificationResult} {op : LiveOp Raw}
    (h : modifyPosition cfg s positionId stopLoss takeProfit = .ok (s', result)) :
    Stepped cfg s op s' := by
  rw [Live.modifyPosition] at h
  split at h
  · cases h
    exact .quiet (quiet_of_ledger (modifyPosition_extends _ _ _ _))
  · cases hposition : s.ledger.portfolio.getPosition positionId with
    | none =>
        simp only [hposition] at h
        cases h
        exact .quiet ⟨rfl, rfl, rfl, rfl, .refl _⟩
    | some position =>
        simp only [hposition] at h
        split at h
        · cases h
          exact .quiet ⟨rfl, rfl, rfl, rfl, .refl _⟩
        · obtain ⟨spec, -, h⟩ := bind_eq_ok.mp h
          cases h
          exact .enqueued rfl ⟨rfl, rfl, rfl, rfl, .refl _⟩

theorem modifyLimitOrder_stepped {orderId : String} {price : Setting ℚ}
    {stopLoss takeProfit : Setting (Option ℚ)} {result : ModificationResult} {op : LiveOp Raw}
    (h : modifyLimitOrder cfg s orderId price stopLoss takeProfit = .ok (s', result)) :
    Stepped cfg s op s' := by
  rw [modifyLimitOrder] at h
  cases hfind : findOrder s.activeLimitOrders orderId with
  | none =>
      simp only [hfind] at h
      cases h
      exact .quiet ⟨rfl, rfl, rfl, rfl, .refl _⟩
  | some pending =>
      simp only [hfind] at h
      cases href : pending.brokerRef with
      | none =>
          simp only [href] at h
          cases h
          exact .quiet ⟨rfl, rfl, rfl, rfl, .refl _⟩
      | some ref =>
          simp only [href] at h
          split at h
          · cases h
            exact .quiet ⟨rfl, rfl, rfl, rfl, .refl _⟩
          · next hidle =>
              obtain ⟨spec, hspec, h⟩ := bind_eq_ok.mp h
              have hsymbol := getSymbolSpecification_eq_ok.mp hspec
              cases h
              exact .startedModify _ hfind href (not_not.mp hidle)
                ⟨rfl, snapped_roundPrice hsymbol _, snapped_roundPrice hsymbol _,
                  snapped_roundPrice hsymbol _⟩

theorem cancelLimitOrder_stepped (cfg : LiveConfig Raw) (s : LiveTradeExecutor Raw)
    (orderId : String) :
    Stepped cfg s (.cancelLimitOrder orderId) (cancelLimitOrder s orderId).1 := by
  rw [cancelLimitOrder]
  cases hfind : findOrder s.activeLimitOrders orderId with
  | none => exact .quiet ⟨rfl, rfl, rfl, rfl, .refl _⟩
  | some pending =>
      simp only
      cases href : pending.brokerRef with
      | none => exact .requestedCancel hfind href
      | some ref =>
          simp only
          split
          · exact .quiet ⟨rfl, rfl, rfl, rfl, .refl _⟩
          · next hidle => exact .startedCancel hfind href (not_not.mp hidle)

theorem expireOrders_extends {market : MarketState} {orders : List PendingOrder}
    {ledger ledger' : ExecutionLedger}
    (h : orders.foldlM (expireOrder cfg.executor market) ledger = .ok ledger') :
    ∃ events, Extends ledger ledger' events ∧ ∀ event ∈ events, ∃ result,
      event = .result .expiry result ∧ result.orderId ∈ orderIds orders := by
  induction orders generalizing ledger with
  | nil =>
      cases h
      exact ⟨[], .refl _, by simp⟩
  | cons order rest ih =>
      obtain ⟨middle, hexpire, hrest⟩ := foldlM_cons_eq_ok.mp h
      obtain ⟨now, -, hpure⟩ := bind_eq_ok.mp hexpire
      cases hpure
      obtain ⟨events, hext, hevents⟩ := ih hrest
      have hfirst : Extends ledger (ledger.appendResult cfg.executor .expiry
          (expiredResult order now)) [.result .expiry (expiredResult order now)] :=
        ⟨rfl, rfl, le_rfl, fun k hk => .inl hk⟩
      refine ⟨_, hfirst.trans hext, fun event hevent => ?_⟩
      rcases List.mem_cons.mp hevent with rfl | hevent
      · exact ⟨_, rfl, List.mem_cons_self⟩
      · obtain ⟨result, heq, hid⟩ := hevents event hevent
        exact ⟨result, heq, List.mem_cons_of_mem _ hid⟩

theorem closePositions_extends {market : MarketState} {positions : List Positions.Position}
    {ledger ledger' : ExecutionLedger}
    (h : positions.foldlM (fun ledger position => fillCloseOrder cfg.executor market ledger
      (createSyntheticCloseOrder position.positionId) none .scenarioEnd) ledger = .ok ledger') :
    ∃ events, Extends ledger ledger' events ∧
      ∀ event ∈ events, isCloseRecord event = true := by
  induction positions generalizing ledger with
  | nil =>
      cases h
      exact ⟨[], .refl _, by simp⟩
  | cons position rest ih =>
      obtain ⟨middle, hclose, hrest⟩ := foldlM_cons_eq_ok.mp h
      obtain ⟨first, hfirst, hext, -⟩ := fillCloseOrder_extends hclose
      obtain ⟨events, hext', hevents⟩ := ih hrest
      refine ⟨first ++ events, hext.trans hext', fun event hevent => ?_⟩
      rcases List.mem_append.mp hevent with hevent | hevent
      · exact hfirst event hevent
      · exact hevents event hevent

theorem closeAllRemainingOrders_stepped (h : closeAllRemainingOrders cfg s = .ok s') :
    Stepped cfg s .closeAllRemainingOrders s' := by
  obtain ⟨expired, hexpire, h⟩ := bind_eq_ok.mp h
  obtain ⟨closed, hclose, h⟩ := bind_eq_ok.mp h
  cases h
  obtain ⟨events, hext, hevents⟩ := expireOrders_extends hexpire
  obtain ⟨closes, hext', hcloses⟩ := closePositions_extends hclose
  have hclear : Extends closed (clearPending { s with ledger := closed }).ledger
      (s.pendingOrders.values.map (.outcome · .forceClosed)) := by
    refine ⟨rfl, ?_, le_rfl, fun k hk => .inl hk⟩
    have hzero : List.countP isCounted
        (s.pendingOrders.values.map (AuditEvent.outcome · .forceClosed)) = 0 := by
      rw [List.countP_eq_zero]
      intro event hevent
      obtain ⟨pending, -, rfl⟩ := List.mem_map.mp hevent
      simp [isCounted]
    rw [hzero]
    rfl
  refine .ended rfl rfl rfl rfl ((hext.trans hext').trans hclear) fun event hevent => ?_
  rcases List.mem_append.mp hevent with hevent | hevent
  · rcases List.mem_append.mp hevent with hevent | hevent
    · exact .inl (hevents event hevent)
    · exact .inr (.inl (hcloses event hevent))
  · obtain ⟨pending, -, rfl⟩ := List.mem_map.mp hevent
    exact .inr (.inr ⟨pending, rfl⟩)

theorem step_stepped {op : LiveOp Raw} (hsound : LiveSound s) (h : step cfg s op = .ok s') :
    Stepped cfg s op s' := by
  cases op with
  | workerTake =>
      cases h
      exact .quiet ⟨rfl, rfl, rfl, Pipeline.items_take _, .refl _⟩
  | workerDeliver answer =>
      cases h
      exact .quiet ⟨rfl, rfl, rfl,
        Pipeline.items_deliver _ (responseTag_dispatch cfg.adapter answer), .refl _⟩
  | wallClock now =>
      cases h
      exact .quiet ⟨rfl, rfl, rfl, rfl, .refl _⟩
  | setCurrentTime now =>
      cases h
      exact .quiet ⟨rfl, rfl, rfl, rfl, .refl _⟩
  | receiveTick tick =>
      cases h
      exact .quiet ⟨rfl, rfl, rfl, rfl, extends_portfolio _ le_rfl fun k hk => hk⟩
  | drain =>
      rw [step, drain] at h
      cases hinbox : s.requests.inbox with
      | nil =>
          simp only [hinbox] at h
          cases h
          exact .quiet ⟨rfl, rfl, rfl, rfl, .refl _⟩
      | cons response rest =>
          simp only [hinbox] at h
          exact .drained hinbox (handleResponse_handled hsound.emptyRef h)
  | beginPoll =>
      cases h
      exact .quiet ⟨rfl, rfl, rfl, rfl, .refl _⟩
  | poll answer =>
      rcases poll_cases h with ⟨-, rfl⟩ | ⟨pending, rest, hpolling, ⟨-, rfl⟩ |
        ⟨ref, response, href, hquery, hpolled⟩⟩
      · exact .quiet ⟨rfl, rfl, rfl, rfl, .refl _⟩
      · exact .quiet ⟨rfl, rfl, rfl, rfl, .refl _⟩
      · exact .polled hpolling href hquery hpolled
  | beginExpire =>
      cases h
      exact .quiet ⟨rfl, rfl, rfl, rfl, .refl _⟩
  | expire =>
      cases h
      rw [expire]
      cases hexpiring : s.expiring with
      | nil => exact .quiet ⟨rfl, rfl, rfl, rfl, .refl _⟩
      | cons pending rest => exact .expired hexpiring
  | processActiveOrders =>
      cases h
      exact .scheduled
  | openOrder request =>
      obtain ⟨⟨s₁, result⟩, hopen, rfl⟩ := map_eq_ok.mp h
      exact openOrder_stepped hopen
  | closePosition positionId lots =>
      obtain ⟨⟨s₁, result⟩, hclose, rfl⟩ := map_eq_ok.mp h
      exact closePosition_stepped hclose
  | modifyPosition positionId stopLoss takeProfit =>
      obtain ⟨⟨s₁, result⟩, hmodify, rfl⟩ := map_eq_ok.mp h
      exact modifyPosition_stepped hmodify
  | modifyLimitOrder orderId price stopLoss takeProfit =>
      obtain ⟨⟨s₁, result⟩, hmodify, rfl⟩ := map_eq_ok.mp h
      exact modifyLimitOrder_stepped hmodify
  | cancelLimitOrder orderId =>
      cases h
      exact cancelLimitOrder_stepped cfg s orderId
  | submitTradesQuery orderId brokerRef =>
      cases h
      exact .enqueued rfl ⟨rfl, rfl, rfl, rfl, .refl _⟩
  | recordGuardRejection result =>
      cases h
      have hext : Extends s.ledger (s.ledger.recordGuardRejection cfg.executor result)
          [.result .orderGuard result] :=
        ⟨rfl, (Nat.add_assoc _ _ _).symm, le_rfl, fun k hk => .inl hk⟩
      exact .guarded (quiet_of_ledger hext)
  | getAccountInfo direction =>
      obtain ⟨⟨pm, info⟩, hinfo, h⟩ := bind_eq_ok.mp h
      cases h
      have hensure := getAccountInfo_eq_ok hinfo
      refine .quiet (quiet_of_ledger (extends_portfolio _ (ensure_counter hensure).ge ?_))
      exact (ensure_keeps_positions hensure).open_before
  | closeAllRemainingOrders => exact closeAllRemainingOrders_stepped h

theorem receiveRequest_extends (s : LiveTradeExecutor Raw) (request : OpenOrderRequest) :
    Extends s.ledger (received s request).ledger [] :=
  ⟨(List.append_nil _).symm, rfl, Nat.le_succ _, fun _ hk => .inl hk⟩

theorem nextId_fresh (h : LiveSound s) (request : OpenOrderRequest) :
    ¬ Known s.pendingOrders s.brokerRefIndex s.activeLimitOrders (inFlight s) s.ledger.portfolio
      (nextId s request) :=
  fun hknown => not_issued_next _ request.symbol (h.issued _ hknown)

theorem nextId_issued (s : LiveTradeExecutor Raw) (request : OpenOrderRequest) :
    Issued (received s request).ledger.portfolio.positionCounter (nextId s request) :=
  ⟨request.symbol, _, le_rfl, rfl⟩

theorem received_sound (h : LiveSound s) (request : OpenOrderRequest) :
    LiveSound (received s request) :=
  sound_of_extends h (receiveRequest_extends s request) rfl

theorem quiet_sound {events : List AuditEvent} (h : LiveSound s) (hquiet : Quiet s s' events)
    (hfills : events.filterMap filledId = []) : LiveSound s' := by
  obtain ⟨hpendings, hindex, hlimits, hitems, hledger⟩ := hquiet
  rw [LiveSound, hpendings, hindex, hlimits, hitems]
  exact sound_of_extends h hledger hfills

theorem registered_sound (h : LiveSound s) (request : OpenOrderRequest)
    (htype : request.orderType = .market) :
    LiveSound (submitOrder cfg (registerPending (received s request)
      (pendingOpen cfg (received s request) (nextId s request) request none))
      (nextId s request) request).1 := by
  have hfresh := nextId_fresh h request
  have hposition : s.ledger.portfolio.getPosition (nextId s request) = none :=
    not_not.mp fun hne => hfresh (.position hne)
  have hitems : ∀ kind, kind ≠ .other → (kind, nextId s request) ∉ inFlight s :=
    fun kind hkind hmem => hfresh (.traveling hkind hmem)
  let order := pendingOpen cfg (received s request) (nextId s request) request none
  have hset := (received_sound h request).setPending order
    (fun hmem => hfresh (.resting hmem)) (fun hopen => by cases hopen) (fun _ => hposition)
    (fun _ => rfl) (nextId_issued s request)
  have hsubmit := hset.items_openSubmit (nextId_issued s request)
    (hitems .openSubmit (by simp)) (hitems .closeSubmit (by simp))
    (fun hmem => hfresh (.resting hmem)) hposition (fun p hget => ?_)
    (fun ref hindex => hfresh (.indexed hindex))
  · show Sound _ _ _ (Pipeline.items jobTag responseTag (s.requests.push _)) _
    rw [Pipeline.items_push, jobTag, htype]
    exact hsubmit
  · obtain rfl := Option.some.inj ((Dict.get?_set_self _ _ _).symm.trans hget)
    rfl

theorem rested_sound (h : LiveSound s) (request : OpenOrderRequest) {now : Instant}
    (htype : request.orderType = .limit) :
    LiveSound (submitOrder cfg { received s request with
        activeLimitOrders := s.activeLimitOrders ++
          [pendingLimit (received s request) (nextId s request) request now] }
      (nextId s request) request).1 := by
  have hfresh := nextId_fresh h request
  have hadded := (received_sound h request).limits_append
    (pendingLimit (received s request) (nextId s request) request now)
    (nextId_issued s request) fun hknown => by
      apply hfresh
      cases hknown with
      | pending hget => exact .pending hget
      | indexed hget => exact .indexed hget
      | resting hmem => exact .resting hmem
      | traveling hkind hmem => exact .traveling hkind hmem
      | position hsome => exact .position hsome
  show Sound _ _ _ (Pipeline.items jobTag responseTag (s.requests.push _)) _
  rw [Pipeline.items_push, jobTag, htype]
  refine hadded.items_append fun item hitem => ?_
  cases List.mem_singleton.mp hitem
  exact ⟨by simp [submitKind], by simp [submitKind], .inr (nextId_issued s request)⟩

theorem stepped_sound {op : LiveOp Raw} (hsound : LiveSound s) (h : Stepped cfg s op s') :
    LiveSound s' := by
  cases h with
  | quiet hquiet => exact quiet_sound hsound hquiet rfl
  | guarded hquiet => exact quiet_sound hsound hquiet rfl
  | refused request => exact received_sound hsound request
  | enqueued hother hquiet =>
      have hquiet := quiet_sound hsound hquiet rfl
      exact submit_sound hquiet (by simp [hother]) (by simp [hother]) (.inl hother)
  | registered request htype => exact registered_sound hsound request htype
  | rested request htype => exact rested_sound hsound request htype
  | @closing op positionId closeLots payload hposition =>
      have hissued := hsound.issued positionId (.position hposition)
      have hitem : (.openSubmit, positionId) ∉ inFlight s :=
        fun hmem => hposition (hsound.submitted _ hmem).1
      have hset := hsound.setPending (pendingClose cfg s positionId (some closeLots) none)
        (fun hmem => hposition (hsound.resting _ hmem).2.1) (fun _ => rfl)
        (fun hopen => by cases hopen) (fun hmem => absurd hmem hitem) hissued
      refine submit_sound (s := registerPending s _) hset ?_ (fun _ => hitem) (.inr hissued)
      simp [jobTag, submitKind]
  | startedModify mod hfind href hidle =>
      have hknown := mem_orderIds_of_findOrder hfind
      exact submit_sound (setLimitOrder_sound hsound _) (by simp [jobTag]) (by simp [jobTag])
        (.inr (hsound.issued _ (.resting hknown)))
  | startedCancel hfind href hidle =>
      have hknown := mem_orderIds_of_findOrder hfind
      exact submit_sound (s := acceptCancel _ _) (setLimitOrder_sound hsound _) (by simp [jobTag])
        (by simp [jobTag]) (.inr (hsound.issued _ (.resting hknown)))
  | requestedCancel hfind href => exact setLimitOrder_sound hsound _
  | scheduled => exact processActiveOrders_sound hsound
  | drained hinbox hhandled =>
      refine handled_sound ?_ hhandled
      rw [LiveSound, inFlight, Pipeline.items_of_inbox hinbox] at hsound
      exact hsound
  | polled hpolling href hquery hpolled =>
      refine polled_sound ?_ hpolled
      exact hsound
  | expired hexpiring =>
      refine handleTimeout_sound ?_ _
      exact hsound
  | ended hpendings hindex hlimits hitems hledger hevents =>
      rw [LiveSound, hpendings, hindex, hlimits, hitems]
      refine sound_of_extends hsound.cleared hledger ?_
      rw [List.filterMap_eq_nil_iff]
      intro event hevent
      rcases hevents event hevent with ⟨result, rfl, -⟩ | hclose | ⟨pending, rfl⟩
      · rfl
      · exact filledId_of_isCloseRecord hclose
      · rfl

theorem new_sound (cfg : LiveConfig Raw) : LiveSound (Live.new cfg) where
  keyed k p hget := by cases hget
  closes k p hget := by cases hget
  opens k p hget := by cases hget
  emptyRef := rfl
  nodup := List.nodup_nil
  resting id hid := by cases hid
  submits id := Nat.zero_le _
  submitted id hid := by cases hid
  closing id hid := by cases hid
  issued id hknown := by
    cases hknown with
    | pending hget => exact absurd rfl hget
    | indexed hget => cases hget
    | resting hmem => cases hmem
    | traveling hkind hmem => cases hmem
    | position hsome => exact absurd rfl hsome

/-- What steps from sound books preserve holds, with sound books, after every run. -/
theorem run_sound_invariant {P : LiveTradeExecutor Raw → Prop}
    (hstep : ∀ s op s', LiveSound s → P s → Stepped cfg s op s' → P s')
    {s t : LiveTradeExecutor Raw} {ops : List (LiveOp Raw)} (hsound : LiveSound s) (hinit : P s)
    (hrun : run (step cfg) s ops = .ok t) : LiveSound t ∧ P t := by
  refine run_invariant (P := fun s => LiveSound s ∧ P s) (fun s op s' h hop => ?_) ⟨hsound, hinit⟩ hrun
  have hstepped := step_stepped h.1 hop
  exact ⟨stepped_sound h.1 hstepped, hstep s op s' h.1 h.2 hstepped⟩

end Steps

section Account

open Finiex.Kraken

def ethusd : SymbolSpecification where
  symbol := "ETHUSD"
  volumeMin := 1 / 100
  volumeMax := 1000
  volumeStep := 1 / 100
  tickSize := 1 / 100
  digits := 2
  contractSize := 1
  baseCurrency := "ETH"
  quoteCurrency := "USD"
  marginCurrency := "USD"
  tradeAllowed := true
  swapMode := .none
  swapLong := 0
  swapShort := 0
  swapRollover3days := 3

def cryptoBroker : BrokerConfig where
  kind := .kraken
  symbols := (∅ : Dict String SymbolSpecification).set "ETHUSD" ethusd
  leverage := 1
  capabilities := {}
  feeModel := .makerTaker
  makerFee := 0
  takerFee := 0

def spotAccount : PortfolioConfig where
  accountCurrency := "USD"
  initialBalance := 0
  initialBalances := ((∅ : Dict String ℚ).set "USD" 100000).set "ETH" 0
  spotMode := true
  zones := fun _ _ => 0
  broker := cryptoBroker

def krakenSession : LiveConfig RawResult where
  executor := { portfolio := spotAccount }
  adapter := Kraken.adapter [⟨"XETHZUSD", some "USD"⟩]

def ethusdTick (bid ask : ℚ) (msc : ℤ) : TickData where
  timestamp := msc * 1000
  symbol := "ETHUSD"
  bid := bid
  ask := ask
  timeMsc := msc
  collectedMsc := msc

def limitLong : OpenOrderRequest where
  symbol := "ETHUSD"
  orderType := .limit
  direction := .long
  lots := 2
  price := some 1500

def marketLong : OpenOrderRequest where
  symbol := "ETHUSD"
  orderType := .market
  direction := .long
  lots := 2

/-- The worker takes the next job and the broker answers it. -/
def answered (raw : RawResult) : List (LiveOp RawResult) := [.workerTake, .workerDeliver (.ok raw)]

/-- The worker takes the next job and its request raises. -/
def failed (text : String) : List (LiveOp RawResult) := [.workerTake, .workerDeliver (.error text)]

def accepted (ref : String) : RawResult := { txid := [ref] }

def reported (ref status : String) (price volExec : ℚ) : RawResult where
  orders := (∅ : Dict String OrderInfo).set ref ⟨some status, some price, some volExec⟩

def restingLimit : List (LiveOp RawResult) :=
  [.receiveTick (ethusdTick 1600 1601 1000), .openOrder limitLong] ++ answered (accepted "OID-1") ++
    [.drain]

end Account

end Finiex.LiveSteps
