import Finiex.LiveOutcomes

namespace Finiex.LiveCancels

open Finiex.Types
open Finiex.Lib
open Finiex.Lib.Run
open Finiex.Orders
open Finiex.OrderBooks
open Finiex.Portfolio
open Finiex.Portfolio.PortfolioManager
open Finiex.Executor
open Finiex.AuditTrail
open Finiex.LiveTypes
open Finiex.Live
open Finiex.LiveSpecs
open Finiex.LiveBooks
open Finiex.LiveTrail
open Finiex.LiveSteps
open Finiex.LiveOperations
open Finiex.LiveOutcomes

variable {Raw : Type} {cfg : LiveConfig Raw} {s s' t : LiveTradeExecutor Raw} {id : String}

section Resting

variable {limits : List PendingOrder} {order other : PendingOrder}

/-- The order waits for its reference, to be cancelled then. -/
def Parked (limits : List PendingOrder) (id : String) : Prop :=
  ∃ order ∈ limits, order.pendingOrderId = id ∧ order.brokerRef = none ∧
    order.executionState.cancelRequested = true

theorem mem_replaceOrder_ne (hmem : order ∈ limits)
    (hne : order.pendingOrderId ≠ other.pendingOrderId) : order ∈ replaceOrder other limits := by
  induction limits with
  | nil => cases hmem
  | cons p ps ih =>
      rw [replaceOrder]
      rcases List.mem_cons.mp hmem with rfl | hmem
      · rw [if_neg hne]
        exact List.mem_cons_self
      · split
        · exact List.mem_cons_of_mem _ hmem
        · exact List.mem_cons_of_mem _ (ih hmem)

theorem Parked.replace_ne (h : Parked limits id) (hne : id ≠ other.pendingOrderId) :
    Parked (replaceOrder other limits) id := by
  obtain ⟨order, hmem, hid, hnone, hrequested⟩ := h
  rw [← hid] at hne
  exact ⟨order, mem_replaceOrder_ne hmem hne, hid, hnone, hrequested⟩

theorem Parked.erase_ne (h : Parked limits id) (hne : id ≠ other.pendingOrderId) :
    Parked (limits.erase other) id := by
  obtain ⟨order, hmem, hid, hnone, hrequested⟩ := h
  have hne' : order ≠ other := fun heq => hne (heq ▸ hid.symm)
  exact ⟨order, (List.mem_erase_of_ne hne').mpr hmem, hid, hnone, hrequested⟩

theorem Parked.found (h : Parked limits id) (hnodup : (orderIds limits).Nodup)
    (hfind : findOrder limits id = some order) :
    order.brokerRef = none ∧ order.executionState.cancelRequested = true := by
  obtain ⟨parked, hmem, hid, hnone, hrequested⟩ := h
  have heq : order = parked := List.inj_on_of_nodup_map hnodup (mem_of_findOrder hfind) hmem
    ((findOrder_id hfind).trans hid.symm)
  rw [heq]
  exact ⟨hnone, hrequested⟩

theorem Parked.replace_self (h : Parked limits id) (hid : order.pendingOrderId = id)
    (hnone : order.brokerRef = none) (hrequested : order.executionState.cancelRequested = true) :
    Parked (replaceOrder order limits) id := by
  obtain ⟨parked, hmem, hpid, -, -⟩ := h
  refine ⟨order, mem_replaceOrder_self ?_, hid, hnone, hrequested⟩
  rw [hid, ← hpid]
  exact List.mem_map_of_mem hmem

theorem not_mem_erase_replaceOrder (hnodup : (orderIds limits).Nodup)
    (hin : order.pendingOrderId ∈ orderIds limits) :
    order.pendingOrderId ∉ orderIds ((replaceOrder order limits).erase order) := by
  intro hmem
  obtain ⟨x, hx, hid⟩ := List.mem_map.mp hmem
  exact (mem_erase_replaceOrder hnodup hin hx).2 hid

theorem not_mem_erase (hnodup : (orderIds limits).Nodup) (hin : order ∈ limits) :
    order.pendingOrderId ∉ orderIds (limits.erase order) := by
  intro hmem
  obtain ⟨x, hx, hid⟩ := List.mem_map.mp hmem
  exact (mem_erase_order hnodup hin hx).2 hid

end Resting

section Responses

theorem handled_cancel {response : Response Raw} (hsound : LiveSound s)
    (htag : responseTag response = (.cancel, id)) (h : Handled cfg s response s') :
    id ∉ orderIds s'.activeLimitOrders ∨
      s'.ledger.log = s.ledger.log ++ [.cancelRefused id] := by
  cases h with
  | unknown hunknown =>
      rw [htag] at hunknown
      exact .inl hunknown
  | untouched hkind =>
      rw [htag] at hkind
      rcases hkind with hkind | hkind | hkind <;> cases hkind
  | @cancelRefused orderId response pending hfind =>
      have hid : orderId = id := congrArg Prod.snd htag
      rw [hid]
      exact .inr rfl
  | @cancelled orderId response pending hfind =>
      have hid : orderId = id := congrArg Prod.snd htag
      rw [← hid, ← findOrder_id hfind]
      exact .inl (not_mem_erase hsound.nodup (mem_of_findOrder hfind))
  | limitFilled order hid hmem hfill =>
      obtain ⟨ledger, -, hpure⟩ := bind_eq_ok.mp hfill
      cases hpure
      rw [htag] at hid
      have heq : order.pendingOrderId = id := hid
      rw [← heq]
      exact .inl (not_mem_erase_replaceOrder hsound.nodup hmem)
  | limitRejected _ => cases htag
  | limitConfirmed _ _ => cases htag
  | limitDeferred _ => cases htag
  | modifyRejected _ => cases htag
  | modified _ => cases htag
  | positionModified _ _ _ => cases htag
  | tradesAppended _ => cases htag
  | queryCleared _ => cases htag
  | queryEnded _ => cases htag
  | @marketRejected orderId action orderType response pending htype hget =>
      cases orderType <;> cases action <;> cases htag
  | @marketConfirmed orderId action orderType response pending htype hget =>
      cases orderType <;> cases action <;> cases htag
  | @marketFilled orderId action orderType response pending s' htype hget hne hfill =>
      cases orderType <;> cases action <;> cases htag

/-- A parked order stays parked until its submission is answered; then it is gone, or its
cancel is issued. -/
theorem handled_parked {response : Response Raw} (hsound : LiveSound s)
    (hpopped : AllInStep s.activeLimitOrders (responseTag response :: inFlight s))
    (hparked : Parked s.activeLimitOrders id) (h : Handled cfg s response s') :
    Parked s'.activeLimitOrders id ∨ (.cancel, id) ∈ inFlight s' ∨
      id ∉ orderIds s'.activeLimitOrders := by
  have hnodup := hsound.nodup
  -- nothing but its submission is in flight for an order without a reference
  have hunconfirmed : ∀ kind, (kind = .edit ∨ kind = .cancel ∨ kind = .query) →
      responseTag response ≠ (kind, id) := by
    intro kind hkind htag
    obtain ⟨order, hmem, hid, hnone, -⟩ := hparked
    have hin := hpopped order hmem
    obtain ⟨hidle, hquery⟩ := hin.unconfirmed hnone
    have hedits := hin.edits
    have hcancels := hin.cancels
    have hqueries := hin.queries
    rw [htag, ← hid, hidle] at hedits hcancels
    rw [htag, ← hid, hquery] at hqueries
    rcases hkind with rfl | rfl | rfl
    · rw [List.count_cons_self, if_neg (by simp)] at hedits
      omega
    · rw [List.count_cons_self, if_neg (by simp)] at hcancels
      omega
    · rw [List.count_cons_self, if_neg (by simp)] at hqueries
      omega
  cases h with
  | unknown _ => exact .inl hparked
  | untouched _ => exact .inl hparked
  | positionModified _ _ _ => exact .inl hparked
  | marketRejected _ _ => exact .inl hparked
  | marketConfirmed _ _ => exact .inl hparked
  | marketFilled htype hget hne hfill =>
      refine .inl ?_
      rw [(fillByAction_frame hfill).1]
      show Parked (takeByRef _ _).1.activeLimitOrders _
      rw [(takeByRef_frame _ _).1]
      exact hparked
  | @limitRejected orderId action response pending hfind =>
      have hpid := findOrder_id hfind
      by_cases hid : id = orderId
      · rw [hid, ← hpid]
        exact .inr (.inr (not_mem_erase hnodup (mem_of_findOrder hfind)))
      · rw [← hpid] at hid
        exact .inl (hparked.erase_ne hid)
  | @limitConfirmed orderId action response pending hfind hrequested =>
      have hpid := findOrder_id hfind
      by_cases hid : id = orderId
      · subst hid
        rw [(hparked.found hnodup hfind).2] at hrequested
        cases hrequested
      · rw [← hpid] at hid
        exact .inl (hparked.replace_ne hid)
  | @limitDeferred orderId action response pending hfind =>
      have hpid := findOrder_id hfind
      by_cases hid : id = orderId
      · refine .inr (.inl ?_)
        rw [issueDeferredCancel, inFlight_submit, List.mem_append, hid, ← hpid]
        exact .inr List.mem_cons_self
      · rw [← hpid] at hid
        refine .inl ?_
        have hfirst : Parked (replaceOrder { pending with brokerRef := some response.brokerRef }
            s.activeLimitOrders) id := hparked.replace_ne hid
        exact hfirst.replace_ne hid
  | limitFilled order hid hmem hfill =>
      obtain ⟨ledger, -, hpure⟩ := bind_eq_ok.mp hfill
      cases hpure
      by_cases heq : id = order.pendingOrderId
      · rw [heq]
        exact .inr (.inr (not_mem_erase_replaceOrder hnodup hmem))
      · exact .inl ((hparked.replace_ne heq).erase_ne heq)
  | @modifyRejected orderId response pending hfind =>
      have hpid := findOrder_id hfind
      have hid : id ≠ pending.pendingOrderId := by
        rintro rfl
        exact hunconfirmed .edit (.inl rfl) (congrArg (Prod.mk _) hpid.symm)
      exact .inl (hparked.replace_ne hid)
  | @modified orderId response pending hfind =>
      have hpid := findOrder_id hfind
      have hid : id ≠ pending.pendingOrderId := by
        rintro rfl
        exact hunconfirmed .edit (.inl rfl) (congrArg (Prod.mk _) hpid.symm)
      obtain ⟨-, hlimits, -⟩ := swapBrokerRef_frame s
        (applyModification pending pending.pendingModification) response.brokerRef
      have hother : id ≠ (clearModification (swapBrokerRef s (applyModification pending
          pending.pendingModification) response.brokerRef).2).pendingOrderId := by
        have hsame := (applyModification_frame pending pending.pendingModification).1
        rw [swapBrokerRef]
        split <;> exact hsame ▸ hid
      refine .inl ?_
      rw [setLimitOrder, hlimits]
      exact hparked.replace_ne hother
  | @cancelRefused orderId response pending hfind =>
      have hpid := findOrder_id hfind
      have hid : id ≠ pending.pendingOrderId := by
        rintro rfl
        exact hunconfirmed .cancel (.inr (.inl rfl)) (congrArg (Prod.mk _) hpid.symm)
      exact .inl (hparked.replace_ne hid)
  | @cancelled orderId response pending hfind =>
      have hpid := findOrder_id hfind
      have hid : id ≠ pending.pendingOrderId := by
        rintro rfl
        exact hunconfirmed .cancel (.inr (.inl rfl)) (congrArg (Prod.mk _) hpid.symm)
      exact .inl (hparked.erase_ne hid)
  | @tradesAppended response pending hfind =>
      have hpid := findOrder_id hfind
      by_cases hid : id = response.orderId
      · subst hid
        obtain ⟨hnone, hrequested⟩ := hparked.found hnodup hfind
        exact .inl (hparked.replace_self hpid hnone hrequested)
      · rw [← hpid] at hid
        exact .inl (hparked.replace_ne hid)
  | @queryCleared orderId response pending hfind =>
      have hpid := findOrder_id hfind
      have hid : id ≠ pending.pendingOrderId := by
        rintro rfl
        exact hunconfirmed .query (.inr (.inr rfl)) (congrArg (Prod.mk _) hpid.symm)
      exact .inl (hparked.replace_ne hid)
  | @queryEnded orderId response pending hfind =>
      have hpid := findOrder_id hfind
      have hid : id ≠ pending.pendingOrderId := by
        rintro rfl
        exact hunconfirmed .query (.inr (.inr rfl)) (congrArg (Prod.mk _) hpid.symm)
      have hcleared : Parked (replaceOrder (clearQuery pending) s.activeLimitOrders) id :=
        hparked.replace_ne hid
      exact .inl (hcleared.erase_ne hid)

theorem handled_items {response : Response Raw} {item : Item} (hmem : item ∈ inFlight s)
    (h : Handled cfg s response s') : item ∈ inFlight s' := by
  cases h with
  | marketFilled htype hget hne hfill =>
      rw [(fillByAction_frame hfill).2]
      show item ∈ inFlight (takeByRef _ _).1
      rw [(takeByRef_frame _ _).2]
      exact hmem
  | limitDeferred hfind =>
      rw [issueDeferredCancel, inFlight_submit]
      exact List.mem_append_left _ hmem
  | limitFilled order hid hin hfill =>
      obtain ⟨ledger, -, hpure⟩ := bind_eq_ok.mp hfill
      cases hpure
      exact hmem
  | modified hfind =>
      show item ∈ inFlight (swapBrokerRef _ _ _).1
      rw [swapBrokerRef]
      split
      · show item ∈ inFlight (updateBrokerRef _ _ _)
        rw [(updateBrokerRef_frame _ _ _).2]
        exact hmem
      · exact hmem
  | _ => exact hmem

end Responses

section Steps

/-- The cancel is parked or in flight, or the order is gone. -/
def Waiting (s : LiveTradeExecutor Raw) (id : String) : Prop :=
  Parked s.activeLimitOrders id ∨ (.cancel, id) ∈ inFlight s ∨ id ∉ orderIds s.activeLimitOrders

theorem stepped_gone {op : LiveOp Raw} (hsound : LiveSound s) (h : Stepped cfg s op s')
    (hissued : IssuedIn s id) (hgone : id ∉ orderIds s.activeLimitOrders) :
    id ∉ orderIds s'.activeLimitOrders := by
  intro hmem
  obtain ⟨order', horder', rfl⟩ := List.mem_map.mp hmem
  rcases stepped_limits hsound h order' horder' with ⟨order, horder, hcontract⟩ |
      ⟨request, now, -, rfl⟩
  · have hid : order'.pendingOrderId = order.pendingOrderId := congrArg Prod.fst hcontract
    rw [hid] at hgone
    exact hgone (List.mem_map_of_mem horder)
  · exact nextId_unissued s request hissued

theorem stepped_items {op : LiveOp Raw} {item : Item} (hmem : item ∈ inFlight s)
    (h : Stepped cfg s op s') : item ∈ inFlight s' ∨ ∃ response rest,
      s.requests.inbox = response :: rest ∧ responseTag response = item ∧
      Handled cfg { s with requests := { s.requests with inbox := rest } } response s' := by
  have hpushed : ∀ job : Job, item ∈ Pipeline.items jobTag responseTag
      (s.requests.push job : Pipeline Job (Response Raw)) := by
    intro job
    rw [Pipeline.items_push]
    exact List.mem_append_left _ hmem
  cases h with
  | quiet hquiet => exact .inl (hquiet.items ▸ hmem)
  | guarded hquiet => exact .inl (hquiet.items ▸ hmem)
  | refused request => exact .inl hmem
  | enqueued hother hquiet =>
      rw [inFlight_submit, hquiet.items]
      exact .inl (List.mem_append_left _ hmem)
  | registered request htype => exact .inl (hpushed _)
  | rested request htype => exact .inl (hpushed _)
  | closing hposition => exact .inl (hpushed _)
  | startedModify mod hfind href hidle => exact .inl (hpushed _)
  | startedCancel hfind href hidle => exact .inl (hpushed _)
  | requestedCancel hfind href => exact .inl hmem
  | scheduled =>
      have hitems : inFlight (processActiveOrders cfg s) = inFlight s ++
          (s.activeLimitOrders.filterMap (pollJob cfg (s.wallClock / 1000))).map jobTag :=
        Pipeline.items_pushAll _ _
      rw [hitems]
      exact .inl (List.mem_append_left _ hmem)
  | @drained response rest s' hinbox hhandled =>
      rw [inFlight, Pipeline.items_of_inbox hinbox] at hmem
      rcases List.mem_cons.mp hmem with heq | hrest
      · exact .inr ⟨response, rest, hinbox, heq.symm, hhandled⟩
      · have hkept := handled_items hrest hhandled
        exact .inl hkept
  | polled hpolling href hquery hpolled => exact .inl ((polled_frame hpolled).2 ▸ hmem)
  | @expired pending rest hexpiring =>
      have hitems := (takeByRef_frame (recordOutcome { s with expiring := rest } pending .timedOut)
        pending.brokerRef).2
      exact .inl (hitems ▸ hmem)
  | ended hpendings hindex hlimits hitems hledger hevents => exact .inl (hitems ▸ hmem)

theorem processActiveOrders_parked (h : Parked s.activeLimitOrders id) :
    Parked (processActiveOrders cfg s).activeLimitOrders id := by
  obtain ⟨order, hmem, hid, hnone, hrequested⟩ := h
  have hpoll : pollJob cfg (s.wallClock / 1000) order = none := by
    cases hjob : pollJob cfg (s.wallClock / 1000) order with
    | none => rfl
    | some job => exact absurd hnone (pollJob_tag hjob).2.1
  have hsame : schedulePoll cfg (s.wallClock / 1000) order = order := by
    rw [schedulePoll, hpoll]
    rfl
  exact ⟨order, List.mem_map.mpr ⟨order, hmem, hsame⟩, hid, hnone, hrequested⟩

theorem stepped_parked {op : LiveOp Raw} (hsound : LiveSound s)
    (hall : AllInStep s.activeLimitOrders (inFlight s)) (hparked : Parked s.activeLimitOrders id)
    (h : Stepped cfg s op s') : Waiting s' id := by
  have hframe : ∀ {limits : List PendingOrder}, limits = s.activeLimitOrders →
      Parked limits id := fun heq => heq ▸ hparked
  -- a change of an order that has a reference is a change of another order
  have hother : ∀ {orderId ref pending}, findOrder s.activeLimitOrders orderId = some pending →
      pending.brokerRef = some ref → id ≠ pending.pendingOrderId := by
    intro orderId ref pending hfind href heq
    rw [findOrder_id hfind] at heq
    subst heq
    rw [(hparked.found hsound.nodup hfind).1] at href
    cases href
  cases h with
  | quiet hquiet => exact .inl (hframe hquiet.limits)
  | guarded hquiet => exact .inl (hframe hquiet.limits)
  | refused request => exact .inl hparked
  | enqueued hkind hquiet => exact .inl (hframe hquiet.limits)
  | registered request htype => exact .inl hparked
  | rested request htype =>
      obtain ⟨order, hmem, hrest⟩ := hparked
      exact .inl ⟨order, List.mem_append_left _ hmem, hrest⟩
  | closing hposition => exact .inl hparked
  | startedModify mod hfind href hidle =>
      have hid := hother hfind href
      exact .inl (hparked.replace_ne hid)
  | startedCancel hfind href hidle =>
      have hid := hother hfind href
      exact .inl (hparked.replace_ne hid)
  | @requestedCancel orderId pending hfind href =>
      have hpid := findOrder_id hfind
      by_cases hid : id = orderId
      · subst hid
        exact .inl (hparked.replace_self hpid href rfl)
      · rw [← hpid] at hid
        exact .inl (hparked.replace_ne hid)
  | scheduled => exact .inl (processActiveOrders_parked hparked)
  | @drained response rest s' hinbox hhandled =>
      rw [LiveSound, inFlight, Pipeline.items_of_inbox hinbox] at hsound
      rw [inFlight, Pipeline.items_of_inbox hinbox] at hall
      have hrest : LiveSound { s with requests := { s.requests with inbox := rest } } :=
        hsound.items_sublist (List.sublist_cons_self _ _)
      have hwaiting := handled_parked hrest hall hparked hhandled
      exact hwaiting
  | polled hpolling href hquery hpolled => exact .inl (hframe (polled_frame hpolled).1)
  | @expired pending rest hexpiring =>
      exact .inl (hframe (takeByRef_frame (recordOutcome { s with expiring := rest } pending
        .timedOut) pending.brokerRef).1)
  | ended hpendings hindex hlimits hitems hledger hevents => exact .inl (hframe hlimits)

theorem stepped_waiting {op : LiveOp Raw} (hsound : LiveSound s)
    (hall : AllInStep s.activeLimitOrders (inFlight s)) (hissued : IssuedIn s id)
    (hwaiting : Waiting s id) (h : Stepped cfg s op s') :
    Waiting s' id ∨ s'.ledger.log = s.ledger.log ++ [.cancelRefused id] := by
  rcases hwaiting with hparked | hitem | hgone
  · exact .inl (stepped_parked hsound hall hparked h)
  · rcases stepped_items hitem h with hkept | ⟨response, rest, hinbox, htag, hhandled⟩
    · exact .inl (.inr (.inl hkept))
    · rw [LiveSound, inFlight, Pipeline.items_of_inbox hinbox] at hsound
      have hrest : LiveSound { s with requests := { s.requests with inbox := rest } } :=
        hsound.items_sublist (List.sublist_cons_self _ _)
      rcases handled_cancel hrest htag hhandled with hgone | hrefused
      · exact .inl (.inr (.inr hgone))
      · exact .inr hrefused
  · exact .inl (.inr (.inr (stepped_gone hsound h hissued hgone)))

end Steps

section Runs

/-- What holds in every reachable state. -/
structure Reached (s : LiveTradeExecutor Raw) : Prop where
  filed : Filed s
  booked : Booked s
  inStep : AllInStep s.activeLimitOrders (inFlight s)

theorem reached_step {op : LiveOp Raw} (h : Reached s) (hop : step cfg s op = .ok s') :
    Reached s' ∧ Accounts s op s' := by
  have hsound := h.filed.sound
  obtain ⟨hfiled, haccounts⟩ := filed_step h.filed hop
  exact ⟨⟨hfiled, booked_step h.booked haccounts,
    stepped_inStep hsound h.inStep (step_stepped hsound hop)⟩, haccounts⟩

theorem run_reached {ops : List (LiveOp Raw)} (h : Reached s)
    (hrun : run (step cfg) s ops = .ok t) : Reached t :=
  run_invariant (fun _ _ _ hinv hop => (reached_step hinv hop).1) h hrun

theorem new_reached (cfg : LiveConfig Raw) : Reached (Live.new cfg) where
  filed := new_filed cfg
  booked := new_booked cfg
  inStep := fun order horder => by cases horder

theorem run_log {ops : List (LiveOp Raw)} (h : Reached s)
    (hrun : run (step cfg) s ops = .ok t) : ∃ events, t.ledger.log = s.ledger.log ++ events := by
  have hinv : Reached t ∧ ∃ events, t.ledger.log = s.ledger.log ++ events := by
    refine run_invariant (P := fun u => Reached u ∧ ∃ events, u.ledger.log = s.ledger.log ++ events)
      (fun u op u' hinv hop => ?_) ⟨h, [], (List.append_nil _).symm⟩ hrun
    obtain ⟨hreached, events, hlog⟩ := hinv
    obtain ⟨hreached', new, hext, -⟩ := reached_step hreached hop
    refine ⟨hreached', events ++ new, ?_⟩
    rw [hext.log, hlog, List.append_assoc]
  exact hinv.2

/-- From a state in which a cancel waits, every run keeps it or logs its refusal. -/
theorem run_waiting {ops : List (LiveOp Raw)} (h : Reached s) (hissued : IssuedIn s id)
    (hwaiting : Waiting s id) (hrun : run (step cfg) s ops = .ok t) :
    ∃ events, t.ledger.log = s.ledger.log ++ events ∧
      (Waiting t id ∨ .cancelRefused id ∈ events) := by
  have hinv : (Reached t ∧ IssuedIn t id) ∧ ∃ events, t.ledger.log = s.ledger.log ++ events ∧
      (Waiting t id ∨ .cancelRefused id ∈ events) := by
    refine run_invariant (P := fun u => (Reached u ∧ IssuedIn u id) ∧
        ∃ events, u.ledger.log = s.ledger.log ++ events ∧
          (Waiting u id ∨ .cancelRefused id ∈ events))
      (fun u op u' hinv hop => ?_) ⟨⟨h, hissued⟩, [], (List.append_nil _).symm, .inl hwaiting⟩ hrun
    obtain ⟨⟨hreached, hissued⟩, events, hlog, hkept⟩ := hinv
    obtain ⟨hreached', new, hext, -⟩ := reached_step hreached hop
    refine ⟨⟨hreached', hissued.mono hext.counter⟩, events ++ new, ?_, ?_⟩
    · rw [hext.log, hlog, List.append_assoc]
    · rcases hkept with hwaiting | hrefused
      · have hsound := hreached.filed.sound
        rcases stepped_waiting hsound hreached.inStep hissued hwaiting
            (step_stepped hsound hop) with hwaiting' | hlog'
        · exact .inl hwaiting'
        · have hnew : new = [.cancelRefused id] :=
            List.append_cancel_left (hext.log.symm.trans hlog')
          refine .inr (List.mem_append_right _ ?_)
          rw [hnew]
          exact List.mem_singleton_self _
      · exact .inr (List.mem_append_left _ hrefused)
  exact hinv.2

theorem cancelLimitOrder_waiting (h : Reached s) (haccepted : (cancelLimitOrder s id).2 = true) :
    Waiting (cancelLimitOrder s id).1 id ∧ IssuedIn (cancelLimitOrder s id).1 id := by
  unfold cancelLimitOrder at haccepted ⊢
  cases hfind : findOrder s.activeLimitOrders id with
  | none =>
      simp only [hfind] at haccepted
      cases haccepted
  | some pending =>
      have hid := findOrder_id hfind
      have hin := mem_orderIds_of_findOrder hfind
      have hissued := h.filed.sound.issued id (.resting hin)
      simp only [hfind] at haccepted ⊢
      cases href : pending.brokerRef with
      | none =>
          refine ⟨.inl ⟨requestCancel pending, mem_replaceOrder_self ?_, hid, href, rfl⟩, hissued⟩
          rw [← hid] at hin
          exact hin
      | some ref =>
          simp only [href] at haccepted ⊢
          by_cases hidle : pending.inFlightOperation = .none
          · rw [if_neg (not_not.mpr hidle)]
            refine ⟨.inr (.inl ?_), hissued⟩
            show _ ∈ Pipeline.items jobTag responseTag (s.requests.push _)
            rw [Pipeline.items_push]
            exact List.mem_append_right _ (List.mem_singleton_self _)
          · rw [if_pos hidle] at haccepted
            cases haccepted

theorem cancels_fills_le_ends (log : List AuditEvent) (id : String) :
    (log.filterMap cancelledId).count id + (log.filterMap filledId).count id ≤
      (log.filterMap ends).count id := by
  induction log with
  | nil => exact le_rfl
  | cons event log ih =>
      have hcons : ∀ f : AuditEvent → Option String, ((event :: log).filterMap f).count id =
          (if f event = some id then 1 else 0) + (log.filterMap f).count id := by
        intro f
        rw [List.filterMap_cons]
        cases hf : f event with
        | none => simp
        | some k =>
            rw [List.count_cons]
            by_cases hk : k = id <;> simp [hk, Nat.add_comm]
      have hevent : (if cancelledId event = some id then 1 else 0) +
          (if filledId event = some id then 1 else 0) ≤
          (if ends event = some id then 1 else 0) := by
        cases event with
        | orderCancelled orderId direction => simp [cancelledId, filledId, ends]
        | result source r =>
            cases source <;> simp [cancelledId, filledId]
            simp only [ends]
            by_cases hopen : r.action = some .openAction <;> simp [hopen]
            split <;> simp_all
        | _ => simp [cancelledId, filledId]
      rw [hcons, hcons, hcons]
      omega

/-- Draining a successful answer to a cancel takes its order away and announces it. -/
theorem drain_cancelled {response : BrokerResponse Raw} {rest : List (Response Raw)}
    (hinbox : s.requests.inbox = .cancel id response :: rest)
    (haccepted : response.isRejected = false) (hin : id ∈ orderIds s.activeLimitOrders)
    (hdrain : step cfg s .drain = .ok s') :
    ∃ direction, s'.ledger.log = s.ledger.log ++ [.orderCancelled id direction] := by
  rw [step, drain, hinbox] at hdrain
  simp only [handleResponse, handleCancelResponse] at hdrain
  cases hfind : findOrder s.activeLimitOrders id with
  | none => exact absurd hin (findOrder_eq_none.mp hfind)
  | some pending =>
      simp only [hfind, haccepted] at hdrain
      obtain ⟨now, -, hpure⟩ := bind_eq_ok.mp hdrain
      cases hpure
      refine ⟨pending.direction, ?_⟩
      rw [← findOrder_id hfind]
      rfl

/-- An accepted cancel is never dropped: in every later state it waits for the submission of
its order, it is in flight, an answer to it was a rejection, or the order is gone. And an
order that a cancel takes away is announced as cancelled once and never filled. -/
theorem accepted_cancel_kept {before after : List (LiveOp Raw)}
    (hrun : run (step cfg) (Live.new cfg) before = .ok s)
    (haccepted : (cancelLimitOrder s id).2 = true)
    (hlater : run (step cfg) (cancelLimitOrder s id).1 after = .ok t) :
    (∃ events, t.ledger.log = (cancelLimitOrder s id).1.ledger.log ++ events ∧
      ((∃ order ∈ t.activeLimitOrders, order.pendingOrderId = id ∧ order.brokerRef = none ∧
          order.executionState.cancelRequested = true ∧ (.limitSubmit, id) ∈ inFlight t) ∨
        (.cancel, id) ∈ inFlight t ∨ .cancelRefused id ∈ events ∨
        id ∉ orderIds t.activeLimitOrders)) ∧
    ∀ response rest later t' t'', t.requests.inbox = .cancel id response :: rest →
      response.isRejected = false → id ∈ orderIds t.activeLimitOrders →
      step cfg t .drain = .ok t' → run (step cfg) t' later = .ok t'' →
        (t''.ledger.log.filterMap cancelledId).count id = 1 ∧
        id ∉ t''.ledger.log.filterMap filledId ∧
        t''.ledger.portfolio.getPosition id = none ∧ id ∉ orderIds t''.activeLimitOrders := by
  have hreached := run_reached (new_reached cfg) hrun
  have hcancel : step cfg s (.cancelLimitOrder id) = .ok (cancelLimitOrder s id).1 := rfl
  have hreached₁ := (reached_step hreached hcancel).1
  have hreachedt := run_reached hreached₁ hlater
  obtain ⟨hwaiting, hissued⟩ := cancelLimitOrder_waiting hreached haccepted
  constructor
  · obtain ⟨events, hlog, hkept⟩ := run_waiting hreached₁ hissued hwaiting hlater
    refine ⟨events, hlog, ?_⟩
    rcases hkept with (⟨order, hmem, hid, hnone, hrequested⟩ | hitem | hgone) | hrefused
    · have hsubmits := (hreachedt.inStep order hmem).submits
      rw [if_pos hnone, hid] at hsubmits
      have hitem : (.limitSubmit, id) ∈ inFlight t := List.count_pos_iff.mp (by omega)
      exact .inl ⟨order, hmem, hid, hnone, hrequested, hitem⟩
    · exact .inr (.inl hitem)
    · exact .inr (.inr (.inr hgone))
    · exact .inr (.inr (.inl hrefused))
  · intro response rest later t' t'' hinbox hresponse hin hdrain hrest
    have hreached' := (reached_step hreachedt hdrain).1
    have hreached'' := run_reached hreached' hrest
    obtain ⟨direction, hcancelled⟩ := drain_cancelled hinbox hresponse hin hdrain
    obtain ⟨events, hlog⟩ := run_log hreached' hrest
    have hmem : id ∈ t''.ledger.log.filterMap cancelledId := by
      refine List.mem_filterMap.mpr ⟨.orderCancelled id direction, ?_, rfl⟩
      rw [hlog, hcancelled]
      exact List.mem_append_left _ (List.mem_append_right _ (List.mem_singleton_self _))
    have hpos := List.count_pos_iff.mpr hmem
    have hissued'' : IssuedIn t'' id := by
      by_contra hnot
      have hnone := (hreached''.booked.unissued id hnot).1
      have hle := cancels_fills_le_ends t''.ledger.log id
      rw [outcomes] at hnone
      omega
    have hbalance := hreached''.booked.ended id hissued''
    have hle := cancels_fills_le_ends t''.ledger.log id
    have hfilled : id ∉ t''.ledger.log.filterMap filledId :=
      List.count_eq_zero.mp (by omega)
    refine ⟨by omega, hfilled, ?_, fun hresting => ?_⟩
    · by_contra hposition
      exact hfilled (hreached''.booked.positions id hposition)
    · have hcount := List.count_pos_iff.mpr hresting
      rw [aliveIn, alive] at hbalance
      omega

end Runs

section Sessions

open Finiex.Kraken

/-- A limit order that is cancelled before the broker has answered its submission. -/
def unconfirmedLimit : List (LiveOp RawResult) :=
  [.receiveTick (ethusdTick 1600 1601 1000), .openOrder limitLong]

theorem accepted_cancel_kept_deferred :
    ∃ s t, run (step krakenSession) (Live.new krakenSession) unconfirmedLimit = .ok s ∧
      (cancelLimitOrder s "pos_ethusd_1").2 = true ∧
      run (step krakenSession) (cancelLimitOrder s "pos_ethusd_1").1
        (answered (accepted "OID-1") ++ [.drain]) = .ok t ∧
      ∃ events, t.ledger.log = (cancelLimitOrder s "pos_ethusd_1").1.ledger.log ++ events ∧
        ((∃ order ∈ t.activeLimitOrders, order.pendingOrderId = "pos_ethusd_1" ∧
            order.brokerRef = none ∧ order.executionState.cancelRequested = true ∧
            (.limitSubmit, "pos_ethusd_1") ∈ inFlight t) ∨
          (.cancel, "pos_ethusd_1") ∈ inFlight t ∨ .cancelRefused "pos_ethusd_1" ∈ events ∨
          "pos_ethusd_1" ∉ orderIds t.activeLimitOrders) := by
  have hruns : ((run (step krakenSession) (Live.new krakenSession) unconfirmedLimit).bind fun s =>
      (run (step krakenSession) (cancelLimitOrder s "pos_ethusd_1").1
        (answered (accepted "OID-1") ++ [.drain])).map fun _ =>
          (cancelLimitOrder s "pos_ethusd_1").2) = .ok true := by
    decide +kernel
  obtain ⟨s, hrun, hlater⟩ := bind_eq_ok.mp hruns
  obtain ⟨t, hlater, haccepted⟩ := exists_of_map_eq_ok hlater
  exact ⟨s, t, hrun, haccepted, hlater, (accepted_cancel_kept hrun haccepted hlater).1⟩

/-- The request of an accepted cancel raises: the order rests on with no cancel in flight,
although the broker answered nothing. -/
theorem cancel_lost_in_transport :
    ∃ s t, run (step krakenSession) (Live.new krakenSession) restingLimit = .ok s ∧
      (cancelLimitOrder s "pos_ethusd_1").2 = true ∧
      run (step krakenSession) (cancelLimitOrder s "pos_ethusd_1").1
        (failed "Read timed out" ++ [.drain]) = .ok t ∧
      (∀ raw, .workerDeliver (.ok raw) ∉ failed "Read timed out" ++ [LiveOp.drain]) ∧
      "pos_ethusd_1" ∈ orderIds t.activeLimitOrders ∧
      (.cancel, "pos_ethusd_1") ∉ inFlight t ∧ (.limitSubmit, "pos_ethusd_1") ∉ inFlight t := by
  have hruns : ((run (step krakenSession) (Live.new krakenSession) restingLimit).bind fun s =>
      (run (step krakenSession) (cancelLimitOrder s "pos_ethusd_1").1
        (failed "Read timed out" ++ [.drain])).map fun t =>
          ((cancelLimitOrder s "pos_ethusd_1").2, orderIds t.activeLimitOrders, inFlight t)) =
      .ok (true, ["pos_ethusd_1"], []) := by
    decide +kernel
  obtain ⟨s, hrun, hlater⟩ := bind_eq_ok.mp hruns
  obtain ⟨t, hlater, hvalues⟩ := exists_of_map_eq_ok hlater
  simp only [Prod.mk.injEq] at hvalues
  obtain ⟨haccepted, hids, hitems⟩ := hvalues
  refine ⟨s, t, hrun, haccepted, hlater, fun raw hmem => ?_, ?_, ?_, ?_⟩
  · simp [failed] at hmem
  · rw [hids]
    exact List.mem_singleton_self _
  · rw [hitems]
    exact List.not_mem_nil
  · rw [hitems]
    exact List.not_mem_nil

end Sessions

end Finiex.LiveCancels
