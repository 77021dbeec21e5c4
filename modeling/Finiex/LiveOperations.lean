import Finiex.LiveSteps

namespace Finiex.LiveOperations

open Finiex.Types
open Finiex.Lib
open Finiex.Lib.Run
open Finiex.Orders
open Finiex.OrderBooks
open Finiex.Executor
open Finiex.LiveTypes
open Finiex.Live
open Finiex.LiveSpecs
open Finiex.LiveBooks
open Finiex.LiveSteps
open Finiex.Kraken (RawResult)

def isTracked : ItemKind → Bool
  | .limitSubmit | .edit | .cancel | .query => true
  | .openSubmit | .closeSubmit | .other => false

/-- The flags of the order agree with what is in flight. -/
structure InStep (items : List Item) (order : PendingOrder) : Prop where
  edits : items.count (.edit, order.pendingOrderId) =
    if order.inFlightOperation = .pendingModify then 1 else 0
  cancels : items.count (.cancel, order.pendingOrderId) =
    if order.inFlightOperation = .pendingCancel then 1 else 0
  queries : items.count (.query, order.pendingOrderId) =
    if order.executionState.inFlightQuery then 1 else 0
  submits : items.count (.limitSubmit, order.pendingOrderId) =
    if order.brokerRef = none then 1 else 0
  unconfirmed : order.brokerRef = none →
    order.inFlightOperation = .none ∧ order.executionState.inFlightQuery = false

theorem InStep.frame {items items' : List Item} {order : PendingOrder} (h : InStep items order)
    (hcount : ∀ kind, isTracked kind = true →
      items'.count (kind, order.pendingOrderId) = items.count (kind, order.pendingOrderId)) :
    InStep items' order where
  edits := (hcount .edit rfl).trans h.edits
  cancels := (hcount .cancel rfl).trans h.cancels
  queries := (hcount .query rfl).trans h.queries
  submits := (hcount .limitSubmit rfl).trans h.submits
  unconfirmed := h.unconfirmed

theorem InStep.popped {items : List Item} {order : PendingOrder} {item : Item}
    (h : InStep (item :: items) order)
    (hother : item.2 ≠ order.pendingOrderId ∨ isTracked item.1 = false) : InStep items order := by
  refine h.frame fun kind hkind => (List.count_cons_of_ne fun heq => ?_).symm
  subst heq
  rcases hother with hne | huntracked
  · exact hne rfl
  · rw [hkind] at huntracked
    cases huntracked

theorem InStep.pushed {items jobs : List Item} {order : PendingOrder} (h : InStep items order)
    (hother : ∀ item ∈ jobs, item.2 ≠ order.pendingOrderId ∨ isTracked item.1 = false) :
    InStep (items ++ jobs) order := by
  refine h.frame fun kind hkind => ?_
  have hzero : jobs.count (kind, order.pendingOrderId) = 0 := by
    refine List.count_eq_zero_of_not_mem fun hmem => ?_
    rcases hother _ hmem with hne | huntracked
    · exact hne rfl
    · rw [hkind] at huntracked
      cases huntracked
  rw [List.count_append, hzero, Nat.add_zero]

variable {Raw : Type} {cfg : LiveConfig Raw} {s s' : LiveTradeExecutor Raw}

/-- Every resting order is in step with what is in flight. -/
def AllInStep (limits : List PendingOrder) (items : List Item) : Prop :=
  ∀ order ∈ limits, InStep items order

section Moves

variable {limits limits' : List PendingOrder} {items : List Item}

theorem AllInStep.removed {item : Item} (h : AllInStep limits (item :: items))
    (hremoved : ∀ order ∈ limits', order ∈ limits ∧ order.pendingOrderId ≠ item.2) :
    AllInStep limits' items := by
  intro order horder
  obtain ⟨hmem, hne⟩ := hremoved order horder
  exact (h order hmem).popped (.inl hne.symm)

theorem AllInStep.kept {item : Item} {order : PendingOrder}
    (h : AllInStep limits (item :: items)) (hnodup : (orderIds limits).Nodup)
    (hid : order.pendingOrderId = item.2) (hnew : InStep items order) :
    AllInStep (replaceOrder order limits) items := by
  intro x hx
  rcases mem_replaceOrder hnodup hx with rfl | ⟨hmem, hne⟩
  · exact hnew
  · rw [hid] at hne
    exact (h x hmem).popped (.inl hne.symm)

/-- A resting order changes its flags together with what it enqueues. -/
theorem AllInStep.changed {order : PendingOrder} {jobs : List Item}
    (h : AllInStep limits items) (hnodup : (orderIds limits).Nodup)
    (hjobs : ∀ job ∈ jobs, job.2 = order.pendingOrderId) (hnew : InStep (items ++ jobs) order) :
    AllInStep (replaceOrder order limits) (items ++ jobs) := by
  intro x hx
  rcases mem_replaceOrder hnodup hx with rfl | ⟨hmem, hne⟩
  · exact hnew
  · refine (h x hmem).pushed fun job hjob => .inl ?_
    rw [hjobs job hjob]
    exact hne.symm

theorem AllInStep.rewritten {order : PendingOrder} (h : AllInStep limits items)
    (hnodup : (orderIds limits).Nodup) (hnew : InStep items order) :
    AllInStep (replaceOrder order limits) items := by
  intro x hx
  rcases mem_replaceOrder hnodup hx with rfl | ⟨hmem, -⟩
  · exact hnew
  · exact h x hmem

end Moves

section Orders

variable {items : List Item} {pending : PendingOrder} {ref : String}

/-- A confirmed order has no submission in flight, and nothing else yet. -/
theorem inStep_confirmed (h : InStep ((.limitSubmit, pending.pendingOrderId) :: items) pending) :
    pending.brokerRef = none ∧ InStep items { pending with brokerRef := some ref } := by
  have hsubmits := h.submits
  rw [List.count_cons_self] at hsubmits
  have hnone : pending.brokerRef = none := by
    by_contra hsome
    rw [if_neg hsome] at hsubmits
    omega
  rw [if_pos hnone] at hsubmits
  have hframe := h.edits
  have hcancels := h.cancels
  have hqueries := h.queries
  rw [List.count_cons_of_ne (by simp)] at hframe hcancels hqueries
  refine ⟨hnone, hframe, hcancels, hqueries, ?_, fun href => by cases href⟩
  rw [if_neg (by simp)]
  show items.count (.limitSubmit, pending.pendingOrderId) = 0
  omega

theorem inStep_startCancel (h : InStep items pending) (href : pending.brokerRef = some ref)
    (hidle : pending.inFlightOperation = .none) (requested : Bool) :
    InStep (items ++ [(.cancel, pending.pendingOrderId)]) { pending with
      executionState := { pending.executionState with
        cancelRequested := requested, inFlightOperation := .pendingCancel } } := by
  have hedits := h.edits
  have hcancels := h.cancels
  rw [hidle] at hedits hcancels
  refine ⟨?_, ?_, ?_, ?_, fun hnone => ?_⟩
  · rw [List.count_append, hedits]
    rfl
  · rw [List.count_append, hcancels]
    simp [PendingOrder.inFlightOperation]
  · rw [List.count_append, h.queries]
    rfl
  · rw [List.count_append, h.submits]
    rfl
  · rw [show pending.brokerRef = none from hnone] at href
    cases href

theorem inStep_startModification (h : InStep items pending)
    (href : pending.brokerRef = some ref) (hidle : pending.inFlightOperation = .none)
    (mod : ModificationRequest) :
    InStep (items ++ [(.edit, pending.pendingOrderId)]) (startModification pending mod) := by
  have hedits := h.edits
  have hcancels := h.cancels
  rw [hidle] at hedits hcancels
  refine ⟨?_, ?_, ?_, ?_, fun hnone => ?_⟩
  · rw [startModification, List.count_append, hedits]
    simp [PendingOrder.inFlightOperation]
  · rw [startModification, List.count_append, hcancels]
    rfl
  · rw [startModification, List.count_append, h.queries]
    rfl
  · rw [startModification, List.count_append, h.submits]
    rfl
  · rw [show pending.brokerRef = none from hnone] at href
    cases href

/-- The answer to a modification leaves the order idle, under whichever reference. -/
theorem inStep_modified {order : PendingOrder}
    (h : InStep ((.edit, pending.pendingOrderId) :: items) pending)
    (hid : order.pendingOrderId = pending.pendingOrderId)
    (hstate : order.executionState = pending.executionState)
    (href : order.brokerRef = none ↔ pending.brokerRef = none) :
    InStep items (clearModification order) := by
  have hedits := h.edits
  have hcancels := h.cancels
  have hqueries := h.queries
  have hsubmits := h.submits
  rw [List.count_cons_self] at hedits
  rw [List.count_cons_of_ne (by simp)] at hcancels hqueries hsubmits
  have hmodify : pending.inFlightOperation = .pendingModify := by
    by_contra hne
    rw [if_neg hne] at hedits
    omega
  rw [if_pos hmodify] at hedits
  rw [hmodify] at hcancels
  refine ⟨?_, ?_, ?_, ?_, fun hnone => ?_⟩
  · show items.count (.edit, order.pendingOrderId) = 0
    rw [hid]
    omega
  · show items.count (.cancel, order.pendingOrderId) = 0
    rw [hid, hcancels]
    rfl
  · show items.count (.query, order.pendingOrderId) =
      if order.executionState.inFlightQuery then 1 else 0
    rw [hid, hqueries, hstate]
  · show items.count (.limitSubmit, order.pendingOrderId) = if order.brokerRef = none then 1 else 0
    rw [hid, hsubmits]
    simp only [href]
  · refine ⟨rfl, ?_⟩
    show order.executionState.inFlightQuery = false
    rw [hstate]
    exact (h.unconfirmed (href.mp hnone)).2

theorem edited_confirmed (h : InStep ((.edit, pending.pendingOrderId) :: items) pending) :
    pending.brokerRef ≠ none := by
  intro hnone
  have hedits := h.edits
  rw [(h.unconfirmed hnone).1, List.count_cons_self, if_neg (by simp)] at hedits
  omega

theorem inStep_cancelRefused (h : InStep ((.cancel, pending.pendingOrderId) :: items) pending) :
    InStep items (clearOperation pending) := by
  have hedits := h.edits
  have hcancels := h.cancels
  have hqueries := h.queries
  have hsubmits := h.submits
  rw [List.count_cons_self] at hcancels
  rw [List.count_cons_of_ne (by simp)] at hedits hqueries hsubmits
  have hcancel : pending.inFlightOperation = .pendingCancel := by
    by_contra hne
    rw [if_neg hne] at hcancels
    omega
  rw [if_pos hcancel] at hcancels
  rw [hcancel] at hedits
  refine ⟨?_, ?_, hqueries, hsubmits, fun hnone => ⟨rfl, (h.unconfirmed hnone).2⟩⟩
  · show items.count (.edit, pending.pendingOrderId) = 0
    rw [hedits]
    rfl
  · show items.count (.cancel, pending.pendingOrderId) = 0
    omega

theorem inStep_clearQuery (h : InStep ((.query, pending.pendingOrderId) :: items) pending) :
    InStep items (clearQuery pending) := by
  have hedits := h.edits
  have hcancels := h.cancels
  have hqueries := h.queries
  have hsubmits := h.submits
  rw [List.count_cons_self] at hqueries
  rw [List.count_cons_of_ne (by simp)] at hedits hcancels hsubmits
  refine ⟨hedits, hcancels, ?_, hsubmits, fun hnone => ⟨(h.unconfirmed hnone).1, rfl⟩⟩
  show items.count (.query, pending.pendingOrderId) = 0
  split at hqueries <;> omega

end Orders

section Steps

theorem fillByAction_frame {action : PendingOrderAction} {pending : PendingOrder}
    {fillPrice : Option ℚ} (h : fillByAction cfg s action pending fillPrice = .ok s') :
    s'.activeLimitOrders = s.activeLimitOrders ∧ inFlight s' = inFlight s := by
  cases action with
  | openOrder =>
      obtain ⟨ledger, -, hpure⟩ := bind_eq_ok.mp h
      cases hpure
      exact ⟨rfl, rfl⟩
  | closeOrder =>
      obtain ⟨ledger, -, hpure⟩ := bind_eq_ok.mp h
      cases hpure
      exact ⟨rfl, rfl⟩

theorem takeByRef_frame (s : LiveTradeExecutor Raw) (brokerRef : Option String) :
    (takeByRef s brokerRef).1.activeLimitOrders = s.activeLimitOrders ∧
      inFlight (takeByRef s brokerRef).1 = inFlight s := by
  rcases takeByRef_cases s brokerRef with htake | ⟨ref, orderId, -, -, htake⟩ <;>
    rw [htake] <;> exact ⟨rfl, rfl⟩

theorem updateBrokerRef_frame (s : LiveTradeExecutor Raw) (oldRef : Option String)
    (newRef : String) :
    (updateBrokerRef s oldRef newRef).activeLimitOrders = s.activeLimitOrders ∧
      inFlight (updateBrokerRef s oldRef newRef) = inFlight s := by
  unfold updateBrokerRef
  split
  · exact ⟨rfl, rfl⟩
  · split <;> exact ⟨rfl, rfl⟩

@[simp] theorem inFlight_submit (s : LiveTradeExecutor Raw) (job : Job) :
    inFlight (submit s job) = inFlight s ++ [jobTag job] :=
  Pipeline.items_push _ _

theorem applyModification_frame (pending : PendingOrder) (mod : Option ModificationRequest) :
    (applyModification pending mod).pendingOrderId = pending.pendingOrderId ∧
      (applyModification pending mod).executionState = pending.executionState ∧
      (applyModification pending mod).brokerRef = pending.brokerRef := by
  cases mod <;> exact ⟨rfl, rfl, rfl⟩

theorem allInStep_untracked {limits : List PendingOrder} {items : List Item} {item : Item}
    (h : AllInStep limits (item :: items)) (huntracked : isTracked item.1 = false) :
    AllInStep limits items :=
  fun order horder => (h order horder).popped (.inr huntracked)

theorem submitKind_untracked {action : PendingOrderAction} {orderType : Types.OrderType}
    (htype : orderType ≠ .limit) : isTracked (submitKind action orderType) = false := by
  cases orderType with
  | limit => exact absurd rfl htype
  | _ => cases action <;> rfl

/-- The order with this id, and what its flags say before its item is popped. -/
theorem inStep_found {kind : ItemKind} {orderId : String} {pending : PendingOrder}
    (h : AllInStep s.activeLimitOrders ((kind, orderId) :: inFlight s))
    (hfind : findOrder s.activeLimitOrders orderId = some pending) :
    InStep ((kind, pending.pendingOrderId) :: inFlight s) pending := by
  rw [findOrder_id hfind]
  exact h pending (mem_of_findOrder hfind)

theorem handled_inStep {response : Response Raw} (hsound : LiveSound s)
    (hpopped : AllInStep s.activeLimitOrders (responseTag response :: inFlight s))
    (h : Handled cfg s response s') : AllInStep s'.activeLimitOrders (inFlight s') := by
  have hnodup := hsound.nodup
  cases h with
  | unknown hunknown =>
      exact hpopped.removed fun order horder =>
        ⟨horder, fun heq => hunknown (heq ▸ List.mem_map_of_mem horder)⟩
  | untouched hkind =>
      refine allInStep_untracked hpopped ?_
      rcases hkind with hkind | hkind | hkind <;> rw [hkind] <;> rfl
  | positionModified _ _ _ => exact allInStep_untracked hpopped rfl
  | marketRejected htype _ => exact allInStep_untracked hpopped (submitKind_untracked htype)
  | marketConfirmed htype _ => exact allInStep_untracked hpopped (submitKind_untracked htype)
  | @marketFilled orderId action orderType response pending s' htype hget hne hfill =>
      obtain ⟨hlimits, hitems⟩ := fillByAction_frame hfill
      obtain ⟨hlimits', hitems'⟩ := takeByRef_frame
        (confirmPending s orderId pending response.brokerRef) (some response.brokerRef)
      rw [hlimits, hitems]
      show AllInStep (takeByRef _ _).1.activeLimitOrders (inFlight (takeByRef _ _).1)
      rw [hlimits', hitems']
      exact allInStep_untracked hpopped (submitKind_untracked htype)
  | limitRejected hfind =>
      refine hpopped.removed fun order horder => ?_
      rw [responseTag, ← findOrder_id hfind]
      exact mem_erase_order hnodup (mem_of_findOrder hfind) horder
  | @limitConfirmed orderId action response pending hfind hrequested =>
      have hid := findOrder_id hfind
      exact hpopped.kept hnodup hid (inStep_confirmed (inStep_found hpopped hfind)).2
  | @limitDeferred orderId action response pending hfind =>
      have hid := findOrder_id hfind
      obtain ⟨hnone, hnew⟩ := inStep_confirmed (inStep_found hpopped hfind)
      have hidle := ((inStep_found hpopped hfind).unconfirmed hnone).1
      have hkept : AllInStep (replaceOrder { pending with brokerRef := some response.brokerRef }
          s.activeLimitOrders) (inFlight s) := hpopped.kept hnodup hid hnew
      have hcancel := inStep_startCancel hnew rfl hidle false
      rw [← orderIds_replaceOrder { pending with brokerRef := some response.brokerRef }] at hnodup
      have hchanged := hkept.changed hnodup (fun job hjob => by
        rw [List.mem_singleton.mp hjob]) hcancel
      rw [issueDeferredCancel, inFlight_submit]
      exact hchanged
  | limitFilled order hid hmem hfill =>
      obtain ⟨ledger, -, hpure⟩ := bind_eq_ok.mp hfill
      cases hpure
      refine hpopped.removed fun x hx => ?_
      rw [← hid]
      exact mem_erase_replaceOrder hnodup hmem hx
  | modifyRejected hfind =>
      have hid := findOrder_id hfind
      exact hpopped.kept hnodup hid (inStep_modified (inStep_found hpopped hfind) rfl rfl Iff.rfl)
  | @modified orderId response pending hfind =>
      have hid := findOrder_id hfind
      have hfound := inStep_found hpopped hfind
      obtain ⟨hid', hstate, href⟩ := applyModification_frame pending pending.pendingModification
      rw [swapBrokerRef]
      split
      · next hswap =>
          obtain ⟨hlimits, hitems⟩ := updateBrokerRef_frame s
            (applyModification pending pending.pendingModification).brokerRef response.brokerRef
          show AllInStep (replaceOrder _ (updateBrokerRef _ _ _).activeLimitOrders)
            (inFlight (updateBrokerRef _ _ _))
          rw [hlimits, hitems]
          refine hpopped.kept hnodup (hid'.trans hid) (inStep_modified hfound hid' hstate ?_)
          exact ⟨fun hnone => (by cases hnone), fun hnone => absurd hnone (edited_confirmed hfound)⟩
      · refine hpopped.kept hnodup (hid'.trans hid) ?_
        refine inStep_modified hfound hid' hstate ?_
        rw [href]
  | cancelRefused hfind =>
      have hid := findOrder_id hfind
      exact hpopped.kept hnodup hid (inStep_cancelRefused (inStep_found hpopped hfind))
  | cancelled hfind =>
      refine hpopped.removed fun order horder => ?_
      rw [responseTag, ← findOrder_id hfind]
      exact mem_erase_order hnodup (mem_of_findOrder hfind) horder
  | @tradesAppended response pending hfind =>
      have hall := allInStep_untracked hpopped rfl
      have hold := hall pending (mem_of_findOrder hfind)
      exact hall.rewritten hnodup
        ⟨hold.edits, hold.cancels, hold.queries, hold.submits, hold.unconfirmed⟩
  | queryCleared hfind =>
      have hid := findOrder_id hfind
      exact hpopped.kept hnodup hid (inStep_clearQuery (inStep_found hpopped hfind))
  | @queryEnded orderId response pending hfind =>
      have hid := findOrder_id hfind
      have hin := mem_orderIds_of_findOrder hfind
      rw [← hid] at hin
      refine hpopped.removed fun order horder => ?_
      have hmem : order ∈ (replaceOrder (clearQuery pending) s.activeLimitOrders).erase
          (clearQuery pending) := horder
      have hin' : (clearQuery pending).pendingOrderId ∈ orderIds s.activeLimitOrders := hin
      rw [responseTag, ← hid]
      exact mem_erase_replaceOrder hnodup hin' hmem

theorem count_pollJobs {nowMs : ℚ} {limits : List PendingOrder} {order : PendingOrder}
    (hnodup : (orderIds limits).Nodup) (hmem : order ∈ limits) :
    ((limits.filterMap (pollJob cfg nowMs)).map jobTag).count (.query, order.pendingOrderId) =
      if (pollJob cfg nowMs order).isSome then 1 else 0 := by
  induction limits with
  | nil => cases hmem
  | cons first rest ih =>
      rw [orderIds_cons, List.nodup_cons] at hnodup
      have hrest : order.pendingOrderId ∉ orderIds rest →
          ((rest.filterMap (pollJob cfg nowMs)).map jobTag).count
            (.query, order.pendingOrderId) = 0 := by
        intro habsent
        refine List.count_eq_zero_of_not_mem fun hin => habsent ?_
        obtain ⟨job, hjob, htag⟩ := List.mem_map.mp hin
        obtain ⟨other, hother, hpoll⟩ := List.mem_filterMap.mp hjob
        rw [(pollJob_tag hpoll).1] at htag
        have hid : other.pendingOrderId = order.pendingOrderId := congrArg Prod.snd htag
        rw [← hid]
        exact List.mem_map_of_mem hother
      rcases List.mem_cons.mp hmem with rfl | hin
      · rw [List.filterMap_cons]
        cases hpoll : pollJob cfg nowMs order with
        | none => exact hrest hnodup.1
        | some job =>
            simp only [List.map_cons]
            rw [(pollJob_tag hpoll).1, List.count_cons_self, hrest hnodup.1]
            rfl
      · have hne : first.pendingOrderId ≠ order.pendingOrderId :=
          fun heq => hnodup.1 (heq ▸ List.mem_map_of_mem hin)
        rw [List.filterMap_cons]
        cases hpoll : pollJob cfg nowMs first with
        | none => exact ih hnodup.2 hin
        | some job =>
            simp only [List.map_cons]
            rw [(pollJob_tag hpoll).1, List.count_cons_of_ne fun heq => hne (congrArg Prod.snd heq)]
            exact ih hnodup.2 hin

/-- Polling sets the flag of exactly the orders it enqueues a query for. -/
theorem processActiveOrders_inStep (hnodup : (orderIds s.activeLimitOrders).Nodup)
    (h : AllInStep s.activeLimitOrders (inFlight s)) :
    AllInStep (processActiveOrders cfg s).activeLimitOrders
      (inFlight (processActiveOrders cfg s)) := by
  intro order' horder'
  obtain ⟨order, horder, rfl⟩ := List.mem_map.mp horder'
  have hitems : inFlight (processActiveOrders cfg s) = inFlight s ++
      (s.activeLimitOrders.filterMap (pollJob cfg (s.wallClock / 1000))).map jobTag :=
    Pipeline.items_pushAll _ _
  have hold := h order horder
  have hcount : ((s.activeLimitOrders.filterMap (pollJob cfg (s.wallClock / 1000))).map
      jobTag).count (.query, order.pendingOrderId) =
        if (pollJob cfg (s.wallClock / 1000) order).isSome then 1 else 0 :=
    count_pollJobs hnodup horder
  have hother : ∀ kind, kind ≠ .query →
      ((s.activeLimitOrders.filterMap (pollJob cfg (s.wallClock / 1000))).map jobTag).count
        (kind, order.pendingOrderId) = 0 := by
    intro kind hkind
    refine List.count_eq_zero_of_not_mem fun hin => hkind ?_
    obtain ⟨job, hjob, htag⟩ := List.mem_map.mp hin
    obtain ⟨polled, -, hpoll⟩ := List.mem_filterMap.mp hjob
    rw [(pollJob_tag hpoll).1] at htag
    exact (congrArg Prod.fst htag).symm
  have hpushed : ∀ kind, (inFlight (processActiveOrders cfg s)).count
      (kind, order.pendingOrderId) = (inFlight s).count (kind, order.pendingOrderId) +
      ((s.activeLimitOrders.filterMap (pollJob cfg (s.wallClock / 1000))).map jobTag).count
        (kind, order.pendingOrderId) := by
    intro kind
    rw [hitems, List.count_append]
  rw [schedulePoll]
  cases hpoll : pollJob cfg (s.wallClock / 1000) order with
  | none =>
      rw [hpoll] at hcount
      refine hold.frame fun kind hkind => ?_
      rw [hpushed]
      by_cases hquery : kind = .query
      · rw [hquery, hcount]
        rfl
      · rw [hother kind hquery, Nat.add_zero]
  | some job =>
      obtain ⟨-, hconfirmed, hidle⟩ := pollJob_tag hpoll
      have hqueries := hold.queries
      rw [hpoll] at hcount
      rw [hidle] at hqueries
      refine ⟨?_, ?_, ?_, ?_, fun hnone => absurd hnone hconfirmed⟩
      · exact (hpushed _).trans (by rw [hother .edit (by simp)]; exact hold.edits)
      · exact (hpushed _).trans (by rw [hother .cancel (by simp)]; exact hold.cancels)
      · exact (hpushed _).trans (by rw [hqueries, hcount]; rfl)
      · exact (hpushed _).trans (by rw [hother .limitSubmit (by simp)]; exact hold.submits)

/-- A new order rests with its submission in flight and nothing else. -/
theorem inStep_rested {request : OpenOrderRequest} {now : Instant} (hsound : LiveSound s)
    (htype : request.orderType = .limit) :
    InStep (inFlight s ++ [jobTag (.submit (nextId s request) .openOrder request.orderType
      (orderPayload request))])
      (pendingLimit (received s request) (nextId s request) request now) := by
  have hzero : ∀ kind, kind ≠ .other → (inFlight s).count (kind, nextId s request) = 0 :=
    fun kind hkind => List.count_eq_zero_of_not_mem fun hmem =>
      nextId_fresh hsound request (.traveling hkind hmem)
  rw [jobTag, htype]
  refine ⟨?_, ?_, ?_, ?_, fun _ => ⟨rfl, rfl⟩⟩
  · rw [List.count_append]
    show (inFlight s).count (.edit, nextId s request) + _ = 0
    rw [hzero .edit (by simp)]
    rfl
  · rw [List.count_append]
    show (inFlight s).count (.cancel, nextId s request) + _ = 0
    rw [hzero .cancel (by simp)]
    rfl
  · rw [List.count_append]
    show (inFlight s).count (.query, nextId s request) + _ = 0
    rw [hzero .query (by simp)]
    rfl
  · rw [List.count_append]
    show (inFlight s).count (.limitSubmit, nextId s request) +
      List.count (ItemKind.limitSubmit, nextId s request)
        [(ItemKind.limitSubmit, nextId s request)] = 1
    rw [hzero .limitSubmit (by simp), List.count_singleton_self]

/-- The status of a pending order moves nothing that rests or travels. -/
theorem polled_frame {ref : String} {response : BrokerResponse Raw}
    (h : Polled cfg s ref response s') :
    s'.activeLimitOrders = s.activeLimitOrders ∧ inFlight s' = inFlight s := by
  cases h with
  | idle _ _ => exact ⟨rfl, rfl⟩
  | unmatched _ => exact takeByRef_frame s _
  | filled _ _ hfill =>
      obtain ⟨hlimits, hitems⟩ := fillByAction_frame hfill
      obtain ⟨hlimits', hitems'⟩ := takeByRef_frame s (some ref)
      exact ⟨hlimits.trans hlimits', hitems.trans hitems'⟩
  | rejected _ _ => exact takeByRef_frame s _

theorem stepped_inStep {op : LiveOp Raw} (hsound : LiveSound s)
    (hall : AllInStep s.activeLimitOrders (inFlight s)) (h : Stepped cfg s op s') :
    AllInStep s'.activeLimitOrders (inFlight s') := by
  have hnodup := hsound.nodup
  have hpush : ∀ item : Item, isTracked item.1 = false →
      AllInStep s.activeLimitOrders (inFlight s ++ [item]) := by
    intro item huntracked order horder
    refine (hall order horder).pushed fun job hjob => .inr ?_
    rw [List.mem_singleton.mp hjob]
    exact huntracked
  cases h with
  | quiet hquiet =>
      rw [hquiet.limits, hquiet.items]
      exact hall
  | guarded hquiet =>
      rw [hquiet.limits, hquiet.items]
      exact hall
  | refused request => exact hall
  | enqueued hother hquiet =>
      rw [inFlight_submit, hquiet.items]
      show AllInStep (submit _ _).activeLimitOrders _
      rw [submit, hquiet.limits]
      refine hpush _ ?_
      rw [hother]
      rfl
  | registered request htype =>
      refine (congrArg (AllInStep _) (Pipeline.items_push _ _)).mpr (hpush _ ?_)
      refine submitKind_untracked ?_
      rw [htype]
      simp
  | @rested op now request htype =>
      refine (congrArg (AllInStep _) (Pipeline.items_push _ _)).mpr ?_
      intro order horder
      rcases List.mem_append.mp horder with hold | hnew
      · refine (hall order hold).pushed fun job hjob => .inl fun heq => ?_
        rw [List.mem_singleton.mp hjob] at heq
        refine nextId_fresh hsound request (.resting ?_)
        show (jobTag (.submit (nextId s request) .openOrder request.orderType
          (orderPayload request))).2 ∈ _
        rw [heq]
        exact List.mem_map_of_mem hold
      · rw [List.mem_singleton.mp hnew]
        exact inStep_rested hsound htype
  | closing hposition =>
      refine (congrArg (AllInStep _) (Pipeline.items_push _ _)).mpr (hpush _ ?_)
      rfl
  | @startedModify op orderId ref symbol price stopLoss takeProfit pending mod hfind href hidle =>
      have hid := findOrder_id hfind
      refine (congrArg (AllInStep _) (Pipeline.items_push _ _)).mpr ?_
      refine hall.changed hnodup (fun job hjob => ?_) ?_
      · rw [List.mem_singleton.mp hjob]
        exact hid.symm
      · rw [jobTag, ← hid]
        exact inStep_startModification (hall pending (mem_of_findOrder hfind)) href hidle mod
  | @startedCancel orderId ref pending hfind href hidle =>
      have hid := findOrder_id hfind
      refine (congrArg (AllInStep _) (Pipeline.items_push _ _)).mpr ?_
      refine hall.changed hnodup (fun job hjob => ?_) ?_
      · rw [List.mem_singleton.mp hjob]
        exact hid.symm
      · rw [jobTag, ← hid]
        exact inStep_startCancel (hall pending (mem_of_findOrder hfind)) href hidle _
  | requestedCancel hfind href =>
      have hold := hall _ (mem_of_findOrder hfind)
      exact hall.rewritten hnodup
        ⟨hold.edits, hold.cancels, hold.queries, hold.submits, hold.unconfirmed⟩
  | scheduled => exact processActiveOrders_inStep hnodup hall
  | @drained response rest s' hinbox hhandled =>
      have hpopped := hsound
      rw [LiveSound, inFlight, Pipeline.items_of_inbox hinbox] at hpopped
      rw [inFlight, Pipeline.items_of_inbox hinbox] at hall
      have hrest : LiveSound { s with requests := { s.requests with inbox := rest } } :=
        hpopped.items_sublist (List.sublist_cons_self _ _)
      exact handled_inStep hrest hall hhandled
  | polled hpolling href hquery hpolled =>
      obtain ⟨hlimits, hitems⟩ := polled_frame hpolled
      rw [hlimits, hitems]
      exact hall
  | @expired pending rest hexpiring =>
      obtain ⟨hlimits, hitems⟩ := takeByRef_frame
        (recordOutcome { s with expiring := rest } pending .timedOut) pending.brokerRef
      show AllInStep (takeByRef _ _).1.activeLimitOrders (inFlight (takeByRef _ _).1)
      rw [hlimits, hitems]
      exact hall
  | ended hpendings hindex hlimits hitems hledger hevents =>
      rw [hlimits, hitems]
      exact hall

end Steps

/-- What is in flight for every resting order, after every run: one modification or
cancellation while the order says so, one query while the order says so, and its submission
as long as it has no reference. -/
theorem one_operation_in_flight {s : LiveTradeExecutor Raw} {ops : List (LiveOp Raw)}
    {order : PendingOrder} (hrun : run (step cfg) (Live.new cfg) ops = .ok s)
    (horder : order ∈ s.activeLimitOrders) :
    (order.inFlightOperation = .pendingModify ∨ order.inFlightOperation = .pendingCancel →
      (inFlight s).count (.edit, order.pendingOrderId) +
        (inFlight s).count (.cancel, order.pendingOrderId) = 1) ∧
    (order.inFlightOperation = .none →
      (inFlight s).count (.edit, order.pendingOrderId) +
        (inFlight s).count (.cancel, order.pendingOrderId) = 0) ∧
    (inFlight s).count (.query, order.pendingOrderId) =
      (if order.executionState.inFlightQuery then 1 else 0) ∧
    (inFlight s).count (.limitSubmit, order.pendingOrderId) ≤ 1 ∧
    (order.brokerRef = none ↔ (.limitSubmit, order.pendingOrderId) ∈ inFlight s) := by
  have hall : AllInStep s.activeLimitOrders (inFlight s) :=
    (run_sound_invariant (P := fun s => AllInStep s.activeLimitOrders (inFlight s))
      (fun s op s' hsound hall hstep => stepped_inStep hsound hall hstep)
      (new_sound cfg) (fun order horder => by cases horder) hrun).2
  have hin := hall order horder
  refine ⟨fun hop => ?_, fun hop => ?_, hin.queries, ?_, ?_⟩
  · rw [hin.edits, hin.cancels]
    rcases hop with hop | hop <;> rw [hop] <;> rfl
  · rw [hin.edits, hin.cancels, hop]
    rfl
  · rw [hin.submits]
    split <;> omega
  · rw [← List.count_pos_iff, hin.submits]
    split <;> simp_all

/-- A confirmed order whose cancellation is under way, polled meanwhile. -/
def cancellingLimit : List (LiveOp RawResult) :=
  restingLimit ++ [.wallClock 6000000, .cancelLimitOrder "pos_ethusd_1", .processActiveOrders]

theorem cancellingLimit_runs :
    (run (step krakenSession) (Live.new krakenSession) cancellingLimit).map
      (fun s => s.activeLimitOrders.map fun order =>
        (order.pendingOrderId, order.inFlightOperation, order.executionState.inFlightQuery)) =
      .ok [("pos_ethusd_1", .pendingCancel, true)] := by
  decide +kernel

theorem one_operation_in_flight_cancelling :
    ∃ s order, run (step krakenSession) (Live.new krakenSession) cancellingLimit = .ok s ∧
      order ∈ s.activeLimitOrders ∧
      (inFlight s).count (.edit, order.pendingOrderId) +
        (inFlight s).count (.cancel, order.pendingOrderId) = 1 := by
  obtain ⟨s, hrun, horders⟩ := exists_of_map_eq_ok cancellingLimit_runs
  obtain ⟨order, hmem, hvalues⟩ := List.mem_map.mp (horders.symm ▸ List.mem_singleton_self
    ("pos_ethusd_1", PendingOperation.pendingCancel, true))
  have hcancel : order.inFlightOperation = .pendingCancel := congrArg (·.2.1) hvalues
  exact ⟨s, order, hrun, hmem, (one_operation_in_flight hrun hmem).1 (.inr hcancel)⟩

end Finiex.LiveOperations
