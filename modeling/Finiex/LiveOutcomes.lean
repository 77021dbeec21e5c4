import Finiex.LiveOperations

namespace Finiex.LiveOutcomes

open Finiex.Types
open Finiex.Lib
open Finiex.Lib.Run
open Finiex.Orders
open Finiex.OrderBooks
open Finiex.Portfolio
open Finiex.Portfolio.PortfolioManager
open Finiex.Executor
open Finiex.AuditTrail
open Finiex.LiveTypes
open Finiex.Live
open Finiex.LiveSpecs
open Finiex.LiveBooks
open Finiex.LiveTrail
open Finiex.LiveSteps
open Finiex.LiveOperations

section Views

/-- The order that a fill, a rejection by the broker or a cancellation ends. -/
def ends : AuditEvent → Option String
  | .result .fill r => if r.action = some .closeAction then none else some r.orderId
  | .result (.submitResponse .openOrder) r => some r.orderId
  | .result (.queryResponse .openOrder) r => some r.orderId
  | .orderCancelled orderId _ => some orderId
  | _ => none

def timesOut : AuditEvent → Option String
  | .result (.timeout .openOrder) r => some r.orderId
  | _ => none

/-- The OPEN order that a terminal result in the order history is about. Results of the
order guard are about requests that never became orders. -/
def terminalId : AuditEvent → Option String
  | .result .orderGuard _ => none
  | .result (.submitResponse .closeOrder) _ => none
  | .result (.queryResponse .closeOrder) _ => none
  | .result (.timeout .closeOrder) _ => none
  | .result _ r =>
      if r.status = .pending ∨ r.action = some .closeAction then none else some r.orderId
  | _ => none

/-- The order whose outcome is announced; CLOSE orders carry no direction. -/
def notifiedId : AuditEvent → Option String
  | .notified (some _) r _ => some r.orderId
  | _ => none

def outcomes (events : List AuditEvent) (id : String) : ℕ :=
  (events.filterMap ends).count id + (events.filterMap timesOut).count id

theorem outcomes_append (events events' : List AuditEvent) (id : String) :
    outcomes (events ++ events') id = outcomes events id + outcomes events' id := by
  simp only [outcomes, List.filterMap_append, List.count_append]
  omega

end Views

section Alive

variable {pendings : Dict String PendingOrder} {limits : List PendingOrder} {id : String}

def alive (pendings : Dict String PendingOrder) (limits : List PendingOrder) (id : String) : ℕ :=
  (if (pendings.get? id).any PendingOrder.isOpen then 1 else 0) + (orderIds limits).count id

theorem alive_erase (pendings : Dict String PendingOrder) (limits : List PendingOrder)
    (k id : String) : alive (pendings.erase k) limits id ≤ alive pendings limits id := by
  rw [alive, alive]
  by_cases hk : id = k
  · rw [hk, Dict.get?_erase_self, if_neg (by simp)]
    omega
  · rw [Dict.get?_erase_ne _ hk]

theorem alive_erase_self {pending : PendingOrder} (hget : pendings.get? id = some pending)
    (hopen : pending.isOpen = true) :
    alive (pendings.erase id) limits id + 1 ≤ alive pendings limits id := by
  rw [alive, alive, Dict.get?_erase_self, hget, if_neg (by simp), Option.any_some, if_pos hopen]
  omega

theorem alive_empty (pendings : Dict String PendingOrder) (limits : List PendingOrder)
    (id : String) : alive ∅ limits id ≤ alive pendings limits id := by
  rw [alive, alive, Dict.get?_empty, if_neg (by simp)]
  omega

theorem alive_set {k : String} {pending : PendingOrder} (changed : PendingOrder)
    (hget : pendings.get? k = some pending) (hopen : changed.isOpen = pending.isOpen) :
    alive (pendings.set k changed) limits id = alive pendings limits id := by
  rw [alive, alive]
  by_cases hk : id = k
  · rw [hk, Dict.get?_set_self, hget, Option.any_some, Option.any_some, hopen]
  · rw [Dict.get?_set_ne _ _ hk]

theorem alive_set_close {k : String} {order : PendingOrder} (hclose : order.isOpen = false) :
    alive (pendings.set k order) limits id ≤ alive pendings limits id := by
  rw [alive, alive]
  by_cases hk : id = k
  · rw [hk, Dict.get?_set_self, Option.any_some, if_neg (by simp [hclose])]
    omega
  · rw [Dict.get?_set_ne _ _ hk]

theorem alive_set_ne {k : String} {order : PendingOrder} (hk : id ≠ k) :
    alive (pendings.set k order) limits id = alive pendings limits id := by
  rw [alive, alive, Dict.get?_set_ne _ _ hk]

theorem alive_of_orderIds {limits' : List PendingOrder}
    (h : orderIds limits' = orderIds limits) :
    alive pendings limits' id = alive pendings limits id := by
  rw [alive, alive, h]

/-- Removing a resting order takes one from its count and none from any other. -/
theorem alive_removed (pendings : Dict String PendingOrder) (order : PendingOrder)
    (h : order.pendingOrderId ∈ orderIds limits) :
    alive pendings ((replaceOrder order limits).erase order) order.pendingOrderId + 1 ≤
        alive pendings limits order.pendingOrderId ∧
      ∀ id, alive pendings ((replaceOrder order limits).erase order) id ≤
        alive pendings limits id := by
  have hperm := (List.perm_cons_erase (mem_replaceOrder_self h)).map PendingOrder.pendingOrderId
  have hcount : ∀ id, (orderIds limits).count id =
      (orderIds (order :: (replaceOrder order limits).erase order)).count id := by
    intro id
    rw [← orderIds_replaceOrder order limits]
    exact hperm.count_eq id
  constructor
  · rw [alive, alive, hcount, orderIds_cons, List.count_cons_self]
    omega
  · intro id
    have hle : (orderIds ((replaceOrder order limits).erase order)).count id ≤
        (orderIds (order :: (replaceOrder order limits).erase order)).count id :=
      (List.sublist_cons_self _ _).count_le id
    rw [alive, alive, hcount]
    omega

theorem replaceOrder_self {orders : List PendingOrder} {order : PendingOrder}
    (hfind : findOrder orders order.pendingOrderId = some order) :
    replaceOrder order orders = orders := by
  induction orders with
  | nil => rfl
  | cons p ps ih =>
      rw [replaceOrder]
      rw [findOrder, List.find?_cons] at hfind
      by_cases hid : p.pendingOrderId = order.pendingOrderId
      · rw [decide_eq_true hid] at hfind
        rw [if_pos hid, Option.some.inj hfind]
      · rw [decide_eq_false hid] at hfind
        rw [if_neg hid, ih hfind]

theorem alive_erased (pendings : Dict String PendingOrder) {order : PendingOrder}
    (hfind : findOrder limits order.pendingOrderId = some order) :
    alive pendings (limits.erase order) order.pendingOrderId + 1 ≤
        alive pendings limits order.pendingOrderId ∧
      ∀ id, alive pendings (limits.erase order) id ≤ alive pendings limits id := by
  have hremoved := alive_removed pendings order (mem_orderIds_of_findOrder hfind)
  rw [replaceOrder_self hfind] at hremoved
  exact hremoved

end Alive

variable {Raw : Type} {cfg : LiveConfig Raw} {s s' : LiveTradeExecutor Raw}
  {events : List AuditEvent}

abbrev aliveIn (s : LiveTradeExecutor Raw) (id : String) : ℕ :=
  alive s.pendingOrders s.activeLimitOrders id

abbrev IssuedIn (s : LiveTradeExecutor Raw) (id : String) : Prop :=
  Issued s.ledger.portfolio.positionCounter id

def isExpire : LiveOp Raw → Bool
  | .expire => true
  | _ => false

/-- The OPEN order whose timeout is handled is pending under a reference that is indexed. -/
def TimeoutKnown (s : LiveTradeExecutor Raw) (op : LiveOp Raw) : Prop :=
  isExpire op = true → ∀ pending ∈ s.expiring.head?, pending.isOpen = true →
    (s.pendingOrders.get? pending.pendingOrderId).any PendingOrder.isOpen = true ∧
      pending.brokerRef.bind s.brokerRefIndex.get? = some pending.pendingOrderId

instance (s : LiveTradeExecutor Raw) (op : LiveOp Raw) : Decidable (TimeoutKnown s op) :=
  inferInstanceAs (Decidable (_ → _))

/-- What a step that adds these events does to the orders: those of old that it ends are
alive no more, and new ones are alive at most once. -/
structure Outcomes (s : LiveTradeExecutor Raw) (op : LiveOp Raw) (s' : LiveTradeExecutor Raw)
    (events : List AuditEvent) : Prop where
  ended : ∀ id, IssuedIn s id →
    (events.filterMap ends).count id + aliveIn s' id ≤ aliveIn s id
  timed : TimeoutKnown s op → ∀ id, IssuedIn s id →
    outcomes events id + aliveIn s' id ≤ aliveIn s id
  fresh : ∀ id, ¬ IssuedIn s id → outcomes events id = 0 ∧ aliveIn s' id ≤ 1
  reported : ∀ id, IssuedIn s id → id ∉ orderIds s.activeLimitOrders →
    (events.filterMap terminalId).count id ≤ outcomes events id ∧
      (events.filterMap notifiedId).count id ≤ outcomes events id
  unissued : ∀ id, ¬ IssuedIn s' id →
    id ∉ events.filterMap terminalId ∧ id ∉ events.filterMap notifiedId
  registered : ∀ p, .orderReceived p ∈ events → p.isOpen = true →
    ¬ IssuedIn s p.pendingOrderId ∧ IssuedIn s' p.pendingOrderId ∧
      p.pendingOrderId ∉ orderIds s'.activeLimitOrders ∧
      p.pendingOrderId ∉ events.filterMap terminalId ∧
      p.pendingOrderId ∉ events.filterMap notifiedId
  resting : ∀ id, IssuedIn s id → id ∈ orderIds s'.activeLimitOrders →
    id ∈ orderIds s.activeLimitOrders

section Shapes

/-- An event that ends no order and says nothing about a MARKET order. -/
structure Aside (limits : List PendingOrder) (event : AuditEvent) : Prop where
  ends : ends event = none
  times : timesOut event = none
  about : ∀ id, terminalId event = some id ∨ notifiedId event = some id → id ∈ orderIds limits
  received : ∀ p, event = .orderReceived p → p.isOpen = false

theorem aside_of_isCloseRecord {limits : List PendingOrder} {event : AuditEvent}
    (h : isCloseRecord event = true) : Aside limits event := by
  cases event with
  | result source r =>
      cases source <;> simp_all [isCloseRecord]
      refine ⟨?_, rfl, fun id hid => ?_, fun p hp => by cases hp⟩
      · simp [ends, h]
      · simp [terminalId, notifiedId, h] at hid
  | _ =>
      simp_all [isCloseRecord] <;>
        exact ⟨rfl, rfl, fun id hid => by simp [terminalId, notifiedId] at hid,
          fun p hp => by cases hp⟩

theorem aside_outcomes {limits : List PendingOrder} (h : ∀ event ∈ events, Aside limits event)
    (id : String) : outcomes events id = 0 := by
  have hends : events.filterMap ends = [] :=
    List.filterMap_eq_nil_iff.mpr fun event hevent => (h event hevent).ends
  have htimes : events.filterMap timesOut = [] :=
    List.filterMap_eq_nil_iff.mpr fun event hevent => (h event hevent).times
  rw [outcomes, hends, htimes]
  rfl

theorem aside_about {limits : List PendingOrder} {id : String}
    (h : ∀ event ∈ events, Aside limits event) (hid : id ∉ orderIds limits) :
    id ∉ events.filterMap terminalId ∧ id ∉ events.filterMap notifiedId := by
  constructor <;> intro hmem <;> obtain ⟨event, hevent, habout⟩ := List.mem_filterMap.mp hmem
  · exact hid ((h event hevent).about id (.inl habout))
  · exact hid ((h event hevent).about id (.inr habout))

theorem alive_unissued {id : String} (hsound : LiveSound s) (hid : ¬ IssuedIn s id) :
    aliveIn s id = 0 := by
  have hpending : s.pendingOrders.get? id = none := by
    by_contra hsome
    exact hid (hsound.issued id (.pending hsome))
  have hcount : (orderIds s.activeLimitOrders).count id = 0 :=
    List.count_eq_zero_of_not_mem fun hmem => hid (hsound.issued id (.resting hmem))
  rw [aliveIn, alive, hpending, hcount]
  rfl

theorem outcomes_aside {op : LiveOp Raw} (hsound : LiveSound s)
    (hext : Extends s.ledger s'.ledger events)
    (haside : ∀ event ∈ events, Aside s.activeLimitOrders event)
    (halive : ∀ id, aliveIn s' id ≤ aliveIn s id)
    (hresting : ∀ id, id ∈ orderIds s'.activeLimitOrders → id ∈ orderIds s.activeLimitOrders) :
    Outcomes s op s' events where
  ended id _ := by
    have hzero := aside_outcomes haside id
    have hle := halive id
    rw [outcomes] at hzero
    omega
  timed _ id _ := by
    rw [aside_outcomes haside, Nat.zero_add]
    exact halive id
  fresh id hid := by
    have hzero := alive_unissued hsound hid
    have hle := halive id
    exact ⟨aside_outcomes haside id, by omega⟩
  reported id _ hid := by
    obtain ⟨hterminal, hnotified⟩ := aside_about haside hid
    rw [List.count_eq_zero_of_not_mem hterminal, List.count_eq_zero_of_not_mem hnotified]
    exact ⟨Nat.zero_le _, Nat.zero_le _⟩
  unissued id hid :=
    aside_about haside fun hmem =>
      hid ((hsound.issued id (.resting hmem)).mono hext.counter)
  registered p hp hopen := by
    rw [(haside _ hp).received p rfl] at hopen
    cases hopen
  resting id _ hid := hresting id hid

/-- Events that end one order, and are about nothing else. -/
structure EndsOne (id : String) (events : List AuditEvent) : Prop where
  ends : events.filterMap ends = [id]
  times : events.filterMap timesOut = []
  terminal : List.Sublist (events.filterMap terminalId) [id]
  notified : List.Sublist (events.filterMap notifiedId) [id]
  received : ∀ p, .orderReceived p ∉ events

theorem notified_sublist (direction : Option OrderDirection) (result : OrderResult)
    (pendingId : Option String) :
    List.Sublist ([AuditEvent.notified direction result pendingId].filterMap notifiedId)
      [result.orderId] := by
  cases direction with
  | none => exact List.nil_sublist _
  | some direction => exact List.Sublist.refl _

theorem endsOne_fill {result : OrderResult} (direction : Option OrderDirection)
    (pendingId : Option String) (haction : result.action ≠ some .closeAction)
    (hstatus : result.status ≠ .pending) :
    EndsOne result.orderId [.result .fill result, .notified direction result pendingId] where
  ends := by simp [LiveOutcomes.ends, haction]
  times := rfl
  terminal := by simp [terminalId, haction, hstatus]
  notified := notified_sublist direction result pendingId
  received p hp := by simp at hp

theorem endsOne_rejection {source : ResultSource} (result : OrderResult)
    (direction : Option OrderDirection) (pendingId : Option String)
    (hsource : source = .submitResponse .openOrder ∨ source = .queryResponse .openOrder)
    (hstatus : result.status = .rejected) (haction : result.action = none) :
    EndsOne result.orderId [.result source result, .notified direction result pendingId] where
  ends := by rcases hsource with rfl | rfl <;> rfl
  times := by rcases hsource with rfl | rfl <;> rfl
  terminal := by rcases hsource with rfl | rfl <;> simp [terminalId, hstatus, haction]
  notified := notified_sublist direction result pendingId
  received p hp := by simp at hp

theorem aside_closeRejection {limits : List PendingOrder} {source : ResultSource}
    {result : OrderResult} {pendingId : Option String}
    (hsource : source = .submitResponse .closeOrder ∨ source = .queryResponse .closeOrder ∨
      source = .timeout .closeOrder) :
    ∀ event ∈ [AuditEvent.result source result, .notified none result pendingId],
      Aside limits event := by
  intro event hevent
  rcases List.mem_cons.mp hevent with rfl | hevent
  · rcases hsource with rfl | rfl | rfl <;>
      exact ⟨rfl, rfl, fun id hid => by simp [terminalId, notifiedId] at hid,
        fun p hp => by cases hp⟩
  · cases List.mem_singleton.mp hevent
    exact ⟨rfl, rfl, fun id hid => by simp [terminalId, notifiedId] at hid,
      fun p hp => by cases hp⟩

theorem aside_outcome {limits : List PendingOrder} (pending : PendingOrder)
    (outcome : PendingOrderOutcome) : Aside limits (.outcome pending outcome) :=
  ⟨rfl, rfl, fun id hid => by simp [terminalId, notifiedId] at hid, fun p hp => by cases hp⟩

theorem EndsOne.outcome {id : String} (h : EndsOne id events) (pending : PendingOrder)
    (outcome : PendingOrderOutcome) : EndsOne id (.outcome pending outcome :: events) where
  ends := h.ends
  times := h.times
  terminal := h.terminal
  notified := h.notified
  received p hp := by
    rcases List.mem_cons.mp hp with hp | hp
    · cases hp
    · exact h.received p hp

theorem outcomes_ended {op : LiveOp Raw} {id : String} (hsound : LiveSound s)
    (hissued : IssuedIn s id) (hext : Extends s.ledger s'.ledger events)
    (hone : EndsOne id events) (hself : aliveIn s' id + 1 ≤ aliveIn s id)
    (halive : ∀ k, aliveIn s' k ≤ aliveIn s k)
    (hresting : ∀ k, k ∈ orderIds s'.activeLimitOrders → k ∈ orderIds s.activeLimitOrders) :
    Outcomes s op s' events := by
  obtain ⟨hends, htimes, hterminal, hnotified, hreceived⟩ := hone
  have hcount : ∀ k, outcomes events k = [id].count k := by
    intro k
    rw [outcomes, hends, htimes]
    rfl
  have htotal : ∀ k, [id].count k + aliveIn s' k ≤ aliveIn s k := by
    intro k
    by_cases hk : k = id
    · rw [hk, List.count_singleton_self]
      omega
    · rw [List.count_singleton, if_neg (by simpa using fun heq : id = k => hk heq.symm)]
      have hle := halive k
      omega
  have hunissued : ∀ k, ¬ IssuedIn s k → k ∉ [id] := fun k hk hmem => by
    rw [List.mem_singleton] at hmem
    exact hk (hmem ▸ hissued)
  refine ⟨fun k _ => ?_, fun _ k _ => ?_, fun k hk => ⟨?_, ?_⟩, fun k _ _ => ⟨?_, ?_⟩,
    fun k hk => ?_, fun p hp => absurd hp (hreceived p), fun k _ => hresting k⟩
  · rw [hends]
    exact htotal k
  · rw [hcount]
    exact htotal k
  · rw [hcount]
    exact List.count_eq_zero_of_not_mem (hunissued k hk)
  · have hzero := alive_unissued hsound hk
    have hle := halive k
    omega
  · rw [hcount]
    exact hterminal.count_le k
  · rw [hcount]
    exact hnotified.count_le k
  · have hk' := hunissued k fun hold => hk (hold.mono hext.counter)
    exact ⟨fun hmem => hk' (hterminal.subset hmem), fun hmem => hk' (hnotified.subset hmem)⟩

end Shapes

section Fills

/-- A step and what it does to the orders. -/
abbrev Accounts (s : LiveTradeExecutor Raw) (op : LiveOp Raw) (s' : LiveTradeExecutor Raw) : Prop :=
  ∃ events, Extends s.ledger s'.ledger events ∧ Outcomes s op s' events

theorem accounts_aside {op : LiveOp Raw} (events : List AuditEvent) (hsound : LiveSound s)
    (hext : Extends s.ledger s'.ledger events)
    (haside : ∀ event ∈ events, Aside s.activeLimitOrders event)
    (halive : ∀ id, aliveIn s' id ≤ aliveIn s id)
    (hlimits : orderIds s'.activeLimitOrders = orderIds s.activeLimitOrders) :
    Accounts s op s' :=
  ⟨events, hext, outcomes_aside hsound hext haside halive fun _ hid => hlimits ▸ hid⟩

theorem accounts_silent {op : LiveOp Raw} (hsound : LiveSound s)
    (hext : Extends s.ledger s'.ledger []) (hpendings : s'.pendingOrders = s.pendingOrders)
    (hlimits : orderIds s'.activeLimitOrders = orderIds s.activeLimitOrders) :
    Accounts s op s' := by
  refine accounts_aside [] hsound hext (fun event hevent => by cases hevent) (fun id => ?_) hlimits
  rw [aliveIn, aliveIn, hpendings, alive_of_orderIds hlimits]

theorem recordOutcome_extends (s : LiveTradeExecutor Raw) (pending : PendingOrder)
    (outcome : PendingOrderOutcome) :
    Extends s.ledger (recordOutcome s pending outcome).ledger [.outcome pending outcome] :=
  ⟨rfl, rfl, le_rfl, fun _ hk => .inl hk⟩

theorem takeByRef_ledger (s : LiveTradeExecutor Raw) (brokerRef : Option String) :
    (takeByRef s brokerRef).1.ledger = s.ledger := by
  rcases takeByRef_cases s brokerRef with htake | ⟨ref, orderId, -, -, htake⟩ <;> rw [htake]

theorem takeByRef_alive (s : LiveTradeExecutor Raw) (brokerRef : Option String) (id : String) :
    aliveIn (takeByRef s brokerRef).1 id ≤ aliveIn s id := by
  rcases takeByRef_cases s brokerRef with htake | ⟨ref, orderId, -, -, htake⟩
  · rw [htake]
  · rw [htake]
    exact alive_erase _ _ _ _

theorem takeByRef_alive_taken {brokerRef : Option String} {pending : PendingOrder}
    (hsound : LiveSound s) (htaken : (takeByRef s brokerRef).2 = some pending)
    (hopen : pending.isOpen = true) :
    aliveIn (takeByRef s brokerRef).1 pending.pendingOrderId + 1 ≤
      aliveIn s pending.pendingOrderId := by
  obtain ⟨hget, hpendings, -⟩ := takeByRef_taken hsound htaken
  rw [aliveIn, hpendings, (takeByRef_frame _ _).1]
  exact alive_erase_self hget hopen

theorem fillByAction_accounts {op : LiveOp Raw} {middle : LiveTradeExecutor Raw}
    {action : PendingOrderAction} {pending : PendingOrder} {fillPrice : Option ℚ}
    (noted : List AuditEvent) (hsound : LiveSound s)
    (hnoted : Extends s.ledger middle.ledger noted)
    (hasides : noted = [] ∨ ∃ outcome, noted = [.outcome pending outcome])
    (hissued : IssuedIn s pending.pendingOrderId)
    (hlimits : middle.activeLimitOrders = s.activeLimitOrders)
    (halive : ∀ id, aliveIn middle id ≤ aliveIn s id)
    (hopen : action = .openOrder →
      aliveIn middle pending.pendingOrderId + 1 ≤ aliveIn s pending.pendingOrderId)
    (hfill : fillByAction cfg middle action pending fillPrice = .ok s') : Accounts s op s' := by
  have hnotedAside : ∀ event ∈ noted, Aside s.activeLimitOrders event := by
    rcases hasides with rfl | ⟨outcome, rfl⟩
    · exact fun event hevent => by cases hevent
    · intro event hevent
      rw [List.mem_singleton.mp hevent]
      exact aside_outcome pending outcome
  cases action with
  | openOrder =>
      obtain ⟨ledger, hledger, hpure⟩ := bind_eq_ok.mp hfill
      cases hpure
      obtain ⟨result, hid, haction, hstatus, hext⟩ := fillOpenOrder_extends hledger
      have hone : EndsOne pending.pendingOrderId (noted ++ [.result .fill result,
          .notified pending.direction result (some pending.pendingOrderId)]) := by
        have hfilled := endsOne_fill pending.direction (some pending.pendingOrderId) haction
          hstatus
        rw [hid] at hfilled
        rcases hasides with rfl | ⟨outcome, rfl⟩
        · exact hfilled
        · exact hfilled.outcome pending outcome
      have htotal := hnoted.trans hext
      refine ⟨_, htotal, outcomes_ended hsound hissued htotal hone (hopen rfl) halive ?_⟩
      intro k hk
      rw [← hlimits]
      exact hk
  | closeOrder =>
      obtain ⟨ledger, hledger, hpure⟩ := bind_eq_ok.mp hfill
      cases hpure
      obtain ⟨closes, hcloses, hext, -⟩ := fillCloseOrder_extends hledger
      refine accounts_aside _ hsound (hnoted.trans hext) (fun event hevent => ?_) halive
        (congrArg orderIds hlimits)
      rcases List.mem_append.mp hevent with hevent | hevent
      · exact hnotedAside event hevent
      · exact aside_of_isCloseRecord (hcloses event hevent)

theorem fillLimit_accounts {op : LiveOp Raw} {order : PendingOrder} {fillPrice : Option ℚ}
    {entryType : EntryType} {fillType : FillType} (hsound : LiveSound s)
    (hmem : order.pendingOrderId ∈ orderIds s.activeLimitOrders)
    (hfill : fillOpen cfg (removeLimitOrder (setLimitOrder s order) order) order fillPrice entryType
      fillType = .ok s') : Accounts s op s' := by
  obtain ⟨ledger, hledger, hpure⟩ := bind_eq_ok.mp hfill
  cases hpure
  obtain ⟨result, hid, haction, hstatus, hext⟩ := fillOpenOrder_extends hledger
  have hone := endsOne_fill order.direction (some order.pendingOrderId) haction hstatus
  rw [hid] at hone
  obtain ⟨hself, halive⟩ := alive_removed s.pendingOrders order hmem
  refine ⟨_, hext, outcomes_ended hsound (hsound.issued _ (.resting hmem)) hext hone hself halive ?_⟩
  intro k hk
  obtain ⟨x, hx, rfl⟩ := List.mem_map.mp hk
  exact List.mem_map_of_mem (mem_erase_replaceOrder hsound.nodup hmem hx).1

end Fills

section Steps

theorem recordRejection_accounts {op : LiveOp Raw} {middle : LiveTradeExecutor Raw}
    {source : ResultSource} (pending : PendingOrder) {message : RejectionMessage}
    {pendingId : Option String} (noted : List AuditEvent) (hsound : LiveSound s)
    (hnoted : Extends s.ledger middle.ledger noted)
    (hasides : noted = [] ∨ ∃ outcome, noted = [.outcome pending outcome])
    (hsource : source = .submitResponse pending.orderAction ∨
      source = .queryResponse pending.orderAction)
    (hissued : IssuedIn s pending.pendingOrderId)
    (hclose : pending.isOpen = false → pending.direction = none)
    (hresting : ∀ id, id ∈ orderIds middle.activeLimitOrders →
      id ∈ orderIds s.activeLimitOrders)
    (halive : ∀ id, aliveIn middle id ≤ aliveIn s id)
    (hopen : pending.isOpen = true →
      aliveIn middle pending.pendingOrderId + 1 ≤ aliveIn s pending.pendingOrderId) :
    Accounts s op (recordRejection cfg middle source pending.direction
      (createRejectionResult pending.pendingOrderId .brokerError message) pendingId) := by
  have hcounted : isCounted (.result source
      (createRejectionResult pending.pendingOrderId .brokerError message)) = true := by
    rcases hsource with rfl | rfl <;> rfl
  have hrejected : Extends middle.ledger (recordRejection cfg middle source pending.direction
      (createRejectionResult pending.pendingOrderId .brokerError message) pendingId).ledger _ :=
    recordRejection_extends hcounted pending.direction pendingId
  have hext := hnoted.trans hrejected
  refine ⟨_, hext, ?_⟩
  cases haction : pending.orderAction with
  | openOrder =>
      have hisOpen : pending.isOpen = true := by simp [PendingOrder.isOpen, haction]
      rw [haction] at hsource
      have hone := endsOne_rejection
        (createRejectionResult pending.pendingOrderId .brokerError message) pending.direction
        pendingId hsource rfl rfl
      refine outcomes_ended hsound hissued hext ?_ (hopen hisOpen) halive hresting
      rcases hasides with rfl | ⟨outcome, rfl⟩
      · exact hone
      · exact hone.outcome pending outcome
  | closeOrder =>
      have hdirection := hclose (by simp [PendingOrder.isOpen, haction])
      refine outcomes_aside hsound hext (fun event hevent => ?_) halive hresting
      rw [hdirection] at hevent
      rcases List.mem_append.mp hevent with hevent | hevent
      · rcases hasides with rfl | ⟨outcome, rfl⟩
        · cases hevent
        · rw [List.mem_singleton.mp hevent]
          exact aside_outcome pending outcome
      · refine aside_closeRejection ?_ event hevent
        rw [haction] at hsource
        rcases hsource with hsource | hsource
        · exact .inl hsource
        · exact .inr (.inl hsource)

/-- A reference that is swapped leaves the pending orders what they are. -/
theorem swapBrokerRef_frame (s : LiveTradeExecutor Raw) (pending : PendingOrder)
    (newRef : String) :
    (swapBrokerRef s pending newRef).1.ledger = s.ledger ∧
      (swapBrokerRef s pending newRef).1.activeLimitOrders = s.activeLimitOrders ∧
      ∀ id, alive (swapBrokerRef s pending newRef).1.pendingOrders s.activeLimitOrders id ≤
        aliveIn s id := by
  rw [swapBrokerRef]
  split
  · cases pending.brokerRef with
    | none => exact ⟨rfl, rfl, fun _ => le_rfl⟩
    | some old =>
        simp only [updateBrokerRef]
        cases hindex : s.brokerRefIndex.get? old with
        | none => exact ⟨rfl, rfl, fun _ => le_rfl⟩
        | some orderId =>
            refine ⟨rfl, rfl, fun id => ?_⟩
            simp only
            cases hget : s.pendingOrders.get? orderId with
            | none => exact le_rfl
            | some stored =>
                exact (alive_set { stored with brokerRef := some newRef } hget rfl).le
  · exact ⟨rfl, rfl, fun _ => le_rfl⟩

def RestingOpen (s : LiveTradeExecutor Raw) : Prop :=
  ∀ order ∈ s.activeLimitOrders, order.isOpen = true

theorem handled_accounts {op : LiveOp Raw} {response : Response Raw}
    (hpopped : Sound s.pendingOrders s.brokerRefIndex s.activeLimitOrders
      (responseTag response :: inFlight s) s.ledger.portfolio)
    (hresting : RestingOpen s) (h : Handled cfg s response s') : Accounts s op s' := by
  have hsound : LiveSound s := sound_of_popped hpopped
  cases h with
  | unknown _ => exact accounts_silent hsound (.refl _) rfl rfl
  | untouched _ => exact accounts_silent hsound (.refl _) rfl rfl
  | positionModified modifications portfolio hportfolio =>
      refine accounts_silent hsound ?_ rfl rfl
      rcases hportfolio with rfl | ⟨stopLoss, takeProfit, rfl⟩
      · exact .refl _
      · exact modifyPosition_extends _ _ _ _
  | @marketRejected orderId action orderType response pending htype hget =>
      have hid := hsound.keyed _ _ hget
      subst hid
      have halive : ∀ id, aliveIn (discardPending s pending) id ≤ aliveIn s id :=
        alive_erase _ _ _
      refine recordRejection_accounts pending [] hsound (.refl _) (.inl rfl) (.inl rfl)
        (pending_known hsound hget).2 (hsound.closes _ _ hget) (fun _ hk => hk) halive fun hopen => ?_
      exact alive_erase_self hget hopen
  | @marketConfirmed orderId action orderType response pending htype hget =>
      refine accounts_aside [] hsound (.refl _) (fun event hevent => by cases hevent)
        (fun id => ?_) rfl
      have hsame : aliveIn (confirmPending s orderId pending response.brokerRef) id =
          aliveIn s id := alive_set _ hget rfl
      exact hsame.le
  | @marketFilled orderId action orderType response pending s' htype hget hne hfill =>
      have hid := hsound.keyed _ _ hget
      have hindex : (confirmPending s orderId pending response.brokerRef).brokerRefIndex.get?
          response.brokerRef = some orderId := by
        simp [confirmPending, hne]
      have hmark : (markFilled (confirmPending s orderId pending response.brokerRef)
          (some response.brokerRef)).1.ledger = s.ledger := takeByRef_ledger _ _
      have hconfirmed : ∀ k, aliveIn (confirmPending s orderId pending response.brokerRef) k =
          aliveIn s k := fun k => alive_set _ hget rfl
      have hnoted : Extends s.ledger (markFilled (confirmPending s orderId pending
          response.brokerRef) (some response.brokerRef)).1.ledger [] := by
        rw [hmark]
        exact .refl _
      refine fillByAction_accounts [] hsound hnoted (.inl rfl) ?_ ?_ ?_ ?_ hfill
      · show IssuedIn s pending.pendingOrderId
        rw [hid]
        exact (pending_known hsound hget).2
      · exact (takeByRef_frame _ _).1
      · exact fun k => (takeByRef_alive _ _ k).trans (hconfirmed k).le
      · intro haction
        have hopen : pending.isOpen = true := by
          refine (hpopped.submitted orderId ?_).2.1 pending hget
          rw [responseTag, haction]
          cases orderType <;> first | exact List.mem_cons_self | exact absurd rfl htype
        show aliveIn (takeByRef _ _).1 pending.pendingOrderId + 1 ≤ _
        rw [takeByRef_of_get? hindex, hid, ← hconfirmed orderId]
        exact alive_erase_self (Dict.get?_set_self _ _ _) hopen
  | @limitRejected orderId action response pending hfind =>
      have hid := findOrder_id hfind
      subst hid
      obtain ⟨hself, halive⟩ := alive_erased s.pendingOrders hfind
      refine recordRejection_accounts pending [] hsound (.refl _) (.inl rfl) (.inl rfl)
        (hsound.issued _ (.resting (mem_orderIds_of_findOrder hfind))) (fun hclosed => ?_) ?_ halive
        fun _ => hself
      · rw [hresting pending (mem_of_findOrder hfind)] at hclosed
        cases hclosed
      · exact fun id hid => (orderIds_erase_sublist pending s.activeLimitOrders).subset hid
  | limitConfirmed hfind _ => exact accounts_silent hsound (.refl _) rfl (orderIds_replaceOrder _ _)
  | limitDeferred hfind =>
      refine accounts_silent hsound (.refl _) rfl ?_
      exact (orderIds_replaceOrder _ _).trans (orderIds_replaceOrder _ _)
  | limitFilled order hid hmem hfill => exact fillLimit_accounts hsound hmem hfill
  | @modifyRejected orderId response pending hfind =>
      refine accounts_aside _ hsound (recordRejection_extends rfl _ _) (fun event hevent => ?_)
        (fun id => (alive_of_orderIds (orderIds_replaceOrder _ _)).le) (orderIds_replaceOrder _ _)
      have hin : orderId ∈ orderIds s.activeLimitOrders := mem_orderIds_of_findOrder hfind
      rcases List.mem_cons.mp hevent with rfl | hevent
      · refine ⟨rfl, rfl, fun id hid => ?_, fun p hp => by cases hp⟩
        simp only [terminalId, notifiedId, createRejectionResult] at hid
        simp at hid
        exact hid ▸ hin
      · cases List.mem_singleton.mp hevent
        refine ⟨rfl, rfl, fun id hid => ?_, fun p hp => by cases hp⟩
        rcases hid with hid | hid
        · cases hid
        · cases hdirection : pending.direction with
          | none =>
              rw [hdirection] at hid
              cases hid
          | some direction =>
              rw [hdirection] at hid
              exact (Option.some.inj hid) ▸ hin
  | @modified orderId response pending hfind =>
      obtain ⟨hledger, hlimits, halive⟩ := swapBrokerRef_frame s
        (applyModification pending pending.pendingModification) response.brokerRef
      have hids : orderIds (setLimitOrder (swapBrokerRef s (applyModification pending
          pending.pendingModification) response.brokerRef).1 (clearModification (swapBrokerRef s
          (applyModification pending pending.pendingModification)
          response.brokerRef).2)).activeLimitOrders = orderIds s.activeLimitOrders := by
        rw [setLimitOrder, orderIds_replaceOrder, hlimits]
      refine accounts_aside [] hsound ?_ (fun event hevent => by cases hevent)
        (fun id => ?_) hids
      · show Extends s.ledger (swapBrokerRef _ _ _).1.ledger []
        rw [hledger]
        exact .refl _
      · rw [aliveIn, alive_of_orderIds hids]
        exact halive id
  | cancelRefused hfind =>
      refine accounts_aside [.cancelRefused _] hsound ⟨rfl, rfl, le_rfl, fun _ hk => .inl hk⟩
        (fun event hevent => ?_) (fun id => (alive_of_orderIds (orderIds_replaceOrder _ _)).le)
        (orderIds_replaceOrder _ _)
      cases List.mem_singleton.mp hevent
      exact ⟨rfl, rfl, fun id hid => by simp [terminalId, notifiedId] at hid, fun p hp => by cases hp⟩
  | @cancelled orderId response pending hfind =>
      have hid := findOrder_id hfind
      subst hid
      obtain ⟨hself, halive⟩ := alive_erased s.pendingOrders hfind
      have hext : Extends s.ledger (s.ledger.record
          (.orderCancelled pending.pendingOrderId pending.direction))
          [.orderCancelled pending.pendingOrderId pending.direction] :=
        ⟨rfl, rfl, le_rfl, fun _ hk => .inl hk⟩
      refine ⟨_, hext, outcomes_ended hsound
        (hsound.issued _ (.resting (mem_orderIds_of_findOrder hfind))) hext ?_ hself halive ?_⟩
      · exact ⟨rfl, rfl, List.nil_sublist _, List.nil_sublist _, fun p hp => by simp at hp⟩
      · exact fun id hid => (orderIds_erase_sublist pending s.activeLimitOrders).subset hid
  | tradesAppended hfind => exact accounts_silent hsound (.refl _) rfl (orderIds_replaceOrder _ _)
  | queryCleared hfind => exact accounts_silent hsound (.refl _) rfl (orderIds_replaceOrder _ _)
  | @queryEnded orderId response pending hfind =>
      have hid := findOrder_id hfind
      have hin := mem_orderIds_of_findOrder hfind
      rw [← hid] at hin ⊢
      obtain ⟨hself, halive⟩ := alive_removed s.pendingOrders (clearQuery pending) hin
      refine recordRejection_accounts (clearQuery pending) [] hsound (.refl _) (.inl rfl)
        (.inr rfl) (hsound.issued _ (.resting hin)) (fun hclosed => ?_) ?_ halive fun _ => hself
      · have hopen := hresting pending (mem_of_findOrder hfind)
        rw [show (clearQuery pending).isOpen = pending.isOpen from rfl, hopen] at hclosed
        cases hclosed
      · intro k hk
        obtain ⟨x, hx, rfl⟩ := List.mem_map.mp hk
        have hin' : (clearQuery pending).pendingOrderId ∈ orderIds s.activeLimitOrders := hin
        have hx' : x ∈ (replaceOrder (clearQuery pending) s.activeLimitOrders).erase
            (clearQuery pending) := hx
        exact List.mem_map_of_mem (mem_erase_replaceOrder hsound.nodup hin' hx').1

theorem polled_accounts {op : LiveOp Raw} {ref : String} {response : BrokerResponse Raw}
    (hsound : LiveSound s) (h : Polled cfg s ref response s') : Accounts s op s' := by
  have hlimits := (takeByRef_frame s (some ref)).1
  have halive := takeByRef_alive s (some ref)
  have hnoted : ∀ pending outcome, Extends s.ledger
      (recordOutcome (takeByRef s (some ref)).1 pending outcome).ledger
      [.outcome pending outcome] := by
    intro pending outcome
    rw [← takeByRef_ledger s (some ref)]
    exact recordOutcome_extends _ pending outcome
  cases h with
  | idle _ _ => exact accounts_silent hsound (.refl _) rfl rfl
  | unmatched _ =>
      refine accounts_aside [] hsound ?_ (fun event hevent => by cases hevent) halive
        (congrArg orderIds hlimits)
      rw [takeByRef_ledger]
      exact .refl _
  | @filled filled s' hstatus htaken hfill =>
      obtain ⟨hget, -, -⟩ := takeByRef_taken hsound htaken
      refine fillByAction_accounts _ hsound (hnoted filled .filled) (.inr ⟨_, rfl⟩)
        (pending_known hsound hget).2 hlimits halive (fun haction => ?_) hfill
      exact takeByRef_alive_taken hsound htaken (by simp [PendingOrder.isOpen, haction])
  | @rejected rejected hstatus htaken =>
      obtain ⟨hget, -, -⟩ := takeByRef_taken hsound htaken
      refine recordRejection_accounts rejected _ hsound (hnoted rejected .rejected) (.inr ⟨_, rfl⟩)
        (.inr rfl) (pending_known hsound hget).2 (hsound.closes _ _ hget) (fun id hid => ?_) halive
        fun hopen => takeByRef_alive_taken hsound htaken hopen
      rw [← hlimits]
      exact hid

/-- What a timed-out order was when the loop over the timed-out orders began. -/
def ExpiringIssued (s : LiveTradeExecutor Raw) : Prop :=
  ∀ pending ∈ s.expiring, IssuedIn s pending.pendingOrderId ∧
    (pending.isOpen = false → pending.direction = none)

theorem handleTimeout_extends (s : LiveTradeExecutor Raw) (pending : PendingOrder) :
    Extends s.ledger (handleTimeout cfg s pending).ledger
      [.outcome pending .timedOut,
        .result (.timeout pending.orderAction) (createRejectionResult pending.pendingOrderId
          .brokerError (.orderTimedOut cfg.orderTimeoutSeconds)),
        .notified pending.direction (createRejectionResult pending.pendingOrderId
          .brokerError (.orderTimedOut cfg.orderTimeoutSeconds))
          (some pending.pendingOrderId)] := by
  have hnoted := recordOutcome_extends s pending .timedOut
  have hledger := takeByRef_ledger (recordOutcome s pending .timedOut) pending.brokerRef
  rw [← hledger] at hnoted
  exact hnoted.trans (recordRejection_extends rfl _ _)

theorem takeByRef_timeout {pending : PendingOrder}
    (hopen : (s.pendingOrders.get? pending.pendingOrderId).any PendingOrder.isOpen = true)
    (hindex : pending.brokerRef.bind s.brokerRefIndex.get? = some pending.pendingOrderId) :
    aliveIn (takeByRef s pending.brokerRef).1 pending.pendingOrderId + 1 ≤
      aliveIn s pending.pendingOrderId := by
  obtain ⟨ref, href, hget⟩ := Option.bind_eq_some_iff.mp hindex
  rw [href, takeByRef_of_get? hget]
  cases hstored : s.pendingOrders.get? pending.pendingOrderId with
  | none =>
      rw [hstored] at hopen
      cases hopen
  | some stored =>
      rw [hstored] at hopen
      exact alive_erase_self hstored hopen

theorem expired_accounts {pending : PendingOrder} {rest : List PendingOrder}
    (hsound : LiveSound s) (hissued : ExpiringIssued s) (hexpiring : s.expiring = pending :: rest) :
    Accounts s .expire (handleTimeout cfg { s with expiring := rest } pending) := by
  obtain ⟨hid, hdirection⟩ := hissued pending (hexpiring ▸ List.mem_cons_self)
  have hext : Extends s.ledger
      (handleTimeout cfg { s with expiring := rest } pending).ledger _ :=
    handleTimeout_extends { s with expiring := rest } pending
  have halive : ∀ k, aliveIn (handleTimeout cfg { s with expiring := rest } pending) k ≤
      aliveIn s k :=
    takeByRef_alive (recordOutcome { s with expiring := rest } pending .timedOut) pending.brokerRef
  have hlimits : (handleTimeout cfg { s with expiring := rest } pending).activeLimitOrders =
      s.activeLimitOrders :=
    (takeByRef_frame (recordOutcome { s with expiring := rest } pending .timedOut) _).1
  refine ⟨_, hext, ?_⟩
  cases haction : pending.orderAction with
  | closeOrder =>
      rw [hdirection (by simp [PendingOrder.isOpen, haction])]
      refine outcomes_aside hsound ?_ (fun event hevent => ?_) halive fun id hid => ?_
      · rw [haction, hdirection (by simp [PendingOrder.isOpen, haction])] at hext
        exact hext
      · rcases List.mem_cons.mp hevent with rfl | hevent
        · exact aside_outcome pending .timedOut
        · exact aside_closeRejection (.inr (.inr rfl)) event hevent
      · rw [← hlimits]
        exact hid
  | openOrder =>
      have hunissued : ∀ k, ¬ IssuedIn s k → pending.pendingOrderId ≠ k :=
        fun k hk heq => hk (heq ▸ hid)
      have hnotified := notified_sublist pending.direction (createRejectionResult
        pending.pendingOrderId .brokerError (.orderTimedOut cfg.orderTimeoutSeconds))
        (some pending.pendingOrderId)
      refine ⟨fun k _ => ?_, fun hknown k _ => ?_, fun k hk => ⟨?_, ?_⟩, fun k _ _ => ⟨?_, ?_⟩,
        fun k hk => ⟨?_, fun hmem => ?_⟩, fun p hp => by simp at hp, fun k _ hk => hlimits ▸ hk⟩
      · exact (Nat.zero_add _).trans_le (halive k)
      · show 0 + [pending.pendingOrderId].count k + _ ≤ _
        obtain ⟨hopen, hindex⟩ := hknown rfl pending (by rw [hexpiring]; rfl)
          (by simp [PendingOrder.isOpen, haction])
        have hself : aliveIn (handleTimeout cfg { s with expiring := rest } pending)
            pending.pendingOrderId + 1 ≤ aliveIn s pending.pendingOrderId :=
          takeByRef_timeout (s := recordOutcome { s with expiring := rest } pending .timedOut)
            hopen hindex
        by_cases hk : k = pending.pendingOrderId
        · rw [hk, List.count_singleton_self]
          omega
        · rw [List.count_singleton, if_neg (by simpa using fun heq => hk heq.symm)]
          have hle := halive k
          omega
      · show 0 + [pending.pendingOrderId].count k = 0
        rw [List.count_singleton, if_neg (by simpa using hunissued k hk)]
      · have hzero := alive_unissued hsound hk
        have hle := halive k
        omega
      · show [pending.pendingOrderId].count k ≤ 0 + [pending.pendingOrderId].count k
        omega
      · show _ ≤ 0 + [pending.pendingOrderId].count k
        rw [Nat.zero_add]
        exact hnotified.count_le k
      · show k ∉ [pending.pendingOrderId]
        rw [List.mem_singleton]
        exact fun heq => hunissued k (fun hold => hk (hold.mono hext.counter)) heq.symm
      · have hmem' : k ∈ [pending.pendingOrderId] := hnotified.subset hmem
        rw [List.mem_singleton] at hmem'
        exact hunissued k (fun hold => hk (hold.mono hext.counter)) hmem'.symm

end Steps

section Frames

/-- What an order is about; this never changes while it rests. -/
def contract (order : PendingOrder) :
    String × PendingOrderAction × String × Option OrderDirection × ℚ :=
  (order.pendingOrderId, order.orderAction, order.symbol, order.direction, order.lots)

/-- Each of these orders was among the others before, about the same contract. -/
def ComeFrom (limits' limits : List PendingOrder) : Prop :=
  ∀ order' ∈ limits', ∃ order ∈ limits, contract order' = contract order

theorem ComeFrom.refl (limits : List PendingOrder) : ComeFrom limits limits :=
  fun order horder => ⟨order, horder, rfl⟩

theorem comeFrom_of_eq {limits' limits : List PendingOrder} (h : limits' = limits) :
    ComeFrom limits' limits :=
  h ▸ .refl _

theorem ComeFrom.trans {limits limits' limits'' : List PendingOrder}
    (h : ComeFrom limits'' limits') (h' : ComeFrom limits' limits) : ComeFrom limits'' limits := by
  intro order horder
  obtain ⟨middle, hmiddle, heq⟩ := h order horder
  obtain ⟨first, hfirst, heq'⟩ := h' middle hmiddle
  exact ⟨first, hfirst, heq.trans heq'⟩

theorem comeFrom_erase (limits : List PendingOrder) (order : PendingOrder) :
    ComeFrom (limits.erase order) limits :=
  fun x hx => ⟨x, List.mem_of_mem_erase hx, rfl⟩

theorem comeFrom_replace {limits : List PendingOrder} {order pending : PendingOrder}
    (hmem : pending ∈ limits) (hcontract : contract order = contract pending) :
    ComeFrom (replaceOrder order limits) limits := by
  intro x hx
  rcases mem_replaceOrder_or hx with rfl | hin
  · exact ⟨pending, hmem, hcontract⟩
  · exact ⟨x, hin, rfl⟩

theorem handled_comeFrom {response : Response Raw} (hsound : LiveSound s)
    (h : Handled cfg s response s') : ComeFrom s'.activeLimitOrders s.activeLimitOrders := by
  cases h with
  | unknown _ => exact .refl _
  | untouched _ => exact .refl _
  | positionModified _ _ _ => exact .refl _
  | marketRejected _ _ => exact .refl _
  | marketConfirmed _ _ => exact .refl _
  | marketFilled htype hget hne hfill =>
      rw [(fillByAction_frame hfill).1]
      show ComeFrom (takeByRef _ _).1.activeLimitOrders _
      rw [(takeByRef_frame _ _).1]
      exact .refl _
  | limitRejected hfind => exact comeFrom_erase _ _
  | limitConfirmed hfind _ => exact comeFrom_replace (mem_of_findOrder hfind) rfl
  | @limitDeferred orderId action response pending hfind =>
      have hfirst : ComeFrom (replaceOrder { pending with brokerRef := some response.brokerRef }
          s.activeLimitOrders) s.activeLimitOrders :=
        comeFrom_replace (mem_of_findOrder hfind) rfl
      have hin : ({ pending with brokerRef := some response.brokerRef } : PendingOrder) ∈
          replaceOrder { pending with brokerRef := some response.brokerRef }
            s.activeLimitOrders := by
        refine mem_replaceOrder_self ?_
        show pending.pendingOrderId ∈ _
        rw [findOrder_id hfind]
        exact mem_orderIds_of_findOrder hfind
      refine ComeFrom.trans ?_ hfirst
      exact comeFrom_replace hin rfl
  | limitFilled order hid hmem hfill =>
      obtain ⟨ledger, -, hpure⟩ := bind_eq_ok.mp hfill
      cases hpure
      exact fun x hx => ⟨x, (mem_erase_replaceOrder hsound.nodup hmem hx).1, rfl⟩
  | modifyRejected hfind => exact comeFrom_replace (mem_of_findOrder hfind) rfl
  | @modified orderId response pending hfind =>
      have happlied : contract (applyModification pending pending.pendingModification) =
          contract pending := by
        cases pending.pendingModification <;> rfl
      rw [swapBrokerRef]
      split
      · show ComeFrom (replaceOrder _ (updateBrokerRef _ _ _).activeLimitOrders) _
        rw [(updateBrokerRef_frame _ _ _).1]
        exact comeFrom_replace (mem_of_findOrder hfind) happlied
      · exact comeFrom_replace (mem_of_findOrder hfind) happlied
  | cancelRefused hfind => exact comeFrom_replace (mem_of_findOrder hfind) rfl
  | cancelled hfind => exact comeFrom_erase _ _
  | tradesAppended hfind => exact comeFrom_replace (mem_of_findOrder hfind) rfl
  | queryCleared hfind => exact comeFrom_replace (mem_of_findOrder hfind) rfl
  | queryEnded hfind =>
      exact (comeFrom_erase _ _).trans (comeFrom_replace (mem_of_findOrder hfind) rfl)

theorem stepped_limits {op : LiveOp Raw} (hsound : LiveSound s) (h : Stepped cfg s op s') :
    ∀ order' ∈ s'.activeLimitOrders,
      (∃ order ∈ s.activeLimitOrders, contract order' = contract order) ∨
        ∃ request now, request.orderType = .limit ∧
          order' = pendingLimit (received s request) (nextId s request) request now := by
  have hframe : ComeFrom s'.activeLimitOrders s.activeLimitOrders →
      ∀ order' ∈ s'.activeLimitOrders,
        (∃ order ∈ s.activeLimitOrders, contract order' = contract order) ∨
          ∃ request now, request.orderType = .limit ∧
            order' = pendingLimit (received s request) (nextId s request) request now :=
    fun hcome order' horder' => .inl (hcome order' horder')
  cases h with
  | quiet hquiet => exact hframe (comeFrom_of_eq hquiet.limits)
  | guarded hquiet => exact hframe (comeFrom_of_eq hquiet.limits)
  | refused request => exact hframe (.refl _)
  | enqueued hother hquiet => exact hframe (comeFrom_of_eq hquiet.limits)
  | registered request htype => exact hframe (.refl _)
  | @rested op now request htype =>
      intro order' horder'
      rcases List.mem_append.mp horder' with hold | hnew
      · exact .inl ⟨order', hold, rfl⟩
      · exact .inr ⟨request, now, htype, List.mem_singleton.mp hnew⟩
  | closing hposition => exact hframe (.refl _)
  | startedModify mod hfind href hidle =>
      apply hframe
      exact comeFrom_replace (mem_of_findOrder hfind) rfl
  | startedCancel hfind href hidle =>
      apply hframe
      exact comeFrom_replace (mem_of_findOrder hfind) rfl
  | requestedCancel hfind href =>
      apply hframe
      exact comeFrom_replace (mem_of_findOrder hfind) rfl
  | scheduled =>
      refine hframe fun order' horder' => ?_
      obtain ⟨order, horder, rfl⟩ := List.mem_map.mp horder'
      refine ⟨order, horder, ?_⟩
      rw [schedulePoll]
      split <;> rfl
  | @drained response rest s' hinbox hhandled =>
      rw [LiveSound, inFlight, Pipeline.items_of_inbox hinbox] at hsound
      have hrest : LiveSound { s with requests := { s.requests with inbox := rest } } :=
        hsound.items_sublist (List.sublist_cons_self _ _)
      have hcome := handled_comeFrom hrest hhandled
      exact hframe hcome
  | polled hpolling href hquery hpolled => exact hframe (comeFrom_of_eq (polled_frame hpolled).1)
  | @expired pending rest hexpiring =>
      exact hframe (comeFrom_of_eq
        (takeByRef_frame (recordOutcome { s with expiring := rest } pending .timedOut) _).1)
  | ended hpendings hindex hlimits hitems hledger hevents => exact hframe (comeFrom_of_eq hlimits)

theorem stepped_restingOpen {op : LiveOp Raw} (hsound : LiveSound s) (hresting : RestingOpen s)
    (h : Stepped cfg s op s') : RestingOpen s' := by
  intro order' horder'
  rcases stepped_limits hsound h order' horder' with ⟨order, horder, hcontract⟩ |
      ⟨request, now, -, rfl⟩
  · have haction : order'.orderAction = order.orderAction := congrArg (·.2.1) hcontract
    rw [PendingOrder.isOpen, haction]
    exact hresting order horder
  · rfl

/-- What a loop still has to visit, of the timed-out orders and of the inbox. -/
def loops (s : LiveTradeExecutor Raw) : List PendingOrder × List (Response Raw) :=
  (s.expiring, s.requests.inbox)

abbrev SameLoop (s s' : LiveTradeExecutor Raw) : Prop := loops s' = loops s

def nextLoops (cfg : LiveConfig Raw) (s : LiveTradeExecutor Raw) :
    LiveOp Raw → List PendingOrder × List (Response Raw)
  | .beginExpire => (checkTimeouts s, s.requests.inbox)
  | .expire => (s.expiring.tail, s.requests.inbox)
  | .workerDeliver answer => (s.expiring, (s.requests.deliver (dispatch cfg.adapter answer)).inbox)
  | .drain => (s.expiring, s.requests.inbox.tail)
  | _ => loops s

theorem takeByRef_loop (s : LiveTradeExecutor Raw) (ref : Option String) :
    SameLoop s (takeByRef s ref).1 := by
  rcases takeByRef_cases s ref with heq | ⟨_, _, -, -, heq⟩
  · rw [heq]
  · rw [heq]
    rfl

theorem fillByAction_loop {action : PendingOrderAction} {pending : PendingOrder}
    {fillPrice : Option ℚ} (h : fillByAction cfg s action pending fillPrice = .ok s') :
    SameLoop s s' := by
  cases action <;> obtain ⟨ledger, -, hpure⟩ := bind_eq_ok.mp h <;> cases hpure <;> rfl

theorem handled_loop {response : Response Raw} (h : Handled cfg s response s') :
    SameLoop s s' := by
  cases h with
  | marketFilled htype hget hne hfill =>
      exact (fillByAction_loop hfill).trans (takeByRef_loop _ _)
  | limitFilled order hid hmem hfill =>
      obtain ⟨ledger, -, hpure⟩ := bind_eq_ok.mp hfill
      cases hpure
      rfl
  | modified hfind =>
      show loops (swapBrokerRef _ _ _).1 = _
      rw [swapBrokerRef]
      split
      · unfold updateBrokerRef
        split
        · rfl
        · split <;> rfl
      · rfl
  | _ => rfl

theorem polled_loop {ref : String} {response : BrokerResponse Raw}
    (h : Polled cfg s ref response s') : SameLoop s s' := by
  cases h with
  | idle _ _ => rfl
  | unmatched _ => exact takeByRef_loop _ _
  | filled _ _ hfill => exact (fillByAction_loop hfill).trans (takeByRef_loop s (some ref))
  | rejected _ _ => exact takeByRef_loop s (some ref)

theorem sameLoop_of_frame (h : CallFrame s s') : SameLoop s s' :=
  Prod.ext h.expiring h.inbox

theorem step_loops {op : LiveOp Raw} (hsound : LiveSound s) (h : step cfg s op = .ok s') :
    loops s' = nextLoops cfg s op := by
  cases op with
  | beginExpire =>
      cases h
      rfl
  | expire =>
      cases h
      rw [expire]
      cases hexpiring : s.expiring with
      | nil =>
          rw [nextLoops, hexpiring, loops, hexpiring]
          rfl
      | cons pending rest =>
          rw [nextLoops, hexpiring]
          exact takeByRef_loop (recordOutcome { s with expiring := rest } pending .timedOut)
            pending.brokerRef
  | drain =>
      rw [step, drain] at h
      cases hinbox : s.requests.inbox with
      | nil =>
          simp only [hinbox] at h
          cases h
          rw [nextLoops, loops, hinbox]
          rfl
      | cons response rest =>
          simp only [hinbox] at h
          have hempty : ({ s with requests := { s.requests with inbox := rest } } :
              LiveTradeExecutor Raw).brokerRefIndex.get? "" = none := hsound.emptyRef
          have hloop := handled_loop (handleResponse_handled hempty h)
          rw [nextLoops, hinbox]
          exact hloop
  | poll answer =>
      rcases poll_cases h with ⟨-, rfl⟩ | ⟨pending, rest, -, ⟨-, rfl⟩ | ⟨ref, response, -, -, hpolled⟩⟩
      · rfl
      · rfl
      · have hloop := polled_loop hpolled
        exact hloop
  | openOrder request =>
      obtain ⟨⟨s₁, result⟩, hopen, rfl⟩ := map_eq_ok.mp h
      exact sameLoop_of_frame (openOrder_callFrame hopen)
  | closePosition positionId lots =>
      obtain ⟨⟨s₁, result⟩, hclose, rfl⟩ := map_eq_ok.mp h
      exact sameLoop_of_frame (closePosition_callFrame hclose)
  | modifyPosition positionId stopLoss takeProfit =>
      obtain ⟨⟨s₁, result⟩, hmodify, rfl⟩ := map_eq_ok.mp h
      exact sameLoop_of_frame (modifyPosition_callFrame hmodify)
  | modifyLimitOrder orderId price stopLoss takeProfit =>
      obtain ⟨⟨s₁, result⟩, hmodify, rfl⟩ := map_eq_ok.mp h
      exact sameLoop_of_frame (modifyLimitOrder_callFrame hmodify)
  | cancelLimitOrder orderId =>
      cases h
      exact sameLoop_of_frame (cancelLimitOrder_callFrame s orderId)
  | workerDeliver answer =>
      cases h
      rfl
  | workerTake =>
      cases h
      show (s.expiring, (s.requests.take).inbox) = _
      rw [Pipeline.inbox_take]
      rfl
  | getAccountInfo direction =>
      obtain ⟨⟨pm, info⟩, -, h⟩ := bind_eq_ok.mp h
      cases h
      rfl
  | closeAllRemainingOrders =>
      obtain ⟨expired, -, h⟩ := bind_eq_ok.mp h
      obtain ⟨closed, -, h⟩ := bind_eq_ok.mp h
      cases h
      rfl
  | _ =>
      cases h
      rfl

/-- The loop over the timed-out orders only shrinks, unless it starts over. -/
theorem step_expiring {op : LiveOp Raw} (hsound : LiveSound s) (h : step cfg s op = .ok s')
    {pending : PendingOrder} (hmem : pending ∈ s'.expiring) :
    pending ∈ s.expiring ∨ pending ∈ checkTimeouts s := by
  have hloops : s'.expiring = (nextLoops cfg s op).1 := congrArg Prod.fst (step_loops hsound h)
  rw [hloops] at hmem
  cases op with
  | beginExpire => exact .inr hmem
  | expire => exact .inl (List.mem_of_mem_tail hmem)
  | _ => exact .inl hmem

end Frames

section Runs

/-- What the accounting of a run rests on. -/
structure Filed (s : LiveTradeExecutor Raw) : Prop where
  sound : LiveSound s
  resting : RestingOpen s
  expiring : ExpiringIssued s

theorem outcomes_born {op : LiveOp Raw} {id : String} (hsound : LiveSound s)
    (hfresh : ¬ IssuedIn s id) (hissued : IssuedIn s' id)
    (hends : events.filterMap ends = []) (htimes : events.filterMap timesOut = [])
    (hterminal : List.Sublist (events.filterMap terminalId) [id])
    (hnotified : events.filterMap notifiedId = [])
    (hreceived : ∀ p, .orderReceived p ∈ events → p.pendingOrderId = id ∧
      id ∉ orderIds s'.activeLimitOrders ∧ events.filterMap terminalId = [])
    (hself : aliveIn s' id ≤ 1) (halive : ∀ k, k ≠ id → aliveIn s' k = aliveIn s k)
    (hresting : ∀ k, k ≠ id → k ∈ orderIds s'.activeLimitOrders →
      k ∈ orderIds s.activeLimitOrders) :
    Outcomes s op s' events := by
  have hzero : ∀ k, outcomes events k = 0 := by
    intro k
    rw [outcomes, hends, htimes]
    rfl
  have hne : ∀ k, IssuedIn s k → k ≠ id := fun k hk heq => hfresh (heq ▸ hk)
  refine ⟨fun k hk => ?_, fun _ k hk => ?_, fun k hk => ⟨hzero k, ?_⟩, fun k hk _ => ⟨?_, ?_⟩,
    fun k hk => ⟨fun hmem => ?_, fun hmem => ?_⟩, fun p hp _ => ?_,
    fun k hk hmem => hresting k (hne k hk) hmem⟩
  · rw [hends, halive k (hne k hk)]
    exact (Nat.zero_add _).le
  · rw [hzero, halive k (hne k hk)]
    exact (Nat.zero_add _).le
  · by_cases hkid : k = id
    · rw [hkid]
      exact hself
    · rw [halive k hkid, alive_unissued hsound hk]
      exact Nat.zero_le _
  · have hnot : k ∉ events.filterMap terminalId := fun hmem =>
      hne k hk (List.mem_singleton.mp (hterminal.subset hmem))
    rw [List.count_eq_zero_of_not_mem hnot]
    exact Nat.zero_le _
  · rw [hnotified]
    exact Nat.zero_le _
  · rw [List.mem_singleton.mp (hterminal.subset hmem)] at hk
    exact hk hissued
  · rw [hnotified] at hmem
    cases hmem
  · obtain ⟨hpid, hrests, hnone⟩ := hreceived p hp
    rw [hpid, hnone, hnotified]
    exact ⟨hfresh, hissued, hrests, by simp, by simp⟩

theorem nextId_unissued (s : LiveTradeExecutor Raw) (request : OpenOrderRequest) :
    ¬ IssuedIn s (nextId s request) :=
  not_issued_next _ request.symbol

theorem accounts_of_popped {middle : LiveTradeExecutor Raw} {op : LiveOp Raw}
    (hop : isExpire op = false) (hpendings : middle.pendingOrders = s.pendingOrders)
    (hlimits : middle.activeLimitOrders = s.activeLimitOrders)
    (hledger : middle.ledger = s.ledger) (h : Accounts middle op s') : Accounts s op s' := by
  obtain ⟨events, hext, hends, htimed, hfresh, hreported, hunissued, hregistered, hrests⟩ := h
  have hknown : TimeoutKnown middle op := fun hexpire => by
    rw [hop] at hexpire
    cases hexpire
  have htimed' := htimed hknown
  simp only [aliveIn, IssuedIn, hpendings, hlimits, hledger] at hext hends htimed' hfresh
  simp only [IssuedIn, hlimits, hledger] at hreported hregistered hrests
  exact ⟨events, hext, hends, fun _ => htimed', hfresh, hreported, hunissued, hregistered, hrests⟩

theorem stepped_accounts {op : LiveOp Raw} (hfiled : Filed s) (h : Stepped cfg s op s') :
    Accounts s op s' := by
  obtain ⟨hsound, hresting, hexpiring⟩ := hfiled
  cases h with
  | quiet hquiet =>
      exact accounts_silent hsound hquiet.ledger hquiet.pendings (congrArg orderIds hquiet.limits)
  | guarded hquiet =>
      refine accounts_aside _ hsound hquiet.ledger (fun event hevent => ?_) (fun id => ?_)
        (congrArg orderIds hquiet.limits)
      · cases List.mem_singleton.mp hevent
        exact ⟨rfl, rfl, fun id hid => by simp [terminalId, notifiedId] at hid, fun p hp => by cases hp⟩
      · rw [aliveIn, aliveIn, hquiet.pendings, hquiet.limits]
  | @refused op reason message request =>
      have hext : Extends s.ledger (refuse cfg (received s request) (nextId s request) reason
          message).1.ledger [.result .submission (createRejectionResult (nextId s request) reason
            message)] :=
        ⟨rfl, (Nat.add_assoc _ _ _).symm, Nat.le_succ _, fun _ hk => .inl hk⟩
      refine ⟨_, hext, outcomes_born hsound (nextId_unissued s request) (nextId_issued s request)
        rfl rfl (List.Sublist.refl _) rfl (fun p hp => by simp at hp) ?_
        (fun k _ => rfl) fun k _ hk => hk⟩
      exact (alive_unissued hsound (nextId_unissued s request)).le.trans (Nat.zero_le _)
  | @enqueued op s' job hother hquiet =>
      exact accounts_silent hsound hquiet.ledger hquiet.pendings (congrArg orderIds hquiet.limits)
  | @registered op request htype =>
      let pending := pendingOpen cfg (received s request) (nextId s request) request none
      have hext : Extends s.ledger (submitOrder cfg (registerPending (received s request) pending)
          (nextId s request) request).1.ledger
          [.orderReceived pending,
            .result .submission (submittedResult (nextId s request) request)] :=
        ⟨List.append_assoc _ _ _, rfl, Nat.le_succ _, fun _ hk => .inl hk⟩
      have hfresh := nextId_unissued s request
      have hlimits : nextId s request ∉ orderIds s.activeLimitOrders :=
        fun hmem => hfresh (hsound.issued _ (.resting hmem))
      refine ⟨_, hext, outcomes_born hsound hfresh (nextId_issued s request) rfl rfl
        (List.nil_sublist _) rfl (fun p hp => ?_) ?_ (fun k hk => alive_set_ne hk) fun k _ hk => hk⟩
      · have hpending : p = pending := by simpa using hp
        rw [hpending]
        exact ⟨rfl, hlimits, rfl⟩
      · rw [aliveIn, alive, List.count_eq_zero_of_not_mem]
        · split <;> omega
        · exact hlimits
  | @rested op now request htype =>
      have hext : Extends s.ledger (submitOrder cfg { received s request with
          activeLimitOrders := s.activeLimitOrders ++
            [pendingLimit (received s request) (nextId s request) request now] }
          (nextId s request) request).1.ledger
          [.result .submission (submittedResult (nextId s request) request)] :=
        ⟨rfl, rfl, Nat.le_succ _, fun _ hk => .inl hk⟩
      have hfresh := nextId_unissued s request
      have hzero := alive_unissued hsound hfresh
      have hcount : ∀ k, (orderIds (s.activeLimitOrders ++
          [pendingLimit (received s request) (nextId s request) request now])).count k =
          (orderIds s.activeLimitOrders).count k + [nextId s request].count k := by
        intro k
        rw [orderIds_append, List.count_append]
        rfl
      refine ⟨_, hext, outcomes_born hsound hfresh (nextId_issued s request) rfl rfl
        (List.nil_sublist _) rfl (fun p hp => by simp at hp) ?_ (fun k hk => ?_) fun k hk hmem => ?_⟩
      · show alive s.pendingOrders (s.activeLimitOrders ++ _) _ ≤ 1
        rw [aliveIn, alive] at hzero
        rw [alive, hcount, List.count_singleton_self]
        omega
      · show alive s.pendingOrders (s.activeLimitOrders ++ _) _ = _
        have hother : [nextId s request].count k = 0 :=
          List.count_eq_zero_of_not_mem fun hmem => hk (List.mem_singleton.mp hmem)
        rw [aliveIn, alive, alive, hcount, hother]
        rfl
      · have hmem' : k ∈ orderIds (s.activeLimitOrders ++ [_]) := hmem
        rw [orderIds_append, List.mem_append] at hmem'
        rcases hmem' with hold | hnew
        · exact hold
        · exact absurd (List.mem_singleton.mp hnew) hk
  | @closing op positionId closeLots payload hposition =>
      refine accounts_aside [.orderReceived (pendingClose cfg s positionId (some closeLots) none)]
        hsound ⟨rfl, rfl, le_rfl, fun _ hk => .inl hk⟩ (fun event hevent => ?_)
        (fun id => alive_set_close rfl) rfl
      cases List.mem_singleton.mp hevent
      exact ⟨rfl, rfl, fun id hid => by simp [terminalId, notifiedId] at hid, fun p hp => by
        cases hp
        rfl⟩
  | startedModify mod hfind href hidle =>
      exact accounts_silent hsound (.refl _) rfl (orderIds_replaceOrder _ _)
  | @startedCancel orderId ref pending hfind href hidle =>
      refine accounts_aside [.cancelAccepted orderId] hsound
        ⟨rfl, rfl, le_rfl, fun _ hk => .inl hk⟩ (fun event hevent => ?_)
        (fun id => (alive_of_orderIds (orderIds_replaceOrder _ _)).le) (orderIds_replaceOrder _ _)
      cases List.mem_singleton.mp hevent
      exact ⟨rfl, rfl, fun id hid => by simp [terminalId, notifiedId] at hid, fun p hp => by cases hp⟩
  | @requestedCancel orderId pending hfind href =>
      refine accounts_aside [.cancelAccepted orderId] hsound
        ⟨rfl, rfl, le_rfl, fun _ hk => .inl hk⟩ (fun event hevent => ?_)
        (fun id => (alive_of_orderIds (orderIds_replaceOrder _ _)).le) (orderIds_replaceOrder _ _)
      cases List.mem_singleton.mp hevent
      exact ⟨rfl, rfl, fun id hid => by simp [terminalId, notifiedId] at hid, fun p hp => by cases hp⟩
  | scheduled =>
      refine accounts_silent hsound (.refl _) rfl ?_
      rw [processActiveOrders, orderIds, List.map_map]
      exact List.map_congr_left fun order _ => schedulePoll_id _ order
  | @drained response rest s' hinbox hhandled =>
      have hpopped := hsound
      rw [LiveSound, inFlight, Pipeline.items_of_inbox hinbox] at hpopped
      have hpopped' : Accounts { s with requests := { s.requests with inbox := rest } } .drain s' :=
        handled_accounts hpopped hresting hhandled
      apply accounts_of_popped _ _ _ _ hpopped' <;> rfl
  | @polled answer pending rest ref response s' hpolling href hquery hpolled =>
      have hpopped : Accounts { s with polling := rest } (.poll answer) s' :=
        polled_accounts hsound hpolled
      apply accounts_of_popped _ _ _ _ hpopped <;> rfl
  | expired hexpired => exact expired_accounts hsound hexpiring hexpired
  | ended hpendings hindex hlimits hitems hledger hevents =>
      refine accounts_aside _ hsound hledger (fun event hevent => ?_) (fun id => ?_)
        (congrArg orderIds hlimits)
      · rcases hevents event hevent with ⟨result, rfl, hid⟩ | hclose | ⟨pending, rfl⟩
        · refine ⟨rfl, rfl, fun id habout => ?_, fun p hp => by cases hp⟩
          rcases habout with habout | habout
          · have hread : (if result.status = .pending ∨ result.action = some .closeAction then none
                else some result.orderId) = some id := habout
            split at hread
            · cases hread
            · exact (Option.some.inj hread) ▸ hid
          · cases habout
        · exact aside_of_isCloseRecord hclose
        · exact aside_outcome pending .forceClosed
      · rw [aliveIn, aliveIn, hpendings, hlimits]
        exact alive_empty _ _ _

theorem expiring_step {op : LiveOp Raw} (hfiled : Filed s) (h : step cfg s op = .ok s')
    (hcounter : s.ledger.portfolio.positionCounter ≤ s'.ledger.portfolio.positionCounter) :
    ExpiringIssued s' := by
  obtain ⟨hsound, -, hexpiring⟩ := hfiled
  intro pending hpending
  rcases step_expiring hsound h hpending with hold | hnew
  · obtain ⟨hissued, hdirection⟩ := hexpiring pending hold
    exact ⟨hissued.mono hcounter, hdirection⟩
  · obtain ⟨k, hget⟩ := Dict.get?_of_mem_values (List.mem_of_mem_filter hnew)
    have hid := hsound.keyed k pending hget
    rw [← hid] at hget
    exact ⟨(pending_known hsound hget).2.mono hcounter, hsound.closes _ _ hget⟩

theorem filed_step {op : LiveOp Raw} (hfiled : Filed s) (h : step cfg s op = .ok s') :
    Filed s' ∧ Accounts s op s' := by
  have hstepped := step_stepped hfiled.sound h
  have haccounts := stepped_accounts hfiled hstepped
  obtain ⟨events, hext, -⟩ := id haccounts
  exact ⟨⟨stepped_sound hfiled.sound hstepped,
    stepped_restingOpen hfiled.sound hfiled.resting hstepped,
    expiring_step hfiled h hext.counter⟩, haccounts⟩

theorem new_filed (cfg : LiveConfig Raw) : Filed (Live.new cfg) where
  sound := new_sound cfg
  resting := fun order horder => by cases horder
  expiring := fun pending hpending => by cases hpending

/-- What the log says about every order, however timeouts went. -/
structure Booked (s : LiveTradeExecutor Raw) : Prop where
  ended : ∀ id, IssuedIn s id → (s.ledger.log.filterMap ends).count id + aliveIn s id ≤ 1
  unissued : ∀ id, ¬ IssuedIn s id → outcomes s.ledger.log id = 0 ∧
    id ∉ s.ledger.log.filterMap terminalId ∧ id ∉ s.ledger.log.filterMap notifiedId
  registered : ∀ p, .orderReceived p ∈ s.ledger.log → p.isOpen = true →
    IssuedIn s p.pendingOrderId ∧ p.pendingOrderId ∉ orderIds s.activeLimitOrders ∧
      (s.ledger.log.filterMap terminalId).count p.pendingOrderId ≤
        outcomes s.ledger.log p.pendingOrderId ∧
      (s.ledger.log.filterMap notifiedId).count p.pendingOrderId ≤
        outcomes s.ledger.log p.pendingOrderId
  counted : s.ledger.ordersExecuted + s.ledger.ordersRejected = s.ledger.log.countP isCounted
  positions : ∀ k, s.ledger.portfolio.getPosition k ≠ none →
    k ∈ s.ledger.log.filterMap filledId

theorem new_booked (cfg : LiveConfig Raw) : Booked (Live.new cfg) where
  ended id hid := by
    obtain ⟨symbol, n, -, rfl⟩ := hid
    exact Nat.zero_le 1
  unissued id _ := ⟨rfl, by simp [Live.new], by simp [Live.new]⟩
  registered p hp := by cases hp
  counted := rfl
  positions k hk := absurd rfl hk

theorem booked_step {op : LiveOp Raw} (hbooked : Booked s) (h : Accounts s op s') :
    Booked s' := by
  obtain ⟨events, hext, houtcomes⟩ := h
  obtain ⟨hended, hunissued, hregistered, hcounted, hpositions⟩ := hbooked
  have hzero : ∀ id, ¬ IssuedIn s id → (s.ledger.log.filterMap ends).count id = 0 := by
    intro id hid
    have hlog := (hunissued id hid).1
    rw [outcomes] at hlog
    omega
  refine ⟨fun id _ => ?_, fun id hid => ?_, fun p hp hopen => ?_, ?_, fun k hk => ?_⟩
  · rw [hext.log, List.filterMap_append, List.count_append]
    by_cases hold : IssuedIn s id
    · have hbefore := hended id hold
      have hstep := houtcomes.ended id hold
      omega
    · have hbefore := hzero id hold
      obtain ⟨hnone, hle⟩ := houtcomes.fresh id hold
      rw [outcomes] at hnone
      omega
  · have hold : ¬ IssuedIn s id := fun hold => hid (hold.mono hext.counter)
    obtain ⟨hnone, hterminal, hnotified⟩ := hunissued id hold
    obtain ⟨hterminal', hnotified'⟩ := houtcomes.unissued id hid
    rw [hext.log, outcomes_append, hnone, (houtcomes.fresh id hold).1, List.filterMap_append,
      List.filterMap_append, List.mem_append, List.mem_append]
    exact ⟨rfl, not_or.mpr ⟨hterminal, hterminal'⟩, not_or.mpr ⟨hnotified, hnotified'⟩⟩
  · rw [hext.log] at hp ⊢
    rw [outcomes_append, List.filterMap_append, List.filterMap_append, List.count_append,
      List.count_append]
    rcases List.mem_append.mp hp with hp | hp
    · obtain ⟨hissued, hlimits, hterminal, hnotified⟩ := hregistered p hp hopen
      obtain ⟨hterminal', hnotified'⟩ := houtcomes.reported _ hissued hlimits
      refine ⟨hissued.mono hext.counter, fun hmem => hlimits (houtcomes.resting _ hissued hmem),
        by omega, by omega⟩
    · obtain ⟨hfresh, hissued, hlimits, hterminal, hnotified⟩ := houtcomes.registered p hp hopen
      obtain ⟨-, hbefore, hbefore'⟩ := hunissued _ hfresh
      rw [List.count_eq_zero_of_not_mem hterminal, List.count_eq_zero_of_not_mem hnotified,
        List.count_eq_zero_of_not_mem hbefore, List.count_eq_zero_of_not_mem hbefore']
      exact ⟨hissued, hlimits, Nat.zero_le _, Nat.zero_le _⟩
  · rw [hext.counted, hcounted, hext.log, List.countP_append]
  · rw [hext.log, List.filterMap_append, List.mem_append]
    exact (hext.positions k hk).imp_left (hpositions k)

theorem run_booked {ops : List (LiveOp Raw)}
    (hrun : run (step cfg) (Live.new cfg) ops = .ok s) : Filed s ∧ Booked s := by
  refine run_invariant (P := fun s => Filed s ∧ Booked s) (fun s op s' hinv hop => ?_)
    ⟨new_filed cfg, new_booked cfg⟩ hrun
  obtain ⟨hfiled, haccounts⟩ := filed_step hinv.1 hop
  exact ⟨hfiled, booked_step hinv.2 haccounts⟩

/-- An order is alive, or it ended or timed out once. -/
def Settled (s : LiveTradeExecutor Raw) : Prop :=
  ∀ id, IssuedIn s id → outcomes s.ledger.log id + aliveIn s id ≤ 1

theorem settled_step {op : LiveOp Raw} (hbooked : Booked s) (hsettled : Settled s)
    (hknown : TimeoutKnown s op) (h : Accounts s op s') : Settled s' := by
  obtain ⟨events, hext, houtcomes⟩ := h
  intro id _
  rw [hext.log, outcomes_append]
  by_cases hold : IssuedIn s id
  · have hbefore := hsettled id hold
    have hstep := houtcomes.timed hknown id hold
    omega
  · obtain ⟨hnone, hle⟩ := houtcomes.fresh id hold
    rw [(hbooked.unissued id hold).1, hnone]
    omega

theorem run_settled {ops : List (LiveOp Raw)}
    (hrun : run (step cfg) (Live.new cfg) ops = .ok s)
    (hall : StepsAll (step cfg) TimeoutKnown (Live.new cfg) ops) : Settled s := by
  have hinv : (Filed s ∧ Booked s) ∧ Settled s := by
    refine run_invariant_of_stepsAll (I := fun s => (Filed s ∧ Booked s) ∧ Settled s)
      (fun s op s' hinv hknown hop => ?_) ⟨⟨new_filed cfg, new_booked cfg⟩, fun id hid => ?_⟩ hall
      hrun
    · obtain ⟨⟨hfiled, hbooked⟩, hsettled⟩ := hinv
      obtain ⟨hfiled', haccounts⟩ := filed_step hfiled hop
      exact ⟨⟨hfiled', booked_step hbooked haccounts⟩,
        settled_step hbooked hsettled hknown haccounts⟩
    · exact Nat.zero_le 1
  exact hinv.2

/-- Every OPEN order that is registered gets one terminal result, one increment of a counter
and one announcement at most, and it is not pending once its timeout was handled. -/
theorem one_outcome_each {ops : List (LiveOp Raw)} {pending : PendingOrder}
    (hrun : run (step cfg) (Live.new cfg) ops = .ok s)
    (hall : StepsAll (step cfg) TimeoutKnown (Live.new cfg) ops)
    (hregistered : .orderReceived pending ∈ s.ledger.log) (hopen : pending.isOpen = true) :
    (s.ledger.log.filterMap terminalId).count pending.pendingOrderId ≤ 1 ∧
    s.ledger.ordersExecuted + s.ledger.ordersRejected = s.ledger.log.countP isCounted ∧
    s.ledger.log.countP (fun event => isCounted event &&
      decide (terminalId event = some pending.pendingOrderId)) ≤ 1 ∧
    (s.ledger.log.filterMap notifiedId).count pending.pendingOrderId ≤ 1 ∧
    (s.ledger.log.filterMap timesOut).count pending.pendingOrderId ≤ 1 ∧
    (pending.pendingOrderId ∈ s.ledger.log.filterMap timesOut →
      (s.pendingOrders.get? pending.pendingOrderId).any PendingOrder.isOpen = false) := by
  obtain ⟨-, hbooked⟩ := run_booked hrun
  obtain ⟨hissued, -, hterminal, hnotified⟩ := hbooked.registered pending hregistered hopen
  have hsettled := run_settled hrun hall _ hissued
  have hcounted : s.ledger.log.countP (fun event => isCounted event &&
      decide (terminalId event = some pending.pendingOrderId)) ≤
      (s.ledger.log.filterMap terminalId).count pending.pendingOrderId := by
    rw [List.count, List.countP_filterMap]
    refine List.countP_mono_left fun event _ hevent => ?_
    simp only [Bool.and_eq_true, decide_eq_true_eq] at hevent
    rw [hevent.2]
    simp
  refine ⟨by omega, hbooked.counted, by omega, by omega, ?_, fun hmem => ?_⟩
  · rw [outcomes] at hsettled
    omega
  · have hpos := List.count_pos_iff.mpr hmem
    rw [outcomes, aliveIn, alive] at hsettled
    by_contra hpending
    rw [if_pos (by simpa using hpending)] at hsettled
    omega

end Runs

section Sessions

open Finiex.Kraken

theorem exists_received {log : List AuditEvent} {id : String}
    (h : id ∈ log.filterMap acceptedId) :
    ∃ pending, .orderReceived pending ∈ log ∧ pending.isOpen = true ∧
      pending.pendingOrderId = id := by
  obtain ⟨event, hevent, hid⟩ := List.mem_filterMap.mp h
  cases event with
  | orderReceived pending =>
      rw [acceptedId] at hid
      split at hid
      · next hopen => exact ⟨pending, hevent, hopen, Option.some.inj hid⟩
      · cases hid
  | _ => cases hid

/-- A market order whose submission is never answered, and two heartbeats after its timeout. -/
def unansweredOrder : List (LiveOp RawResult) :=
  [.receiveTick (ethusdTick 1600 1601 1000), .openOrder marketLong, .wallClock 60000000,
    .beginExpire, .expire, .beginExpire, .expire]

/-- The order times out twice: it has no reference to remove it by. -/
theorem timeout_handled_twice :
    ∃ (s : LiveTradeExecutor RawResult) (pending : PendingOrder),
      run (step krakenSession) (Live.new krakenSession) unansweredOrder = .ok s ∧
      .orderReceived pending ∈ s.ledger.log ∧ pending.isOpen = true ∧
      (s.ledger.log.filterMap terminalId).count pending.pendingOrderId = 2 ∧
      (s.ledger.log.filterMap notifiedId).count pending.pendingOrderId = 2 ∧
      s.ledger.ordersRejected = 2 ∧
      (s.pendingOrders.get? pending.pendingOrderId).any PendingOrder.isOpen = true := by
  have hruns : (run (step krakenSession) (Live.new krakenSession) unansweredOrder).map
      (fun s => (s.ledger.log.filterMap acceptedId,
        (s.ledger.log.filterMap terminalId).count "pos_ethusd_1",
        (s.ledger.log.filterMap notifiedId).count "pos_ethusd_1", s.ledger.ordersRejected,
        (s.pendingOrders.get? "pos_ethusd_1").any PendingOrder.isOpen)) =
      .ok (["pos_ethusd_1"], 2, 2, 2, true) := by
    decide +kernel
  obtain ⟨s, hrun, hvalues⟩ := exists_of_map_eq_ok hruns
  simp only [Prod.mk.injEq] at hvalues
  obtain ⟨haccepted, hterminal, hnotified, hrejected, hpending⟩ := hvalues
  obtain ⟨pending, hreceived, hopen, hid⟩ :=
    exists_received (haccepted.symm ▸ List.mem_singleton_self "pos_ethusd_1")
  refine ⟨s, pending, hrun, hreceived, hopen, ?_⟩
  rw [hid, hterminal, hnotified, hpending]
  exact ⟨rfl, rfl, hrejected, rfl⟩

def confirmedOrder : List (LiveOp RawResult) :=
  [.receiveTick (ethusdTick 1600 1601 1000), .openOrder marketLong] ++
    answered (accepted "OID-1") ++
    [.drain, .wallClock 60000000, .beginExpire, .expire, .beginExpire, .expire]

theorem one_outcome_each_confirmed :
    ∃ (s : LiveTradeExecutor RawResult) (pending : PendingOrder),
      run (step krakenSession) (Live.new krakenSession) confirmedOrder = .ok s ∧
      pending.pendingOrderId = "pos_ethusd_1" ∧
      (s.ledger.log.filterMap terminalId).count pending.pendingOrderId ≤ 1 := by
  have hruns : (run (step krakenSession) (Live.new krakenSession) confirmedOrder).map
      (fun s => s.ledger.log.filterMap acceptedId) = .ok ["pos_ethusd_1"] := by
    decide +kernel
  have hall : StepsAll (step krakenSession) TimeoutKnown (Live.new krakenSession)
      confirmedOrder := by
    decide +kernel
  obtain ⟨s, hrun, haccepted⟩ := exists_of_map_eq_ok hruns
  obtain ⟨pending, hreceived, hopen, hid⟩ :=
    exists_received (haccepted.symm ▸ List.mem_singleton_self "pos_ethusd_1")
  exact ⟨s, pending, hrun, hid, (one_outcome_each hrun hall hreceived hopen).1⟩

end Sessions

end Finiex.LiveOutcomes
