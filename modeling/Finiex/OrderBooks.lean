import Finiex.Orders

namespace Finiex.OrderBooks

open Finiex.Types
open Finiex.Lib
open Finiex.Orders

def orderIds (orders : List PendingOrder) : List String := orders.map PendingOrder.pendingOrderId

def openIds (orders : List PendingOrder) : List String :=
  orderIds (orders.filter PendingOrder.isOpen)

theorem orderIds_append (xs ys : List PendingOrder) :
    orderIds (xs ++ ys) = orderIds xs ++ orderIds ys :=
  List.map_append

theorem orderIds_cons (order : PendingOrder) (rest : List PendingOrder) :
    orderIds (order :: rest) = order.pendingOrderId :: orderIds rest := rfl

theorem orderIds_nil : orderIds [] = [] := rfl

theorem openIds_cons (order : PendingOrder) (rest : List PendingOrder) :
    openIds (order :: rest) = openIds [order] ++ openIds rest := by
  rw [openIds, ← List.singleton_append, List.filter_append, orderIds_append]
  rfl

theorem count_openIds_filter (p : PendingOrder → Bool) (orders : List PendingOrder)
    (id : String) :
    (openIds (orders.filter p)).count id + (openIds (orders.filter fun o => !p o)).count id =
      (openIds orders).count id := by
  have hperm := ((List.filter_append_perm p orders).filter PendingOrder.isOpen).map
    PendingOrder.pendingOrderId
  rw [List.filter_append, List.map_append] at hperm
  rw [← List.count_append]
  exact hperm.count_eq id

/-- Storing an order under a key that no queued OPEN order has adds that order. -/
theorem openIds_set {queue : Dict String PendingOrder} {order : PendingOrder}
    (hkeyed : ∀ k p, queue.get? k = some p → p.pendingOrderId = k)
    (hfresh : order.pendingOrderId ∉ openIds queue.values) (id : String) :
    (openIds (queue.set order.pendingOrderId order).values).count id =
      (openIds [order]).count id + (openIds queue.values).count id := by
  have hset := ((queue.values_set_perm order.pendingOrderId order).filter
    PendingOrder.isOpen).map PendingOrder.pendingOrderId
  have hcount : (openIds (queue.set order.pendingOrderId order).values).count id =
      (openIds (order :: (queue.erase order.pendingOrderId).values)).count id :=
    hset.count_eq id
  rw [hcount, openIds_cons, List.count_append]
  congr 1
  cases hqueued : queue.get? order.pendingOrderId with
  | none => rw [Dict.erase_eq_self_of_get?_none hqueued]
  | some old =>
      have hold := hkeyed _ old hqueued
      have hclosed : old.isOpen = false := by
        by_contra hopen
        apply hfresh
        rw [← hold]
        exact List.mem_map_of_mem (List.mem_filter.mpr
          ⟨Dict.mem_values_of_get? hqueued, by simpa using hopen⟩)
      have hsplit := ((Dict.values_perm_of_get? hqueued).filter
        PendingOrder.isOpen).map PendingOrder.pendingOrderId
      rw [List.filter_cons, hclosed] at hsplit
      exact (hsplit.count_eq id).symm

theorem keyed_set {queue : Dict String PendingOrder} (order : PendingOrder)
    (hkeyed : ∀ k p, queue.get? k = some p → p.pendingOrderId = k) :
    ∀ k p, (queue.set order.pendingOrderId order).get? k = some p → p.pendingOrderId = k := by
  intro k p hget
  by_cases hk : k = order.pendingOrderId
  · subst hk
    rw [Dict.get?_set_self] at hget
    cases hget
    rfl
  · rw [Dict.get?_set_ne _ _ hk] at hget
    exact hkeyed k p hget

theorem findOrder_id {orders : List PendingOrder} {orderId : String} {pending : PendingOrder}
    (h : findOrder orders orderId = some pending) : pending.pendingOrderId = orderId := by
  simpa using List.find?_some h

theorem mem_of_findOrder {orders : List PendingOrder} {orderId : String}
    {pending : PendingOrder} (h : findOrder orders orderId = some pending) :
    pending ∈ orders :=
  List.mem_of_find?_eq_some h

theorem findOrder_eq_none {orders : List PendingOrder} {orderId : String} :
    findOrder orders orderId = none ↔ orderId ∉ orderIds orders := by
  simp [findOrder, orderIds]

theorem mem_orderIds_of_findOrder {orders : List PendingOrder} {orderId : String}
    {pending : PendingOrder} (h : findOrder orders orderId = some pending) :
    orderId ∈ orderIds orders := by
  rw [← findOrder_id h]
  exact List.mem_map_of_mem (mem_of_findOrder h)

section InPlace

variable {orders : List PendingOrder} {order : PendingOrder}

@[simp] theorem orderIds_replaceOrder (order : PendingOrder) (orders : List PendingOrder) :
    orderIds (replaceOrder order orders) = orderIds orders := by
  induction orders with
  | nil => rfl
  | cons p ps ih =>
      rw [replaceOrder]
      split
      · next hid => rw [orderIds_cons, orderIds_cons, hid]
      · rw [orderIds_cons, orderIds_cons, ih]

theorem mem_replaceOrder_or {x : PendingOrder} (hx : x ∈ replaceOrder order orders) :
    x = order ∨ x ∈ orders := by
  induction orders with
  | nil => cases hx
  | cons p ps ih =>
      rw [replaceOrder] at hx
      split at hx
      · exact (List.mem_cons.mp hx).imp_right (List.mem_cons_of_mem p)
      · rcases List.mem_cons.mp hx with rfl | hx
        · exact .inr List.mem_cons_self
        · exact (ih hx).imp_right (List.mem_cons_of_mem p)

/-- What is in the list after a change in place is the new order, or an order of another id. -/
theorem mem_replaceOrder (hnodup : (orderIds orders).Nodup) {x : PendingOrder}
    (hx : x ∈ replaceOrder order orders) :
    x = order ∨ (x ∈ orders ∧ x.pendingOrderId ≠ order.pendingOrderId) := by
  induction orders with
  | nil => cases hx
  | cons p ps ih =>
      rw [orderIds_cons, List.nodup_cons] at hnodup
      rw [replaceOrder] at hx
      split at hx
      · next hid =>
          rcases List.mem_cons.mp hx with rfl | hmem
          · exact .inl rfl
          · refine .inr ⟨List.mem_cons_of_mem p hmem, fun heq => hnodup.1 ?_⟩
            rw [hid, ← heq]
            exact List.mem_map_of_mem hmem
      · next hid =>
          rcases List.mem_cons.mp hx with rfl | hmem
          · exact .inr ⟨List.mem_cons_self, hid⟩
          · rcases ih hnodup.2 hmem with rfl | ⟨hin, hne⟩
            · exact .inl rfl
            · exact .inr ⟨List.mem_cons_of_mem p hin, hne⟩

theorem mem_replaceOrder_self (h : order.pendingOrderId ∈ orderIds orders) :
    order ∈ replaceOrder order orders := by
  induction orders with
  | nil => cases h
  | cons p ps ih =>
      rw [replaceOrder]
      split
      · exact List.mem_cons_self
      · next hid =>
          rw [orderIds_cons, List.mem_cons] at h
          exact List.mem_cons_of_mem p (ih (h.resolve_left fun heq => hid heq.symm))

theorem nodup_of_orderIds (hnodup : (orderIds orders).Nodup) : orders.Nodup := hnodup.of_map _

theorem orderIds_erase_sublist (order : PendingOrder) (orders : List PendingOrder) :
    List.Sublist (orderIds (orders.erase order)) (orderIds orders) :=
  List.erase_sublist.map _

theorem mem_erase_order (hnodup : (orderIds orders).Nodup) (hin : order ∈ orders)
    {x : PendingOrder} (hx : x ∈ orders.erase order) :
    x ∈ orders ∧ x.pendingOrderId ≠ order.pendingOrderId := by
  obtain ⟨hne, hmem⟩ := (nodup_of_orderIds hnodup).mem_erase_iff.mp hx
  exact ⟨hmem, fun hid => hne (List.inj_on_of_nodup_map hnodup hmem hin hid)⟩

/-- An order that is changed in place and then removed leaves the orders of other ids. -/
theorem mem_erase_replaceOrder (hnodup : (orderIds orders).Nodup)
    (h : order.pendingOrderId ∈ orderIds orders) {x : PendingOrder}
    (hx : x ∈ (replaceOrder order orders).erase order) :
    x ∈ orders ∧ x.pendingOrderId ≠ order.pendingOrderId := by
  have hnodup' : (orderIds (replaceOrder order orders)).Nodup := by
    rw [orderIds_replaceOrder]
    exact hnodup
  obtain ⟨hmem, hne⟩ := mem_erase_order hnodup' (mem_replaceOrder_self h) hx
  rcases mem_replaceOrder hnodup hmem with rfl | ⟨hin, -⟩
  · exact absurd rfl hne
  · exact ⟨hin, hne⟩

end InPlace

end Finiex.OrderBooks
