import Finiex.LiveOperations

namespace Finiex.LivePrices

open Finiex.Types
open Finiex.Lib
open Finiex.Lib.Run
open Finiex.Broker
open Finiex.Orders
open Finiex.OrderBooks
open Finiex.Executor
open Finiex.LiveTypes
open Finiex.Live
open Finiex.LiveSpecs
open Finiex.LiveSteps
open Finiex.LiveOperations

variable {Raw : Type} {cfg : LiveConfig Raw} {s s' : LiveTradeExecutor Raw}

/-- The prices of a resting order, and those that it is to have. -/
structure Priced (broker : BrokerConfig) (order : PendingOrder) : Prop where
  unpriced : order.orderKwargs.limitPrice = none
  price : Snapped broker order.symbol order.entryPrice
  stopLoss : Snapped broker order.symbol order.orderKwargs.stopLoss
  takeProfit : Snapped broker order.symbol order.orderKwargs.takeProfit
  modification : ∀ mod, order.pendingModification = some mod →
    LimitModification broker order.symbol mod

/-- All that rests is priced. -/
def AllPriced (broker : BrokerConfig) (limits : List PendingOrder) : Prop :=
  ∀ order ∈ limits, Priced broker order

section Orders

variable {broker : BrokerConfig} {limits : List PendingOrder} {order order' : PendingOrder}

theorem Priced.change (h : Priced broker order) (hsymbol : order'.symbol = order.symbol)
    (hentry : order'.entryPrice = order.entryPrice)
    (hkwargs : order'.orderKwargs = order.orderKwargs)
    (hmod : order'.pendingModification = order.pendingModification) : Priced broker order' := by
  refine ⟨?_, ?_, ?_, ?_, ?_⟩
  · rw [hkwargs]
    exact h.unpriced
  · rw [hsymbol, hentry]
    exact h.price
  · rw [hsymbol, hkwargs]
    exact h.stopLoss
  · rw [hsymbol, hkwargs]
    exact h.takeProfit
  · rw [hsymbol, hmod]
    exact h.modification

theorem AllPriced.replace (h : AllPriced broker limits) (horder : Priced broker order) :
    AllPriced broker (replaceOrder order limits) := by
  intro x hx
  rcases mem_replaceOrder_or hx with rfl | hin
  · exact horder
  · exact h x hin

theorem AllPriced.erase (h : AllPriced broker limits) : AllPriced broker (limits.erase order) :=
  fun x hx => h x (List.mem_of_mem_erase hx)

theorem AllPriced.found {orderId : String} (h : AllPriced broker limits)
    (hfind : findOrder limits orderId = some order) : Priced broker order :=
  h order (mem_of_findOrder hfind)

theorem snapped_or {symbol : String} {new current : Option ℚ} (h : Snapped broker symbol new)
    (h' : Snapped broker symbol current) : Snapped broker symbol (new.or current) := by
  cases new with
  | none => exact h'
  | some p => exact h

theorem applyModification_priced (h : Priced broker order) :
    Priced broker (applyModification order order.pendingModification) := by
  cases hpending : order.pendingModification with
  | none => exact h
  | some mod =>
      have hmod := h.modification mod hpending
      refine ⟨?_, snapped_or hmod.price h.price, snapped_or hmod.stopLoss h.stopLoss,
        snapped_or hmod.takeProfit h.takeProfit, h.modification⟩
      show mod.newLimitPrice.or order.orderKwargs.limitPrice = none
      rw [hmod.unpriced, h.unpriced]
      rfl

theorem clearModification_priced (h : Priced broker order) :
    Priced broker (clearModification order) :=
  ⟨h.unpriced, h.price, h.stopLoss, h.takeProfit, fun mod hmod => by cases hmod⟩

theorem pendingLimit_priced {request : OpenOrderRequest} (s : LiveTradeExecutor Raw)
    (orderId : String) (now : Instant) (h : normalizeOrderRequest broker request = request) :
    Priced broker (pendingLimit s orderId request now) := by
  have hsnapped : ∀ {spec : SymbolSpecification},
      broker.symbols.get? request.symbol = some spec →
      roundPrice spec.digits request.price = request.price ∧
        roundPrice spec.digits request.stopLoss = request.stopLoss ∧
        roundPrice spec.digits request.takeProfit = request.takeProfit := by
    intro spec hspec
    simp only [normalizeOrderRequest, hspec] at h
    exact ⟨congrArg OpenOrderRequest.price h, congrArg OpenOrderRequest.stopLoss h,
      congrArg OpenOrderRequest.takeProfit h⟩
  exact ⟨rfl, fun spec hspec => (hsnapped hspec).1, fun spec hspec => (hsnapped hspec).2.1,
    fun spec hspec => (hsnapped hspec).2.2, fun mod hmod => by cases hmod⟩

end Orders

section Steps

theorem handled_priced {response : Response Raw} (hsound : LiveSound s)
    (hall : AllPriced cfg.executor.broker s.activeLimitOrders) (h : Handled cfg s response s') :
    AllPriced cfg.executor.broker s'.activeLimitOrders := by
  cases h with
  | unknown _ => exact hall
  | untouched _ => exact hall
  | positionModified _ _ _ => exact hall
  | marketRejected _ _ => exact hall
  | marketConfirmed _ _ => exact hall
  | marketFilled htype hget hne hfill =>
      rw [(fillByAction_frame hfill).1]
      show AllPriced _ (takeByRef _ _).1.activeLimitOrders
      rw [(takeByRef_frame _ _).1]
      exact hall
  | limitRejected hfind => exact hall.erase
  | limitConfirmed hfind _ => exact hall.replace ((hall.found hfind).change rfl rfl rfl rfl)
  | limitDeferred hfind =>
      refine AllPriced.replace (hall.replace ?_) ?_
      · exact (hall.found hfind).change rfl rfl rfl rfl
      · exact (hall.found hfind).change rfl rfl rfl rfl
  | limitFilled order hid hmem hfill =>
      obtain ⟨ledger, -, hpure⟩ := bind_eq_ok.mp hfill
      cases hpure
      exact fun x hx => hall x (mem_erase_replaceOrder hsound.nodup hmem hx).1
  | modifyRejected hfind => exact hall.replace (clearModification_priced (hall.found hfind))
  | modified hfind =>
      have happlied := applyModification_priced (hall.found hfind)
      show AllPriced _ (replaceOrder _ _)
      rw [swapBrokerRef]
      split
      · rw [(updateBrokerRef_frame _ _ _).1]
        exact hall.replace (clearModification_priced (happlied.change rfl rfl rfl rfl))
      · exact hall.replace (clearModification_priced happlied)
  | cancelRefused hfind => exact hall.replace ((hall.found hfind).change rfl rfl rfl rfl)
  | cancelled hfind => exact hall.erase
  | tradesAppended hfind => exact hall.replace ((hall.found hfind).change rfl rfl rfl rfl)
  | queryCleared hfind => exact hall.replace ((hall.found hfind).change rfl rfl rfl rfl)
  | queryEnded hfind =>
      refine AllPriced.erase (hall.replace ?_)
      exact (hall.found hfind).change rfl rfl rfl rfl

theorem stepped_priced {op : LiveOp Raw} (hsound : LiveSound s)
    (hall : AllPriced cfg.executor.broker s.activeLimitOrders) (h : Stepped cfg s op s') :
    AllPriced cfg.executor.broker s'.activeLimitOrders := by
  have hframe : s'.activeLimitOrders = s.activeLimitOrders →
      AllPriced cfg.executor.broker s'.activeLimitOrders := by
    intro heq
    rw [heq]
    exact hall
  cases h with
  | quiet hquiet => exact hframe hquiet.limits
  | guarded hquiet => exact hframe hquiet.limits
  | refused request => exact hall
  | enqueued hother hquiet => exact hframe hquiet.limits
  | registered request htype => exact hall
  | rested request htype hnormalized =>
      intro order horder
      rcases List.mem_append.mp horder with hold | hnew
      · exact hall order hold
      · rw [List.mem_singleton.mp hnew]
        exact pendingLimit_priced _ _ _ hnormalized
  | closing hposition => exact hall
  | startedModify mod hfind href hidle hmod =>
      have hbefore := hall.found hfind
      refine hall.replace ⟨hbefore.unpriced, hbefore.price, hbefore.stopLoss, hbefore.takeProfit,
        fun mod' heq => ?_⟩
      have hsame : some mod = some mod' := heq
      rw [← Option.some.inj hsame]
      exact hmod
  | startedCancel hfind href hidle =>
      exact hall.replace ((hall.found hfind).change rfl rfl rfl rfl)
  | requestedCancel hfind href => exact hall.replace ((hall.found hfind).change rfl rfl rfl rfl)
  | scheduled =>
      intro order' horder'
      obtain ⟨order, horder, rfl⟩ := List.mem_map.mp horder'
      rw [schedulePoll]
      split
      · exact (hall order horder).change rfl rfl rfl rfl
      · exact hall order horder
  | @drained response rest s' hinbox hhandled =>
      rw [LiveSound, inFlight, Pipeline.items_of_inbox hinbox] at hsound
      have hrest : LiveSound { s with requests := { s.requests with inbox := rest } } :=
        hsound.items_sublist (List.sublist_cons_self _ _)
      exact handled_priced hrest hall hhandled
  | polled hpolling href hquery hpolled => exact hframe (polled_frame hpolled).1
  | @expired pending rest hexpiring =>
      exact hframe (takeByRef_frame (recordOutcome { s with expiring := rest } pending .timedOut) _).1
  | ended hpendings hindex hlimits hitems hledger hevents => exact hframe hlimits

theorem run_priced {ops : List (LiveOp Raw)} (hrun : run (step cfg) (Live.new cfg) ops = .ok s) :
    AllPriced cfg.executor.broker s.activeLimitOrders :=
  (run_sound_invariant (fun _ _ _ hsound hall hstep => stepped_priced hsound hall hstep)
    (new_sound cfg) (fun order horder => by cases horder) hrun).2

end Steps

end Finiex.LivePrices
