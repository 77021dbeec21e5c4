import Finiex.SimulatorLedger

namespace Finiex.SimulatorOrders

open Finiex.Types
open Finiex.Lib
open Finiex.Lib.Run
open Finiex.Positions
open Finiex.Orders
open Finiex.OrderBooks
open Finiex.Portfolio
open Finiex.Portfolio.PortfolioManager
open Finiex.PortfolioLedger
open Finiex.PortfolioFrames
open Finiex.Executor
open Finiex.ExecutorFills
open Finiex.AuditTrail
open Finiex.Simulator
open Finiex.SimulatorSpecs
open Finiex.SimulatorSteps
open Finiex.SimulatorConservation
open Finiex.SimulatorLedger

/-- Every queued OPEN order and every resting order has the property. -/
structure AllOrders (Q : PendingOrder → Prop) (s : TradeSimulator) : Prop where
  queued : ∀ order ∈ s.latencyQueue.values, order.isOpen = true → Q order
  limits : ∀ order ∈ s.activeLimitOrders, Q order
  stops : ∀ order ∈ s.activeStopOrders, Q order

/-- What processing must keep: a property of orders, and one of the ledger that fills of such
orders and closes keep and that only reads the portfolio and a growing log. -/
structure ProcessingRule (cfg : SimulatorConfig) (Q : PendingOrder → Prop)
    (P : ExecutionLedger → Prop) : Prop where
  becomes : ∀ {order order'}, Q order → Becomes order order' → Q order'
  openFill : ∀ {market ledger ledger' order fillPrice entryType fillType}, P ledger → Q order →
    fillOpenOrder cfg.executor market ledger order fillPrice entryType fillType = .ok ledger' →
      P ledger'
  closeFill : ∀ {market ledger ledger' order fillPrice closeReason}, P ledger →
    fillCloseOrder cfg.executor market ledger order fillPrice closeReason = .ok ledger' → P ledger'
  notes : ∀ {ledger ledger' : ExecutionLedger}, ledger'.portfolio = ledger.portfolio →
    ledger.log <+: ledger'.log → P ledger → P ledger'

variable {cfg : SimulatorConfig} {Q : PendingOrder → Prop} {P : ExecutionLedger → Prop}
  {M : Dict String ModificationRequest} {s s' : TradeSimulator}

theorem AllOrders.frame (h : AllOrders Q s) (hqueue : s'.latencyQueue = s.latencyQueue)
    (hlimits : s'.activeLimitOrders = s.activeLimitOrders)
    (hstops : s'.activeStopOrders = s.activeStopOrders) : AllOrders Q s' := by
  obtain ⟨hqueued, hresting, htriggers⟩ := h
  constructor <;> simp only [hqueue, hlimits, hstops] <;> assumption

theorem allOrders_new : AllOrders Q (Simulator.new cfg) where
  queued := fun _ hmem => absurd hmem List.not_mem_nil
  limits := fun _ hmem => absurd hmem List.not_mem_nil
  stops := fun _ hmem => absurd hmem List.not_mem_nil

/-- The orders have their property and the ledger has its own; the scheduled position
modifications are `M`. -/
structure Carries (Q : PendingOrder → Prop) (P : ExecutionLedger → Prop)
    (M : Dict String ModificationRequest) (s : TradeSimulator) : Prop where
  orders : AllOrders Q s
  ledger : P s.ledger
  modifications : s.pendingPositionModifications = M

namespace Carries

variable (hrule : ProcessingRule cfg Q P)

include hrule

theorem noted {ledger : ExecutionLedger} (h : Carries Q P M s)
    (hportfolio : ledger.portfolio = s.ledger.portfolio) (hlog : s.ledger.log <+: ledger.log) :
    Carries Q P M { s with ledger := ledger } :=
  ⟨h.orders.frame rfl rfl rfl, hrule.notes hportfolio hlog h.ledger, h.modifications⟩

theorem placed {order : PendingOrder} (h : Carries Q P M s) (horder : Q order)
    (hplaced : Placed cfg s order s') : Carries Q P M s' := by
  obtain ⟨⟨hqueued, hlimits, hstops⟩, hledger, hmods⟩ := h
  have hnext : ∀ {orders : List PendingOrder}, (∀ p ∈ orders, Q p) → ∀ p ∈ orders ++ [order], Q p := by
    intro orders hall p hp
    rcases List.mem_append.mp hp with hmem | hmem
    · exact hall p hmem
    · rw [List.mem_singleton.mp hmem]
      exact horder
  cases hplaced with
  | filled htype hprice hfill =>
      exact ⟨⟨hqueued, hlimits, hstops⟩, hrule.openFill hledger horder hfill, hmods⟩
  | restsAsLimit htype hnot => exact ⟨⟨hqueued, hnext hlimits, hstops⟩, hledger, hmods⟩
  | restsAsStop htype hnot => exact ⟨⟨hqueued, hlimits, hnext hstops⟩, hledger, hmods⟩

theorem resolved {order : PendingOrder} (h : Carries Q P M s) (horder : order.isOpen = true → Q order)
    (hresolved : Resolved cfg s order s') : Carries Q P M s' := by
  cases hresolved with
  | @stressRejected calls rejections rejectionCount hopen =>
      have hportfolio : (rejectByStressTest cfg s.ledger order rejectionCount).portfolio =
          s.ledger.portfolio := rfl
      have hledger : P (rejectByStressTest cfg s.ledger order rejectionCount) :=
        hrule.notes hportfolio (List.prefix_append _ _) h.ledger
      have hrejected : Carries Q P M { s with
          stressCalls := calls
          stressRejections := rejections
          ledger := rejectByStressTest cfg s.ledger order rejectionCount } :=
        ⟨h.orders.frame rfl rfl rfl, hledger, h.modifications⟩
      exact hrejected.noted hrule rfl (List.prefix_append _ _)
  | @activated calls placedOrder placed hopen hbecomes hplaced =>
      have hasked : Carries Q P M { s with stressCalls := calls } :=
        ⟨h.orders.frame rfl rfl rfl, h.ledger, h.modifications⟩
      have hopened := horder (by simp [PendingOrder.isOpen, hopen])
      exact (hasked.placed hrule (hrule.becomes hopened hbecomes) hplaced).noted hrule rfl
        (List.prefix_append _ _)
  | @closed ledger hclose hfill =>
      have hclosed : Carries Q P M { s with ledger := ledger } :=
        ⟨h.orders.frame rfl rfl rfl, hrule.closeFill h.ledger hfill, h.modifications⟩
      exact hclosed.noted hrule rfl (List.prefix_append _ _)

theorem drainLatencyQueue {msc : ℤ} (h : Carries Q P M s)
    (hdrain : drainLatencyQueue cfg s msc = .ok s') : Carries Q P M s' := by
  have hend := foldlM_induct (P := fun rest s => Carries Q P M s ∧
    ∀ order ∈ rest, order.isOpen = true → Q order) ?_ ?_ hdrain
  · exact hend.1
  · rintro order rest s₁ s₂ ⟨hinv, hrest⟩ hstep
    obtain ⟨horder, hrest⟩ := List.forall_mem_cons.mp hrest
    exact ⟨hinv.resolved hrule horder (fillResolvedOrder_resolved hstep), hrest⟩
  · obtain ⟨⟨hqueued, hlimits, hstops⟩, hledger, hmods⟩ := h
    refine ⟨⟨⟨fun order hmem => hqueued order ?_, hlimits, hstops⟩, hledger, hmods⟩,
      fun order hmem => ?_⟩
    · rw [Dict.values_filter] at hmem
      exact (List.mem_filter.mp hmem).1
    · exact hqueued order (List.mem_filter.mp hmem).1

theorem monitorLimitOrders (h : Carries Q P M s) (hmonitor : monitorLimitOrders cfg s = .ok s') :
    Carries Q P M s' := by
  obtain ⟨⟨ledger, remaining⟩, hloop, hpure⟩ := bind_eq_ok.mp hmonitor
  cases hpure
  have hend := foldlM_induct (P := fun rest (state : ExecutionLedger × List PendingOrder) =>
    P state.1 ∧ (∀ order ∈ state.2, Q order) ∧ ∀ order ∈ rest, Q order) ?_
    ⟨h.ledger, by simp, h.orders.limits⟩ hloop
  · exact ⟨⟨h.orders.queued, hend.2.1, h.orders.stops⟩, hend.1, h.modifications⟩
  · rintro order rest ⟨ledger₁, kept⟩ state ⟨hledger, hkept, hrest⟩ hstep
    obtain ⟨horder, hrest⟩ := List.forall_mem_cons.mp hrest
    obtain ⟨-, rfl⟩ | ⟨entryType, fillType, ledger₂, hfill, rfl⟩ := monitorLimitOrder_eq_ok hstep
    · refine ⟨hledger, fun p hp => ?_, hrest⟩
      rcases List.mem_append.mp hp with hmem | hmem
      · exact hkept p hmem
      · rw [List.mem_singleton.mp hmem]
        exact horder
    · exact ⟨hrule.openFill hledger horder hfill, hkept, hrest⟩

theorem monitorStopOrders (hinv : Conserved [] s) (h : Carries Q P M s)
    (hmonitor : monitorStopOrders cfg s = .ok s') : Carries Q P M s' := by
  obtain ⟨⟨s₁, remaining⟩, hloop, hpure⟩ := bind_eq_ok.mp hmonitor
  cases hpure
  have hend := foldlM_induct (P := fun rest (state : TradeSimulator × List PendingOrder) =>
    Carries Q P M { state.1 with activeStopOrders := state.2 } ∧
      ∀ order ∈ rest, Q order ∧
        (order.orderType = some .stop ∨ order.orderType = some .stopLimit)) ?_ ?_ hloop
  · exact hend.1
  · rintro order rest ⟨s₁, kept⟩ state ⟨hcarries, hrest⟩ hstep
    obtain ⟨⟨horder, htype⟩, hrest⟩ := List.forall_mem_cons.mp hrest
    refine ⟨?_, hrest⟩
    obtain ⟨-, rfl⟩ | ⟨placedOrder, s₂, hbecomes, hplaced, rfl⟩ :=
      monitorStopOrder_eq_ok htype hstep
    · refine ⟨⟨hcarries.orders.queued, hcarries.orders.limits, fun p hp => ?_⟩,
        hcarries.ledger, hcarries.modifications⟩
      rcases List.mem_append.mp hp with hmem | hmem
      · exact hcarries.orders.stops p hmem
      · rw [List.mem_singleton.mp hmem]
        exact horder
    · exact hcarries.placed hrule (hrule.becomes horder hbecomes) hplaced
  · exact ⟨⟨⟨h.orders.queued, h.orders.limits, by simp⟩, h.ledger, h.modifications⟩,
      fun order hmem => ⟨h.orders.stops order hmem, hinv.stops order hmem⟩⟩

theorem checkSlTpTriggers {tick : TickData} (h : Carries Q P M s)
    (hcheck : checkSlTpTriggers cfg s tick = .ok s') : Carries Q P M s' := by
  have hledger : P s'.ledger :=
    checkSlTpTriggers_induct hrule.closeFill (hrule.notes rfl List.prefix_rfl) h.ledger hcheck
  obtain ⟨ledger, -, hpure⟩ := bind_eq_ok.mp hcheck
  cases hpure
  exact ⟨h.orders.frame rfl rfl rfl, hledger, h.modifications⟩

theorem onTick {tick : TickData} (hinv : Conserved [] s)
    (hresolved : ∀ resolved, resolvePendingOperations (receiveTick s tick) = .ok resolved →
      Carries Q P M resolved)
    (htick : onTick cfg s tick = .ok s') : Carries Q P M s' := by
  obtain ⟨processed, hprocess, hcheck⟩ := bind_eq_ok.mp htick
  obtain ⟨resolved, drained, monitored, hresolve, hdrain, hlimits, hmonitored, hstops⟩ :=
    processPendingOrders_phases hinv hprocess
  have hdrained := (hresolved resolved hresolve).drainLatencyQueue hrule hdrain
  have hlimited := hdrained.monitorLimitOrders hrule hlimits
  exact (hlimited.monitorStopOrders hrule hmonitored hstops).checkSlTpTriggers hrule hcheck

end Carries

/-- The resolution of scheduled operations keeps what applying a modification keeps. -/
theorem AllOrders.resolvePendingOperations (h : AllOrders Q s)
    (hresolves : ∀ {order msc}, Q order → Q (resolveModification msc order))
    (hresolve : resolvePendingOperations s = .ok s') : AllOrders Q s' := by
  obtain ⟨tick, portfolio, modifications, -, -, rfl⟩ := resolvePendingOperations_eq_ok hresolve
  refine ⟨h.queued, fun order hmem => ?_, fun order hmem => ?_⟩
  · obtain ⟨before, hbefore, rfl, -⟩ := mem_resolveActiveOrders.mp hmem
    exact hresolves (h.limits before hbefore)
  · obtain ⟨before, hbefore, rfl, -⟩ := mem_resolveActiveOrders.mp hmem
    exact hresolves (h.stops before hbefore)

section Modifications

/-! One turn of the loop over the scheduled position modifications touches one position. -/

theorem portfolio_modifyPosition_ne (pm : PortfolioManager) {positionId k : String}
    (newStopLoss newTakeProfit : Setting (Option ℚ)) (hk : k ≠ positionId) :
    (pm.modifyPosition positionId newStopLoss newTakeProfit).1.getPosition k =
      pm.getPosition k := by
  unfold PortfolioManager.modifyPosition
  cases pm.getPosition positionId with
  | none => rfl
  | some position =>
      simp only
      cases pm.currentPrices.get? position.symbol with
      | none => rfl
      | some quote =>
          simp only
          split
          · rfl
          · exact Dict.get?_set_ne _ _ hk

/-- A modification sets both levels of its position, or changes nothing. -/
theorem portfolio_modifyPosition_self (pm : PortfolioManager) (positionId : String)
    (newStopLoss newTakeProfit : Setting (Option ℚ)) :
    (pm.modifyPosition positionId newStopLoss newTakeProfit).1 = pm ∨
      ∃ position, pm.getPosition positionId = some position ∧
        (pm.modifyPosition positionId newStopLoss newTakeProfit).1.getPosition positionId =
          some { position with
            stopLoss := newStopLoss.getD position.stopLoss
            takeProfit := newTakeProfit.getD position.takeProfit } := by
  unfold PortfolioManager.modifyPosition
  cases pm.getPosition positionId with
  | none => exact .inl rfl
  | some position =>
      simp only
      cases pm.currentPrices.get? position.symbol with
      | none => exact .inl rfl
      | some quote =>
          simp only
          split
          · exact .inl rfl
          · exact .inr ⟨position, rfl, Dict.get?_set_self _ _ _⟩

/-- What the loop over the scheduled modifications did about a position: nothing, or it dropped
the modification, having set its levels if they were admissible. -/
def Handled (before after : PortfolioManager × Dict String ModificationRequest) (k : String) :
    Prop :=
  (after.1.getPosition k = before.1.getPosition k ∧ after.2.get? k = before.2.get? k) ∨
    (after.2.get? k = none ∧ ∃ mod, before.2.get? k = some mod ∧
      (after.1.getPosition k = before.1.getPosition k ∨
        ∃ position, before.1.getPosition k = some position ∧
          after.1.getPosition k = some { position with
            stopLoss := mod.newStopLoss, takeProfit := mod.newTakeProfit }))

theorem resolvePositionModification_handled (msc : ℤ)
    (state : PortfolioManager × Dict String ModificationRequest) (positionId k : String) :
    Handled state (resolvePositionModification msc state positionId) k := by
  unfold resolvePositionModification
  split
  · exact .inl ⟨rfl, rfl⟩
  · next mod hmod =>
      split
      · by_cases hk : k = positionId
        · subst hk
          refine .inr ⟨Dict.get?_erase_self _ _, mod, hmod, ?_⟩
          refine (portfolio_modifyPosition_self state.1 k _ _).imp (fun hsame => ?_) id
          exact congrArg (fun pm => PortfolioManager.getPosition pm k) hsame
        · exact .inl ⟨portfolio_modifyPosition_ne _ _ _ hk, Dict.get?_erase_ne _ hk⟩
      · exact .inl ⟨rfl, rfl⟩

theorem Handled.trans {first second third : PortfolioManager × Dict String ModificationRequest}
    {k : String} (h : Handled first second k) (h' : Handled second third k) :
    Handled first third k := by
  rcases h with ⟨hposition, hmod⟩ | ⟨hnone, mod, hmod, hposition⟩
  · unfold Handled at h' ⊢
    rw [← hposition, ← hmod]
    exact h'
  · rcases h' with ⟨hposition', hmod'⟩ | ⟨-, mod', hmod', -⟩
    · refine .inr ⟨hmod'.trans hnone, mod, hmod, ?_⟩
      rw [hposition']
      exact hposition
    · rw [hnone] at hmod'
      cases hmod'

theorem resolvePositionModifications_handled (msc : ℤ) (keys : List String)
    (state : PortfolioManager × Dict String ModificationRequest) (k : String) :
    Handled state (keys.foldl (resolvePositionModification msc) state) k := by
  induction keys generalizing state with
  | nil => exact .inl ⟨rfl, rfl⟩
  | cons key keys ih =>
      rw [List.foldl_cons]
      exact (resolvePositionModification_handled msc state key k).trans (ih _)

def scheduled (s : TradeSimulator) : PortfolioManager × Dict String ModificationRequest :=
  (s.ledger.portfolio, s.pendingPositionModifications)

theorem resolvePendingOperations_handled (hresolve : resolvePendingOperations s = .ok s')
    (k : String) : Handled (scheduled s) (scheduled s') k := by
  obtain ⟨tick, portfolio, modifications, -, hloop, rfl⟩ := resolvePendingOperations_eq_ok hresolve
  have hhandled := resolvePositionModifications_handled (getTickMsc tick)
    s.pendingPositionModifications.keys (scheduled s) k
  unfold scheduled at hhandled
  rw [← hloop] at hhandled
  exact hhandled

end Modifications

end Finiex.SimulatorOrders
