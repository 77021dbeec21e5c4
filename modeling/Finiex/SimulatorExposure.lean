import Finiex.SimulatorLedger

namespace Finiex.SimulatorExposure

open Finiex.Types
open Finiex.Lib
open Finiex.Lib.Run
open Finiex.Positions
open Finiex.Orders
open Finiex.OrderBooks
open Finiex.Portfolio
open Finiex.Portfolio.PortfolioManager
open Finiex.PortfolioFrames
open Finiex.Executor
open Finiex.ExecutorFills
open Finiex.AuditTrail
open Finiex.Simulator
open Finiex.SimulatorSpecs
open Finiex.SimulatorSteps
open Finiex.SimulatorConservation
open Finiex.SimulatorLedger

/-- The position of the order is open, or the order is queued or rests. -/
def Exposes (s : TradeSimulator) (id : String) : Prop :=
  s.ledger.portfolio.getPosition id ≠ none ∨ id ∈ openIds s.latencyQueue.values ∨
    id ∈ orderIds s.activeLimitOrders ∨ id ∈ orderIds s.activeStopOrders

def exposure (s : TradeSimulator) : ℕ :=
  s.ledger.portfolio.openPositions.size + (openIds s.latencyQueue.values).length +
    s.activeLimitOrders.length + s.activeStopOrders.length

/-- Whatever exposes the account is one and the same order. -/
def SingleExposure (s : TradeSimulator) : Prop := ∀ a b, Exposes s a → Exposes s b → a = b

section Acceptance

variable {cfg : SimulatorConfig} {s s' : TradeSimulator} {ids : List String}

/-- The ledger has accepted these orders. -/
abbrev Accepts (ids : List String) (ledger : ExecutionLedger) : Prop := acceptedIds ledger = ids

theorem Accepts.ends {ledger ledger' : ExecutionLedger} {filled rejected : List String}
    (h : Accepts ids ledger) (hends : Ends ledger ledger' filled rejected) :
    Accepts ids ledger' := by
  rw [Accepts, hends.acceptedIds_eq, List.append_nil, h]

theorem Accepts.openFill {market : MarketState} {ledger ledger' : ExecutionLedger}
    {order : PendingOrder} {fillPrice : Option ℚ} {entryType : EntryType} {fillType : FillType}
    (h : Accepts ids ledger)
    (hfill : fillOpenOrder cfg.executor market ledger order fillPrice entryType fillType =
      .ok ledger') : Accepts ids ledger' := by
  rcases fillOpenOrder_ends hfill with hends | hends
  · exact h.ends hends
  · exact h.ends hends

theorem Accepts.closeFill {market : MarketState} {ledger ledger' : ExecutionLedger}
    {order : PendingOrder} {fillPrice : Option ℚ} {closeReason : CloseReason}
    (h : Accepts ids ledger)
    (hfill : fillCloseOrder cfg.executor market ledger order fillPrice closeReason =
      .ok ledger') : Accepts ids ledger' :=
  h.ends (fillCloseOrder_ends hfill)

theorem Accepts.resolved {order : PendingOrder} (h : Accepts ids s.ledger)
    (hresolved : Resolved cfg s order s') : Accepts ids s'.ledger := by
  cases hresolved with
  | stressRejected hopen =>
      exact (h.ends (ends_rejectByStressTest cfg s.ledger order _)).ends (ends_outcome _ order _)
  | @activated calls placedOrder placed hopen hbecomes hplaced =>
      have hasked : Accepts ids { s with stressCalls := calls }.ledger := h
      exact (hplaced.ledger_induct Accepts.openFill hasked).ends (ends_outcome _ order _)
  | closed hclose hfill => exact (h.closeFill hfill).ends (ends_outcome _ order _)

theorem Accepts.drainLatencyQueue {msc : ℤ} (h : Accepts ids s.ledger)
    (hdrain : drainLatencyQueue cfg s msc = .ok s') : Accepts ids s'.ledger := by
  refine foldlM_induct (P := fun _ s => Accepts ids s.ledger) ?_ h hdrain
  intro order rest s₁ s₂ hbefore hstep
  exact hbefore.resolved (fillResolvedOrder_resolved hstep)

theorem Accepts.resolvePendingOperations (h : Accepts ids s.ledger)
    (hresolve : resolvePendingOperations s = .ok s') : Accepts ids s'.ledger := by
  obtain ⟨tick, portfolio, modifications, -, -, rfl⟩ := resolvePendingOperations_eq_ok hresolve
  have hquiet : ∀ orders, (resolutionEvents (getTickMsc tick) orders).filterMap acceptedId = [] := by
    intro orders
    rw [List.filterMap_eq_nil_iff]
    intro event hevent
    obtain ⟨orderId, mod, rfl⟩ | ⟨orderId, direction, rfl⟩ := mem_resolutionEvents hevent
    · rfl
    · rfl
  simp only [Accepts, acceptedIds, List.filterMap_append, hquiet, List.append_nil]
  exact h

theorem Accepts.onTick {tick : TickData} (hinv : Conserved [] s) (h : Accepts ids s.ledger)
    (htick : onTick cfg s tick = .ok s') : Accepts ids s'.ledger := by
  obtain ⟨processed, hprocess, hcheck⟩ := bind_eq_ok.mp htick
  obtain ⟨resolved, drained, monitored, hresolve, hdrain, hlimits, hmonitored, hstops⟩ :=
    processPendingOrders_phases hinv hprocess
  have hreceived : Accepts ids (receiveTick s tick).ledger := h
  have hdrained := (hreceived.resolvePendingOperations hresolve).drainLatencyQueue hdrain
  have hlimited := monitorLimitOrders_induct Accepts.openFill hdrained hlimits
  have hstopped :=
    monitorStopOrders_induct Accepts.openFill hlimited hmonitored.stops hstops
  exact checkSlTpTriggers_induct Accepts.closeFill (fun hbefore => hbefore)
    hstopped hcheck

theorem stepped_accepts {op : SimulatorOp} (hinv : Conserved [] s) (hstep : Stepped cfg s op s')
    (hop : ∀ request, op ≠ .openOrder request) :
    acceptedIds s'.ledger = acceptedIds s.ledger := by
  cases hstep with
  | ticked htick => exact Accepts.onTick hinv rfl htick
  | beat hbeat =>
      obtain ⟨rfl, -⟩ | ⟨_, _, resolved, -, -, hresolve, hdrain⟩ := heartbeat_eq_ok hbeat
      · rfl
      · have hbefore : Accepts (acceptedIds s.ledger) s.ledger := rfl
        exact (hbefore.resolvePendingOperations hresolve).drainLatencyQueue hdrain
  | clockSet => rfl
  | @refused request => exact absurd rfl (hop request)
  | @accepted request => exact absurd rfl (hop request)
  | closeAccepted hposition htick =>
      simp [acceptedIds, storeOrder, ExecutionLedger.record, acceptedId, pendingCloseOrder,
        PendingOrder.isOpen]
  | ignored hclose => rfl
  | limitScheduled hfind hstate hcall => rfl
  | stopScheduled hfind hstate hcall => rfl
  | positionScheduled => rfl
  | positionModified => rfl
  | guardRecorded =>
      simp [acceptedIds, ExecutionLedger.recordGuardRejection, ExecutionLedger.appendResult,
        ExecutionLedger.checkOrderHistoryLimit, acceptedId]
  | queried hensure => rfl

end Acceptance

section Positions

variable {cfg : ExecutorConfig} {ledger ledger' : ExecutionLedger}

theorem move_positions_filled (h : LedgerMove cfg ledger ledger') (k : String)
    (hk : ledger'.portfolio.getPosition k ≠ none) :
    ledger.portfolio.getPosition k ≠ none ∨
      (filledIds ledger).count k < (filledIds ledger').count k := by
  have hends : ∀ {filled rejected : List String}, Ends ledger ledger' filled rejected →
      ledger.portfolio.getPosition k ≠ none ∨
        (filledIds ledger).count k < (filledIds ledger').count k := by
    intro filled rejected hends
    refine (hends.positions k hk).imp id fun hfilled => ?_
    rw [hends.filledIds_eq, List.count_append]
    have hpos := List.count_pos_iff.mpr hfilled
    omega
  cases h with
  | openFill hfill =>
      rcases fillOpenOrder_ends hfill with hfilled | hrejected
      · exact hends hfilled
      · exact hends hrejected
  | closeFill hfill => exact hends (fillCloseOrder_ends hfill)
  | refreshed hensure => exact .inl ((ensure_keeps_positions hensure).open_before k hk)
  | levelsModified positionId stopLoss takeProfit =>
      exact .inl ((modifyPosition_positions ledger.portfolio _ _ _).2 k hk)
  | priced tick => exact .inl hk
  | numbered symbol => exact .inl hk
  | noted events hportfolio hlog hevents =>
      rw [hportfolio] at hk
      exact .inl hk

theorem filledIds_count_le (h : Path cfg ledger ledger') (k : String) :
    (filledIds ledger).count k ≤ (filledIds ledger').count k :=
  ((h.log_grows.sublist.filterMap filledId).count_le k)

theorem path_positions_filled (h : Path cfg ledger ledger') (k : String)
    (hk : ledger'.portfolio.getPosition k ≠ none) :
    ledger.portfolio.getPosition k ≠ none ∨
      (filledIds ledger).count k < (filledIds ledger').count k := by
  induction h with
  | refl => exact .inl hk
  | tail hpath hmove ih =>
      rcases move_positions_filled hmove k hk with hbefore | hfilled
      · have hgrows := filledIds_count_le (.single hmove) k
        exact (ih hbefore).imp id fun hearlier => by omega
      · have hgrows := filledIds_count_le hpath k
        exact .inr (by omega)

end Positions

section Steps

variable {cfg : SimulatorConfig} {s s' : TradeSimulator}

theorem exposes_accepted (h : Conserved [] s) {id : String} (hid : Exposes s id) :
    id ∈ acceptedIds s.ledger := by
  apply h.mem_accepted
  rcases hid with hposition | hqueued | hlimit | hstop
  · have hfilled := h.positions id hposition
    simp only [places, List.mem_append, hfilled, true_or, or_true]
  · simp only [places, List.mem_append, hqueued, true_or]
  · simp only [places, List.mem_append, hlimit, true_or, or_true]
  · simp only [places, List.mem_append, hstop, true_or, or_true]

/-- Where no order is accepted, nothing starts to expose the account. -/
theorem exposes_of_path (h : Conserved [] s) (h' : Conserved [] s')
    (hpath : Path cfg.executor s.ledger s'.ledger)
    (haccepted : acceptedIds s'.ledger = acceptedIds s.ledger) {id : String}
    (hid : Exposes s' id) : Exposes s id := by
  have hmem := exposes_accepted h' hid
  have hone : (acceptedIds s'.ledger).count id = 1 := List.count_eq_one_of_mem h'.nodup hmem
  have hbefore := h.located id
  have hafter := h'.located id
  rw [haccepted] at hone hafter
  simp only [places, List.count_append, List.count_nil] at hbefore hafter
  -- an order that has ended stays ended, so it is neither queued nor resting afterwards
  have hfilled := filledIds_count_le hpath id
  have hrejected : (rejectedIds s.ledger).count id ≤ (rejectedIds s'.ledger).count id :=
    (hpath.log_grows.sublist.filterMap rejectedId).count_le id
  have hcancelled : (cancelledIds s.ledger).count id ≤ (cancelledIds s'.ledger).count id :=
    (hpath.log_grows.sublist.filterMap cancelledId).count_le id
  unfold Exposes
  simp only [← List.count_pos_iff]
  by_contra hnone
  simp only [not_or] at hnone
  obtain ⟨hposition, hqueued, hlimit, hstop⟩ := hnone
  simp only [Exposes, ← List.count_pos_iff] at hid
  rcases hid with hopen | hqueued' | hlimit' | hstop'
  · have hnow := List.count_pos_iff.mpr (h'.positions id hopen)
    rcases path_positions_filled hpath id hopen with hwas | hnew
    · exact hposition hwas
    · omega
  · omega
  · omega
  · omega

theorem exposes_of_step {op : SimulatorOp} (h : Conserved [] s) (hstep : step cfg s op = .ok s')
    (hop : ∀ request, op ≠ .openOrder request) {id : String} (hid : Exposes s' id) :
    Exposes s id := by
  have hstepped := step_stepped hstep
  exact exposes_of_path h (stepped_conserved h hstepped) (path_stepped h hstepped)
    (stepped_accepts h hstepped hop) hid

theorem exposes_of_openOrder {request : OpenOrderRequest} (h : Conserved [] s)
    (hstep : step cfg s (.openOrder request) = .ok s') :
    ∃ orderId, ∀ id, Exposes s' id → Exposes s id ∨ id = orderId := by
  obtain ⟨⟨s₁, result⟩, hopen, rfl⟩ := map_eq_ok.mp hstep
  obtain ⟨normalized, -, ⟨reason, message, rfl⟩ | ⟨tick, htick, hvalid, rfl⟩⟩ :=
    openOrder_eq_ok hopen
  · exact ⟨"", fun id hid => .inl hid⟩
  · let order := pendingOpenOrder (issuedId s normalized.symbol) normalized tick
      (cfg.inboundDelay s.delaysDrawn)
    refine ⟨order.pendingOrderId, fun id hid => ?_⟩
    have hfresh : order.pendingOrderId ∉ openIds s.latencyQueue.values := fun hmem =>
      h.issuedId_fresh normalized.symbol (exposes_accepted h (.inr (.inl hmem)))
    rcases hid with hposition | hqueued | hlimit | hstop
    · exact .inl (.inl hposition)
    · have hcount : (openIds (s.latencyQueue.set order.pendingOrderId order).values).count id =
          (openIds [order]).count id + (openIds s.latencyQueue.values).count id :=
        openIds_set h.keyed hfresh id
      rw [openIds_singleton rfl] at hcount
      by_cases heq : id = order.pendingOrderId
      · exact .inr heq
      · have hpos : 0 < (openIds (s.latencyQueue.set order.pendingOrderId order).values).count id :=
          List.count_pos_iff.mpr hqueued
        rw [List.count_singleton, if_neg (by simpa using fun h => heq h.symm), Nat.zero_add]
          at hcount
        rw [hcount] at hpos
        exact .inl (.inr (.inl (List.count_pos_iff.mp hpos)))
    · exact .inl (.inr (.inr (.inl hlimit)))
    · exact .inl (.inr (.inr (.inr hstop)))

/-- New orders are placed only where nothing exposes the account. -/
def OpensWhenFlat (s : TradeSimulator) (op : SimulatorOp) : Prop :=
  ∀ request, op = .openOrder request → ∀ id, ¬ Exposes s id

theorem singleExposure_step {op : SimulatorOp} (h : Conserved [] s) (hsingle : SingleExposure s)
    (hflat : OpensWhenFlat s op) (hstep : step cfg s op = .ok s') : SingleExposure s' := by
  intro a b ha hb
  by_cases hop : ∃ request, op = .openOrder request
  · obtain ⟨request, rfl⟩ := hop
    obtain ⟨orderId, hnew⟩ := exposes_of_openOrder h hstep
    have hnone := hflat request rfl
    have hnewest : ∀ id, Exposes s' id → id = orderId := fun id hid =>
      (hnew id hid).resolve_left (hnone id)
    rw [hnewest a ha, hnewest b hb]
  · have hother : ∀ request, op ≠ .openOrder request := fun request heq => hop ⟨request, heq⟩
    exact hsingle a b (exposes_of_step h hstep hother ha) (exposes_of_step h hstep hother hb)

end Steps

section Counting

variable {s : TradeSimulator}

def exposedIds (s : TradeSimulator) : List String :=
  s.ledger.portfolio.openPositions.keys ++ openIds s.latencyQueue.values ++
    orderIds s.activeLimitOrders ++ orderIds s.activeStopOrders

theorem mem_exposedIds {id : String} : id ∈ exposedIds s ↔ Exposes s id := by
  have hkeys : id ∈ s.ledger.portfolio.openPositions.keys ↔
      s.ledger.portfolio.getPosition id ≠ none := by
    rw [getPosition, ne_eq, Dict.get?_eq_none_iff, not_not]
  simp only [exposedIds, List.mem_append, hkeys, Exposes, or_assoc]

theorem length_exposedIds (s : TradeSimulator) : (exposedIds s).length = exposure s := by
  simp [exposedIds, exposure, Dict.keys, Dict.size, orderIds, Nat.add_assoc]

/-- A position and its order are never in two places at once. -/
theorem nodup_exposedIds (h : Conserved [] s) : (exposedIds s).Nodup := by
  rw [List.nodup_iff_count_le_one]
  intro id
  have hplaces := h.count_places_le_one id
  have hkeys := List.nodup_iff_count_le_one.mp s.ledger.portfolio.openPositions.nodup id
  have hfilled : 0 < s.ledger.portfolio.openPositions.keys.count id →
      0 < (filledIds s.ledger).count id := by
    intro hpos
    refine List.count_pos_iff.mpr (h.positions id ?_)
    rw [getPosition, ne_eq, Dict.get?_eq_none_iff, not_not]
    exact List.count_pos_iff.mp hpos
  change s.ledger.portfolio.openPositions.keys.count id ≤ 1 at hkeys
  simp only [places, exposedIds, List.count_append] at hplaces ⊢
  omega

theorem exposure_le_one (h : Conserved [] s) (hsingle : SingleExposure s) : exposure s ≤ 1 := by
  have hnodup := nodup_exposedIds h
  have hsame : ∀ a ∈ exposedIds s, ∀ b ∈ exposedIds s, a = b := fun a ha b hb =>
    hsingle a b (mem_exposedIds.mp ha) (mem_exposedIds.mp hb)
  rw [← length_exposedIds]
  match hids : exposedIds s with
  | [] => exact Nat.zero_le 1
  | [_] => exact le_rfl
  | a :: b :: rest =>
      rw [hids] at hnodup hsame
      have hne : a ≠ b := fun heq => (List.nodup_cons.mp hnodup).1 (heq ▸ List.mem_cons_self)
      exact absurd (hsame a (by simp) b (by simp)) hne

theorem singleExposure_new {cfg : SimulatorConfig} : SingleExposure (Simulator.new cfg) := by
  intro a b ha
  rcases ha with hposition | hqueued | hlimit | hstop
  · exact absurd rfl hposition
  · cases hqueued
  · cases hlimit
  · cases hstop

end Counting

end Finiex.SimulatorExposure
