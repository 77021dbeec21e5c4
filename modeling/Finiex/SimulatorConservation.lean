import Finiex.AuditTrail
import Finiex.SimulatorSteps

namespace Finiex.SimulatorConservation

open Finiex.Types
open Finiex.Lib
open Finiex.Lib.Run
open Finiex.Positions
open Finiex.Orders
open Finiex.OrderBooks
open Finiex.Portfolio
open Finiex.Portfolio.PortfolioManager
open Finiex.PortfolioLedger
open Finiex.PortfolioFrames
open Finiex.Executor
open Finiex.ExecutorFills
open Finiex.AuditTrail
open Finiex.Simulator
open Finiex.SimulatorSpecs
open Finiex.SimulatorSteps

/-- Every place an accepted order can be in, by order id. -/
def places (s : TradeSimulator) : List String :=
  openIds s.latencyQueue.values ++ orderIds s.activeLimitOrders ++ orderIds s.activeStopOrders ++
    filledIds s.ledger ++ rejectedIds s.ledger ++ cancelledIds s.ledger

/-- The invariant of order processing, while the orders `inHand` are between two places. -/
structure Conserved (inHand : List String) (s : TradeSimulator) : Prop where
  sent : s.ledger.ordersSent = (acceptedIds s.ledger).length + (refusedIds s.ledger).length
  executed : s.ledger.ordersExecuted = (filledIds s.ledger).length
  rejected : s.ledger.ordersRejected = (rejectedIds s.ledger).length +
    (refusedIds s.ledger).length + (guardRejections s.ledger).length
  located : ∀ id, (acceptedIds s.ledger).count id = inHand.count id + (places s).count id
  nodup : (acceptedIds s.ledger).Nodup
  issued : ∀ id ∈ acceptedIds s.ledger, ∃ symbol n,
    n ≤ s.ledger.portfolio.positionCounter ∧ id = positionIdOf symbol n
  keyed : ∀ k p, s.latencyQueue.get? k = some p → p.pendingOrderId = k
  positions : ∀ k, s.ledger.portfolio.getPosition k ≠ none → k ∈ filledIds s.ledger
  stops : ∀ p ∈ s.activeStopOrders, p.orderType = some .stop ∨ p.orderType = some .stopLimit

namespace Conserved

variable {inHand : List String} {s : TradeSimulator}

/-- The invariant looks at the ledger, the queue and the resting orders only. -/
theorem frame {s' : TradeSimulator} (h : Conserved inHand s) (hledger : s'.ledger = s.ledger)
    (hqueue : s'.latencyQueue = s.latencyQueue)
    (hlimits : s'.activeLimitOrders = s.activeLimitOrders)
    (hstops : s'.activeStopOrders = s.activeStopOrders) : Conserved inHand s' := by
  obtain ⟨hsent, hexecuted, hrejected, hlocated, hnodup, hissued, hkeyed, hpositions, htypes⟩ := h
  constructor <;> simp only [places, hledger, hqueue, hlimits, hstops] <;> assumption

/-- Newly accepted orders are in hand, and orders in hand end as the ledger says. -/
theorem of_moves {ledger' : ExecutionLedger}
    {accepted filled rejected refused guarded inHand' : List String} (h : Conserved inHand s)
    (hmoves : Moves s.ledger ledger' accepted filled rejected refused guarded)
    (hfresh : (acceptedIds s.ledger ++ accepted).Nodup)
    (hissued : ∀ id ∈ accepted, ∃ symbol n,
      n ≤ ledger'.portfolio.positionCounter ∧ id = positionIdOf symbol n)
    (hhand : ∀ id, inHand.count id + accepted.count id =
      filled.count id + rejected.count id + inHand'.count id) :
    Conserved inHand' { s with ledger := ledger' } where
  sent := by
    rw [hmoves.sent, hmoves.acceptedIds_eq, hmoves.refusedIds_eq, List.length_append,
      List.length_append, h.sent]
    omega
  executed := by
    rw [hmoves.executed, hmoves.filledIds_eq, List.length_append, h.executed]
  rejected := by
    rw [hmoves.rejected, hmoves.rejectedIds_eq, hmoves.refusedIds_eq, hmoves.guardRejections_eq,
      List.length_append, List.length_append, List.length_append, h.rejected]
    omega
  located := fun id => by
    have hlocated := h.located id
    have hcount := hhand id
    simp only [places, List.count_append] at hlocated ⊢
    rw [hmoves.acceptedIds_eq, hmoves.filledIds_eq, hmoves.rejectedIds_eq,
      hmoves.cancelledIds_eq, List.count_append, List.count_append, List.count_append]
    omega
  nodup := by
    rw [hmoves.acceptedIds_eq]
    exact hfresh
  issued := fun id hid => by
    rw [hmoves.acceptedIds_eq] at hid
    rcases List.mem_append.mp hid with hold | hnew
    · obtain ⟨symbol, n, hn, heq⟩ := h.issued id hold
      exact ⟨symbol, n, hn.trans hmoves.counter, heq⟩
    · exact hissued id hnew
  keyed := h.keyed
  positions := fun k hk => by
    rw [hmoves.filledIds_eq, List.mem_append]
    exact (hmoves.positions k hk).imp (h.positions k) id
  stops := h.stops

theorem of_ends {ledger' : ExecutionLedger} {filled rejected inHand' : List String}
    (h : Conserved inHand s) (hends : Ends s.ledger ledger' filled rejected)
    (hhand : ∀ id, inHand.count id =
      filled.count id + rejected.count id + inHand'.count id) :
    Conserved inHand' { s with ledger := ledger' } :=
  h.of_moves hends (by simpa using h.nodup) (by simp) hhand

theorem of_quiet {ledger' : ExecutionLedger} (h : Conserved inHand s)
    (hends : Ends s.ledger ledger' [] []) : Conserved inHand { s with ledger := ledger' } :=
  h.of_ends hends fun id => by simp

end Conserved

section Phases

variable {cfg : SimulatorConfig} {s s' : TradeSimulator}

theorem Conserved.openFill {order : PendingOrder} {inHand : List String}
    {fillPrice : Option ℚ} {entryType : EntryType} {fillType : FillType}
    {ledger : ExecutionLedger} (h : Conserved (order.pendingOrderId :: inHand) s)
    (hfill : fillOpenOrder cfg.executor s.market s.ledger order fillPrice entryType fillType =
      .ok ledger) : Conserved inHand { s with ledger := ledger } := by
  rcases fillOpenOrder_ends hfill with hends | hends
  · exact h.of_ends hends fun id => by
      simp only [List.count_cons, List.count_nil]
      omega
  · exact h.of_ends hends fun id => by
      simp only [List.count_cons, List.count_nil]
      omega

theorem Conserved.placed {order : PendingOrder} {inHand : List String}
    (h : Conserved (order.pendingOrderId :: inHand) s) (hplaced : Placed cfg s order s') :
    Conserved inHand s' := by
  cases hplaced with
  | filled htype hprice hfill => exact h.openFill hfill
  | restsAsLimit htype hnot =>
      refine ⟨h.sent, h.executed, h.rejected, fun id => ?_, h.nodup, h.issued, h.keyed,
        h.positions, h.stops⟩
      have hlocated := h.located id
      simp only [places, orderIds_append, orderIds_cons, orderIds_nil, List.count_append,
        List.count_cons, List.count_nil] at hlocated ⊢
      omega
  | restsAsStop htype hnot =>
      refine ⟨h.sent, h.executed, h.rejected, fun id => ?_, h.nodup, h.issued, h.keyed,
        h.positions, fun p hp => ?_⟩
      · have hlocated := h.located id
        simp only [places, orderIds_append, orderIds_cons, orderIds_nil, List.count_append,
          List.count_cons, List.count_nil] at hlocated ⊢
        omega
      · rcases List.mem_append.mp hp with hmem | hmem
        · exact h.stops p hmem
        · rw [List.mem_singleton.mp hmem]
          exact htype

theorem ends_outcome (ledger : ExecutionLedger) (order : PendingOrder)
    (outcome : PendingOrderOutcome) :
    Ends ledger (ledger.record (.outcome order outcome)) [] [] :=
  moves_of_log [.outcome order outcome] rfl rfl rfl rfl rfl le_rfl fun _ hk => .inl hk

theorem ends_rejectByStressTest (cfg : SimulatorConfig) (ledger : ExecutionLedger)
    (order : PendingOrder) (rejectionCount : ℕ) :
    Ends ledger (rejectByStressTest cfg ledger order rejectionCount) []
      [order.pendingOrderId] :=
  moves_of_log [.result .stressTest (createRejectionResult order.pendingOrderId .brokerError
    (.stressTest rejectionCount))] rfl rfl rfl rfl rfl le_rfl fun _ hk => .inl hk

theorem Conserved.recordOutcome {inHand : List String} (h : Conserved inHand s)
    (order : PendingOrder) (outcome : PendingOrderOutcome) :
    Conserved inHand (recordOutcome s order outcome) :=
  h.of_quiet (ends_outcome s.ledger order outcome)

theorem openIds_singleton {order : PendingOrder} (hopen : order.orderAction = .openOrder) :
    openIds [order] = [order.pendingOrderId] := by
  simp [openIds, orderIds, PendingOrder.isOpen, hopen]

theorem Conserved.resolved {order : PendingOrder} {rest : List PendingOrder}
    (h : Conserved (openIds (order :: rest)) s) (hresolved : Resolved cfg s order s') :
    Conserved (openIds rest) s' := by
  rw [openIds_cons] at h
  cases hresolved with
  | @stressRejected calls rejections rejectionCount hopen =>
      rw [openIds_singleton hopen] at h
      have hasked : Conserved ([order.pendingOrderId] ++ openIds rest)
          { s with stressCalls := calls, stressRejections := rejections } :=
        h.frame rfl rfl rfl rfl
      have hended : Conserved (openIds rest)
          { s with
            stressCalls := calls
            stressRejections := rejections
            ledger := rejectByStressTest cfg s.ledger order rejectionCount } :=
        hasked.of_ends (ends_rejectByStressTest cfg s.ledger order rejectionCount) fun id => by
          simp only [List.count_append, List.count_nil]
          omega
      exact hended.recordOutcome order .rejected
  | @activated calls placedOrder placed hopen hbecomes hplaced =>
      rw [openIds_singleton hopen, ← hbecomes.id_eq] at h
      have hasked : Conserved ([placedOrder.pendingOrderId] ++ openIds rest)
          { s with stressCalls := calls } := h.frame rfl rfl rfl rfl
      exact (hasked.placed hplaced).recordOutcome order .filled
  | closed hclose hfill =>
      refine Conserved.recordOutcome ?_ order .filled
      refine h.of_ends (fillCloseOrder_ends hfill) fun id => ?_
      have hnone : openIds [order] = [] := by simp [openIds, orderIds, PendingOrder.isOpen, hclose]
      simp only [hnone, List.nil_append, List.count_nil]
      omega

theorem Conserved.drainLatencyQueue {msc : ℤ} (h : Conserved [] s)
    (hdrain : drainLatencyQueue cfg s msc = .ok s') : Conserved [] s' := by
  refine foldlM_induct (P := fun rest s => Conserved (openIds rest) s) ?_ ?_ hdrain
  · intro order rest s₁ s₂ hinv hstep
    exact hinv.resolved (fillResolvedOrder_resolved hstep)
  · refine ⟨h.sent, h.executed, h.rejected, fun id => ?_, h.nodup, h.issued,
      fun k p hget => h.keyed k p (Dict.get?_of_filter hget), h.positions, h.stops⟩
    have hlocated := h.located id
    have hsplit := count_openIds_filter (latencyElapsed msc) s.latencyQueue.values id
    simp only [places, Dict.values_filter, List.count_append,
      List.count_nil] at hlocated ⊢
    omega

theorem Conserved.monitorLimitOrders (h : Conserved [] s)
    (hmonitor : monitorLimitOrders cfg s = .ok s') : Conserved [] s' := by
  obtain ⟨⟨ledger, remaining⟩, hloop, hpure⟩ := bind_eq_ok.mp hmonitor
  cases hpure
  refine foldlM_induct (P := fun rest state => Conserved (orderIds rest)
    { s with ledger := state.1, activeLimitOrders := state.2 }) ?_ ?_ hloop
  · rintro order rest ⟨ledger₁, kept⟩ state hinv hstep
    obtain ⟨hnot, rfl⟩ | ⟨entryType, fillType, ledger₂, hfill, rfl⟩ := monitorLimitOrder_eq_ok hstep
    · refine ⟨hinv.sent, hinv.executed, hinv.rejected, fun id => ?_, hinv.nodup, hinv.issued,
        hinv.keyed, hinv.positions, hinv.stops⟩
      have hlocated := hinv.located id
      simp only [places, orderIds_append, orderIds_cons, orderIds_nil, List.count_append,
        List.count_cons, List.count_nil] at hlocated ⊢
      omega
    · exact hinv.openFill hfill
  · refine ⟨h.sent, h.executed, h.rejected, fun id => ?_, h.nodup, h.issued, h.keyed,
      h.positions, h.stops⟩
    have hlocated := h.located id
    simp only [places, orderIds_nil, List.count_append, List.count_nil] at hlocated ⊢
    omega

theorem Conserved.monitorStopOrders (h : Conserved [] s)
    (hmonitor : monitorStopOrders cfg s = .ok s') : Conserved [] s' := by
  obtain ⟨⟨s₁, remaining⟩, hloop, hpure⟩ := bind_eq_ok.mp hmonitor
  cases hpure
  have hend := foldlM_induct (P := fun rest (state : TradeSimulator × List PendingOrder) =>
    (∀ p ∈ rest, p.orderType = some .stop ∨ p.orderType = some .stopLimit) ∧
      Conserved (orderIds rest) { state.1 with activeStopOrders := state.2 }) ?_ ?_ hloop
  · exact hend.2
  · rintro order rest ⟨s₁, kept⟩ state ⟨htypes, hinv⟩ hstep
    have htype := htypes order List.mem_cons_self
    refine ⟨fun p hp => htypes p (List.mem_cons_of_mem order hp), ?_⟩
    obtain ⟨hnot, rfl⟩ | ⟨placedOrder, s₂, hbecomes, hplaced, rfl⟩ :=
      monitorStopOrder_eq_ok htype hstep
    · have hplaced : Placed cfg { s₁ with activeStopOrders := kept } order
          { s₁ with activeStopOrders := kept ++ [order] } := .restsAsStop htype hnot
      exact hinv.placed hplaced
    · have hids : orderIds (order :: rest) = placedOrder.pendingOrderId :: orderIds rest := by
        rw [hbecomes.id_eq]
        rfl
      rw [hids] at hinv
      exact hinv.placed hplaced
  · refine ⟨h.stops, h.sent, h.executed, h.rejected, fun id => ?_, h.nodup, h.issued, h.keyed,
      h.positions, by simp⟩
    have hlocated := h.located id
    simp only [places, orderIds_nil, List.count_append, List.count_nil] at hlocated ⊢
    omega

section Resolution

/-- The cancelled orders are the only ids that resolving an active list adds to a view. -/
theorem filterMap_resolutionEvents {view : AuditEvent → Option String}
    (hmodified : ∀ id mod, view (.modificationResolved id mod) = none)
    (hcancelled : ∀ id direction, view (.orderCancelled id direction) = none) (msc : ℤ)
    (orders : List PendingOrder) : (resolutionEvents msc orders).filterMap view = [] := by
  refine List.filterMap_eq_nil_iff.mpr fun event hevent => ?_
  obtain ⟨orderId, mod, rfl⟩ | ⟨orderId, direction, rfl⟩ := mem_resolutionEvents hevent
  · exact hmodified orderId mod
  · exact hcancelled orderId direction

theorem filterMap_cancelledId (msc : ℤ) (orders : List PendingOrder) :
    (resolutionEvents msc orders).filterMap cancelledId =
      orderIds (cancelledOrders msc orders) := by
  rw [resolutionEvents, List.filterMap_append]
  have hmodified : ((orders.filterMap fun pending => (dueModification msc pending).map
      (AuditEvent.modificationResolved pending.pendingOrderId)).filterMap cancelledId) = [] := by
    refine List.filterMap_eq_nil_iff.mpr fun event hevent => ?_
    obtain ⟨order, -, hdue⟩ := List.mem_filterMap.mp hevent
    obtain ⟨mod, -, rfl⟩ := Option.map_eq_some_iff.mp hdue
    rfl
  rw [hmodified, List.nil_append, List.filterMap_map]
  exact congrFun (List.filterMap_eq_map (f := PendingOrder.pendingOrderId)) _

theorem count_resolveActiveOrders (msc : ℤ) (orders : List PendingOrder) (id : String) :
    (orderIds (cancelledOrders msc orders)).count id +
        (orderIds (resolveActiveOrders msc orders)).count id = (orderIds orders).count id := by
  have hperm := (resolveActiveOrders_perm msc orders).map PendingOrder.pendingOrderId
  have hids : (orders.map (resolveModification msc)).map PendingOrder.pendingOrderId =
      orderIds orders := by
    simp [orderIds]
  rw [hids, List.map_append] at hperm
  rw [← List.count_append]
  exact hperm.count_eq id

/-- A modification of SL and TP keeps the counter and the set of open positions. -/
theorem modifyPosition_positions (pm : PortfolioManager) (positionId : String)
    (stopLoss takeProfit : Setting (Option ℚ)) :
    (pm.modifyPosition positionId stopLoss takeProfit).1.positionCounter = pm.positionCounter ∧
      ∀ k, (pm.modifyPosition positionId stopLoss takeProfit).1.getPosition k ≠ none →
        pm.getPosition k ≠ none := by
  obtain ⟨positions, hframe, hkeep⟩ := modifyPosition_frame pm positionId stopLoss takeProfit
  rw [hframe]
  refine ⟨rfl, fun k hk => ?_⟩
  obtain ⟨position, hposition⟩ := Option.ne_none_iff_exists'.mp hk
  obtain ⟨before, hbefore, -⟩ := hkeep k position hposition
  rw [hbefore]
  simp

theorem Conserved.resolvePendingOperations (h : Conserved [] s)
    (hresolve : resolvePendingOperations s = .ok s') : Conserved [] s' := by
  obtain ⟨tick, portfolio, modifications, -, hloop, rfl⟩ :=
    resolvePendingOperations_eq_ok hresolve
  have hportfolio : portfolio.positionCounter = s.ledger.portfolio.positionCounter ∧
      ∀ k, portfolio.getPosition k ≠ none → s.ledger.portfolio.getPosition k ≠ none := by
    refine resolvePositionModifications_induct (P := fun pm =>
      pm.positionCounter = s.ledger.portfolio.positionCounter ∧
        ∀ k, pm.getPosition k ≠ none → s.ledger.portfolio.getPosition k ≠ none) ?_
      ⟨rfl, fun k hk => hk⟩ hloop
    rintro pm positionId stopLoss takeProfit ⟨hcounter, hkeep⟩
    obtain ⟨hcounter', hkeep'⟩ := modifyPosition_positions pm positionId stopLoss takeProfit
    exact ⟨hcounter'.trans hcounter, fun k hk => hkeep k (hkeep' k hk)⟩
  have hsilent : ∀ view : AuditEvent → Option String,
      (∀ id mod, view (.modificationResolved id mod) = none) →
      (∀ id direction, view (.orderCancelled id direction) = none) →
      (s.ledger.log ++ resolutionEvents (getTickMsc tick) s.activeLimitOrders ++
        resolutionEvents (getTickMsc tick) s.activeStopOrders).filterMap view =
          s.ledger.log.filterMap view := by
    intro view hmodified hcancelled
    rw [List.filterMap_append, List.filterMap_append,
      filterMap_resolutionEvents hmodified hcancelled,
      filterMap_resolutionEvents hmodified hcancelled, List.append_nil, List.append_nil]
  have haccepted := hsilent acceptedId (fun _ _ => rfl) fun _ _ => rfl
  have hfilled := hsilent filledId (fun _ _ => rfl) fun _ _ => rfl
  have hrejected := hsilent rejectedId (fun _ _ => rfl) fun _ _ => rfl
  have hrefused := hsilent refusedId (fun _ _ => rfl) fun _ _ => rfl
  have hguarded := hsilent guardedId (fun _ _ => rfl) fun _ _ => rfl
  constructor
  case sent =>
    rw [acceptedIds, refusedIds, haccepted, hrefused]
    exact h.sent
  case executed =>
    rw [filledIds, hfilled]
    exact h.executed
  case rejected =>
    rw [rejectedIds, refusedIds, guardRejections, hrejected, hrefused, hguarded]
    exact h.rejected
  case located =>
    intro id
    have hlocated := h.located id
    have hlimits := count_resolveActiveOrders (getTickMsc tick) s.activeLimitOrders id
    have hstops := count_resolveActiveOrders (getTickMsc tick) s.activeStopOrders id
    simp only [places, acceptedIds, filledIds, rejectedIds, cancelledIds, haccepted, hfilled,
      hrejected, List.count_append, List.filterMap_append, filterMap_cancelledId] at hlocated ⊢
    omega
  case nodup =>
    rw [acceptedIds, haccepted]
    exact h.nodup
  case issued =>
    rw [acceptedIds, haccepted, hportfolio.1]
    exact h.issued
  case keyed => exact h.keyed
  case positions =>
    intro k hk
    rw [filledIds, hfilled]
    exact h.positions k (hportfolio.2 k hk)
  case stops =>
    intro p hp
    obtain ⟨before, hmem, rfl, -⟩ := mem_resolveActiveOrders.mp hp
    rw [resolveModification_orderType]
    exact h.stops before hmem

end Resolution

section Ticks

theorem Conserved.portfolio {pm : PortfolioManager} (h : Conserved [] s)
    (hcounter : pm.positionCounter = s.ledger.portfolio.positionCounter)
    (hpositions : ∀ k, pm.getPosition k ≠ none → s.ledger.portfolio.getPosition k ≠ none) :
    Conserved [] { s with ledger := { s.ledger with portfolio := pm } } :=
  h.of_quiet (moves_of_log [] (List.append_nil _).symm rfl rfl rfl rfl hcounter.ge
    fun k hk => .inl (hpositions k hk))

theorem Conserved.countTrigger {ledger : ExecutionLedger} {n : ℕ}
    (h : Conserved [] { s with ledger := ledger }) :
    Conserved [] { s with ledger := { ledger with slTpTriggered := n } } :=
  ⟨h.sent, h.executed, h.rejected, h.located, h.nodup, h.issued, h.keyed, h.positions, h.stops⟩

theorem Conserved.checkSlTpTriggers {tick : TickData} (h : Conserved [] s)
    (hcheck : checkSlTpTriggers cfg s tick = .ok s') : Conserved [] s' := by
  obtain ⟨ledger, hloop, hpure⟩ := bind_eq_ok.mp hcheck
  cases hpure
  refine foldlM_induct (P := fun _ ledger => Conserved [] { s with ledger := ledger }) ?_ h hloop
  intro position rest ledger₁ ledger₂ hinv hstep
  obtain ⟨rfl, -⟩ | ⟨level, closeReason, closed, -, -, hfill, rfl⟩ := checkSlTpTrigger_eq_ok hstep
  · exact hinv
  · exact (hinv.of_quiet (fillCloseOrder_ends hfill)).countTrigger

theorem Conserved.receiveTick (h : Conserved [] s) (tick : TickData) :
    Conserved [] (receiveTick s tick) := by
  have hdirty : Conserved [] { s with ledger := { s.ledger with
      portfolio := s.ledger.portfolio.markDirty tick } } := h.portfolio rfl fun k hk => hk
  exact hdirty.frame rfl rfl rfl rfl

theorem processPendingOrders_phases {tick : TickData} (h : Conserved [] s)
    (hprocess : processPendingOrders cfg (receiveTick s tick) = .ok s') :
    ∃ resolved drained monitored,
      resolvePendingOperations (receiveTick s tick) = .ok resolved ∧
      drainLatencyQueue cfg resolved (getTickMsc tick) = .ok drained ∧
      monitorLimitOrders cfg drained = .ok monitored ∧ Conserved [] monitored ∧
      monitorStopOrders cfg monitored = .ok s' := by
  obtain ⟨resolved, hresolve, hprocess⟩ := bind_eq_ok.mp hprocess
  obtain ⟨msc, hmsc, hprocess⟩ := bind_eq_ok.mp hprocess
  obtain ⟨drained, hdrain, hprocess⟩ := bind_eq_ok.mp hprocess
  obtain ⟨monitored, hlimits, hstops⟩ := bind_eq_ok.mp hprocess
  have hresolved := (h.receiveTick tick).resolvePendingOperations hresolve
  have hmonitored := (hresolved.drainLatencyQueue hdrain).monitorLimitOrders hlimits
  refine ⟨resolved, drained, monitored, hresolve, ?_, hlimits, hmonitored, hstops⟩
  obtain ⟨current, hcurrent, rfl⟩ := getCurrentMsc_eq_ok.mp hmsc
  obtain ⟨_, _, _, -, -, rfl⟩ := resolvePendingOperations_eq_ok hresolve
  obtain rfl : tick = current := Option.some.inj hcurrent
  exact hdrain

theorem Conserved.onTick {tick : TickData} (h : Conserved [] s)
    (htick : onTick cfg s tick = .ok s') : Conserved [] s' := by
  obtain ⟨processed, hprocess, hcheck⟩ := bind_eq_ok.mp htick
  obtain ⟨_, _, _, -, -, -, hmonitored, hstops⟩ := processPendingOrders_phases h hprocess
  exact (hmonitored.monitorStopOrders hstops).checkSlTpTriggers hcheck

theorem Conserved.heartbeat (h : Conserved [] s) (hbeat : heartbeat cfg s = .ok s') :
    Conserved [] s' := by
  obtain ⟨rfl, -⟩ | ⟨_, _, resolved, -, -, hresolve, hdrain⟩ := heartbeat_eq_ok hbeat
  · exact h
  · exact (h.resolvePendingOperations hresolve).drainLatencyQueue hdrain

end Ticks

section Calls

theorem orderIds_updateOrder (orderId : String) (state : PendingOrderExecutionState)
    (orders : List PendingOrder) : orderIds (updateOrder orderId state orders) = orderIds orders := by
  have hids : ∀ orders, orderIds (orders.map terms) = orderIds orders := fun orders => by
    simp [orderIds, terms]
  rw [← hids, updateOrder_terms, hids]

theorem mem_places_of_queued {order : PendingOrder} (hmem : order ∈ s.latencyQueue.values)
    (hopen : order.isOpen = true) : order.pendingOrderId ∈ places s := by
  have hid : order.pendingOrderId ∈ openIds s.latencyQueue.values :=
    List.mem_map_of_mem (List.mem_filter.mpr ⟨hmem, hopen⟩)
  simp only [places, List.mem_append, hid, true_or]

theorem mem_places_of_limit {order : PendingOrder} (hmem : order ∈ s.activeLimitOrders) :
    order.pendingOrderId ∈ places s := by
  have hid : order.pendingOrderId ∈ orderIds s.activeLimitOrders := List.mem_map_of_mem hmem
  simp only [places, List.mem_append, hid, true_or, or_true]

theorem mem_places_of_stop {order : PendingOrder} (hmem : order ∈ s.activeStopOrders) :
    order.pendingOrderId ∈ places s := by
  have hid : order.pendingOrderId ∈ orderIds s.activeStopOrders := List.mem_map_of_mem hmem
  simp only [places, List.mem_append, hid, true_or, or_true]

theorem Conserved.mem_accepted (h : Conserved [] s) {id : String} (hid : id ∈ places s) :
    id ∈ acceptedIds s.ledger := by
  rw [← List.count_pos_iff] at hid ⊢
  have hlocated := h.located id
  omega

theorem Conserved.count_places_le_one (h : Conserved [] s) (id : String) :
    (places s).count id ≤ 1 := by
  have hlocated := h.located id
  have hone := List.nodup_iff_count_le_one.mp h.nodup id
  rw [List.count_nil] at hlocated
  omega

theorem Conserved.not_queued_of_filled (h : Conserved [] s) {id : String}
    (hid : id ∈ filledIds s.ledger) : id ∉ openIds s.latencyQueue.values := by
  intro hqueued
  rw [← List.count_pos_iff] at hid hqueued
  have hone := h.count_places_le_one id
  simp only [places, List.count_append] at hone
  omega

theorem Conserved.issuedId_fresh (h : Conserved [] s) (symbol : String) :
    issuedId s symbol ∉ acceptedIds s.ledger := by
  intro hmem
  obtain ⟨symbol', n, hn, heq⟩ := h.issued _ hmem
  have hcounter := Labels.counted_inj heq
  omega

theorem Conserved.refuse (h : Conserved [] s) (request : OpenOrderRequest)
    (reason : RejectionReason) (message : RejectionMessage) :
    Conserved [] (refuse cfg s request reason message) := by
  let s₁ := SimulatorSteps.refuse cfg s request reason message
  let result := createRejectionResult (issuedId s request.symbol) reason message
  have hmoves : Moves s.ledger s₁.ledger [] [] [] [result.orderId] [] :=
    moves_of_log [.result .submission result] rfl rfl rfl rfl rfl (Nat.le_succ _)
      fun _ hk => .inl hk
  have hrefused : Conserved [] { s with ledger := s₁.ledger } :=
    h.of_moves hmoves (by simpa using h.nodup) (by simp) (by simp)
  exact hrefused.frame rfl rfl rfl rfl

theorem Conserved.guardRecorded (h : Conserved [] s) (result : OrderResult) :
    Conserved [] { s with ledger := s.ledger.recordGuardRejection cfg.executor result } := by
  have hmoves : Moves s.ledger (s.ledger.recordGuardRejection cfg.executor result) [] [] [] []
      [result.orderId] :=
    moves_of_log [.result .orderGuard result] rfl rfl rfl rfl rfl le_rfl fun _ hk => .inl hk
  exact h.of_moves hmoves (by simpa using h.nodup) (by simp) (by simp)

/-- Queueing an order whose id no queued OPEN order has puts it down. -/
theorem Conserved.stored {order : PendingOrder} (h : Conserved (openIds [order]) s)
    (hfresh : order.pendingOrderId ∉ openIds s.latencyQueue.values) :
    Conserved [] { s with latencyQueue := s.latencyQueue.set order.pendingOrderId order } := by
  refine ⟨h.sent, h.executed, h.rejected, fun id => ?_, h.nodup, h.issued,
    keyed_set order h.keyed, h.positions, h.stops⟩
  have hlocated := h.located id
  have hstored := openIds_set h.keyed hfresh id
  simp only [places, List.count_append, List.count_nil] at hlocated ⊢
  omega

theorem Conserved.accept (h : Conserved [] s) (request : OpenOrderRequest) (tick : TickData) :
    Conserved [] (accept cfg s request tick) := by
  let s₁ := SimulatorSteps.accept cfg s request tick
  let order := pendingOpenOrder (issuedId s request.symbol) request tick
    (cfg.inboundDelay s.delaysDrawn)
  let result := pendingResult (SimulatorSteps.issued s request.symbol) (issuedId s request.symbol)
    request
  have hfresh : order.pendingOrderId ∉ acceptedIds s.ledger := h.issuedId_fresh request.symbol
  have hmoves : Moves s.ledger s₁.ledger [order.pendingOrderId] [] [] [] [] :=
    moves_of_log [.orderReceived order, .result .submission result]
      (List.append_assoc _ [_] [_]) rfl rfl rfl rfl (Nat.le_succ _) fun _ hk => .inl hk
  have hinHand : Conserved (openIds [order]) { s with ledger := s₁.ledger } := by
    refine h.of_moves hmoves ?_ ?_ fun id => ?_
    · exact h.nodup.append (List.nodup_singleton _) (by simpa using hfresh)
    · intro id hid
      exact ⟨request.symbol, _, le_rfl, List.mem_singleton.mp hid⟩
    · rw [openIds_singleton rfl, List.count_nil]
  have hqueued : order.pendingOrderId ∉ openIds s.latencyQueue.values :=
    fun hmem => hfresh (h.mem_accepted (by simp only [places, List.mem_append, hmem, true_or]))
  exact (hinHand.stored hqueued).frame rfl rfl rfl rfl

theorem Conserved.closeAccepted {positionId : String} {position : Position} {tick : TickData}
    {delay : ℤ} {lots : Option ℚ} (h : Conserved [] s)
    (hposition : s.ledger.portfolio.getPosition positionId = some position) :
    Conserved [] (storeOrder s (pendingCloseOrder positionId tick delay lots)) := by
  let order := pendingCloseOrder positionId tick delay lots
  have hends : Ends s.ledger (s.ledger.record (.orderReceived order)) [] [] :=
    moves_of_log [.orderReceived order] rfl rfl rfl rfl rfl le_rfl fun _ hk => .inl hk
  have hfilled : positionId ∈ filledIds s.ledger := h.positions positionId (by simp [hposition])
  have hrecorded : Conserved (openIds [order])
      { s with ledger := s.ledger.record (.orderReceived order) } := h.of_quiet hends
  exact (hrecorded.stored (h.not_queued_of_filled hfilled)).frame rfl rfl rfl rfl

theorem stepped_conserved {op : SimulatorOp} (h : Conserved [] s) (hstep : Stepped cfg s op s') :
    Conserved [] s' := by
  cases hstep with
  | ticked htick => exact h.onTick htick
  | beat hbeat => exact h.heartbeat hbeat
  | clockSet => exact h.frame rfl rfl rfl rfl
  | ignored hclose => exact h
  | positionScheduled => exact h.frame rfl rfl rfl rfl
  | queried hensure =>
      exact h.portfolio (ensure_counter hensure) (ensure_keeps_positions hensure).open_before
  | positionModified =>
      obtain ⟨hcounter, hkeep⟩ := modifyPosition_positions s.ledger.portfolio _ _ _
      exact h.portfolio hcounter hkeep
  | refused => exact h.refuse _ _ _
  | accepted htick hvalid => exact h.accept _ _
  | closeAccepted hposition htick => exact h.closeAccepted hposition
  | guardRecorded => exact h.guardRecorded _
  | limitScheduled hfind hstate hop =>
      refine ⟨h.sent, h.executed, h.rejected, fun id => ?_, h.nodup, h.issued, h.keyed,
        h.positions, h.stops⟩
      rw [h.located id, places, places]
      simp only [orderIds_updateOrder]
  | stopScheduled hfind hstate hop =>
      refine ⟨h.sent, h.executed, h.rejected, fun id => ?_, h.nodup, h.issued, h.keyed,
        h.positions, fun p hp => ?_⟩
      · rw [h.located id, places, places]
        simp only [orderIds_updateOrder]
      · rcases mem_updateOrder hp with hmem | ⟨before, hbefore, rfl⟩
        · exact h.stops p hmem
        · exact h.stops before (mem_of_findOrder hbefore)

theorem conserved_new : Conserved [] (Simulator.new cfg) where
  sent := rfl
  executed := rfl
  rejected := rfl
  located := fun _ => rfl
  nodup := List.nodup_nil
  issued := by simp [acceptedIds, Simulator.new]
  keyed := fun k p hget => by cases hget
  positions := fun k hk => absurd rfl hk
  stops := fun p hp => absurd hp List.not_mem_nil

end Calls

end Phases

section Runs

/-- In every reachable state each request that was counted, and each guard rejection, is
counted once more: executed, rejected, queued, resting or cancelled; and each accepted
order is in exactly one of the six places. -/
theorem order_conservation (cfg : SimulatorConfig) {ops : List SimulatorOp} {s : TradeSimulator}
    (hrun : run (step cfg) (Simulator.new cfg) ops = .ok s) :
    s.ledger.ordersSent + (guardRejections s.ledger).length =
        s.ledger.ordersExecuted + s.ledger.ordersRejected +
          (openIds s.latencyQueue.values).length + s.activeLimitOrders.length +
          s.activeStopOrders.length + (cancelledIds s.ledger).length ∧
      ∀ id ∈ acceptedIds s.ledger,
        (openIds s.latencyQueue.values).count id + (orderIds s.activeLimitOrders).count id +
          (orderIds s.activeStopOrders).count id + (filledIds s.ledger).count id +
          (rejectedIds s.ledger).count id + (cancelledIds s.ledger).count id = 1 := by
  have h : Conserved [] s :=
    run_invariant (fun s op s' hinv hop => stepped_conserved hinv (step_stepped hop))
      conserved_new hrun
  have hperm : (acceptedIds s.ledger).Perm (places s) :=
    List.perm_iff_count.mpr fun id => by simpa using h.located id
  constructor
  · have hlength := hperm.length_eq
    simp only [places, List.length_append] at hlength
    have hlimits : (orderIds s.activeLimitOrders).length = s.activeLimitOrders.length :=
      List.length_map _
    have hstops : (orderIds s.activeStopOrders).length = s.activeStopOrders.length :=
      List.length_map _
    rw [h.sent, h.executed, h.rejected]
    omega
  · intro id hid
    have hone : (places s).count id = 1 :=
      (hperm.count_eq id).symm.trans (List.count_eq_one_of_mem h.nodup hid)
    simpa only [places, List.count_append] using hone

def fillAndCancel : List SimulatorOp :=
  [.tick (eurusdTick (11000 / 10000) (11002 / 10000) 1000),
    .openOrder { symbol := "EURUSD", orderType := .market, direction := .long, lots := 1 },
    .openOrder { symbol := "EURUSD", orderType := .limit, direction := .long, lots := 1,
                 price := some (10990 / 10000) },
    .tick (eurusdTick (11001 / 10000) (11003 / 10000) 1010),
    .cancelLimitOrder "pos_eurusd_2",
    .tick (eurusdTick (11001 / 10000) (11003 / 10000) 1020)]

theorem fillAndCancel_ids :
    (run (step forexSimulator) (Simulator.new forexSimulator) fillAndCancel).map
      (fun s => (acceptedIds s.ledger, filledIds s.ledger, cancelledIds s.ledger)) =
        .ok (["pos_eurusd_1", "pos_eurusd_2"], ["pos_eurusd_1"], ["pos_eurusd_2"]) := by
  decide +kernel

theorem order_conservation_fillAndCancel :
    ∃ s, run (step forexSimulator) (Simulator.new forexSimulator) fillAndCancel = .ok s ∧
      s.ledger.ordersSent + (guardRejections s.ledger).length =
        s.ledger.ordersExecuted + s.ledger.ordersRejected +
          (openIds s.latencyQueue.values).length + s.activeLimitOrders.length +
          s.activeStopOrders.length + (cancelledIds s.ledger).length := by
  obtain ⟨s, hrun, -⟩ := exists_of_map_eq_ok fillAndCancel_ids
  exact ⟨s, hrun, (order_conservation forexSimulator hrun).1⟩

end Runs

end Finiex.SimulatorConservation
