import Finiex.Lib.Reach
import Finiex.SimulatorExposure
import Finiex.SimulatorOrders

namespace Finiex.PositionLevels

open Finiex.Types
open Finiex.Lib
open Finiex.Lib.Run
open Finiex.Lib.Reach
open Finiex.Positions
open Finiex.Broker
open Finiex.Orders
open Finiex.Portfolio
open Finiex.Portfolio.PortfolioManager
open Finiex.PortfolioRefresh
open Finiex.PortfolioFrames
open Finiex.Executor
open Finiex.ExecutorFills
open Finiex.AuditTrail
open Finiex.Simulator
open Finiex.SimulatorSpecs
open Finiex.SimulatorSteps
open Finiex.SimulatorConservation
open Finiex.SimulatorLedger
open Finiex.SimulatorExposure
open Finiex.SimulatorOrders

/-- How often the log fills the order. -/
abbrev fills (ledger : ExecutionLedger) (k : String) : ℕ := (filledIds ledger).count k

/-- Each position of `after` was filled since `before`, or is one of `before` with its contract
and its levels. -/
structure Persists (before after : ExecutionLedger) : Prop where
  grows : ∀ k, fills before k ≤ fills after k
  positions : ∀ k position', after.portfolio.getPosition k = some position' →
    fills before k < fills after k ∨
      ∃ position, before.portfolio.getPosition k = some position ∧
        contract position' = contract position ∧ levels position' = levels position

section Ledger

variable {cfg : ExecutorConfig} {market : MarketState} {first second third : ExecutionLedger}

theorem fills_mono (hlog : first.log <+: second.log) (k : String) :
    fills first k ≤ fills second k :=
  (hlog.sublist.filterMap filledId).count_le k

theorem Persists.of_keeps (hkeep : KeepsPositions first.portfolio second.portfolio)
    (hlog : first.log <+: second.log) : Persists first second :=
  ⟨fills_mono hlog, fun k position' hposition' => .inr (hkeep k position' hposition')⟩

theorem keepsPositions_of_eq {pm pm' : PortfolioManager}
    (hpositions : pm'.openPositions = pm.openPositions) : KeepsPositions pm pm' := by
  intro k position' hposition'
  refine ⟨position', ?_, rfl, rfl⟩
  rw [getPosition, ← hpositions]
  exact hposition'

theorem Persists.refl (ledger : ExecutionLedger) : Persists ledger ledger :=
  .of_keeps (keepsPositions_of_eq rfl) List.prefix_rfl

theorem Persists.trans (h : Persists first second) (h' : Persists second third) :
    Persists first third := by
  refine ⟨fun k => (h.grows k).trans (h'.grows k), fun k position₃ hposition₃ => ?_⟩
  rcases h'.positions k position₃ hposition₃ with hfilled | ⟨position₂, hposition₂, hcontract₂, hlevels₂⟩
  · exact .inl ((h.grows k).trans_lt hfilled)
  · rcases h.positions k position₂ hposition₂ with hfilled | ⟨position, hposition, hcontract, hlevels⟩
    · exact .inl (hfilled.trans_le (h'.grows k))
    · exact .inr ⟨position, hposition, hcontract₂.trans hcontract, hlevels₂.trans hlevels⟩

theorem persists_openFill {order : PendingOrder} {fillPrice : Option ℚ} {entryType : EntryType}
    {fillType : FillType}
    (hfill : fillOpenOrder cfg market first order fillPrice entryType fillType = .ok second) :
    Persists first second := by
  obtain ⟨tick, spec, entryPrice, pm, -, -, -, -, hpm, hend⟩ := fillOpenOrder_eq_ok hfill
  have hfunds : KeepsPositions first.portfolio pm := by
    rcases hpm with rfl | hensure
    · exact keepsPositions_of_eq rfl
    · exact ensure_keeps_positions hensure
  rcases hend with ⟨reason, message, rfl⟩ |
      ⟨tickValue, bid, ask, entryFee, trades, seq, pm', now, -, -, hopen, hsecond⟩
  · refine .of_keeps hfunds ?_
    let rejection := createRejectionResult order.pendingOrderId reason message
    exact ⟨[.result .fill rejection,
      .notified order.direction rejection (some order.pendingOrderId)],
      (List.append_assoc _ [_] [_]).symm⟩
  · obtain ⟨now', costs, balances, -, rfl⟩ := openPosition_eq_ok hopen
    let result := openOrderResult market order entryPrice entryFee fillType now
    let events : List AuditEvent := [.result .fill result,
      .notified order.direction result (some order.pendingOrderId)]
    have hlog : second.log = first.log ++ events := by
      rw [hsecond]
      exact List.append_assoc _ [_] [_]
    have hfills : ∀ k, fills second k = fills first k + [order.pendingOrderId].count k := by
      intro k
      rw [fills, filledIds, hlog, List.filterMap_append, List.count_append]
      rfl
    refine ⟨fun k => ?_, fun k position' hposition' => ?_⟩
    · rw [hfills k]
      exact Nat.le_add_right _ _
    · by_cases hkey : k = order.pendingOrderId
      · refine .inl ?_
        rw [hfills k, hkey, List.count_singleton_self]
        exact Nat.lt_succ_self _
      · rw [hsecond] at hposition'
        exact .inr (hfunds k position' ((Dict.get?_set_ne _ _ hkey).symm.trans hposition'))

theorem persists_closeFill {order : PendingOrder} {fillPrice : Option ℚ}
    {closeReason : CloseReason}
    (hfill : fillCloseOrder cfg market first order fillPrice closeReason = .ok second) :
    Persists first second := by
  obtain ⟨records, hlog, -⟩ := fillCloseOrder_log hfill
  exact .of_keeps (fillCloseOrder_keeps hfill) (hlog ▸ List.prefix_append _ _)

end Ledger

section Steps

variable {cfg : SimulatorConfig} {s s' : TradeSimulator}

/-- Every order may be processed, and positions only ever persist. -/
theorem persistsRule (cfg : SimulatorConfig) (before : ExecutionLedger) :
    ProcessingRule cfg (fun _ => True) (Persists before) where
  becomes := fun _ _ => trivial
  openFill := fun h _ hfill => h.trans (persists_openFill hfill)
  closeFill := fun h hfill => h.trans (persists_closeFill hfill)
  notes := by
    intro ledger ledger' hportfolio hlog h
    have hkeep : KeepsPositions ledger.portfolio ledger'.portfolio := by
      rw [hportfolio]
      exact keepsPositions_of_eq rfl
    exact h.trans (.of_keeps hkeep hlog)

/-- What a step does to the position `k` where no modification of it is requested: it was filled
in the step, it is as before, or its scheduled modification was applied. -/
structure PositionStep (s s' : TradeSimulator) (k : String) : Prop where
  grows : fills s.ledger k ≤ fills s'.ledger k
  scheduled : ∀ mod, s'.pendingPositionModifications.get? k = some mod →
    s.pendingPositionModifications.get? k = some mod
  position : ∀ position', s'.ledger.portfolio.getPosition k = some position' →
    fills s.ledger k < fills s'.ledger k ∨
      ∃ position, s.ledger.portfolio.getPosition k = some position ∧
        contract position' = contract position ∧
        (levels position' = levels position ∨
          s'.pendingPositionModifications.get? k = none ∧
            ∃ mod, s.pendingPositionModifications.get? k = some mod ∧
              levels position' = (mod.newStopLoss, mod.newTakeProfit))

theorem PositionStep.of_persists {k : String} (hledger : Persists s.ledger s'.ledger)
    (hmods : s'.pendingPositionModifications = s.pendingPositionModifications) :
    PositionStep s s' k where
  grows := hledger.grows k
  scheduled := fun _ hmod => hmods ▸ hmod
  position := fun position' hposition' =>
    (hledger.positions k position' hposition').imp id fun ⟨position, hposition, hcontract, hlevels⟩ =>
      ⟨position, hposition, hcontract, .inl hlevels⟩

/-- The resolution of the scheduled modifications, and then only fills and closes. -/
theorem PositionStep.of_resolved {resolved : TradeSimulator} {k : String}
    (hresolve : resolvePendingOperations s = .ok resolved)
    (hcarries : Carries (fun _ => True) (Persists resolved.ledger)
      resolved.pendingPositionModifications s') : PositionStep s s' k := by
  have hhandled := resolvePendingOperations_handled hresolve k
  have hgrows : fills s.ledger k ≤ fills resolved.ledger k := by
    obtain ⟨tick, portfolio, modifications, -, -, rfl⟩ := resolvePendingOperations_eq_ok hresolve
    refine fills_mono ?_ k
    exact (List.prefix_append _ _).trans (List.prefix_append _ _)
  have hmods := hcarries.modifications
  refine ⟨hgrows.trans (hcarries.ledger.grows k), fun mod hmod => ?_, fun position' hposition' => ?_⟩
  · rw [hmods] at hmod
    rcases hhandled with ⟨-, hsame⟩ | ⟨hnone, -⟩
    · exact hsame.symm.trans hmod
    · cases hnone.symm.trans hmod
  · rcases hcarries.ledger.positions k position' hposition' with
      hfilled | ⟨position, hposition, hcontract, hlevels⟩
    · exact .inl (hgrows.trans_lt hfilled)
    · rw [hmods]
      rcases hhandled with ⟨hsame, -⟩ | ⟨hnone, mod, hmod, hsame | ⟨before, hbefore, hafter⟩⟩
      · exact .inr ⟨position, hsame.symm.trans hposition, hcontract, .inl hlevels⟩
      · exact .inr ⟨position, hsame.symm.trans hposition, hcontract, .inl hlevels⟩
      · cases hafter.symm.trans hposition
        exact .inr ⟨before, hbefore, hcontract, .inr ⟨hnone, mod, hmod, hlevels⟩⟩

theorem carries_refl (s : TradeSimulator) :
    Carries (fun _ => True) (Persists s.ledger) s.pendingPositionModifications s :=
  ⟨⟨fun _ _ _ => trivial, fun _ _ => trivial, fun _ _ => trivial⟩, .refl _, rfl⟩

theorem positionStep_onTick {tick : TickData} (hinv : Conserved [] s)
    (htick : onTick cfg s tick = .ok s') (k : String) : PositionStep s s' k := by
  obtain ⟨processed, hprocess, -⟩ := bind_eq_ok.mp htick
  obtain ⟨resolved, -, -, hresolve, -, -, -, -⟩ := processPendingOrders_phases hinv hprocess
  have hstep : PositionStep (receiveTick s tick) s' k := by
    refine .of_resolved hresolve (Carries.onTick (persistsRule cfg resolved.ledger) hinv ?_ htick)
    intro resolved' hresolve'
    cases hresolve.symm.trans hresolve'
    exact carries_refl resolved
  exact ⟨hstep.grows, hstep.scheduled, hstep.position⟩

theorem positionStep_heartbeat (hbeat : heartbeat cfg s = .ok s') (k : String) :
    PositionStep s s' k := by
  obtain ⟨rfl, -⟩ | ⟨_, _, resolved, -, -, hresolve, hdrain⟩ := heartbeat_eq_ok hbeat
  · exact .of_persists (.refl _) rfl
  · exact .of_resolved hresolve
      ((carries_refl resolved).drainLatencyQueue (persistsRule cfg resolved.ledger) hdrain)

theorem positionStep {op : SimulatorOp} (hinv : Conserved [] s) (hstep : Stepped cfg s op s')
    (hop : ∀ positionId stopLoss takeProfit, op ≠ .modifyPosition positionId stopLoss takeProfit)
    (k : String) : PositionStep s s' k := by
  have hnoted : ∀ {ledger' : ExecutionLedger},
      ledger'.portfolio.openPositions = s.ledger.portfolio.openPositions →
      s.ledger.log <+: ledger'.log → Persists s.ledger ledger' :=
    fun hpositions hlog => .of_keeps (keepsPositions_of_eq hpositions) hlog
  have hgrows := (path_stepped hinv hstep).log_grows
  cases hstep with
  | ticked htick => exact positionStep_onTick hinv htick k
  | beat hbeat => exact positionStep_heartbeat hbeat k
  | clockSet => exact .of_persists (.refl _) rfl
  | refused => exact .of_persists (hnoted rfl hgrows) rfl
  | accepted htick hvalid => exact .of_persists (hnoted rfl hgrows) rfl
  | closeAccepted hposition htick => exact .of_persists (hnoted rfl hgrows) rfl
  | ignored hclose => exact .of_persists (.refl _) rfl
  | limitScheduled hfind hstate hcall => exact .of_persists (.refl _) rfl
  | stopScheduled hfind hstate hcall => exact .of_persists (.refl _) rfl
  | positionScheduled => exact absurd rfl (hop _ _ _)
  | positionModified => exact absurd rfl (hop _ _ _)
  | guardRecorded => exact .of_persists (hnoted rfl hgrows) rfl
  | queried hensure =>
      exact .of_persists (.of_keeps (ensure_keeps_positions hensure) List.prefix_rfl) rfl

end Steps

section Requests

variable {cfg : SimulatorConfig} {s s' : TradeSimulator}

variable (cfg) in
abbrev nativeSlTp : Bool := cfg.executor.broker.capabilities.nativePositionSlTp

variable (cfg) in
/-- The levels a request asks for on a position: snapped to its symbol's digits where the broker
holds SL/TP on positions. -/
def requestedLevels (position : Position) (newStopLoss newTakeProfit : Setting (Option ℚ)) :
    Option ℚ × Option ℚ :=
  let stopLoss := newStopLoss.getD position.stopLoss
  let takeProfit := newTakeProfit.getD position.takeProfit
  if nativeSlTp cfg then
    match cfg.executor.broker.symbols.get? position.symbol with
    | some spec => (roundPrice spec.digits stopLoss, roundPrice spec.digits takeProfit)
    | none => (stopLoss, takeProfit)
  else (stopLoss, takeProfit)

def targetLevels (mod : ModificationRequest) : Option ℚ × Option ℚ :=
  (mod.newStopLoss, mod.newTakeProfit)

/-- A request is refused, applied at once, or scheduled with the levels it asks for. -/
theorem modifyPosition_requested {positionId : String}
    {newStopLoss newTakeProfit : Setting (Option ℚ)} {result : ModificationResult}
    (h : Simulator.modifyPosition cfg s positionId newStopLoss newTakeProfit = .ok (s', result)) :
    s' = s ∨ ∃ position, s.ledger.portfolio.getPosition positionId = some position ∧
      ((nativeSlTp cfg = true ∧
          ∃ mod, targetLevels mod = requestedLevels cfg position newStopLoss newTakeProfit ∧
            s' = { s with pendingPositionModifications :=
              s.pendingPositionModifications.set positionId mod }) ∨
        nativeSlTp cfg = false ∧ ∃ pm, (∀ k, k ≠ positionId → pm.getPosition k = s.ledger.portfolio.getPosition k) ∧
          (∃ position', pm.getPosition positionId = some position' ∧
            contract position' = contract position ∧
            levels position' = requestedLevels cfg position newStopLoss newTakeProfit) ∧
          s' = { s with ledger := { s.ledger with portfolio := pm } }) := by
  unfold Simulator.modifyPosition at h
  unfold requestedLevels
  split at h
  · next hnative =>
      cases h
      have hnot : nativeSlTp cfg = false := Bool.not_eq_true' _ |>.mp hnative
      simp only [hnot, Bool.false_eq_true, if_false]
      have hother : ∀ k, k ≠ positionId → _ := fun k hk =>
        portfolio_modifyPosition_ne s.ledger.portfolio newStopLoss newTakeProfit hk
      rcases portfolio_modifyPosition_self s.ledger.portfolio positionId newStopLoss newTakeProfit with
        hsame | ⟨position, hposition, hset⟩
      · exact .inl (congrArg (fun pm => { s with ledger := { s.ledger with portfolio := pm } }) hsame)
      · exact .inr ⟨position, hposition, .inr ⟨trivial, _, hother, ⟨_, hset, rfl, rfl⟩, rfl⟩⟩
  · next hnative =>
      split at h
      · cases h
        exact .inl rfl
      · next position hposition =>
          split at h
          · cases h
            exact .inl rfl
          · obtain ⟨spec, hspec, h⟩ := bind_eq_ok.mp h
            obtain ⟨msc, -, h⟩ := bind_eq_ok.mp h
            cases h
            have hnat : nativeSlTp cfg = true := by simpa using hnative
            refine .inr ⟨position, hposition, .inl ⟨hnat, _, ?_, rfl⟩⟩
            simp only [hnat, if_true, getSymbolSpecification_eq_ok.mp hspec]
            rfl

end Requests

section Moves

/-! How the levels of a position may move over a run, as a preorder that depends on its
contract. -/

variable {cfg : SimulatorConfig} {R : Contract → Option ℚ × Option ℚ → Option ℚ × Option ℚ → Prop}
  {s s' s'' : TradeSimulator}

structure LevelOrder (R : Contract → Option ℚ × Option ℚ → Option ℚ × Option ℚ → Prop) :
    Prop where
  refl : ∀ c l, R c l l
  trans : ∀ {c l₁ l₂ l₃}, R c l₁ l₂ → R c l₂ l₃ → R c l₁ l₃

/-- A modification is only scheduled where the broker holds SL/TP, of an order that was filled,
and moves the levels of its position as `R` allows. -/
def ScheduledBy (cfg : SimulatorConfig)
    (R : Contract → Option ℚ × Option ℚ → Option ℚ × Option ℚ → Prop) (s : TradeSimulator) : Prop :=
  ∀ k mod, s.pendingPositionModifications.get? k = some mod → nativeSlTp cfg = true ∧
    0 < fills s.ledger k ∧ ∀ position, s.ledger.portfolio.getPosition k = some position →
      R (contract position) (levels position) (targetLevels mod)

/-- Each position of `s'` was filled since `s`, or its levels in `s` moved as `R` allows. -/
structure LevelsMove (R : Contract → Option ℚ × Option ℚ → Option ℚ × Option ℚ → Prop)
    (s s' : TradeSimulator) : Prop where
  grows : ∀ k, fills s.ledger k ≤ fills s'.ledger k
  positions : ∀ k position', s'.ledger.portfolio.getPosition k = some position' →
    fills s.ledger k < fills s'.ledger k ∨
      ∃ position, s.ledger.portfolio.getPosition k = some position ∧
        contract position' = contract position ∧
        R (contract position) (levels position) (levels position')

/-- A request to modify a position asks for levels that `R` allows. -/
def RequestsBy (cfg : SimulatorConfig)
    (R : Contract → Option ℚ × Option ℚ → Option ℚ × Option ℚ → Prop) (s : TradeSimulator)
    (op : SimulatorOp) : Prop :=
  ∀ positionId stopLoss takeProfit, op = .modifyPosition positionId stopLoss takeProfit →
    ∀ position, s.ledger.portfolio.getPosition positionId = some position →
      R (contract position) (levels position) (requestedLevels cfg position stopLoss takeProfit)

theorem LevelsMove.refl (hR : LevelOrder R) (s : TradeSimulator) : LevelsMove R s s :=
  ⟨fun _ => le_rfl, fun _ position hposition => .inr ⟨position, hposition, rfl, hR.refl _ _⟩⟩

theorem LevelsMove.trans (hR : LevelOrder R) (h : LevelsMove R s s') (h' : LevelsMove R s' s'') :
    LevelsMove R s s'' := by
  refine ⟨fun k => (h.grows k).trans (h'.grows k), fun k position₃ hposition₃ => ?_⟩
  rcases h'.positions k position₃ hposition₃ with hfilled | ⟨position₂, hposition₂, hcontract₂, hmove₂⟩
  · exact .inl ((h.grows k).trans_lt hfilled)
  · rcases h.positions k position₂ hposition₂ with hfilled | ⟨position, hposition, hcontract, hmove⟩
    · exact .inl (hfilled.trans_le (h'.grows k))
    · rw [hcontract] at hmove₂
      exact .inr ⟨position, hposition, hcontract₂.trans hcontract, hR.trans hmove hmove₂⟩

theorem fills_le_one (h : Conserved [] s) (k : String) : fills s.ledger k ≤ 1 := by
  have hplaces := h.count_places_le_one k
  simp only [places, List.count_append] at hplaces
  unfold fills
  omega

theorem fills_pos (h : Conserved [] s) {k : String} {position : Position}
    (hposition : s.ledger.portfolio.getPosition k = some position) : 0 < fills s.ledger k :=
  List.count_pos_iff.mpr (h.positions k (by simp [hposition]))

theorem PositionStep.moves (hR : LevelOrder R) (hscheduled : ScheduledBy cfg R s)
    (hsteps : ∀ k, PositionStep s s' k) : LevelsMove R s s' where
  grows := fun k => (hsteps k).grows
  positions := by
    intro k position' hposition'
    rcases (hsteps k).position position' hposition' with
      hfilled | ⟨position, hposition, hcontract, hsame | ⟨-, mod, hmod, hset⟩⟩
    · exact .inl hfilled
    · refine .inr ⟨position, hposition, hcontract, ?_⟩
      rw [hsame]
      exact hR.refl _ _
    · refine .inr ⟨position, hposition, hcontract, ?_⟩
      rw [hset]
      exact (hscheduled k mod hmod).2.2 position hposition

theorem PositionStep.scheduledBy (hinv' : Conserved [] s') (hscheduled : ScheduledBy cfg R s)
    (hsteps : ∀ k, PositionStep s s' k) : ScheduledBy cfg R s' := by
  intro k mod hmod
  obtain ⟨hnative, hpos, hallowed⟩ := hscheduled k mod ((hsteps k).scheduled mod hmod)
  refine ⟨hnative, hpos.trans_le (hsteps k).grows, fun position' hposition' => ?_⟩
  rcases (hsteps k).position position' hposition' with
    hfilled | ⟨position, hposition, hcontract, hsame | ⟨hnone, -⟩⟩
  · -- the order was filled before, so it is not filled again
    have hone := fills_le_one hinv' k
    omega
  · rw [hcontract, hsame]
    exact hallowed position hposition
  · cases hnone.symm.trans hmod

theorem levelsMove_step (hR : LevelOrder R) {op : SimulatorOp} (hinv : Conserved [] s)
    (hscheduled : ScheduledBy cfg R s) (hrequests : RequestsBy cfg R s op)
    (hstep : step cfg s op = .ok s') : LevelsMove R s s' ∧ ScheduledBy cfg R s' := by
  have hstepped := step_stepped hstep
  have hinv' := stepped_conserved hinv hstepped
  by_cases hop : ∃ positionId stopLoss takeProfit,
      op = .modifyPosition positionId stopLoss takeProfit
  · obtain ⟨positionId, stopLoss, takeProfit, rfl⟩ := hop
    obtain ⟨⟨answered, result⟩, hmodify, rfl⟩ := map_eq_ok.mp hstep
    obtain rfl | ⟨position, hposition, ⟨hnative, mod, htarget, rfl⟩ | ⟨hnative, pm, hother,
      ⟨position', hposition', hcontract, hset⟩, rfl⟩⟩ := modifyPosition_requested hmodify
    · exact ⟨.refl hR _, hscheduled⟩
    · refine ⟨⟨fun k => le_rfl, (LevelsMove.refl hR s).positions⟩, fun k mod' hmod' => ?_⟩
      by_cases hk : k = positionId
      · subst hk
        cases (Dict.get?_set_self _ _ _).symm.trans hmod'
        refine ⟨hnative, fills_pos hinv hposition, fun held hheld => ?_⟩
        cases hposition.symm.trans hheld
        rw [htarget]
        exact hrequests _ _ _ rfl position hposition
      · exact hscheduled k mod' ((Dict.get?_set_ne _ _ hk).symm.trans hmod')
    · refine ⟨⟨fun k => le_rfl, fun k held hheld => .inr ?_⟩, fun k mod hmod => ?_⟩
      · by_cases hk : k = positionId
        · subst hk
          cases hposition'.symm.trans hheld
          refine ⟨position, hposition, hcontract, ?_⟩
          rw [hset]
          exact hrequests _ _ _ rfl position hposition
        · exact ⟨held, (hother k hk).symm.trans hheld, rfl, hR.refl _ _⟩
      · cases hnative.symm.trans (hscheduled k mod hmod).1
  · have hsteps : ∀ k, PositionStep s s' k := fun k =>
      positionStep hinv hstepped (fun _ _ _ heq => hop ⟨_, _, _, heq⟩) k
    exact ⟨PositionStep.moves hR hscheduled hsteps,
      PositionStep.scheduledBy hinv' hscheduled hsteps⟩

/-- What every request asks for, every position undergoes, over any run. -/
theorem levelsMove_of_reaches (hR : LevelOrder R) (hinv : Conserved [] s)
    (hscheduled : ScheduledBy cfg R s) (h : ReachesBy (step cfg) (RequestsBy cfg R) s s') :
    LevelsMove R s s' ∧ ScheduledBy cfg R s' := by
  have hall : Conserved [] s' ∧ LevelsMove R s s' ∧ ScheduledBy cfg R s' := by
    refine h.invariant (I := fun now =>
      Conserved [] now ∧ LevelsMove R s now ∧ ScheduledBy cfg R now) ?_ ⟨hinv, .refl hR s, hscheduled⟩
    rintro now op next ⟨hconserved, hmoved, hmods⟩ hrequests hstep
    obtain ⟨hmove, hmods'⟩ := levelsMove_step hR hconserved hmods hrequests hstep
    exact ⟨stepped_conserved hconserved (step_stepped hstep), hmoved.trans hR hmove, hmods'⟩
  exact hall.2

theorem LevelsMove.of_open (h : LevelsMove R s s') (hinv : Conserved [] s)
    (hinv' : Conserved [] s') {k : String} {position position' : Position}
    (hposition : s.ledger.portfolio.getPosition k = some position)
    (hposition' : s'.ledger.portfolio.getPosition k = some position') :
    contract position' = contract position ∧
      R (contract position) (levels position) (levels position') := by
  rcases h.positions k position' hposition' with hfilled | ⟨held, hheld, hmove⟩
  · have hpos := fills_pos hinv hposition
    have hone := fills_le_one hinv' k
    omega
  · cases hposition.symm.trans hheld
    exact hmove

end Moves

end Finiex.PositionLevels
