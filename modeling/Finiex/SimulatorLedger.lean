import Finiex.SimulatorConservation
import Mathlib.Logic.Relation

namespace Finiex.SimulatorLedger

open Finiex.Types
open Finiex.Lib
open Finiex.Lib.Run
open Finiex.Positions
open Finiex.Orders
open Finiex.OrderBooks
open Finiex.Portfolio
open Finiex.Portfolio.PortfolioManager
open Finiex.Broker
open Finiex.PortfolioLedger
open Finiex.PortfolioFrames
open Finiex.Executor
open Finiex.ExecutorFills
open Finiex.AuditTrail
open Finiex.Simulator
open Finiex.SimulatorSpecs
open Finiex.SimulatorSteps
open Finiex.SimulatorConservation

def isNote : AuditEvent → Bool
  | .closeFilled _ => false
  | _ => true

inductive LedgerMove (cfg : ExecutorConfig) (ledger : ExecutionLedger) : ExecutionLedger → Prop
  | openFill {market : MarketState} {order : PendingOrder} {fillPrice : Option ℚ}
      {entryType : EntryType} {fillType : FillType} {ledger' : ExecutionLedger}
      (h : fillOpenOrder cfg market ledger order fillPrice entryType fillType = .ok ledger') :
      LedgerMove cfg ledger ledger'
  | closeFill {market : MarketState} {order : PendingOrder} {fillPrice : Option ℚ}
      {closeReason : CloseReason} {ledger' : ExecutionLedger}
      (h : fillCloseOrder cfg market ledger order fillPrice closeReason = .ok ledger') :
      LedgerMove cfg ledger ledger'
  | refreshed {clock : Option Instant} {pm : PortfolioManager}
      (h : ledger.portfolio.ensurePositionsUpdated cfg.portfolio clock = .ok pm) :
      LedgerMove cfg ledger { ledger with portfolio := pm }
  | levelsModified (positionId : String) (stopLoss takeProfit : Setting (Option ℚ)) :
      LedgerMove cfg ledger { ledger with portfolio :=
        (ledger.portfolio.modifyPosition positionId stopLoss takeProfit).1 }
  | priced (tick : TickData) :
      LedgerMove cfg ledger { ledger with portfolio := ledger.portfolio.markDirty tick }
  | numbered (symbol : String) :
      LedgerMove cfg ledger { ledger with portfolio :=
        (ledger.portfolio.getNextPositionId symbol).1 }
  | noted {ledger' : ExecutionLedger} (events : List AuditEvent)
      (hportfolio : ledger'.portfolio = ledger.portfolio)
      (hlog : ledger'.log = ledger.log ++ events)
      (hevents : ∀ event ∈ events, isNote event = true) :
      LedgerMove cfg ledger ledger'

abbrev Path (cfg : ExecutorConfig) : ExecutionLedger → ExecutionLedger → Prop :=
  Relation.ReflTransGen (LedgerMove cfg)

theorem Path.invariant {cfg : ExecutorConfig} {Inv : ExecutionLedger → Prop}
    (hmove : ∀ ledger ledger', Inv ledger → LedgerMove cfg ledger ledger' → Inv ledger')
    {ledger ledger' : ExecutionLedger} (h : Path cfg ledger ledger') (hinit : Inv ledger) :
    Inv ledger' := by
  induction h with
  | refl => exact hinit
  | tail _ hlast ih => exact hmove _ _ ih hlast

theorem LedgerMove.log_grows {cfg : ExecutorConfig} {ledger ledger' : ExecutionLedger}
    (h : LedgerMove cfg ledger ledger') : ledger.log <+: ledger'.log := by
  cases h with
  | openFill hfill =>
      obtain ⟨records, hlog, -⟩ := fillOpenOrder_log hfill
      simp [hlog]
  | closeFill hfill =>
      obtain ⟨records, hlog, -⟩ := fillCloseOrder_log hfill
      simp [hlog]
  | noted events hportfolio hlog hevents => simp [hlog]
  | refreshed hensure => exact List.prefix_rfl
  | levelsModified positionId stopLoss takeProfit => exact List.prefix_rfl
  | priced tick => exact List.prefix_rfl
  | numbered symbol => exact List.prefix_rfl

theorem Path.log_grows {cfg : ExecutorConfig} {ledger ledger' : ExecutionLedger}
    (h : Path cfg ledger ledger') : ledger.log <+: ledger'.log := by
  induction h with
  | refl => exact List.prefix_rfl
  | tail _ hmove ih => exact ih.trans hmove.log_grows

section Phases

variable {cfg : SimulatorConfig} {s s' : TradeSimulator}

theorem path_openFill {market : MarketState} {ledger ledger' : ExecutionLedger}
    {order : PendingOrder} {fillPrice : Option ℚ} {entryType : EntryType} {fillType : FillType}
    (hpath : Path cfg.executor s.ledger ledger)
    (hfill : fillOpenOrder cfg.executor market ledger order fillPrice entryType fillType =
      .ok ledger') : Path cfg.executor s.ledger ledger' :=
  hpath.tail (.openFill hfill)

theorem path_placed {order : PendingOrder} (h : Placed cfg s order s') :
    Path cfg.executor s.ledger s'.ledger :=
  h.ledger_induct path_openFill .refl

theorem path_note {ledger ledger' : ExecutionLedger} {event : AuditEvent}
    (hportfolio : ledger'.portfolio = ledger.portfolio) (hlog : ledger'.log = ledger.log ++ [event])
    (hevent : isNote event = true) : Path cfg.executor ledger ledger' :=
  .single (.noted [event] hportfolio hlog (by simpa using hevent))

theorem path_resolved {order : PendingOrder} (h : Resolved cfg s order s') :
    Path cfg.executor s.ledger s'.ledger := by
  cases h with
  | @stressRejected calls rejections rejectionCount hopen =>
      have hrejected : Path cfg.executor s.ledger
          (rejectByStressTest cfg s.ledger order rejectionCount) := path_note rfl rfl rfl
      exact hrejected.trans (path_note rfl rfl rfl)
  | activated hopen hbecomes hplaced =>
      exact (path_placed hplaced).trans (path_note rfl rfl rfl)
  | @closed ledger hclose hfill =>
      have hclosed : Path cfg.executor s.ledger ledger := .single (.closeFill hfill)
      exact hclosed.trans (path_note rfl rfl rfl)

theorem path_drainLatencyQueue {msc : ℤ} (hdrain : drainLatencyQueue cfg s msc = .ok s') :
    Path cfg.executor s.ledger s'.ledger := by
  refine foldlM_induct (P := fun _ s' => Path cfg.executor s.ledger s'.ledger) ?_ .refl hdrain
  intro order rest s₁ s₂ hpath hstep
  exact hpath.trans (path_resolved (fillResolvedOrder_resolved hstep))

theorem path_monitorLimitOrders (hmonitor : monitorLimitOrders cfg s = .ok s') :
    Path cfg.executor s.ledger s'.ledger :=
  monitorLimitOrders_induct path_openFill .refl hmonitor

theorem path_monitorStopOrders
    (htypes : ∀ p ∈ s.activeStopOrders, p.orderType = some .stop ∨ p.orderType = some .stopLimit)
    (hmonitor : monitorStopOrders cfg s = .ok s') : Path cfg.executor s.ledger s'.ledger :=
  monitorStopOrders_induct path_openFill .refl htypes hmonitor

theorem path_resolvePendingOperations (hresolve : resolvePendingOperations s = .ok s') :
    Path cfg.executor s.ledger s'.ledger := by
  obtain ⟨tick, portfolio, modifications, -, hloop, rfl⟩ :=
    resolvePendingOperations_eq_ok hresolve
  have hmodified : Path cfg.executor s.ledger { s.ledger with portfolio := portfolio } := by
    refine resolvePositionModifications_induct (P := fun pm =>
      Path cfg.executor s.ledger { s.ledger with portfolio := pm }) ?_ .refl hloop
    intro pm positionId stopLoss takeProfit hpath
    exact hpath.tail (.levelsModified positionId stopLoss takeProfit)
  refine hmodified.tail (.noted _ rfl (List.append_assoc _ _ _) fun event hevent => ?_)
  have hresolution : ∀ orders, event ∈ resolutionEvents (getTickMsc tick) orders →
      isNote event = true := by
    intro orders hmem
    obtain ⟨orderId, mod, rfl⟩ | ⟨orderId, direction, rfl⟩ := mem_resolutionEvents hmem
    · rfl
    · rfl
  rcases List.mem_append.mp hevent with hmem | hmem
  · exact hresolution _ hmem
  · exact hresolution _ hmem

theorem path_checkSlTpTriggers {tick : TickData} (hcheck : checkSlTpTriggers cfg s tick = .ok s') :
    Path cfg.executor s.ledger s'.ledger := by
  apply checkSlTpTriggers_induct ?_ ?_ .refl hcheck
  · intro market ledger ledger' order fillPrice closeReason hpath hfill
    exact hpath.tail (.closeFill hfill)
  · intro ledger hpath
    exact hpath.tail (.noted [] rfl (List.append_nil _).symm (by simp))

theorem path_processPendingOrders {tick : TickData} (hinv : Conserved [] s)
    (hprocess : processPendingOrders cfg (receiveTick s tick) = .ok s') :
    Path cfg.executor s.ledger s'.ledger := by
  obtain ⟨s₂, s₃, s₄, hresolve, hdrain, hlimits, hmonitored, hstops⟩ :=
    processPendingOrders_phases hinv hprocess
  have hpriced : Path cfg.executor s.ledger (receiveTick s tick).ledger := .single (.priced tick)
  calc
    Path cfg.executor s.ledger s₂.ledger := hpriced.trans (path_resolvePendingOperations hresolve)
    Path cfg.executor _ s₃.ledger := path_drainLatencyQueue hdrain
    Path cfg.executor _ s₄.ledger := path_monitorLimitOrders hlimits
    Path cfg.executor _ s'.ledger := path_monitorStopOrders hmonitored.stops hstops

theorem path_onTick {tick : TickData} (hinv : Conserved [] s)
    (htick : onTick cfg s tick = .ok s') : Path cfg.executor s.ledger s'.ledger := by
  obtain ⟨s₁, hprocess, hcheck⟩ := bind_eq_ok.mp htick
  exact (path_processPendingOrders hinv hprocess).trans (path_checkSlTpTriggers hcheck)

theorem path_heartbeat (hbeat : heartbeat cfg s = .ok s') :
    Path cfg.executor s.ledger s'.ledger := by
  obtain ⟨rfl, -⟩ | ⟨_, _, resolved, -, -, hresolve, hdrain⟩ := heartbeat_eq_ok hbeat
  · exact .refl
  · exact (path_resolvePendingOperations hresolve).trans (path_drainLatencyQueue hdrain)

theorem path_stepped {op : SimulatorOp} (hinv : Conserved [] s) (hstep : Stepped cfg s op s') :
    Path cfg.executor s.ledger s'.ledger := by
  have hnumbered : ∀ symbol, Path cfg.executor s.ledger
      { s.ledger with portfolio := (s.ledger.portfolio.getNextPositionId symbol).1 } :=
    fun symbol => .single (.numbered symbol)
  cases hstep with
  | ticked htick => exact path_onTick hinv htick
  | beat hbeat => exact path_heartbeat hbeat
  | clockSet => exact .refl
  | @refused request normalized reason message =>
      exact (hnumbered normalized.symbol).trans (path_note rfl rfl rfl)
  | @accepted request normalized tick htick hvalid =>
      refine (hnumbered normalized.symbol).trans (.single (.noted
        [.orderReceived _, .result .submission _] rfl (List.append_assoc _ [_] [_]) ?_))
      simp [isNote]
  | closeAccepted hposition htick => exact path_note rfl rfl rfl
  | ignored hclose => exact .refl
  | limitScheduled hfind hstate hop => exact .refl
  | stopScheduled hfind hstate hop => exact .refl
  | positionScheduled => exact .refl
  | positionModified => exact .single (.levelsModified _ _ _)
  | guardRecorded => exact path_note rfl rfl rfl
  | queried hensure => exact .single (.refreshed hensure)

theorem path_closeAllRemainingOrders (hend : closeAllRemainingOrders cfg s = .ok s') :
    Path cfg.executor s.ledger s'.ledger := by
  obtain ⟨ledger₁, hpositions, hend⟩ := bind_eq_ok.mp hend
  obtain ⟨ledger₂, hlimits, hend⟩ := bind_eq_ok.mp hend
  obtain ⟨ledger₃, hstops, hpure⟩ := bind_eq_ok.mp hend
  cases hpure
  have hclosed : Path cfg.executor s.ledger ledger₁ := by
    refine foldlM_induct (P := fun _ ledger => Path cfg.executor s.ledger ledger) ?_ .refl hpositions
    intro position rest ledger ledger' hpath hfill
    exact hpath.tail (.closeFill hfill)
  have hexpire : ∀ (orders : List PendingOrder) ledger ledger',
      orders.foldlM (expireOrder cfg.executor s.market) ledger = .ok ledger' →
      Path cfg.executor ledger ledger' := by
    intro orders ledger ledger' hloop
    refine foldlM_induct (P := fun _ ledger' => Path cfg.executor ledger ledger') ?_ .refl hloop
    intro order rest ledger₁ ledger₂ hpath hstep
    obtain ⟨now, -, hpure⟩ := bind_eq_ok.mp hstep
    cases hpure
    exact hpath.trans (path_note rfl rfl rfl)
  refine ((hclosed.trans (hexpire _ _ _ hlimits)).trans (hexpire _ _ _ hstops)).tail
    (.noted _ rfl rfl fun event hevent => ?_)
  obtain ⟨order, -, rfl⟩ := List.mem_map.mp hevent
  rfl

end Phases

section Runs

variable {cfg : SimulatorConfig} {Inv : ExecutionLedger → Prop} {ops : List SimulatorOp}
  {s s' : TradeSimulator}

/-- What every move preserves holds of the ledger in every reachable state. -/
theorem ledger_invariant
    (hmove : ∀ ledger ledger', Inv ledger → LedgerMove cfg.executor ledger ledger' → Inv ledger')
    (hinit : Inv (Simulator.new cfg).ledger)
    (hrun : run (step cfg) (Simulator.new cfg) ops = .ok s) : Inv s.ledger := by
  have h : Conserved [] s ∧ Inv s.ledger := by
    refine run_invariant (P := fun s => Conserved [] s ∧ Inv s.ledger) ?_
      ⟨conserved_new, hinit⟩ hrun
    rintro s op s' ⟨hconserved, hinv⟩ hop
    have hstepped := step_stepped hop
    exact ⟨stepped_conserved hconserved hstepped,
      (path_stepped hconserved hstepped).invariant hmove hinv⟩
  exact h.2

/-- Every position is stored under its id, with the digits of its symbol. -/
def PositionsSound (cfg : ExecutorConfig) (ledger : ExecutionLedger) : Prop :=
  ∀ k position, ledger.portfolio.getPosition k = some position →
    position.positionId = k ∧
      ∃ spec, cfg.broker.symbols.get? position.symbol = some spec ∧ position.digits = spec.digits

theorem positionsSound_of_contracts {cfg : ExecutorConfig} {ledger ledger' : ExecutionLedger}
    (h : PositionsSound cfg ledger)
    (hkeep : ∀ k position', ledger'.portfolio.getPosition k = some position' →
      ∃ position, ledger.portfolio.getPosition k = some position ∧
        contract position' = contract position) : PositionsSound cfg ledger' := by
  intro k position' hposition'
  obtain ⟨position, hposition, hcontract⟩ := hkeep k position' hposition'
  obtain ⟨hid, spec, hspec, hdigits⟩ := h k position hposition
  obtain ⟨hid', hsymbol, -, -, hdigits'⟩ : position'.positionId = position.positionId ∧
      position'.symbol = position.symbol ∧ position'.direction = position.direction ∧
      position'.entryPrice = position.entryPrice ∧ position'.digits = position.digits := by
    simpa [contract] using hcontract
  refine ⟨hid'.trans hid, spec, ?_, hdigits'.trans hdigits⟩
  rw [hsymbol]
  exact hspec

/-- A close fill keeps the contract and the levels of every position it leaves. -/
theorem fillCloseOrder_keeps {cfg : ExecutorConfig} {market : MarketState}
    {ledger ledger' : ExecutionLedger} {order : PendingOrder} {fillPrice : Option ℚ}
    {closeReason : CloseReason}
    (h : fillCloseOrder cfg market ledger order fillPrice closeReason = .ok ledger') :
    KeepsPositions ledger.portfolio ledger'.portfolio := by
  obtain ⟨tick, -, ⟨rfl, -⟩ | ⟨position, spec, closePrice, exitTickValue, closing, seq, trades, pm,
    pnl, now, result, -, -, -, -, -, -, -, hclose, -, rfl⟩⟩ := fillCloseOrder_eq_ok h
  · exact fun k position hposition => ⟨position, hposition, rfl, rfl⟩
  · cases closing with
    | none => exact (closePositionPortfolio_frame hclose).2.2
    | some lots => exact (partialClosePosition_frame hclose).2

theorem move_positionsSound {cfg : ExecutorConfig} {ledger ledger' : ExecutionLedger}
    (h : PositionsSound cfg ledger) (hmove : LedgerMove cfg ledger ledger') :
    PositionsSound cfg ledger' := by
  cases hmove with
  | @openFill market order fillPrice entryType fillType ledger' hfill =>
      obtain ⟨tick, spec, entryPrice, pm, -, -, hspec, -, hpm, hend⟩ := fillOpenOrder_eq_ok hfill
      have hsound : PositionsSound cfg { ledger with portfolio := pm } := by
        rcases hpm with rfl | hensure
        · exact h
        · exact positionsSound_of_contracts h (ensure_keeps_positions hensure).contracts
      rcases hend with ⟨reason, message, rfl⟩ |
          ⟨tickValue, bid, ask, entryFee, trades, seq, pm', now, -, -, hopen, rfl⟩
      · exact hsound
      · obtain ⟨now', costs, balances, -, rfl⟩ := openPosition_eq_ok hopen
        intro k position hposition
        by_cases hkey : k = order.pendingOrderId
        · subst hkey
          cases (Dict.get?_set_self _ _ _).symm.trans hposition
          exact ⟨rfl, spec, hspec, rfl⟩
        · exact hsound k position ((Dict.get?_set_ne _ _ hkey).symm.trans hposition)
  | closeFill hfill => exact positionsSound_of_contracts h (fillCloseOrder_keeps hfill).contracts
  | refreshed hensure =>
      exact positionsSound_of_contracts h (ensure_keeps_positions hensure).contracts
  | levelsModified positionId stopLoss takeProfit =>
      obtain ⟨positions, hframe, hkeep⟩ :=
        modifyPosition_frame ledger.portfolio positionId stopLoss takeProfit
      refine positionsSound_of_contracts h fun k position' hposition' => ?_
      simp only [hframe] at hposition'
      obtain ⟨before, hbefore, heq⟩ := hkeep k position' hposition'
      refine ⟨before, hbefore, ?_⟩
      rw [heq]
      rfl
  | priced tick => exact h
  | numbered symbol => exact h
  | noted events hportfolio hlog hevents =>
      intro k position hposition
      rw [hportfolio] at hposition
      exact h k position hposition

theorem positionsSound (hrun : run (step cfg) (Simulator.new cfg) ops = .ok s) :
    PositionsSound cfg.executor s.ledger :=
  ledger_invariant (fun _ _ => move_positionsSound)
    (fun k position hposition => by cases hposition) hrun

end Runs

end Finiex.SimulatorLedger
