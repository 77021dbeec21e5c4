import Finiex.SimulatorCloses
import Finiex.SimulatorExposure
import Finiex.TradingApi

namespace Finiex.SinglePosition

open Finiex.Types
open Finiex.Lib
open Finiex.Lib.Run
open Finiex.Lib.Reach
open Finiex.Positions
open Finiex.Broker
open Finiex.Orders
open Finiex.OrderBooks
open Finiex.Portfolio
open Finiex.Portfolio.PortfolioManager
open Finiex.PortfolioRefresh
open Finiex.PortfolioLedger
open Finiex.PortfolioFrames
open Finiex.Executor
open Finiex.Simulator
open Finiex.SimulatorSpecs
open Finiex.SimulatorSteps
open Finiex.SimulatorConservation
open Finiex.SimulatorCloses
open Finiex.SimulatorExposure
open Finiex.TradingApi

inductive DecisionLogicAction
  | buy | sell | flat
  deriving DecidableEq, Repr

structure Decision where
  action : DecisionLogicAction
  reason : String

def DecisionLogicAction.side : DecisionLogicAction → OrderSide
  | .buy => .buy
  | _ => .sell

def DecisionLogicAction.direction (action : DecisionLogicAction) : OrderDirection :=
  resolveOrderSide action.side

section Logics

variable (cfg : ApiConfig)

structure EntryParams where
  minFreeMargin : ℚ
  lotSize : ℚ

/-- The comment of an order: the logic's name and the first 50 characters of its reason. -/
def orderComment (name : String) (decision : Decision) : String :=
  s!"{name}: {String.ofList (decision.reason.toList.take 50)}"

/-- A spot SELL needs the base currency it sells; nothing else is checked here. -/
def spotSellCovered (session : TradingSession) (side : OrderSide) (symbol : String) (lots : ℚ) :
    Except PyError Bool := do
  if side = .sell ∧ isSpotMode cfg then
    let spec ← getSymbolSpec cfg symbol
    return !decide (getAssetBalance session spec.baseCurrency < lots * spec.contractSize)
  else return true

/-- An entry, with the answer to its order: skipped when the spot balance or the free margin does
not allow it. A BUY needs no base currency. -/
def tryEnter (session : TradingSession) (minFreeMargin : ℚ) (ticket : OrderTicket) :
    Except PyError (TradingSession × Option OrderResult) := do
  if !(← spotSellCovered cfg session ticket.side ticket.symbol ticket.lots) then
    return (session, none)
  let (session, account) ← getAccountInfo cfg session (resolveOrderSide ticket.side)
  if account.freeMargin < minFreeMargin then return (session, none)
  let (session, result) ← sendOrder cfg session ticket
  return (session, some result)

def marketTicket (params : EntryParams) (side : OrderSide) (comment : String) (tick : TickData) :
    OrderTicket where
  symbol := tick.symbol
  orderType := .market
  side := side
  lots := params.lotSize
  comment := comment

/-- `_execute_decision_impl` of the two reversing logics. -/
def reverseOnSignal (name : String) (params : EntryParams) (session : TradingSession)
    (decision : Decision) (tick : TickData) : Except PyError TradingSession := do
  if decision.action = .flat then return session
  if hasPendingOrders session then return session
  match getOpenPositions session with
  | position :: _ =>
      if position.direction = decision.action.direction then return session
      let (session, _) ← closePosition cfg session position.positionId none
      return session
  | [] =>
      let (session, _) ← tryEnter cfg session params.minFreeMargin
        (marketTicket params decision.action.side (orderComment name decision) tick)
      return session

/-- `AggressiveTrend._execute_decision_impl`. -/
def aggressiveTrend : EntryParams → TradingSession → Decision → TickData →
    Except PyError TradingSession :=
  reverseOnSignal cfg "AggressiveTrend"

/-- `SimpleConsensus._execute_decision_impl`. -/
def simpleConsensus : EntryParams → TradingSession → Decision → TickData →
    Except PyError TradingSession :=
  reverseOnSignal cfg "SimpleConsensus"

/-- `HybridSentimentReference._execute_decision_impl`: long, or out. -/
def hybridSentiment (params : EntryParams) (session : TradingSession) (decision : Decision)
    (tick : TickData) : Except PyError TradingSession := do
  if hasPendingOrders session then return session
  match decision.action, getOpenPositions session with
  | .buy, [] =>
      let (session, _) ← tryEnter cfg session params.minFreeMargin
        (marketTicket params .buy "HybridSentiment: open long" tick)
      return session
  | .sell, position :: _ =>
      let (session, _) ← closePosition cfg session position.positionId none
      return session
  | _, _ => return session

structure CautiousMacdParams where
  entry : EntryParams
  stopDistancePips : ℚ
  slPips : ℚ
  tpPips : ℚ
  pipSize : ℚ
  breakEvenTriggerPips : ℚ
  useStopLimit : Bool
  stopLimitOffsetPips : ℚ

structure CautiousMacdState where
  pendingStopOrderId : Option String := none
  pendingDirection : Option OrderDirection := none
  breakEvenApplied : Bool := false
  currentPositionId : Option String := none

def profitMove (position : Position) (tick : TickData) : ℚ :=
  match position.direction with
  | .long => tick.bid - position.entryPrice
  | .short => position.entryPrice - tick.ask

def checkAndApplyBreakEven (params : CautiousMacdParams) (session : TradingSession)
    (state : CautiousMacdState) (position : Position) (tick : TickData) :
    Except PyError (TradingSession × CautiousMacdState) := do
  if profitMove position tick < params.breakEvenTriggerPips * params.pipSize then
    return (session, state)
  let (session, result) ← modifyPosition cfg session position.positionId
    (.given (some position.entryPrice)) .unset
  return (session, if result.success then { state with breakEvenApplied := true } else state)

/-- The state once the logic has seen the position; a new one ends the wait for its entry. -/
def notePosition (state : CautiousMacdState) (position : Position) : CautiousMacdState :=
  if some position.positionId ≠ state.currentPositionId then
    { currentPositionId := some position.positionId }
  else state

def breakEven (params : CautiousMacdParams) (session : TradingSession)
    (state : CautiousMacdState) (position : Position) (tick : TickData) :
    Except PyError (TradingSession × CautiousMacdState) :=
  if !state.breakEvenApplied && decide (0 < params.breakEvenTriggerPips) then
    checkAndApplyBreakEven cfg params session state position tick
  else .ok (session, state)

/-- IN_POSITION: note a new position, move its stop to break even, close it on a counter
signal. -/
def manageMacdPosition (params : CautiousMacdParams) (session : TradingSession)
    (state : CautiousMacdState) (position : Position) (decision : Decision) (tick : TickData) :
    Except PyError (TradingSession × CautiousMacdState) := do
  let (session, state) ← breakEven cfg params session (notePosition state position) position tick
  if decision.action ≠ .flat ∧ position.direction ≠ decision.action.direction then
    let (session, _) ← closePosition cfg session position.positionId none
    return (session, { state with currentPositionId := none, breakEvenApplied := false })
  else return (session, state)

/-- PENDING_ENTRY: a resting STOP is cancelled on a counter signal. -/
def manageMacdEntry (session : TradingSession) (state : CautiousMacdState) (decision : Decision) :
    Except PyError (TradingSession × CautiousMacdState) := do
  if hasPipelineOrders session then return (session, state)
  match state.pendingStopOrderId with
  | none => return (session, state)
  | some orderId =>
      if decision.action ≠ .flat ∧
          state.pendingDirection.any (fun pending => pending ≠ decision.action.direction) then
        let (session, _) ← cancelStopOrder cfg session orderId
        return (session, { state with pendingStopOrderId := none, pendingDirection := none })
      else return (session, state)

def macdTicket (params : CautiousMacdParams) (decision : Decision) (tick : TickData) :
    OrderTicket :=
  let dist := params.stopDistancePips * params.pipSize
  let slDist := params.slPips * params.pipSize
  let tpDist := params.tpPips * params.pipSize
  let offset := params.stopLimitOffsetPips * params.pipSize
  let long := decide (decision.action.direction = .long)
  let stopPrice := if long then tick.ask + dist else tick.bid - dist
  { symbol := tick.symbol
    orderType := if params.useStopLimit then .stopLimit else .stop
    side := decision.action.side
    lots := params.entry.lotSize
    price :=
      if params.useStopLimit then some (if long then stopPrice + offset else stopPrice - offset)
      else none
    stopPrice := some stopPrice
    stopLoss := some (if long then stopPrice - slDist else stopPrice + slDist)
    takeProfit := some (if long then stopPrice + tpDist else stopPrice - tpDist)
    comment := orderComment "CautiousMacd" decision }

def enterMacd (params : CautiousMacdParams) (session : TradingSession) (state : CautiousMacdState)
    (decision : Decision) (tick : TickData) :
    Except PyError (TradingSession × CautiousMacdState) := do
  if decision.action = .flat then return (session, state)
  let (session, result) ← tryEnter cfg session params.entry.minFreeMargin
    (macdTicket params decision tick)
  match result with
  | none => return (session, state)
  | some result =>
      if result.status = .pending then
        return (session, { state with
          pendingStopOrderId := some result.orderId
          pendingDirection := some decision.action.direction })
      else return (session, state)

/-- `CautiousMacd._execute_decision_impl`. -/
def cautiousMacd (params : CautiousMacdParams) (session : TradingSession)
    (state : CautiousMacdState) (decision : Decision) (tick : TickData) :
    Except PyError (TradingSession × CautiousMacdState) :=
  match getOpenPositions session with
  | position :: _ => manageMacdPosition cfg params session state position decision tick
  | [] =>
      if hasPipelineOrders session || !session.simulator.activeStopOrders.isEmpty then
        manageMacdEntry cfg session state decision
      else enterMacd cfg params session state decision tick

end Logics

section Flat

variable {cfg : ApiConfig} {session session' : TradingSession}

/-- What the queries say of a session in which nothing exposes the account. -/
structure LooksFlat (session : TradingSession) : Prop where
  positions : getOpenPositions session = []
  pipeline : session.simulator.latencyQueue.isEmpty = true
  limits : session.simulator.activeLimitOrders = []
  stops : session.simulator.activeStopOrders = []

theorem LooksFlat.not_exposed (h : LooksFlat session) (id : String) :
    ¬ Exposes session.simulator id := by
  obtain ⟨hpositions, hpipeline, hlimits, hstops⟩ := h
  have hqueue : session.simulator.latencyQueue.values = [] := by
    simpa [Dict.isEmpty, Dict.values] using hpipeline
  rintro (hposition | hqueued | hlimit | hstop)
  · obtain ⟨position, hget⟩ := Option.ne_none_iff_exists'.mp hposition
    have hmem : position ∈ getOpenPositions session := Dict.mem_values_of_get? hget
    rw [hpositions] at hmem
    cases hmem
  · simp [hqueue, openIds, orderIds] at hqueued
  · simp [hlimits, orderIds] at hlimit
  · simp [hstops, orderIds] at hstop

theorem looksFlat_of_no_pending (hpositions : getOpenPositions session = [])
    (hpending : hasPendingOrders session = false) : LooksFlat session := by
  simp only [hasPendingOrders, hasPipelineOrders, Bool.or_eq_false_iff, Bool.not_eq_false',
    List.isEmpty_iff] at hpending
  exact ⟨hpositions, hpending.1.1, hpending.1.2, hpending.2⟩

/-- A look at the account opens nothing. -/
theorem not_exposed_getAccountInfo {direction : OrderDirection} {info : AccountInfo}
    (h : getAccountInfo cfg session direction = .ok (session', info)) {id : String}
    (hid : ¬ Exposes session.simulator id) : ¬ Exposes session'.simulator id := by
  obtain ⟨⟨portfolio, found⟩, hinfo, hpure⟩ := bind_eq_ok.mp h
  cases hpure
  have hkeep := (ensure_keeps_positions (getAccountInfo_eq_ok hinfo)).open_before id
  exact fun hexposed => hid (hexposed.imp_left hkeep)

end Flat

section Calls

variable {cfg : ApiConfig} {session session' : TradingSession} {P : TradeSimulator → SimulatorOp → Prop}

/-- Looks at the account and guard rejections are not restricted. -/
structure Unrestricted (P : TradeSimulator → SimulatorOp → Prop) : Prop where
  account : ∀ s direction, P s (.getAccountInfo direction)
  guard : ∀ s result, P s (.recordGuardRejection result)

theorem calls_getAccountInfo (hP : Unrestricted P) {direction : OrderDirection} {info : AccountInfo}
    (h : getAccountInfo cfg session direction = .ok (session', info)) :
    Calls cfg P session.simulator session'.simulator :=
  .one (hP.account _ _) (getAccountInfo_step h)

theorem calls_sendOrder (hP : Unrestricted P) {ticket : OrderTicket} {result : OrderResult}
    (horder : P session.simulator (.openOrder ticket.request))
    (h : sendOrder cfg session ticket = .ok (session', result)) :
    Calls cfg P session.simulator session'.simulator := by
  rcases sendOrder_step h with hopen | ⟨hrecord, -⟩
  · exact .one horder hopen
  · exact .one (hP.guard _ _) hrecord

theorem calls_tryEnter (hP : Unrestricted P) {minFreeMargin : ℚ} {ticket : OrderTicket}
    {result : Option OrderResult}
    (horder : ∀ asked info,
      getAccountInfo cfg session (resolveOrderSide ticket.side) = .ok (asked, info) →
        P asked.simulator (.openOrder ticket.request))
    (h : tryEnter cfg session minFreeMargin ticket = .ok (session', result)) :
    Calls cfg P session.simulator session'.simulator := by
  obtain ⟨covered, -, h⟩ := bind_eq_ok.mp h
  split at h
  · cases h
    exact .refl
  · obtain ⟨⟨asked, account⟩, hinfo, h⟩ := bind_eq_ok.mp h
    have hasked := calls_getAccountInfo hP hinfo
    dsimp only at h
    split at h
    · cases h
      exact hasked
    · obtain ⟨⟨sent, answer⟩, hsend, hpure⟩ := bind_eq_ok.mp h
      cases hpure
      exact hasked.trans (calls_sendOrder hP (horder asked account hinfo) hsend)

/-- Orders are placed where nothing exposes the account, positions closed where nothing is
queued. -/
structure ActsWhenIdle (s : TradeSimulator) (op : SimulatorOp) : Prop where
  opens : OpensWhenFlat s op
  closes : ∀ positionId lots, op = .closePosition positionId lots → s.latencyQueue.isEmpty = true

theorem actsWhenIdle_of_ne {s : TradeSimulator} {op : SimulatorOp}
    (hopen : ∀ request, op ≠ .openOrder request)
    (hclose : ∀ positionId lots, op ≠ .closePosition positionId lots) : ActsWhenIdle s op :=
  ⟨fun request heq => absurd heq (hopen request),
    fun positionId lots heq => absurd heq (hclose positionId lots)⟩

theorem unrestricted_actsWhenIdle : Unrestricted ActsWhenIdle :=
  ⟨fun _ _ => actsWhenIdle_of_ne (by simp) (by simp),
    fun _ _ => actsWhenIdle_of_ne (by simp) (by simp)⟩

/-- An entry from a session that looks flat is one from where nothing exposes the account. -/
theorem calls_tryEnter_flat {minFreeMargin : ℚ} {ticket : OrderTicket}
    {result : Option OrderResult} (hflat : LooksFlat session)
    (h : tryEnter cfg session minFreeMargin ticket = .ok (session', result)) :
    Calls cfg ActsWhenIdle session.simulator session'.simulator := by
  refine calls_tryEnter unrestricted_actsWhenIdle (fun asked info hinfo => ⟨?_, nofun⟩) h
  intro request _ id
  exact not_exposed_getAccountInfo hinfo (hflat.not_exposed id)

theorem calls_closePosition_idle {positionId : String} {lots : Option ℚ} {result : OrderResult}
    (hpending : hasPendingOrders session = false)
    (h : closePosition cfg session positionId lots = .ok (session', result)) :
    Calls cfg ActsWhenIdle session.simulator session'.simulator := by
  have hopens : OpensWhenFlat session.simulator (.closePosition positionId lots) :=
    fun request heq => by cases heq
  refine .one ⟨hopens, fun _ _ _ => ?_⟩ (closePosition_step h)
  simp only [hasPendingOrders, hasPipelineOrders, Bool.or_eq_false_iff,
    Bool.not_eq_false'] at hpending
  exact hpending.1.1

end Calls

section Logics

variable {cfg : ApiConfig} {params : EntryParams} {session session' : TradingSession}
  {decision : Decision} {tick : TickData}

theorem reverseOnSignal_calls {name : String}
    (h : reverseOnSignal cfg name params session decision tick = .ok session') :
    Calls cfg ActsWhenIdle session.simulator session'.simulator := by
  unfold reverseOnSignal at h
  split at h
  · cases h
    exact .refl
  · split at h
    · cases h
      exact .refl
    · next hpending =>
        split at h
        · split at h
          · cases h
            exact .refl
          · obtain ⟨⟨closed, result⟩, hclose, hpure⟩ := bind_eq_ok.mp h
            cases hpure
            exact calls_closePosition_idle (by simpa using hpending) hclose
        · next hpositions =>
            obtain ⟨⟨entered, result⟩, henter, hpure⟩ := bind_eq_ok.mp h
            cases hpure
            exact calls_tryEnter_flat
              (looksFlat_of_no_pending hpositions (by simpa using hpending)) henter

theorem hybridSentiment_calls
    (h : hybridSentiment cfg params session decision tick = .ok session') :
    Calls cfg ActsWhenIdle session.simulator session'.simulator := by
  unfold hybridSentiment at h
  split at h
  · cases h
    exact .refl
  · next hpending =>
      split at h
      · next haction hpositions =>
          obtain ⟨⟨entered, result⟩, henter, hpure⟩ := bind_eq_ok.mp h
          cases hpure
          exact calls_tryEnter_flat
            (looksFlat_of_no_pending hpositions (by simpa using hpending)) henter
      · obtain ⟨⟨closed, result⟩, hclose, hpure⟩ := bind_eq_ok.mp h
        cases hpure
        exact calls_closePosition_idle (by simpa using hpending) hclose
      · cases h
        exact .refl

end Logics

section Runs

variable {cfg : ApiConfig}

/-- The decision logics that act only while no order is pending. -/
inductive PendingAware
  | aggressiveTrend (params : EntryParams)
  | simpleConsensus (params : EntryParams)
  | hybridSentiment (params : EntryParams)

def PendingAware.executeDecisionImpl (cfg : ApiConfig) :
    PendingAware → TradingSession → Decision → TickData → Except PyError TradingSession
  | .aggressiveTrend params => SinglePosition.aggressiveTrend cfg params
  | .simpleConsensus params => SinglePosition.simpleConsensus cfg params
  | .hybridSentiment params => SinglePosition.hybridSentiment cfg params

/-- The logic in the tick loop; it has no state of its own. -/
def PendingAware.pass (cfg : ApiConfig) (logic : PendingAware) : DecisionPass Unit Decision :=
  fun state decision tick => do
    let session ← logic.executeDecisionImpl cfg state.1 decision tick
    return (session, ())

theorem PendingAware.pass_calls {logic : PendingAware} {state state' : TradingSession × Unit}
    {decision : Decision} {tick : TickData}
    (h : logic.pass cfg state decision tick = .ok state') :
    Calls cfg ActsWhenIdle state.1.simulator state'.1.simulator := by
  unfold PendingAware.pass at h
  obtain ⟨session, hpass, hpure⟩ := bind_eq_ok.mp h
  cases hpure
  cases logic with
  | aggressiveTrend params => exact reverseOnSignal_calls hpass
  | simpleConsensus params => exact reverseOnSignal_calls hpass
  | hybridSentiment params => exact hybridSentiment_calls hpass

theorem PendingAware.loop_calls {logic : PendingAware} {passes : List (LoopPass Decision)}
    {session : TradingSession}
    (hrun : run (loopStep cfg (logic.pass cfg)) (newSession cfg, ()) passes =
      .ok (session, ())) :
    Calls cfg ActsWhenIdle (Simulator.new cfg.simulator) session.simulator :=
  TradingApi.loop_calls (I := fun _ => True)
    (fun _ _ => actsWhenIdle_of_ne (by simp) (by simp))
    (fun _ _ _ _ _ => trivial) (fun _ _ _ _ _ hpass => PendingAware.pass_calls hpass) trivial hrun

/-- Whatever the ticks, the latencies, the seeded rejections and the decisions, these logics never
hold more than one position or order at a time. -/
theorem one_position_at_a_time (cfg : ApiConfig) (logic : PendingAware)
    {passes : List (LoopPass Decision)} {session : TradingSession}
    (hrun : run (loopStep cfg (logic.pass cfg)) (newSession cfg, ()) passes = .ok (session, ())) :
    exposure session.simulator ≤ 1 := by
  have hinv : Conserved [] session.simulator ∧ SingleExposure session.simulator := by
    refine ReachesBy.invariant (I := fun s => Conserved [] s ∧ SingleExposure s) ?_
      ⟨conserved_new, singleExposure_new⟩ (PendingAware.loop_calls hrun)
    rintro s op s' ⟨hconserved, hsingle⟩ hidle hstep
    exact ⟨stepped_conserved hconserved (step_stepped hstep),
      singleExposure_step hconserved hsingle hidle.opens hstep⟩
  exact exposure_le_one hinv.1 hinv.2

theorem closesOnce_of_idle {s : TradeSimulator} {op : SimulatorOp} (h : ActsWhenIdle s op) :
    ClosesOnce s op := by
  cases op with
  | closePosition positionId lots =>
      have hqueue : s.latencyQueue.values = [] := by
        simpa [Dict.isEmpty, Dict.values] using h.closes positionId lots rfl
      exact .inr (by simp [Simulator.isPendingClose, hqueue])
  | _ => trivial

/-- No close these logics submit is lost: at the end of the session each has been passed on or
forced, once. -/
theorem no_close_lost_in_session (cfg : ApiConfig) (logic : PendingAware)
    {passes : List (LoopPass Decision)} {session : TradingSession} {s' : TradeSimulator}
    (hrun : run (loopStep cfg (logic.pass cfg)) (newSession cfg, ()) passes = .ok (session, ()))
    (hend : closeAllRemainingOrders cfg.simulator session.simulator = .ok s') :
    (receivedCloses s'.ledger).Perm (passedCloses s'.ledger ++ forcedCloses s'.ledger) := by
  have hinv : Conserved [] session.simulator ∧ Settled [] [] session.simulator := by
    refine ReachesBy.invariant (I := fun s => Conserved [] s ∧ Settled [] [] s) ?_ ?_
      (PendingAware.loop_calls hrun)
    · rintro s op s' ⟨hconserved, hsettled⟩ hidle hstep
      have hstepped := step_stepped hstep
      obtain ⟨overwritten, hsettled', honce⟩ := step_settled hconserved hsettled hstepped
      rw [honce.mpr (closesOnce_of_idle hidle), List.nil_append] at hsettled'
      exact ⟨stepped_conserved hconserved hstepped, hsettled'⟩
    · exact ⟨conserved_new, fun _ => rfl, fun _ hmem => absurd hmem List.not_mem_nil⟩
  obtain ⟨hsettled, hqueue⟩ := hinv.2.closeAllRemainingOrders hend
  have hempty : closeOrders s'.latencyQueue.values = [] := by
    rw [hqueue]
    rfl
  refine List.perm_iff_count.mpr fun order => ?_
  rw [hsettled.balanced order, hempty, List.count_append]
  rfl

def openKeepReverse : List (LoopPass Decision) :=
  [{ tick := eurusdTick (11000 / 10000) (11002 / 10000) 1000, input := ⟨.buy, "RSI=30.0"⟩ },
    { tick := eurusdTick (11001 / 10000) (11003 / 10000) 1010, input := ⟨.buy, "RSI=31.0"⟩ },
    { tick := eurusdTick (11002 / 10000) (11004 / 10000) 1020, input := ⟨.sell, "RSI=70.0"⟩ }]

def forexApi : ApiConfig where
  simulator := forexSimulator
  guardIds := fun _ => "guard_0"

theorem openKeepReverse_exposure :
    (run (loopStep forexApi ((PendingAware.aggressiveTrend ⟨1000, 1⟩).pass forexApi))
      (newSession forexApi, ()) openKeepReverse).map
        (fun state => (exposure state.1.simulator, state.1.simulator.latencyQueue.keys)) =
      .ok (1, ["pos_eurusd_1"]) := by
  decide +kernel

theorem no_close_lost_openKeepReverse :
    ∃ (session : TradingSession) (s' : TradeSimulator),
      run (loopStep forexApi ((PendingAware.aggressiveTrend ⟨1000, 1⟩).pass forexApi))
          (newSession forexApi, ()) openKeepReverse = .ok (session, ()) ∧
        closeAllRemainingOrders forexSimulator session.simulator = .ok s' ∧
      (receivedCloses s'.ledger).Perm (passedCloses s'.ledger ++ forcedCloses s'.ledger) := by
  have hends : ((run (loopStep forexApi ((PendingAware.aggressiveTrend ⟨1000, 1⟩).pass forexApi))
      (newSession forexApi, ()) openKeepReverse) >>= fun state =>
        closeAllRemainingOrders forexSimulator state.1.simulator).map
          (fun s => s.latencyQueue.size) = .ok 0 := by
    decide +kernel
  obtain ⟨s', hboth, -⟩ := exists_of_map_eq_ok hends
  obtain ⟨⟨session, state⟩, hrun, hend⟩ := bind_eq_ok.mp hboth
  exact ⟨session, s', hrun, hend, no_close_lost_in_session forexApi _ hrun hend⟩

theorem one_position_openKeepReverse :
    ∃ session, run (loopStep forexApi ((PendingAware.aggressiveTrend ⟨1000, 1⟩).pass forexApi))
        (newSession forexApi, ()) openKeepReverse = .ok (session, ()) ∧
      exposure session.simulator ≤ 1 := by
  obtain ⟨⟨session, state⟩, hrun, -⟩ := exists_of_map_eq_ok openKeepReverse_exposure
  exact ⟨session, hrun, one_position_at_a_time forexApi _ hrun⟩

end Runs

section StopEntries

/-! An order that enters as a STOP never rests as a LIMIT order. -/

variable {cfg : SimulatorConfig} {s s' : TradeSimulator}

structure StopsOnly (s : TradeSimulator) : Prop where
  limits : s.activeLimitOrders = []
  queued : ∀ order ∈ s.latencyQueue.values, order.isOpen = true → order.orderType = some .stop
  stops : ∀ order ∈ s.activeStopOrders, order.orderType = some .stop

theorem StopsOnly.frame (h : StopsOnly s) (hlimits : s'.activeLimitOrders = s.activeLimitOrders)
    (hqueue : s'.latencyQueue = s.latencyQueue)
    (hstops : s'.activeStopOrders = s.activeStopOrders) : StopsOnly s' := by
  obtain ⟨hnone, hqueued, htypes⟩ := h
  constructor <;> simp only [hlimits, hqueue, hstops] <;> assumption

theorem StopsOnly.placed {order placedOrder : PendingOrder} (h : StopsOnly s)
    (htype : order.orderType = some .stop) (hbecomes : Becomes order placedOrder)
    (hplaced : Placed cfg s placedOrder s') : StopsOnly s' := by
  cases hbecomes with
  | converted hstopLimit => simp [htype] at hstopLimit
  | same =>
      cases hplaced with
      | filled hfilled hprice hfill => exact h.frame rfl rfl rfl
      | restsAsLimit hlimit hnot => simp [htype] at hlimit
      | restsAsStop hstop hnot =>
          refine ⟨h.limits, h.queued, fun p hp => ?_⟩
          rcases List.mem_append.mp hp with hmem | hmem
          · exact h.stops p hmem
          · rw [List.mem_singleton.mp hmem]
            exact htype

theorem StopsOnly.resolved {order : PendingOrder} (h : StopsOnly s)
    (htype : order.isOpen = true → order.orderType = some .stop)
    (hresolved : Resolved cfg s order s') : StopsOnly s' := by
  cases hresolved with
  | stressRejected hopen => exact h.frame rfl rfl rfl
  | @activated calls placedOrder placed hopen hbecomes hplaced =>
      have hasked : StopsOnly { s with stressCalls := calls } := h.frame rfl rfl rfl
      have hstop := htype (by simp [PendingOrder.isOpen, hopen])
      exact (hasked.placed hstop hbecomes hplaced).frame rfl rfl rfl
  | closed hclose hfill => exact h.frame rfl rfl rfl

theorem StopsOnly.drainLatencyQueue {msc : ℤ} (h : StopsOnly s)
    (hdrain : drainLatencyQueue cfg s msc = .ok s') : StopsOnly s' := by
  have hend := foldlM_induct (P := fun rest s => StopsOnly s ∧
    ∀ order ∈ rest, order.isOpen = true → order.orderType = some .stop) ?_ ?_ hdrain
  · exact hend.1
  · rintro order rest s₁ s₂ ⟨hinv, htypes⟩ hstep
    obtain ⟨htype, hrest⟩ := List.forall_mem_cons.mp htypes
    exact ⟨hinv.resolved htype (fillResolvedOrder_resolved hstep), hrest⟩
  · refine ⟨⟨h.limits, fun order hmem => h.queued order ?_, h.stops⟩, fun order hmem => ?_⟩
    · rw [Dict.values_filter] at hmem
      exact (List.mem_filter.mp hmem).1
    · exact h.queued order (List.mem_filter.mp hmem).1

theorem StopsOnly.monitorLimitOrders (h : StopsOnly s)
    (hmonitor : monitorLimitOrders cfg s = .ok s') : StopsOnly s' := by
  unfold Simulator.monitorLimitOrders at hmonitor
  rw [h.limits] at hmonitor
  cases hmonitor
  exact ⟨rfl, h.queued, h.stops⟩

theorem StopsOnly.monitorStopOrders (h : StopsOnly s)
    (hmonitor : monitorStopOrders cfg s = .ok s') : StopsOnly s' := by
  obtain ⟨⟨s₁, remaining⟩, hloop, hpure⟩ := bind_eq_ok.mp hmonitor
  cases hpure
  have hend := foldlM_induct (P := fun rest (state : TradeSimulator × List PendingOrder) =>
    StopsOnly { state.1 with activeStopOrders := state.2 } ∧
      ∀ order ∈ rest, order.orderType = some .stop) ?_ ?_ hloop
  · exact hend.1
  · rintro order rest ⟨s₁, kept⟩ state ⟨hinv, htypes⟩ hstep
    obtain ⟨htype, hrest⟩ := List.forall_mem_cons.mp htypes
    refine ⟨?_, hrest⟩
    obtain ⟨-, rfl⟩ | ⟨placedOrder, s₂, hbecomes, hplaced, rfl⟩ :=
      monitorStopOrder_eq_ok (.inl htype) hstep
    · refine ⟨hinv.limits, hinv.queued, fun p hp => ?_⟩
      rcases List.mem_append.mp hp with hmem | hmem
      · exact hinv.stops p hmem
      · rw [List.mem_singleton.mp hmem]
        exact htype
    · exact hinv.placed htype hbecomes hplaced
  · exact ⟨⟨h.limits, h.queued, by simp⟩, h.stops⟩

theorem StopsOnly.resolvePendingOperations (h : StopsOnly s)
    (hresolve : resolvePendingOperations s = .ok s') : StopsOnly s' := by
  obtain ⟨tick, portfolio, modifications, -, -, rfl⟩ := resolvePendingOperations_eq_ok hresolve
  refine ⟨?_, h.queued, fun order hmem => ?_⟩
  · simp [h.limits, resolveActiveOrders]
  · obtain ⟨before, hbefore, rfl, -⟩ := mem_resolveActiveOrders.mp hmem
    rw [resolveModification_orderType]
    exact h.stops before hbefore

theorem StopsOnly.onTick {tick : TickData} (hinv : Conserved [] s) (h : StopsOnly s)
    (htick : Simulator.onTick cfg s tick = .ok s') : StopsOnly s' := by
  obtain ⟨processed, hprocess, hcheck⟩ := bind_eq_ok.mp htick
  obtain ⟨resolved, drained, monitored, hresolve, hdrain, hlimits, -, hstops⟩ :=
    processPendingOrders_phases hinv hprocess
  have hreceived : StopsOnly (receiveTick s tick) := h.frame rfl rfl rfl
  have hmonitored := ((hreceived.resolvePendingOperations hresolve).drainLatencyQueue
    hdrain).monitorLimitOrders hlimits
  obtain ⟨ledger, -, hpure⟩ := bind_eq_ok.mp hcheck
  cases hpure
  exact (hmonitored.monitorStopOrders hstops).frame rfl rfl rfl

theorem stopsOnly_new : StopsOnly (Simulator.new cfg) where
  limits := rfl
  queued := fun _ hmem => absurd hmem List.not_mem_nil
  stops := fun _ hmem => absurd hmem List.not_mem_nil

/-- Orders are placed as STOP orders only. -/
def OrdersStops (op : SimulatorOp) : Prop :=
  ∀ request, op = .openOrder request → request.orderType = .stop

theorem normalized_orderType (broker : BrokerConfig) (request : OpenOrderRequest) :
    (normalizeOrderRequest broker request).orderType = request.orderType := by
  unfold normalizeOrderRequest
  split
  · rfl
  · rfl

theorem stopsOnly_step {op : SimulatorOp} (hinv : Conserved [] s) (h : StopsOnly s)
    (hop : OrdersStops op) (hstep : step cfg s op = .ok s') : StopsOnly s' := by
  have hopened : ∀ request, op = .openOrder request → StopsOnly s' := by
    rintro request rfl
    obtain ⟨⟨s₁, result⟩, hopen, rfl⟩ := map_eq_ok.mp hstep
    obtain ⟨normalized, rfl, ⟨reason, message, rfl⟩ | ⟨tick, -, -, rfl⟩⟩ := openOrder_eq_ok hopen
    · exact h.frame rfl rfl rfl
    · refine ⟨h.limits, fun order hmem hopen => ?_, h.stops⟩
      rcases Dict.mem_values_set hmem with rfl | hold
      · simp only [pendingOpenOrder, normalized_orderType, hop request rfl]
      · exact h.queued order hold hopen
  cases step_stepped hstep with
  | ticked htick => exact h.onTick hinv htick
  | beat hbeat =>
      obtain ⟨rfl, -⟩ | ⟨_, _, resolved, -, -, hresolve, hdrain⟩ := heartbeat_eq_ok hbeat
      · exact h
      · exact (h.resolvePendingOperations hresolve).drainLatencyQueue hdrain
  | refused => exact hopened _ rfl
  | accepted htick hvalid => exact hopened _ rfl
  | closeAccepted hposition htick =>
      refine ⟨h.limits, fun order hmem hopen => ?_, h.stops⟩
      rcases Dict.mem_values_set hmem with rfl | hold
      · simp [PendingOrder.isOpen, pendingCloseOrder] at hopen
      · exact h.queued order hold hopen
  | limitScheduled hfind hstate hcall =>
      rw [h.limits] at hfind
      cases hfind
  | stopScheduled hfind hstate hcall =>
      refine ⟨h.limits, h.queued, fun order hmem => ?_⟩
      rcases mem_updateOrder hmem with hold | ⟨before, hbefore, rfl⟩
      · exact h.stops order hold
      · exact h.stops before (mem_of_findOrder hbefore)
  | clockSet => exact h.frame rfl rfl rfl
  | ignored hclose => exact h
  | positionScheduled => exact h.frame rfl rfl rfl
  | positionModified => exact h.frame rfl rfl rfl
  | guardRecorded => exact h.frame rfl rfl rfl
  | queried hensure => exact h.frame rfl rfl rfl

end StopEntries

section Macd

variable {cfg : ApiConfig} {params : CautiousMacdParams} {session session' : TradingSession}
  {state state' : CautiousMacdState} {decision : Decision} {tick : TickData}

/-- Orders are STOP orders, placed where at most resting LIMIT orders expose the account. -/
def EntersOnStop (s : TradeSimulator) (op : SimulatorOp) : Prop :=
  OrdersStops op ∧ ∀ request, op = .openOrder request →
    ∀ id, Exposes s id → id ∈ orderIds s.activeLimitOrders

theorem entersOnStop_of_ne {s : TradeSimulator} {op : SimulatorOp}
    (hop : ∀ request, op ≠ .openOrder request) : EntersOnStop s op :=
  ⟨fun request heq => absurd heq (hop request), fun request heq => absurd heq (hop request)⟩

theorem checkAndApplyBreakEven_calls {position : Position}
    (h : checkAndApplyBreakEven cfg params session state position tick = .ok (session', state')) :
    Calls cfg EntersOnStop session.simulator session'.simulator := by
  unfold checkAndApplyBreakEven at h
  split at h
  · cases h
    exact .refl
  · obtain ⟨⟨modified, result⟩, hmodify, hpure⟩ := bind_eq_ok.mp h
    cases hpure
    exact .one (entersOnStop_of_ne (by simp)) (modifyPosition_step hmodify)

theorem manageMacdPosition_calls {position : Position}
    (h : manageMacdPosition cfg params session state position decision tick =
      .ok (session', state')) :
    Calls cfg EntersOnStop session.simulator session'.simulator := by
  unfold manageMacdPosition at h
  obtain ⟨⟨checked, known⟩, hcheck, h⟩ := bind_eq_ok.mp h
  have hchecked : Calls cfg EntersOnStop session.simulator checked.simulator := by
    unfold breakEven at hcheck
    split at hcheck
    · exact checkAndApplyBreakEven_calls hcheck
    · cases hcheck
      exact .refl
  dsimp only at h
  split at h
  · obtain ⟨⟨closed, result⟩, hclose, hpure⟩ := bind_eq_ok.mp h
    cases hpure
    exact hchecked.tail ⟨_, entersOnStop_of_ne (by simp), closePosition_step hclose⟩
  · cases h
    exact hchecked

theorem manageMacdEntry_calls
    (h : manageMacdEntry cfg session state decision = .ok (session', state')) :
    Calls cfg EntersOnStop session.simulator session'.simulator := by
  unfold manageMacdEntry at h
  split at h
  · cases h
    exact .refl
  · split at h
    · cases h
      exact .refl
    · split at h
      · obtain ⟨⟨cancelled, answer⟩, hcancel, hpure⟩ := bind_eq_ok.mp h
        cases hpure
        exact .one (entersOnStop_of_ne (by simp)) (cancelStopOrder_step hcancel)
      · cases h
        exact .refl

theorem enterMacd_calls (hmode : params.useStopLimit = false)
    (hflat : ∀ id, Exposes session.simulator id →
      id ∈ orderIds session.simulator.activeLimitOrders)
    (h : enterMacd cfg params session state decision tick = .ok (session', state')) :
    Calls cfg EntersOnStop session.simulator session'.simulator := by
  have hentered : ∀ entered result,
      tryEnter cfg session params.entry.minFreeMargin (macdTicket params decision tick) =
        .ok (entered, result) →
      Calls cfg EntersOnStop session.simulator entered.simulator := by
    intro entered result henter
    refine calls_tryEnter ⟨fun _ _ => entersOnStop_of_ne (by simp),
      fun _ _ => entersOnStop_of_ne (by simp)⟩ (fun asked info hinfo => ⟨?_, ?_⟩) henter
    · rintro request heq
      cases heq
      simp [OrderTicket.request, macdTicket, hmode]
    · intro request heq id hexposed
      by_contra hnot
      obtain ⟨⟨portfolio, found⟩, hfound, hpure⟩ := bind_eq_ok.mp hinfo
      cases hpure
      refine not_exposed_getAccountInfo hinfo (fun hbefore => ?_) hexposed
      exact hnot (hflat id hbefore)
  unfold enterMacd at h
  split at h
  · cases h
    exact .refl
  · obtain ⟨⟨entered, result⟩, henter, h⟩ := bind_eq_ok.mp h
    have hcalls := hentered entered result henter
    dsimp only at h
    split at h
    · cases h
      exact hcalls
    · split at h
      · cases h
        exact hcalls
      · cases h
        exact hcalls

theorem cautiousMacd_calls (hmode : params.useStopLimit = false)
    (h : cautiousMacd cfg params session state decision tick = .ok (session', state')) :
    Calls cfg EntersOnStop session.simulator session'.simulator := by
  unfold cautiousMacd at h
  split at h
  · exact manageMacdPosition_calls h
  · next hpositions =>
      split at h
      · exact manageMacdEntry_calls h
      · next hwaiting =>
          refine enterMacd_calls hmode (fun id hexposed => ?_) h
          simp only [hasPipelineOrders, Bool.or_eq_true, Bool.not_eq_true', not_or,
            Bool.not_eq_false, List.isEmpty_iff] at hwaiting
          have hqueue : session.simulator.latencyQueue.values = [] := by
            simpa [Dict.isEmpty, Dict.values] using hwaiting.1
          rcases hexposed with hposition | hqueued | hlimit | hstop
          · obtain ⟨position, hget⟩ := Option.ne_none_iff_exists'.mp hposition
            have hmem : position ∈ getOpenPositions session := Dict.mem_values_of_get? hget
            rw [hpositions] at hmem
            cases hmem
          · simp [hqueue, openIds, orderIds] at hqueued
          · exact hlimit
          · simp [hwaiting.2, orderIds] at hstop

def macdPass (cfg : ApiConfig) (params : CautiousMacdParams) :
    DecisionPass CautiousMacdState Decision :=
  fun state decision tick => cautiousMacd cfg params state.1 state.2 decision tick

theorem macdPass_calls (hmode : params.useStopLimit = false)
    {before after : TradingSession × CautiousMacdState}
    (h : macdPass cfg params before decision tick = .ok after) :
    Calls cfg EntersOnStop before.1.simulator after.1.simulator := by
  obtain ⟨session', state'⟩ := after
  exact cautiousMacd_calls hmode h

/-- Entering with STOP orders, `CautiousMacd` never holds more than one position or order at a
time. -/
theorem one_stop_entry_at_a_time (cfg : ApiConfig) {params : CautiousMacdParams}
    (hmode : params.useStopLimit = false) {passes : List (LoopPass Decision)}
    {session : TradingSession} {state : CautiousMacdState}
    (hrun : run (loopStep cfg (macdPass cfg params)) (newSession cfg, {}) passes =
      .ok (session, state)) : exposure session.simulator ≤ 1 := by
  have hcalls : Calls cfg EntersOnStop (Simulator.new cfg.simulator) session.simulator :=
    loop_calls (I := fun _ => True) (fun s tick => entersOnStop_of_ne (by simp))
      (fun _ _ _ _ _ => trivial) (fun _ _ _ _ _ hpass => macdPass_calls hmode hpass) trivial hrun
  have hinv : Conserved [] session.simulator ∧ StopsOnly session.simulator ∧
      SingleExposure session.simulator := by
    refine ReachesBy.invariant (I := fun s => Conserved [] s ∧ StopsOnly s ∧ SingleExposure s)
      ?_ ?_ hcalls
    · rintro s op s' ⟨hconserved, hstops, hsingle⟩ ⟨horders, henters⟩ hstep
      have hflat : OpensWhenFlat s op := by
        intro request heq id hexposed
        have hlimit := henters request heq id hexposed
        simp [hstops.limits, orderIds] at hlimit
      exact ⟨stepped_conserved hconserved (step_stepped hstep),
        stopsOnly_step hconserved hstops horders hstep,
        singleExposure_step hconserved hsingle hflat hstep⟩
    · exact ⟨conserved_new, stopsOnly_new, singleExposure_new⟩
  exact exposure_le_one hinv.1 hinv.2.2

/-- A long STOP rests above the market and is triggered by the rise. -/
def restThenTrigger : List (LoopPass Decision) :=
  [{ tick := eurusdTick (11000 / 10000) (11002 / 10000) 1000, input := ⟨.buy, "cross-up"⟩ },
    { tick := eurusdTick (11001 / 10000) (11003 / 10000) 1010, input := ⟨.flat, ""⟩ },
    { tick := eurusdTick (11019 / 10000) (11021 / 10000) 1020, input := ⟨.buy, "cross-up"⟩ }]

def fifteenPips : CautiousMacdParams where
  entry := ⟨1000, 1⟩
  stopDistancePips := 15
  slPips := 20
  tpPips := 40
  pipSize := 1 / 10000
  breakEvenTriggerPips := 15
  useStopLimit := false
  stopLimitOffsetPips := 2

theorem restThenTrigger_exposure :
    (run (loopStep forexApi (macdPass forexApi fifteenPips)) (newSession forexApi, {})
      restThenTrigger).map (fun state => (exposure state.1.simulator,
        state.1.simulator.ledger.portfolio.openPositions.keys)) =
      .ok (1, ["pos_eurusd_1"]) := by
  decide +kernel

theorem one_stop_entry_restThenTrigger :
    ∃ session state, run (loopStep forexApi (macdPass forexApi fifteenPips))
        (newSession forexApi, {}) restThenTrigger = .ok (session, state) ∧
      exposure session.simulator ≤ 1 := by
  obtain ⟨⟨session, state⟩, hrun, -⟩ := exists_of_map_eq_ok restThenTrigger_exposure
  exact ⟨session, state, hrun, one_stop_entry_at_a_time forexApi rfl hrun⟩

end Macd

end Finiex.SinglePosition
