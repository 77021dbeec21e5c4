import Finiex.SimClock
import Finiex.SimulatorLedger
import Finiex.TradingApi

/-!
# Decision events in the tick loop

The dispatcher buffers what the executor announces and hands it to the logic's hooks at the loop
boundary. Hooks act through the API themselves, and what that announces waits for the next drain.
-/

namespace Finiex.EventLoop

open Finiex.Types
open Finiex.Lib
open Finiex.Lib.Run
open Finiex.Lib.Reach
open Finiex.Orders
open Finiex.Portfolio
open Finiex.PortfolioLedger
open Finiex.Executor
open Finiex.Simulator
open Finiex.SimulatorSteps
open Finiex.SimulatorConservation
open Finiex.SimulatorLedger
open Finiex.OrderGuards
open Finiex.SimClock
open Finiex.TradingApi

section Events

inductive DecisionEventType
  | orderFilled | orderRejected | orderCancelled | partialClose | sessionEnd
  deriving DecidableEq, Repr

inductive EventPayload
  | orderFilled (orderId : String) (positionId : Option String)
      (direction : Option OrderDirection) (fillPrice lots : Option ℚ) (result : OrderResult)
  | orderRejected (orderId : String) (direction : Option OrderDirection)
      (reason : Option RejectionReason) (message : RejectionMessage) (result : OrderResult)
  | orderCancelled (orderId : String) (direction : Option OrderDirection)
  | partialClose (positionId : String) (direction : OrderDirection)
      (closedLots remainingLots : ℚ) (fillPrice : ℚ) (result : OrderResult)
  | sessionEnd (reason : String) (severity : SessionEndSeverity)
  deriving DecidableEq

/-- `_EVENT_TYPE_BY_CLASS`. -/
def EventPayload.type : EventPayload → DecisionEventType
  | .orderFilled .. => .orderFilled
  | .orderRejected .. => .orderRejected
  | .orderCancelled .. => .orderCancelled
  | .partialClose .. => .partialClose
  | .sessionEnd .. => .sessionEnd

structure DecisionEvent where
  payload : EventPayload
  tickTime : Option Instant
  deriving DecidableEq

def partialCloseEvent (fill : CloseFill) : Option EventPayload :=
  if fill.result.closeType = some .partialClose then
    let closedLots := fill.result.executedLots.getD 0
    some (.partialClose fill.pending.pendingOrderId fill.position.direction closedLots
      (fill.position.lots - closedLots) fill.closePrice fill.result)
  else none

/-- What an entry of the audit log announces: `_on_order_outcome` for the outcomes the executor
notifies, and the decision-event sink. -/
def announces : AuditEvent → Option EventPayload
  | .notified direction result _ =>
      match result.status with
      | .executed => some (.orderFilled result.orderId result.positionId direction
          result.executedPrice result.executedLots result)
      | .rejected => some (.orderRejected result.orderId direction result.rejectionReason
          result.rejectionMessage result)
      | _ => none
  | .orderCancelled orderId direction => some (.orderCancelled orderId direction)
  | .closeFilled fill => partialCloseEvent fill
  | _ => none

end Events

/-- What a decision logic may ask of the executor. -/
def ApiCall (_ : TradeSimulator) : SimulatorOp → Prop
  | .tick _ | .heartbeat | .setCurrentTime _ => False
  | _ => True

structure DecisionLogic (cfg : ApiConfig) (β ι : Type) where
  subscribedEvents : List DecisionEventType
  wantsHeartbeat : β → Bool
  executeDecision : TradingSession × β → ι → Option TickData →
    Except PyError (TradingSession × β)
  onEvent : TradingSession × β → DecisionEvent → Except PyError (TradingSession × β)
  executeDecision_calls : ∀ {state input tick state'},
    executeDecision state input tick = .ok state' →
      Calls cfg ApiCall state.1.simulator state'.1.simulator
  onEvent_calls : ∀ {state event state'}, onEvent state event = .ok state' →
    Calls cfg ApiCall state.1.simulator state'.1.simulator

/-- The session and the logic, with the events that wait and those its hooks were given. -/
structure LoopState (β : Type) where
  session : TradingSession
  logic : β
  buffer : List DecisionEvent := []
  delivered : List DecisionEvent := []

structure LoopTick (ι : Type) where
  tick : TickData
  isClipped : Bool := false
  marketDataStatus : MarketDataStatus := {}
  decision : ι
  ghostDecision : ℤ → Option ι

variable {β ι : Type} (cfg : ApiConfig) (heartbeats : HeartbeatConfig)
  (logic : DecisionLogic cfg β ι)

section Dispatcher

variable {cfg}

/-- `submit` keeps events of subscribed types only. -/
def isSubscribed (payload : EventPayload) : Bool := decide (payload.type ∈ logic.subscribedEvents)

def announced (log : List AuditEvent) : List EventPayload :=
  (log.filterMap announces).filter (isSubscribed logic)

def submit (state : LoopState β) (payloads : List EventPayload) : LoopState β :=
  { state with buffer := state.buffer ++ (payloads.filter (isSubscribed logic)).map fun payload =>
      { payload := payload, tickTime := state.session.simulator.market.clockTime } }

/-- What the executor announced since `before` reaches the dispatcher. -/
def observe (before : TradeSimulator) (state : LoopState β) : LoopState β :=
  submit logic state
    ((state.session.simulator.ledger.log.drop before.ledger.log.length).filterMap announces)

def dispatch (state : LoopState β) (event : DecisionEvent) : Except PyError (LoopState β) := do
  let (session, own) ← logic.onEvent (state.session, state.logic) event
  return observe logic state.session.simulator { state with
    session := session, logic := own, delivered := state.delivered ++ [event] }

/-- `drain`: the buffer is taken before the first hook runs. -/
def drain (state : LoopState β) : Except PyError (LoopState β) :=
  state.buffer.foldlM (dispatch logic) { state with buffer := [] }

end Dispatcher

section Loop

variable {cfg}

/-- `execute_decision`, and what it announced. -/
def execute (state : LoopState β) (decision : ι) (tick : Option TickData) :
    Except PyError (LoopState β) := do
  let (session, own) ← logic.executeDecision (state.session, state.logic) decision tick
  return observe logic state.session.simulator { state with session := session, logic := own }

def ghostHeartbeat (state : LoopState β) (ghostMsc : ℤ) : Except PyError (LoopState β) := do
  let before := state.session.simulator
  let injected := { before with market := { before.market with clockTime := some (ghostMsc * 1000) } }
  let simulator ← Simulator.heartbeat cfg.simulator injected
  return observe logic before { state with
    session := hearOutcomes before { state.session with simulator := simulator } }

def ghostPass (state : LoopState β) (ghostMsc : ℤ) (decision : Option ι) :
    Except PyError (LoopState β) := do
  let state ← ghostHeartbeat logic state ghostMsc
  let state ← drain logic state
  match decision with
  | none => drain logic state
  | some decision => do
      let state ← execute logic state decision none
      drain logic state

def runGhostPasses (state : LoopState β) :
    List (ℤ × Option ι) → Except PyError (LoopState β × Bool)
  | [] => .ok (state, false)
  | moment :: rest => do
      let state ← ghostPass logic state moment.1 moment.2
      if state.session.sessionEnd.isSome then return (state, true)
      else runGhostPasses state rest

def runSimHeartbeats (state : LoopState β) (prevMsc : ℤ) (next : LoopTick ι) :
    Except PyError (LoopState β × Bool) :=
  let msc := SimClock.currentMsc next.tick
  if logic.wantsHeartbeat state.logic ∧ 0 < heartbeats.heartbeatIntervalMs ∧ 0 < prevMsc ∧ 0 < msc then
    runGhostPasses logic state
      ((ghostMoments heartbeats prevMsc msc).map fun m => (m, next.ghostDecision m))
  else .ok (state, false)

def brokerPath (state : LoopState β) (tick : TickData) : Except PyError (LoopState β) := do
  let session ← TradingApi.onTick cfg state.session tick
  return observe logic state.session.simulator { state with session := session }

def algoPath (state : LoopState β) (next : LoopTick ι) : Except PyError (LoopState β) := do
  let informed := { state.session with marketDataStatus := next.marketDataStatus }
  let state ← execute logic { state with session := informed } next.decision (some next.tick)
  drain logic state

def hasDispatcher : Bool := !logic.subscribedEvents.isEmpty

/-- One turn of the loop, and whether it ends the session. A request is only looked at where there
is a dispatcher. -/
def turn (state : LoopState β) (next : LoopTick ι) : Except PyError (LoopState β × Bool) := do
  let state ← brokerPath logic state next.tick
  if next.isClipped then return (state, false)
  else
    let state ← algoPath logic state next
    return (state, hasDispatcher logic && state.session.sessionEnd.isSome)

def executeTickLoop (state : LoopState β) (prevMsc : ℤ) :
    List (LoopTick ι) → Except PyError (LoopState β)
  | [] => .ok state
  | next :: rest => do
      let (state, ended) ← runSimHeartbeats heartbeats logic state prevMsc next
      if ended then return state
      else
        let (state, ended) ← turn logic state next
        if ended then return state
        else executeTickLoop state (SimClock.currentMsc next.tick) rest

def sessionEndEvent (session : TradingSession) : EventPayload :=
  match session.sessionEnd with
  | some request => .sessionEnd request.reason request.severity
  | none => .sessionEnd "tick source exhausted" .normal

/-- What follows the loop, before the remaining orders are closed. -/
def finish (state : LoopState β) : Except PyError (LoopState β) :=
  if hasDispatcher logic then drain logic (submit logic state [sessionEndEvent state.session])
  else .ok state

end Loop

section Delivery

variable {cfg heartbeats logic} {state state' : LoopState β}

abbrev LoopState.log (state : LoopState β) : List AuditEvent := state.session.simulator.ledger.log

def announcedSince (logic : DecisionLogic cfg β ι) (before log : List AuditEvent) :
    List EventPayload :=
  announced logic (log.drop before.length)

theorem announced_append (first second : List AuditEvent) :
    announced logic (first ++ second) = announced logic first ++ announced logic second := by
  simp [announced]

theorem announced_since {before log : List AuditEvent} (h : before <+: log) :
    announced logic log = announced logic before ++ announcedSince logic before log := by
  obtain ⟨rest, rfl⟩ := h
  rw [announced_append, announcedSince, List.drop_left]

theorem announcedSince_trans {first second third : List AuditEvent} (h : first <+: second)
    (h' : second <+: third) :
    announcedSince logic first third =
      announcedSince logic first second ++ announcedSince logic second third := by
  obtain ⟨rest, rfl⟩ := h
  obtain ⟨rest', rfl⟩ := h'
  simp only [announcedSince, List.append_assoc, List.drop_left]
  rw [← List.append_assoc, List.drop_left, announced_append]

theorem announcedSince_self (log : List AuditEvent) : announcedSince logic log log = [] := by
  rw [announcedSince, List.drop_length]
  rfl

theorem payloads_submit (payloads : List EventPayload) :
    (submit logic state payloads).buffer.map DecisionEvent.payload =
      state.buffer.map DecisionEvent.payload ++ payloads.filter (isSubscribed logic) := by
  simp [submit, Function.comp_def]

theorem payloads_observe (before : TradeSimulator) :
    (observe logic before state).buffer.map DecisionEvent.payload =
      state.buffer.map DecisionEvent.payload ++ announcedSince logic before.ledger.log state.log :=
  payloads_submit _

/-- Steps of the executor only add to the log. -/
theorem log_grows {P : TradeSimulator → SimulatorOp → Prop} {s s' : TradeSimulator}
    (h : Calls cfg P s s') (hinv : Conserved [] s) :
    Conserved [] s' ∧ s.ledger.log <+: s'.ledger.log := by
  refine h.invariant (I := fun now => Conserved [] now ∧ s.ledger.log <+: now.ledger.log) ?_
    ⟨hinv, List.prefix_rfl⟩
  rintro now op next ⟨hnow, hprefix⟩ - hstep
  have hstepped := step_stepped hstep
  exact ⟨stepped_conserved hnow hstepped, hprefix.trans (path_stepped hnow hstepped).log_grows⟩

/-- Every subscribed event that the log announces was delivered or waits, in its order. -/
structure Accounted (logic : DecisionLogic cfg β ι) (state : LoopState β) : Prop where
  conserved : Conserved [] state.session.simulator
  events : (state.delivered ++ state.buffer).map DecisionEvent.payload = announced logic state.log

/-- What the executor announces reaches the buffer. -/
theorem Accounted.observe (h : Accounted logic state) {session : TradingSession} {own : β}
    (hgrows : Conserved [] session.simulator ∧ state.log <+: session.simulator.ledger.log) :
    Accounted logic (observe logic state.session.simulator
      { state with session := session, logic := own }) where
  conserved := hgrows.1
  events := by
    have hbuffer : (EventLoop.observe logic state.session.simulator
        { state with session := session, logic := own }).buffer.map DecisionEvent.payload =
          state.buffer.map DecisionEvent.payload ++
            announcedSince logic state.log session.simulator.ledger.log := payloads_observe _
    have hbefore := h.events
    rw [List.map_append] at hbefore ⊢
    rw [hbuffer, ← List.append_assoc]
    change (state.delivered.map _ ++ state.buffer.map _) ++ _ =
      announced logic session.simulator.ledger.log
    rw [hbefore, announced_since hgrows.2]

/-- A drain delivers what waited, in its order; what its hooks announce waits. -/
theorem drain_spec (hinv : Conserved [] state.session.simulator)
    (h : drain logic state = .ok state') :
    Conserved [] state'.session.simulator ∧ state.log <+: state'.log ∧
      state'.delivered = state.delivered ++ state.buffer ∧
      state'.buffer.map DecisionEvent.payload = announcedSince logic state.log state'.log := by
  have hend := foldlM_induct (P := fun rest (now : LoopState β) =>
    Conserved [] now.session.simulator ∧ state.log <+: now.log ∧
      now.delivered ++ rest = state.delivered ++ state.buffer ∧
      now.buffer.map DecisionEvent.payload = announcedSince logic state.log now.log) ?_ ?_ h
  · obtain ⟨hconserved, hprefix, hdelivered, hbuffer⟩ := hend
    rw [List.append_nil] at hdelivered
    exact ⟨hconserved, hprefix, hdelivered, hbuffer⟩
  · rintro event rest now next ⟨hconserved, hprefix, hdelivered, hbuffer⟩ hdispatch
    obtain ⟨⟨session, own⟩, hhook, hpure⟩ := bind_eq_ok.mp hdispatch
    cases hpure
    obtain ⟨hconserved', hgrows⟩ := log_grows (logic.onEvent_calls hhook) hconserved
    refine ⟨hconserved', hprefix.trans hgrows, ?_, ?_⟩
    · rw [← hdelivered]
      exact List.append_assoc now.delivered [event] rest
    · rw [payloads_observe]
      change now.buffer.map _ ++ _ = announcedSince logic state.log session.simulator.ledger.log
      rw [hbuffer, announcedSince_trans hprefix hgrows]
  · exact ⟨hinv, List.prefix_rfl, rfl, (announcedSince_self state.log).symm⟩

theorem Accounted.drain (h : Accounted logic state) (hdrain : drain logic state = .ok state') :
    Accounted logic state' := by
  obtain ⟨hconserved, hprefix, hdelivered, hbuffer⟩ := drain_spec h.conserved hdrain
  refine ⟨hconserved, ?_⟩
  rw [List.map_append, hdelivered, h.events, hbuffer, announced_since hprefix]

theorem Accounted.execute {decision : ι} {tick : Option TickData} (h : Accounted logic state)
    (hexecute : execute logic state decision tick = .ok state') : Accounted logic state' := by
  obtain ⟨⟨session, own⟩, hlogic, hpure⟩ := bind_eq_ok.mp hexecute
  cases hpure
  exact h.observe (log_grows (logic.executeDecision_calls hlogic) h.conserved)

theorem Accounted.brokerPath {tick : TickData} (h : Accounted logic state)
    (hbroker : brokerPath logic state tick = .ok state') : Accounted logic state' := by
  obtain ⟨session, htick, hpure⟩ := bind_eq_ok.mp hbroker
  cases hpure
  have hstep : Calls cfg (fun _ _ => True) state.session.simulator session.simulator :=
    ReachesBy.one trivial (onTick_step htick)
  exact h.observe (log_grows hstep h.conserved)

theorem Accounted.ghostHeartbeat {ghostMsc : ℤ} (h : Accounted logic state)
    (hghost : ghostHeartbeat logic state ghostMsc = .ok state') : Accounted logic state' := by
  obtain ⟨simulator, hbeat, hpure⟩ := bind_eq_ok.mp hghost
  cases hpure
  have hstep : Calls cfg (fun _ _ => True) state.session.simulator simulator :=
    .tail (.single ⟨.setCurrentTime (ghostMsc * 1000), trivial, rfl⟩) ⟨.heartbeat, trivial, hbeat⟩
  refine h.observe ?_
  rw [hearOutcomes_simulator]
  exact log_grows hstep h.conserved

theorem Accounted.ghostPass {ghostMsc : ℤ} {decision : Option ι} (h : Accounted logic state)
    (hghost : ghostPass logic state ghostMsc decision = .ok state') : Accounted logic state' := by
  obtain ⟨beaten, hbeat, hghost⟩ := bind_eq_ok.mp hghost
  obtain ⟨drained, hdrain, hghost⟩ := bind_eq_ok.mp hghost
  have hdrained := (h.ghostHeartbeat hbeat).drain hdrain
  cases decision with
  | none => exact hdrained.drain hghost
  | some decision =>
      obtain ⟨executed, hexecute, hghost⟩ := bind_eq_ok.mp hghost
      exact (hdrained.execute hexecute).drain hghost

theorem Accounted.runGhostPasses {moments : List (ℤ × Option ι)} {ended : Bool}
    (h : Accounted logic state)
    (hghosts : runGhostPasses logic state moments = .ok (state', ended)) :
    Accounted logic state' := by
  induction moments generalizing state with
  | nil =>
      cases hghosts
      exact h
  | cons moment rest ih =>
      obtain ⟨passed, hpass, hghosts⟩ := bind_eq_ok.mp hghosts
      have hpassed := h.ghostPass hpass
      split at hghosts
      · cases hghosts
        exact hpassed
      · exact ih hpassed hghosts

theorem Accounted.turn {next : LoopTick ι} {ended : Bool} (h : Accounted logic state)
    (hturn : turn logic state next = .ok (state', ended)) : Accounted logic state' := by
  obtain ⟨ticked, hbroker, hturn⟩ := bind_eq_ok.mp hturn
  have hticked := h.brokerPath hbroker
  split at hturn
  · cases hturn
    exact hticked
  · obtain ⟨passed, halgo, hpure⟩ := bind_eq_ok.mp hturn
    cases hpure
    obtain ⟨executed, hexecute, hdrain⟩ := bind_eq_ok.mp halgo
    have hinformed : Accounted logic { ticked with
        session := { ticked.session with marketDataStatus := next.marketDataStatus } } :=
      ⟨hticked.conserved, hticked.events⟩
    exact (hinformed.execute hexecute).drain hdrain

theorem Accounted.executeTickLoop {ticks : List (LoopTick ι)} {prevMsc : ℤ}
    (h : Accounted logic state)
    (hloop : executeTickLoop heartbeats logic state prevMsc ticks = .ok state') :
    Accounted logic state' := by
  induction ticks generalizing state prevMsc with
  | nil =>
      cases hloop
      exact h
  | cons next rest ih =>
      obtain ⟨⟨beaten, ended⟩, hghosts, hloop⟩ := bind_eq_ok.mp hloop
      have hbeaten : Accounted logic beaten := by
        unfold EventLoop.runSimHeartbeats at hghosts
        dsimp only at hghosts
        split at hghosts
        · exact h.runGhostPasses hghosts
        · cases hghosts
          exact h
      dsimp only at hloop
      split at hloop
      · cases hloop
        exact hbeaten
      · obtain ⟨⟨turned, ended'⟩, hturn, hloop⟩ := bind_eq_ok.mp hloop
        have hturned := hbeaten.turn hturn
        dsimp only at hloop
        split at hloop
        · cases hloop
          exact hturned
        · exact ih hturned hloop

theorem accounted_new (own : β) : Accounted logic { session := newSession cfg, logic := own } :=
  ⟨conserved_new, rfl⟩

/-- Over a session every subscribed event that the executor announced, also from within hooks, is
delivered exactly once and in its order, and SESSION_END is the last one. Only what the hooks of
the last drain announce is not delivered any more. -/
theorem events_delivered_once {own : β} {ticks : List (LoopTick ι)} {final : LoopState β}
    (hloop : executeTickLoop heartbeats logic { session := newSession cfg, logic := own } 0 ticks =
      .ok state) (hfinish : finish logic state = .ok final) :
    final.delivered.map DecisionEvent.payload = announced logic state.log ++
        [sessionEndEvent state.session].filter (isSubscribed logic) ∧
      final.buffer.map DecisionEvent.payload = announcedSince logic state.log final.log := by
  have haccounted := (accounted_new own).executeTickLoop hloop
  have hevents := haccounted.events
  unfold finish at hfinish
  split at hfinish
  · have hinv : Conserved []
        (submit logic state [sessionEndEvent state.session]).session.simulator :=
      haccounted.conserved
    obtain ⟨-, -, hdelivered, hbuffer⟩ := drain_spec hinv hfinish
    refine ⟨?_, hbuffer⟩
    rw [hdelivered, List.map_append, payloads_submit, ← List.append_assoc, ← hevents,
      List.map_append]
    rfl
  · next hnone =>
      cases hfinish
      have hsubscribed : logic.subscribedEvents = [] := by simpa [hasDispatcher] using hnone
      have hnothing : ∀ payloads : List EventPayload, payloads.filter (isSubscribed logic) = [] := by
        intro payloads
        rw [List.filter_eq_nil_iff]
        intro payload _
        simp [isSubscribed, hsubscribed]
      rw [announced, hnothing, List.map_append, List.append_eq_nil_iff] at hevents
      refine ⟨?_, ?_⟩
      · rw [hevents.1, announced, hnothing, hnothing]
        rfl
      · rw [hevents.2, announcedSince, announced, hnothing]

end Delivery

section PartialCloses

def subscribingApi : ApiConfig where
  simulator := forexSimulator
  guardIds := fun _ => "guard_0"

def sendOnSignal (state : TradingSession × Unit) (signal : Bool) (_ : Option TickData) :
    Except PyError (TradingSession × Unit) :=
  if signal then do
    let (session, _) ← sendOrder subscribingApi state.1
      { symbol := "EURUSD", orderType := .market, side := .buy, lots := 1 }
    return (session, ())
  else .ok state

/-- Half of a filled position is closed from within its hook. -/
def halveOnFill (state : TradingSession × Unit) (event : DecisionEvent) :
    Except PyError (TradingSession × Unit) :=
  match event.payload with
  | .orderFilled _ (some positionId) _ _ _ _ => do
      let (session, _) ← closePosition subscribingApi state.1 positionId (some (1 / 2))
      return (session, ())
  | _ => .ok state

def halvingLogic : DecisionLogic subscribingApi Unit Bool where
  subscribedEvents := [.orderFilled, .partialClose, .sessionEnd]
  wantsHeartbeat := fun _ => false
  executeDecision := sendOnSignal
  onEvent := halveOnFill
  executeDecision_calls := by
    intro state signal tick state' h
    unfold sendOnSignal at h
    split at h
    · obtain ⟨⟨session, result⟩, hsend, hpure⟩ := bind_eq_ok.mp h
      cases hpure
      obtain hopen | ⟨hguard, -⟩ := sendOrder_step hsend
      · exact .single ⟨.openOrder _, trivial, hopen⟩
      · exact .single ⟨.recordGuardRejection result, trivial, hguard⟩
    · cases h
      exact .refl
  onEvent_calls := by
    intro state event state' h
    unfold halveOnFill at h
    split at h
    · obtain ⟨⟨session, result⟩, hclose, hpure⟩ := bind_eq_ok.mp h
      cases hpure
      exact .single ⟨.closePosition _ _, trivial, closePosition_step hclose⟩
    · cases h
      exact .refl

def decidedOn (signal : Bool) (tick : TickData) : LoopTick Bool where
  tick := tick
  decision := signal
  ghostDecision := fun _ => none

def signalThenWait : List (LoopTick Bool) :=
  [decidedOn true (eurusdTick (11000 / 10000) (11002 / 10000) 1000),
    decidedOn false (eurusdTick (11001 / 10000) (11003 / 10000) 1010),
    decidedOn false (eurusdTick (11002 / 10000) (11004 / 10000) 1020)]

theorem signalThenWait_delivered :
    ((executeTickLoop {} halvingLogic { session := newSession subscribingApi, logic := () } 0
        signalThenWait) >>= finish halvingLogic).map (fun final =>
      final.delivered.map fun event => event.payload.type) =
      .ok [.orderFilled, .partialClose, .sessionEnd] := by
  decide +kernel

/-- The fill and the close of its half are delivered, one tick after the other. -/
theorem events_delivered_once_signalThenWait :
    ∃ state final, executeTickLoop {} halvingLogic
          { session := newSession subscribingApi, logic := () } 0 signalThenWait = .ok state ∧
        finish halvingLogic state = .ok final ∧
        final.delivered.map DecisionEvent.payload = announced halvingLogic state.log ++
          [sessionEndEvent state.session].filter (isSubscribed halvingLogic) ∧
        final.buffer.map DecisionEvent.payload =
          announcedSince halvingLogic state.log final.log := by
  obtain ⟨final, hboth, -⟩ := exists_of_map_eq_ok signalThenWait_delivered
  obtain ⟨state, hloop, hfinish⟩ := bind_eq_ok.mp hboth
  exact ⟨state, final, hloop, hfinish, events_delivered_once hloop hfinish⟩

end PartialCloses

section Requests

/-! The end of a session is only asked for at ticks where there is a dispatcher. -/

variable {cfg heartbeats logic} {state state' : LoopState β}

theorem calls_market {s s' : TradeSimulator} (h : Calls cfg ApiCall s s') :
    s'.market = s.market := by
  refine h.invariant (I := fun now => now.market = s.market) ?_ rfl
  intro now op next hnow hcall hstep
  rw [← hnow]
  cases step_stepped hstep with
  | ticked htick => exact absurd hcall id
  | beat hbeat => exact absurd hcall id
  | clockSet => exact absurd hcall id
  | _ => rfl

theorem execute_market {decision : ι} {tick : Option TickData}
    (h : execute logic state decision tick = .ok state') :
    state'.session.simulator.market = state.session.simulator.market := by
  obtain ⟨⟨session, own⟩, hlogic, hpure⟩ := bind_eq_ok.mp h
  cases hpure
  exact calls_market (logic.executeDecision_calls hlogic)

theorem drain_market (h : drain logic state = .ok state') :
    state'.session.simulator.market = state.session.simulator.market := by
  have hend := foldlM_induct (P := fun _ (now : LoopState β) =>
    now.session.simulator.market = state.session.simulator.market) ?_ ?_ h
  · exact hend
  · intro event rest now next hnow hdispatch
    obtain ⟨⟨session, own⟩, hhook, hpure⟩ := bind_eq_ok.mp hdispatch
    cases hpure
    exact (calls_market (logic.onEvent_calls hhook)).trans hnow
  · rfl

theorem brokerPath_tickCounter {tick : TickData} (h : brokerPath logic state tick = .ok state') :
    state'.session.simulator.market.tickCounter =
      state.session.simulator.market.tickCounter + 1 := by
  obtain ⟨session, htick, hpure⟩ := bind_eq_ok.mp h
  cases hpure
  obtain ⟨processed, hprocess, hcheck⟩ := bind_eq_ok.mp (onTick_step htick)
  obtain ⟨ledger, -, hpure⟩ := bind_eq_ok.mp hcheck
  change session.simulator.market.tickCounter = _
  rw [← Except.ok.inj hpure]
  exact congrArg MarketState.tickCounter (processPendingOrders_market hprocess)

theorem turn_tickCounter {next : LoopTick ι} {ended : Bool}
    (h : turn logic state next = .ok (state', ended)) :
    state'.session.simulator.market.tickCounter =
      state.session.simulator.market.tickCounter + 1 := by
  obtain ⟨ticked, hbroker, h⟩ := bind_eq_ok.mp h
  have hticked := brokerPath_tickCounter hbroker
  split at h
  · cases h
    exact hticked
  · obtain ⟨passed, halgo, hpure⟩ := bind_eq_ok.mp h
    cases hpure
    obtain ⟨executed, hexecute, hdrain⟩ := bind_eq_ok.mp halgo
    rw [drain_market hdrain, execute_market hexecute]
    exact hticked

theorem turn_goes_on (hnone : logic.subscribedEvents = []) {next : LoopTick ι} {ended : Bool}
    (h : turn logic state next = .ok (state', ended)) : ended = false := by
  obtain ⟨ticked, -, h⟩ := bind_eq_ok.mp h
  split at h
  · cases h
    rfl
  · obtain ⟨passed, -, hpure⟩ := bind_eq_ok.mp h
    cases hpure
    simp [hasDispatcher, hnone]

/-- A logic without subscriptions that takes no ghost passes cannot end its session: whatever it
requests, the loop goes through every tick. -/
theorem requests_unheard (hnone : logic.subscribedEvents = [])
    (hquiet : ∀ own, logic.wantsHeartbeat own = false) {ticks : List (LoopTick ι)} {prevMsc : ℤ}
    (h : executeTickLoop heartbeats logic state prevMsc ticks = .ok state') :
    state'.session.simulator.market.tickCounter =
      state.session.simulator.market.tickCounter + ticks.length := by
  induction ticks generalizing state prevMsc with
  | nil =>
      cases h
      rfl
  | cons next rest ih =>
      have hghosts : runSimHeartbeats heartbeats logic state prevMsc next = .ok (state, false) := by
        simp [runSimHeartbeats, hquiet]
      obtain ⟨beaten, hbeaten, h⟩ := bind_eq_ok.mp h
      cases hghosts.symm.trans hbeaten
      obtain ⟨⟨turned, ended⟩, hturn, h⟩ := bind_eq_ok.mp h
      cases turn_goes_on hnone hturn
      rw [ih h, turn_tickCounter hturn, List.length_cons]
      omega

def restlessLogic : DecisionLogic subscribingApi Unit Unit where
  subscribedEvents := []
  wantsHeartbeat := fun _ => false
  executeDecision := fun state _ _ =>
    .ok (requestSessionEnd state.1 { reason := "drawdown" }, state.2)
  onEvent := fun state _ => .ok state
  executeDecision_calls := by
    intro state decision tick state' h
    cases h
    exact .refl
  onEvent_calls := by
    intro state event state' h
    cases h
    exact .refl

def twoTicks : List (LoopTick Unit) :=
  [{ tick := eurusdTick (11000 / 10000) (11002 / 10000) 1000
     decision := (), ghostDecision := fun _ => none },
    { tick := eurusdTick (11001 / 10000) (11003 / 10000) 1010
      decision := (), ghostDecision := fun _ => none }]

theorem twoTicks_requested :
    (executeTickLoop {} restlessLogic { session := newSession subscribingApi, logic := () } 0
      twoTicks).map (fun state => state.session.sessionEnd.isSome) = .ok true := by
  decide +kernel

theorem requests_unheard_twoTicks :
    ∃ state, executeTickLoop {} restlessLogic
          { session := newSession subscribingApi, logic := () } 0 twoTicks = .ok state ∧
        state.session.sessionEnd.isSome = true ∧
        state.session.simulator.market.tickCounter = 0 + 2 := by
  obtain ⟨state, hloop, hrequested⟩ := exists_of_map_eq_ok twoTicks_requested
  exact ⟨state, hloop, hrequested, requests_unheard rfl (fun _ => rfl) hloop⟩

end Requests

end Finiex.EventLoop
