import Finiex.TradingApi

namespace Finiex.GuardedSessions

open Finiex.Types
open Finiex.Lib
open Finiex.Lib.Run
open Finiex.Orders
open Finiex.Portfolio
open Finiex.PortfolioRefresh
open Finiex.PortfolioLedger
open Finiex.Executor
open Finiex.Simulator
open Finiex.SimulatorSteps
open Finiex.OrderGuards
open Finiex.TradingApi

section Sessions

/-- What happens next in a session: a tick, a heartbeat between two ticks at a moment of its own, a
new market data status, or a call of the decision logic. -/
inductive SessionOp
  | tick (tick : TickData)
  | heartbeat (ghostMsc : ℤ)
  | setMarketDataStatus (status : MarketDataStatus)
  | sendOrder (ticket : OrderTicket)
  | closePosition (positionId : String) (lots : Option ℚ)
  | modifyPosition (positionId : String) (stopLoss takeProfit : Setting (Option ℚ))
  | modifyLimitOrder (orderId : String) (price : Setting ℚ)
      (stopLoss takeProfit : Setting (Option ℚ))
  | modifyStopOrder (orderId : String) (stopPrice price : Setting ℚ)
      (stopLoss takeProfit : Setting (Option ℚ))
  | cancelLimitOrder (orderId : String)
  | cancelStopOrder (orderId : String)
  | getAccountInfo (direction : OrderDirection)
  | requestSessionEnd (request : SessionEndRequest)

def heartbeat (cfg : ApiConfig) (session : TradingSession) (ghostMsc : ℤ) :
    Except PyError TradingSession := do
  let before := session.simulator
  let injected := { before with market := { before.market with clockTime := some (ghostMsc * 1000) } }
  let simulator ← Simulator.heartbeat cfg.simulator injected
  return hearOutcomes before { session with simulator := simulator }

/-- What an outcome means for the guard: an order of a direction was filled, or rejected by the
broker or the account. -/
def outcomeEvent (now : Instant) : AuditEvent → Option GuardEvent
  | .notified (some direction) result _ =>
      if result.status = .rejected then
        if feedsCooldown result then some (.rejection direction now) else none
      else if result.status = .executed then some (.success direction)
      else none
  | _ => none

/-- What the executor has announced since `before`, at the time of its clock. -/
def announced (before after : TradeSimulator) : List GuardEvent :=
  match after.market.clockTime with
  | none => []
  | some now => (after.ledger.log.drop before.ledger.log.length).filterMap (outcomeEvent now)

/-- The rejection that a call of `send_order` is answered with at once. -/
def answered (session : TradingSession) (ticket : OrderTicket) (result : OrderResult) :
    List GuardEvent :=
  match session.simulator.market.clockTime with
  | none => []
  | some now =>
      if feedsCooldown result then [.rejection ticket.request.direction now] else []

/-- A session with the fills and rejections it has seen so far. -/
structure SeenSession where
  session : TradingSession
  history : List GuardEvent := []

variable (cfg : ApiConfig)

def sessionStep (s : SeenSession) : SessionOp → Except PyError SeenSession
  | .tick tick => do
      let session ← TradingApi.onTick cfg s.session tick
      return ⟨session, s.history ++ announced s.session.simulator session.simulator⟩
  | .heartbeat ghostMsc => do
      let session ← heartbeat cfg s.session ghostMsc
      return ⟨session, s.history ++ announced s.session.simulator session.simulator⟩
  | .setMarketDataStatus status =>
      .ok { s with session := { s.session with marketDataStatus := status } }
  | .sendOrder ticket => do
      let (session, result) ← sendOrder cfg s.session ticket
      return ⟨session, s.history ++ answered s.session ticket result⟩
  | .closePosition positionId lots => do
      let (session, _) ← TradingApi.closePosition cfg s.session positionId lots
      return { s with session }
  | .modifyPosition positionId stopLoss takeProfit => do
      let (session, _) ← TradingApi.modifyPosition cfg s.session positionId stopLoss takeProfit
      return { s with session }
  | .modifyLimitOrder orderId price stopLoss takeProfit => do
      let (session, _) ← TradingApi.modifyLimitOrder cfg s.session orderId price stopLoss takeProfit
      return { s with session }
  | .modifyStopOrder orderId stopPrice price stopLoss takeProfit => do
      let (session, _) ← TradingApi.modifyStopOrder cfg s.session orderId stopPrice price stopLoss
        takeProfit
      return { s with session }
  | .cancelLimitOrder orderId => do
      let (session, _) ← TradingApi.cancelLimitOrder s.session orderId
      return { s with session }
  | .cancelStopOrder orderId => do
      let (session, _) ← TradingApi.cancelStopOrder cfg s.session orderId
      return { s with session }
  | .getAccountInfo direction => do
      let (session, _) ← TradingApi.getAccountInfo cfg s.session direction
      return { s with session }
  | .requestSessionEnd request =>
      .ok { s with session := TradingApi.requestSessionEnd s.session request }

end Sessions

section Guarding

variable {cfg : ApiConfig} {s s' : SeenSession}

theorem recordHistory_append (guard : OrderGuard) (history later : List GuardEvent) :
    recordHistory guard (history ++ later) = recordHistory (recordHistory guard history) later :=
  List.foldl_append

@[simp] theorem blockStaleMarketData_recordHistory (guard : OrderGuard)
    (history : List GuardEvent) :
    (recordHistory guard history).blockStaleMarketData = guard.blockStaleMarketData := by
  induction history using List.reverseRecOn with
  | nil => rfl
  | append_singleton history event ih =>
      rw [recordHistory_append_singleton, ← ih]
      cases event <;> rfl

theorem hearOutcome_eq (now : Instant) (guard : OrderGuard) (event : AuditEvent) :
    hearOutcome now guard event = recordHistory guard (outcomeEvent now event).toList := by
  cases event with
  | notified direction result pendingId =>
      cases direction with
      | none => rfl
      | some direction =>
          rw [hearOutcome, outcomeEvent, onOrderOutcome]
          by_cases hrejected : result.status = .rejected
          · rw [if_pos hrejected, if_pos hrejected]
            split <;> rfl
          · rw [if_neg hrejected, if_neg hrejected]
            split <;> rfl
  | orderReceived | fillCloseOrder | closeFilled | result | partialClose | cancelAccepted
  | cancelRefused | orderCancelled | modificationResolved | outcome => rfl

theorem foldl_hearOutcome (now : Instant) (guard : OrderGuard) (log : List AuditEvent) :
    log.foldl (hearOutcome now) guard =
      recordHistory guard (log.filterMap (outcomeEvent now)) := by
  induction log generalizing guard with
  | nil => rfl
  | cons event log ih =>
      rw [List.foldl_cons, ih, hearOutcome_eq, ← recordHistory_append, List.filterMap_cons]
      cases outcomeEvent now event <;> rfl

theorem orderGuard_hearOutcomes (before : TradeSimulator) (session : TradingSession) :
    (hearOutcomes before session).orderGuard =
      recordHistory session.orderGuard (announced before session.simulator) := by
  rw [hearOutcomes, announced]
  cases session.simulator.market.clockTime with
  | none => rfl
  | some now => exact foldl_hearOutcome now _ _

/-- What the guard has recorded is what the session has seen. -/
def Recorded (cfg : ApiConfig) (s : SeenSession) : Prop :=
  s.session.orderGuard = recordHistory cfg.orderGuard s.history

theorem Recorded.calls (h : Recorded cfg s) {session : TradingSession}
    (hguard : session.orderGuard = s.session.orderGuard) :
    Recorded cfg { s with session } :=
  hguard.trans h

/-- A call that only the executor answers. -/
theorem Recorded.asked (h : Recorded cfg s) {γ α : Type} {answer : Except PyError (γ × α)}
    (simulator : γ → TradeSimulator)
    (hstep : (do
      let (session, _) ← (do
        let (next, result) ← answer
        return ({ s.session with simulator := simulator next }, result))
      return { s with session }) = .ok s') : Recorded cfg s' := by
  obtain ⟨⟨session, result⟩, hcall, hpure⟩ := bind_eq_ok.mp hstep
  obtain ⟨next, -, hnext⟩ := bind_eq_ok.mp hcall
  cases hpure
  cases hnext
  exact h.calls rfl

theorem Recorded.hearOutcomes (h : Recorded cfg s) {session : TradingSession}
    (hguard : session.orderGuard = s.session.orderGuard) :
    Recorded cfg ⟨TradingApi.hearOutcomes s.session.simulator session,
      s.history ++ announced s.session.simulator
        (TradingApi.hearOutcomes s.session.simulator session).simulator⟩ := by
  rw [Recorded, recordHistory_append, ← h, hearOutcomes_simulator, orderGuard_hearOutcomes,
    hguard]

end Guarding

section Answers

variable {cfg : ApiConfig} {s s' : SeenSession}

/-- A call of `send_order` that the guard answers: nothing is sent, the account, the queue and the
books stay as they were, and the refusal is no rejection of its own. -/
structure Refused (session session' : TradingSession) (ticket : OrderTicket)
    (result : OrderResult) (reason : RejectionReason) : Prop where
  status : result.status = .rejected
  rejectionReason : result.rejectionReason = some reason
  latencyQueue : session'.simulator.latencyQueue = session.simulator.latencyQueue
  activeLimitOrders : session'.simulator.activeLimitOrders = session.simulator.activeLimitOrders
  activeStopOrders : session'.simulator.activeStopOrders = session.simulator.activeStopOrders
  portfolio : session'.simulator.ledger.portfolio = session.simulator.ledger.portfolio
  ordersSent : session'.simulator.ledger.ordersSent = session.simulator.ledger.ordersSent
  orderGuard : session'.orderGuard = session.orderGuard
  answered : answered session ticket result = []

/-- A call of `send_order` that reaches the executor, with what it feeds back to the guard. -/
structure Passed (cfg : ApiConfig) (session session' : TradingSession) (ticket : OrderTicket)
    (result : OrderResult) : Prop where
  openOrder : Simulator.openOrder cfg.simulator session.simulator ticket.request =
    .ok (session'.simulator, result)
  orderGuard : session'.orderGuard =
    recordHistory session.orderGuard (answered session ticket result)

variable {session session' : TradingSession} {ticket : OrderTicket} {result : OrderResult}
  {now : Instant}

theorem refused_of_rejection {reason : RejectionReason} {message : RejectionMessage}
    {orderId : String} (hfeeds : reason ∉ cooldownRejectionReasons)
    (hresult : result = createRejectionResult orderId reason message)
    (hsession : session' = { session with
      guardIdsDrawn := session.guardIdsDrawn + 1
      simulator := { session.simulator with ledger :=
        session.simulator.ledger.recordGuardRejection cfg.simulator.executor result } }) :
    Refused session session' ticket result reason := by
  have hquiet : feedsCooldown result = false := by
    rw [hresult, feedsCooldown]
    simp [createRejectionResult, hfeeds]
  subst hsession
  refine ⟨by rw [hresult]; rfl, by rw [hresult]; rfl, rfl, rfl, rfl, rfl, rfl, rfl, ?_⟩
  rw [answered]
  split
  · rfl
  · rw [hquiet]
    rfl

theorem validate_eq (guard : OrderGuard) (request : OpenOrderRequest) (now : Instant)
    (status : MarketDataStatus) (orderId : String) :
    guard.validate request now (some status) orderId =
      if guard.staleBlocked (some status) then some (OrderGuard.staleRejection orderId status)
      else guard.checkCooldown request.direction now orderId := rfl

theorem checkCooldown_cases (guard : OrderGuard) (direction : OrderDirection) (now : Instant)
    (orderId : String) :
    (guard.isDirectionBlocked direction now = true ∧ ∃ remaining,
        guard.checkCooldown direction now orderId =
          some (OrderGuard.cooldownRejection orderId direction remaining)) ∨
      (guard.isDirectionBlocked direction now = false ∧
        guard.checkCooldown direction now orderId = none) := by
  rw [OrderGuard.isDirectionBlocked, OrderGuard.checkCooldown]
  cases guard.cooldownUntil.get? direction with
  | none => exact .inr ⟨rfl, rfl⟩
  | some cooldownUntil =>
      by_cases hlater : cooldownUntil > now
      · exact .inl ⟨decide_eq_true hlater, cooldownUntil - now, if_pos hlater⟩
      · exact .inr ⟨decide_eq_false hlater, if_neg hlater⟩

/-- The verdict of the guard decides what becomes of a call. -/
theorem sendOrder_cases (h : sendOrder cfg session ticket = .ok (session', result)) :
    ∃ now, session.simulator.market.clockTime = some now ∧
      ((session.orderGuard.staleBlocked (some session.marketDataStatus) = true ∧
          Refused session session' ticket result .staleMarketData) ∨
        (session.orderGuard.staleBlocked (some session.marketDataStatus) = false ∧
          session.orderGuard.isDirectionBlocked ticket.request.direction now = true ∧
          Refused session session' ticket result .rejectionCooldown) ∨
        (session.orderGuard.staleBlocked (some session.marketDataStatus) = false ∧
          session.orderGuard.isDirectionBlocked ticket.request.direction now = false ∧
          Passed cfg session session' ticket result)) := by
  obtain ⟨now, hnow, h⟩ := bind_eq_ok.mp h
  have hclock : session.simulator.market.clockTime = some now := clockNow_eq_ok.mp hnow
  refine ⟨now, hclock, ?_⟩
  rw [validate_eq] at h
  by_cases hstale : session.orderGuard.staleBlocked (some session.marketDataStatus) = true
  · -- the stale check comes first
    rw [if_pos hstale] at h
    cases h
    exact .inl ⟨hstale, refused_of_rejection (by decide) rfl rfl⟩
  · rw [if_neg hstale] at h
    rw [Bool.not_eq_true] at hstale
    refine .inr ?_
    obtain ⟨hblocked, remaining, hverdict⟩ | ⟨hblocked, hverdict⟩ := checkCooldown_cases
      session.orderGuard ticket.request.direction now (cfg.guardIds session.guardIdsDrawn)
    · rw [hverdict] at h
      cases h
      exact .inl ⟨hstale, hblocked, refused_of_rejection (by decide) rfl rfl⟩
    · rw [hverdict] at h
      obtain ⟨⟨simulator, answer⟩, hopen, hpure⟩ := bind_eq_ok.mp h
      cases hpure
      refine .inr ⟨hstale, hblocked, hopen, ?_⟩
      rw [answered, hclock]
      show (if _ then _ else _) = recordHistory _ (if _ then _ else _)
      split <;> rfl

theorem Recorded.sendOrder (h : Recorded cfg s)
    (hsend : sendOrder cfg s.session ticket = .ok (session', result)) :
    Recorded cfg ⟨session', s.history ++ answered s.session ticket result⟩ := by
  rw [Recorded, recordHistory_append, ← h]
  obtain ⟨now, -, ⟨-, hrefused⟩ | ⟨-, -, hrefused⟩ | ⟨-, -, hpassed⟩⟩ := sendOrder_cases hsend
  · rw [hrefused.answered]
    exact hrefused.orderGuard
  · rw [hrefused.answered]
    exact hrefused.orderGuard
  · exact hpassed.orderGuard

theorem sessionStep_recorded {op : SessionOp} (h : Recorded cfg s)
    (hstep : sessionStep cfg s op = .ok s') : Recorded cfg s' := by
  cases op with
  | tick tick =>
      obtain ⟨session, htick, hpure⟩ := bind_eq_ok.mp hstep
      obtain ⟨simulator, -, hheard⟩ := bind_eq_ok.mp htick
      cases hpure
      cases hheard
      exact h.hearOutcomes rfl
  | heartbeat ghostMsc =>
      obtain ⟨session, hbeat, hpure⟩ := bind_eq_ok.mp hstep
      obtain ⟨simulator, -, hheard⟩ := bind_eq_ok.mp hbeat
      cases hpure
      cases hheard
      exact h.hearOutcomes rfl
  | setMarketDataStatus status =>
      cases hstep
      exact h.calls rfl
  | sendOrder ticket =>
      obtain ⟨⟨session, result⟩, hsend, hpure⟩ := bind_eq_ok.mp hstep
      cases hpure
      exact h.sendOrder hsend
  | closePosition positionId lots => exact h.asked id hstep
  | modifyPosition positionId stopLoss takeProfit => exact h.asked id hstep
  | modifyLimitOrder orderId price stopLoss takeProfit => exact h.asked id hstep
  | modifyStopOrder orderId stopPrice price stopLoss takeProfit => exact h.asked id hstep
  | cancelLimitOrder orderId => exact h.asked id hstep
  | cancelStopOrder orderId => exact h.asked id hstep
  | getAccountInfo direction =>
      exact h.asked (fun portfolio => { s.session.simulator with
        ledger := { s.session.simulator.ledger with portfolio := portfolio } }) hstep
  | requestSessionEnd request =>
      cases hstep
      exact h.calls rfl

/-- What becomes of a call of `send_order` at a moment: stale market data is refused, then a
direction with too many fresh rejections since its last fill, and every other call reaches the
executor. -/
def Guarded (cfg : ApiConfig) (cooldownSeconds : ℚ) (maxConsecutiveRejections : ℤ)
    (blockStaleMarketData : Bool) (s : SeenSession) (session' : TradingSession)
    (ticket : OrderTicket) (result : OrderResult) (now : Instant) : Prop :=
  let stale := blockStaleMarketData && s.session.marketDataStatus.isStale
  let blocked := Blocked maxConsecutiveRejections (cooldownOf cooldownSeconds) s.history
    ticket.request.direction now
  (stale = true ∧ Refused s.session session' ticket result .staleMarketData) ∨
    (stale = false ∧ blocked ∧ Refused s.session session' ticket result .rejectionCooldown) ∨
    (stale = false ∧ ¬ blocked ∧ Passed cfg s.session session' ticket result)

/-- In every session, whatever the logic calls and in whatever order, the fills and rejections seen
so far decide what becomes of the next order. -/
theorem session_guarded {cooldownSeconds : ℚ} {maxConsecutiveRejections : ℤ}
    {blockStaleMarketData : Bool} {ops : List SessionOp}
    (hguard : cfg.orderGuard =
      .new cooldownSeconds maxConsecutiveRejections blockStaleMarketData)
    (hrun : run (sessionStep cfg) ⟨newSession cfg, []⟩ ops = .ok s)
    (hsend : sendOrder cfg s.session ticket = .ok (session', result)) :
    ∃ now, s.session.simulator.market.clockTime = some now ∧
      Guarded cfg cooldownSeconds maxConsecutiveRejections blockStaleMarketData s session' ticket
        result now := by
  have hnew : Recorded cfg ⟨newSession cfg, []⟩ := rfl
  have hrecorded : Recorded cfg s :=
    run_invariant (fun _ _ _ h hstep => sessionStep_recorded h hstep) hnew hrun
  obtain ⟨now, hclock, hcases⟩ := sendOrder_cases hsend
  have hstale : s.session.orderGuard.staleBlocked (some s.session.marketDataStatus) =
      (blockStaleMarketData && s.session.marketDataStatus.isStale) := by
    rw [OrderGuard.staleBlocked, Option.any_some, hrecorded, blockStaleMarketData_recordHistory,
      hguard]
    rfl
  have hblocked := isDirectionBlocked_iff cooldownSeconds maxConsecutiveRejections
    blockStaleMarketData s.history ticket.request.direction now
  rw [← hguard, ← hrecorded] at hblocked
  rw [hstale] at hcases
  refine ⟨now, hclock, ?_⟩
  obtain hstale | ⟨hfresh, hdirection, hrefused⟩ | ⟨hfresh, hdirection, hpassed⟩ := hcases
  · exact .inl hstale
  · exact .inr (.inl ⟨hfresh, hblocked.mp hdirection, hrefused⟩)
  · refine .inr (.inr ⟨hfresh, fun hlate => ?_, hpassed⟩)
    rw [hblocked.mpr hlate] at hdirection
    cases hdirection

def guardedApi : ApiConfig where
  simulator := forexSimulator
  orderGuard := .new 60 1 true
  guardIds := fun _ => "guard_0"

def lotsOf (side : OrderSide) (lots : ℚ) : OrderTicket where
  symbol := "EURUSD"
  orderType := .market
  side := side
  lots := lots

/-- Twenty lots are more than the account can hold, and the second tick finds it out. -/
def overreach : List SessionOp :=
  [.tick (eurusdTick (11000 / 10000) (11002 / 10000) 1000), .sendOrder (lotsOf .buy 20),
    .tick (eurusdTick (11001 / 10000) (11003 / 10000) 1010)]

theorem overreach_run :
    ((run (sessionStep guardedApi) ⟨newSession guardedApi, []⟩ overreach) >>= fun s =>
        sendOrder guardedApi s.session (lotsOf .buy 1) >>= fun long =>
          (sendOrder guardedApi s.session (lotsOf .sell 1)).map fun short =>
        (s.history, long.2.rejectionReason, short.2.status)) =
      .ok ([.rejection .long 1010000], some .rejectionCooldown, .pending) := by
  decide +kernel

/-- After it no further order of that direction goes out for a minute; the other direction is
free. -/
theorem session_guarded_overreach :
    ∃ s long short, run (sessionStep guardedApi) ⟨newSession guardedApi, []⟩ overreach = .ok s ∧
      s.history = [.rejection .long 1010000] ∧
      sendOrder guardedApi s.session (lotsOf .buy 1) = .ok long ∧
      long.2.rejectionReason = some .rejectionCooldown ∧
      sendOrder guardedApi s.session (lotsOf .sell 1) = .ok short ∧ short.2.status = .pending ∧
      (∃ now, s.session.simulator.market.clockTime = some now ∧
        Guarded guardedApi 60 1 true s long.1 (lotsOf .buy 1) long.2 now) ∧
      ∃ now, s.session.simulator.market.clockTime = some now ∧
        Guarded guardedApi 60 1 true s short.1 (lotsOf .sell 1) short.2 now := by
  obtain ⟨s, hrun, hrest⟩ := bind_eq_ok.mp overreach_run
  obtain ⟨long, hlong, hrest⟩ := bind_eq_ok.mp hrest
  obtain ⟨short, hshort, hseen⟩ := exists_of_map_eq_ok hrest
  obtain ⟨hhistory, hseen⟩ := Prod.mk.inj hseen
  obtain ⟨hreason, hstatus⟩ := Prod.mk.inj hseen
  exact ⟨s, long, short, hrun, hhistory, hlong, hreason, hshort, hstatus,
    session_guarded rfl hrun hlong, session_guarded rfl hrun hshort⟩

end Answers

end Finiex.GuardedSessions
