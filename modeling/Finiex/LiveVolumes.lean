import Finiex.LiveQueries

namespace Finiex.LiveVolumes

open Finiex.Types
open Finiex.Lib
open Finiex.Lib.Run
open Finiex.Broker
open Finiex.Orders
open Finiex.OrderBooks
open Finiex.Positions
open Finiex.Portfolio
open Finiex.Portfolio.PortfolioManager
open Finiex.PortfolioFrames
open Finiex.Executor
open Finiex.ExecutorFills
open Finiex.AuditTrail
open Finiex.LiveTypes
open Finiex.Kraken
open Finiex.Live
open Finiex.LiveSpecs
open Finiex.LiveTrail
open Finiex.LiveSteps
open Finiex.LiveOutcomes
open Finiex.LiveQueries

section Openings

/-- No position appears. -/
def OpensNone (pm pm' : PortfolioManager) : Prop :=
  ∀ k, pm'.getPosition k ≠ none → pm.getPosition k ≠ none

/-- One position appears, with these lots. -/
def OpensOne (pm pm' : PortfolioManager) (orderId : String) (lots : ℚ) : Prop :=
  (pm'.getPosition orderId).map (·.lots) = some lots ∧
    ∀ k, k ≠ orderId → pm'.getPosition k ≠ none → pm.getPosition k ≠ none

theorem opensNone_of_extends {ledger ledger' : ExecutionLedger} {events : List AuditEvent}
    (h : Extends ledger ledger' events) (hnone : events.filterMap filledId = []) :
    OpensNone ledger.portfolio ledger'.portfolio := by
  intro k hk
  rcases h.positions k hk with hbefore | hfilled
  · exact hbefore
  · rw [hnone] at hfilled
    cases hfilled

variable (cfg : ExecutorConfig)

def fundsVerdict (market : MarketState) (pm : PortfolioManager) (pending : PendingOrder)
    (fillPrice : Option ℚ) (entryType : EntryType) :
    Except PyError (Option (RejectionReason × RejectionMessage)) := do
  let tick ← requireTick market
  let (bid, ask) ← getCurrentPrice market pending.symbol
  let direction := pending.direction.getD .short
  let entryPrice := fillPrice.getD (entrySide direction bid ask)
  let spec ← getSymbolSpecification cfg.broker pending.symbol
  let tickValue ← executorTickValue cfg spec tick.mid
  let entryFee := createEntryFee cfg tick spec pending.lots entryPrice tickValue
    (isMakerEntry entryType)
  let (_, rejection) ← checkFunds cfg market pm pending direction tick spec entryPrice entryFee
  return rejection

def affords (market : MarketState) (pm : PortfolioManager) (pending : PendingOrder)
    (fillPrice : Option ℚ) (entryType : EntryType) : Bool :=
  match fundsVerdict cfg market pm pending fillPrice entryType with
  | .ok none => true
  | _ => false

variable {cfg}

/-- An open fill opens the position of its order, with all of the order's lots, when the account
can pay for it, and no position otherwise. -/
theorem fillOpenOrder_opens {market : MarketState} {ledger ledger' : ExecutionLedger}
    {pending : PendingOrder} {fillPrice : Option ℚ} {entryType : EntryType} {fillType : FillType}
    (h : fillOpenOrder cfg market ledger pending fillPrice entryType fillType = .ok ledger') :
    if affords cfg market ledger.portfolio pending fillPrice entryType then
      OpensOne ledger.portfolio ledger'.portfolio pending.pendingOrderId pending.lots
    else OpensNone ledger.portfolio ledger'.portfolio := by
  rw [affords]
  rw [fillOpenOrder] at h
  obtain ⟨tick, htick, h⟩ := bind_eq_ok.mp h
  obtain ⟨⟨bid, ask⟩, hprice, h⟩ := bind_eq_ok.mp h
  obtain ⟨spec, hspec, h⟩ := bind_eq_ok.mp h
  obtain ⟨tickValue, hvalue, h⟩ := bind_eq_ok.mp h
  obtain ⟨⟨pm, rejection⟩, hfunds, h⟩ := bind_eq_ok.mp h
  have hkeep : OpensNone ledger.portfolio pm := by
    rcases checkFunds_portfolio hfunds with rfl | hensure
    · exact fun k hk => hk
    · exact (ensure_keeps_positions hensure).open_before
  have hverdict :
      fundsVerdict cfg market ledger.portfolio pending fillPrice entryType = .ok rejection := by
    rw [fundsVerdict]
    refine bind_eq_ok.mpr ⟨tick, htick, bind_eq_ok.mpr ⟨(bid, ask), hprice, ?_⟩⟩
    refine bind_eq_ok.mpr ⟨spec, hspec, bind_eq_ok.mpr ⟨tickValue, hvalue, ?_⟩⟩
    exact bind_eq_ok.mpr ⟨(pm, rejection), hfunds, rfl⟩
  rw [hverdict]
  cases rejection with
  | some verdict =>
      cases h
      rw [if_neg (by simp)]
      exact hkeep
  | none =>
      obtain ⟨⟨seq, trades⟩, -, h⟩ := bind_eq_ok.mp h
      obtain ⟨pm', hopen, h⟩ := bind_eq_ok.mp h
      obtain ⟨now, -, h⟩ := bind_eq_ok.mp h
      cases h
      obtain ⟨now', costs, balances, -, rfl⟩ := openPosition_eq_ok hopen
      rw [if_pos rfl]
      constructor
      · show ((pm.openPositions.set pending.pendingOrderId _).get? pending.pendingOrderId).map _ = _
        rw [Dict.get?_set_self]
        rfl
      · intro k hk hposition
        refine hkeep k fun hnone => hposition ?_
        exact (Dict.get?_set_ne _ _ hk).trans hnone

end Openings

section Replies

def overKraken (cfg : LiveConfig RawResult) (pairs : List PairConfig) : LiveConfig RawResult :=
  { cfg with adapter := Kraken.adapter pairs }

def reportedStatus (raw : RawResult) (brokerRef : String) : BrokerOrderStatus :=
  statusOf ((orderInfo raw brokerRef).status.getD "pending")

def volExec (raw : RawResult) (brokerRef : String) : ℚ :=
  (orderInfo raw brokerRef).volExec.getD 0

def reportedPrice (raw : RawResult) (brokerRef : String) : ℚ :=
  (orderInfo raw brokerRef).price.getD 0

def tradesVolume (raw : RawResult) : ℚ :=
  (raw.tradesRaw.entries.map fun entry => entry.2.vol.getD 0).sum

structure Fill where
  order : PendingOrder
  price : ℚ
  entryType : EntryType

/-- A resting order of which the reply says that it is closed. -/
def queryFill (s : LiveTradeExecutor RawResult) (orderId brokerRef : String) (raw : RawResult) :
    Option Fill :=
  match findOrder s.activeLimitOrders orderId with
  | none => none
  | some order =>
      if order.brokerRef = some brokerRef ∧ reportedStatus raw brokerRef = .filled then
        some ⟨clearQuery order, reportedPrice raw brokerRef, .limit⟩
      else none

def tradesFill (pairs : List PairConfig) (s : LiveTradeExecutor RawResult)
    (orderId brokerRef : String) (raw : RawResult) : Option Fill :=
  match findOrder s.activeLimitOrders orderId with
  | none => none
  | some order =>
      let traded := appendTrades order (parseTradesQueryResponse pairs raw brokerRef orderId)
      if order.brokerRef = some brokerRef ∧ 0 < traded.fills.cumulativeFilledLots then
        some ⟨traded, traded.fills.cumulativeAvgPrice, .limit⟩
      else none

def indexed (s : LiveTradeExecutor RawResult) (brokerRef : String) : Option PendingOrder :=
  match s.brokerRefIndex.get? brokerRef with
  | none => none
  | some orderId => s.pendingOrders.get? orderId

/-- An order in transit of which the reply says that it is closed. -/
def pollFill (s : LiveTradeExecutor RawResult) (brokerRef : String) (raw : RawResult) :
    Option Fill :=
  match indexed s brokerRef with
  | none => none
  | some order =>
      if order.isOpen ∧ reportedStatus raw brokerRef = .filled then
        some ⟨order, reportedPrice raw brokerRef, .market⟩
      else none

/-- The OPEN order that the reply processed by an operation fills. -/
def fillOf (pairs : List PairConfig) (t : Tracked RawResult) : LiveOp RawResult → Option Fill
  | .drain =>
      match t.origins with
      | (.query orderId ref, .ok raw) :: _ => queryFill t.executor orderId ref raw
      | (.tradesQuery orderId ref, .ok raw) :: _ => tradesFill pairs t.executor orderId ref raw
      | _ => none
  | .poll (.ok raw) =>
      match t.executor.polling with
      | [] => none
      | pending :: _ =>
          match pending.confirmedRef with
          | none => none
          | some ref => pollFill t.executor ref raw
  | _ => none

end Replies

section Handlers

variable {cfg : LiveConfig RawResult} {pairs : List PairConfig}
  {s s' : LiveTradeExecutor RawResult}

/-- A fill is handed to the executor, or no position appears. -/
def Executes (cfg : LiveConfig RawResult) (s s' : LiveTradeExecutor RawResult) :
    Option Fill → Prop
  | some fill => ∃ (filling : LiveTradeExecutor RawResult) (fillType : FillType),
      filling.ledger.portfolio = s.ledger.portfolio ∧ filling.market = s.market ∧
        fillOpen cfg filling fill.order (some fill.price) fill.entryType fillType = .ok s'
  | none => OpensNone s.ledger.portfolio s'.ledger.portfolio

theorem opensNone_of_eq {pm pm' : PortfolioManager} (h : pm' = pm) : OpensNone pm pm' :=
  fun _ hk => h ▸ hk

theorem parseQueryResponse_fillPrice {ref : String} {raw : RawResult}
    (hclosed : reportedStatus raw ref = .filled) :
    (parseQueryResponse raw ref).fillPrice = some (reportedPrice raw ref) := by
  show (if decide (reportedStatus raw ref = .filled) = true then _ else _) = _
  rw [if_pos (decide_eq_true hclosed)]
  rfl

theorem handleQueryResponse_executes {orderId ref : String} {raw : RawResult}
    (h : handleQueryResponse cfg s orderId (parseQueryResponse raw ref) = .ok s') :
    Executes cfg s s' (queryFill s orderId ref raw) := by
  rw [queryFill]
  rw [handleQueryResponse] at h
  cases hfind : findOrder s.activeLimitOrders orderId with
  | none =>
      simp only [hfind] at h
      cases h
      exact opensNone_of_eq rfl
  | some order =>
      simp only [hfind] at h
      have hstatus : (parseQueryResponse raw ref).status = reportedStatus raw ref := rfl
      by_cases href : order.brokerRef = some ref
      · have hsame : ¬(clearQuery order).brokerRef ≠ some (parseQueryResponse raw ref).brokerRef :=
          not_not.mpr href
        rw [if_neg hsame] at h
        by_cases hclosed : reportedStatus raw ref = .filled
        · have hfilled : (parseQueryResponse raw ref).isFilled = true := by
            rw [BrokerResponse.isFilled, hstatus, hclosed]
            rfl
          rw [if_pos hfilled, parseQueryResponse_fillPrice hclosed] at h
          simp only [if_pos (And.intro href hclosed)]
          exact ⟨removeLimitOrder (setLimitOrder s _) _, .limit, rfl, rfl, h⟩
        · have hfilled : ¬(parseQueryResponse raw ref).isFilled = true := by
            rw [BrokerResponse.isFilled, hstatus]
            simpa using hclosed
          rw [if_neg hfilled] at h
          simp only [if_neg (fun hboth : _ ∧ _ => hclosed hboth.2)]
          split at h <;>
          · cases h
            exact opensNone_of_eq rfl
      · have hstale : (clearQuery order).brokerRef ≠ some (parseQueryResponse raw ref).brokerRef :=
          href
        rw [if_pos hstale] at h
        cases h
        simp only [if_neg (fun hboth : _ ∧ _ => href hboth.1)]
        exact opensNone_of_eq rfl

theorem handleTradesResponse_executes {orderId ref : String} {raw : RawResult}
    (h : handleTradesResponse cfg s
      ⟨orderId, ref, parseTradesQueryResponse pairs raw ref orderId, true⟩ = .ok s') :
    Executes cfg s s' (tradesFill pairs s orderId ref raw) := by
  rw [tradesFill]
  rw [handleTradesResponse, if_neg (by simp)] at h
  cases hfind : findOrder s.activeLimitOrders orderId with
  | none =>
      simp only [hfind] at h
      cases h
      exact opensNone_of_eq rfl
  | some order =>
      simp only [hfind] at h
      by_cases href : order.brokerRef = some ref
      · rw [if_neg (not_not.mpr href)] at h
        split at h
        · next hpositive =>
            simp only [if_pos (And.intro href hpositive)]
            exact ⟨removeLimitOrder (setLimitOrder s _) _, .limit, rfl, rfl, h⟩
        · next hpositive =>
            cases h
            simp only [if_neg (fun hboth : _ ∧ _ => hpositive hboth.2)]
            exact opensNone_of_eq rfl
      · rw [if_pos href] at h
        cases h
        simp only [if_neg (fun hboth : _ ∧ _ => href hboth.1)]
        exact opensNone_of_eq rfl

/-- A submission that is not filled at once leaves the portfolio alone. -/
theorem handleSubmitResponse_portfolio {orderId : String} {action : PendingOrderAction}
    {orderType : Types.OrderType} {response : BrokerResponse RawResult}
    (hfilled : response.isFilled = false)
    (h : handleSubmitResponse cfg s orderId action orderType response = .ok s') :
    s'.ledger.portfolio = s.ledger.portfolio := by
  have hlimit : ∀ {s'}, handleLimitSubmitResponse cfg s orderId response = .ok s' →
      s'.ledger.portfolio = s.ledger.portfolio := by
    intro s' h
    rw [handleLimitSubmitResponse] at h
    split at h
    · cases h
      rfl
    · simp only [hfilled, Bool.false_eq_true, if_false] at h
      split at h
      · cases h
        rfl
      · split at h <;>
        · cases h
          rfl
  have hmarket : ∀ {s'}, handleMarketSubmitResponse cfg s orderId action response = .ok s' →
      s'.ledger.portfolio = s.ledger.portfolio := by
    intro s' h
    rw [handleMarketSubmitResponse] at h
    split at h
    · cases h
      rfl
    · simp only [hfilled, Bool.false_eq_true, if_false] at h
      split at h <;>
      · cases h
        rfl
  unfold handleSubmitResponse at h
  split at h
  · exact hlimit h
  · exact hmarket h

theorem handleQueryResponse_portfolio {orderId ref text : String}
    (h : handleQueryResponse cfg s orderId (transportFailure ref text) = .ok s') :
    s'.ledger.portfolio = s.ledger.portfolio := by
  rw [handleQueryResponse] at h
  split at h
  · cases h
    rfl
  · simp only at h
    split at h
    · cases h
      rfl
    · cases h
      rfl

theorem handleModifyResponse_portfolio {orderId : String} {response : BrokerResponse RawResult}
    (h : handleModifyResponse cfg s orderId response = .ok s') :
    s'.ledger.portfolio = s.ledger.portfolio := by
  rw [handleModifyResponse] at h
  split at h
  · cases h
    rfl
  · split at h
    · cases h
      rfl
    · cases h
      show (swapBrokerRef s _ _).1.ledger.portfolio = _
      rw [(swapBrokerRef_frame s _ _).1]

theorem handleCancelResponse_portfolio {orderId : String} {response : BrokerResponse RawResult}
    (h : handleCancelResponse s orderId response = .ok s') :
    s'.ledger.portfolio = s.ledger.portfolio := by
  rw [handleCancelResponse] at h
  split at h
  · cases h
    rfl
  · split at h
    · cases h
      rfl
    · obtain ⟨now, -, h⟩ := bind_eq_ok.mp h
      cases h
      rfl

theorem handlePositionModifyResponse_opensNone {positionId : String}
    {response : BrokerResponse RawResult}
    (h : handlePositionModifyResponse s positionId response = .ok s') :
    OpensNone s.ledger.portfolio s'.ledger.portfolio := by
  rw [handlePositionModifyResponse] at h
  split at h
  · cases h
    exact opensNone_of_eq rfl
  · next mod _ =>
      split at h
      · cases h
        exact opensNone_of_eq rfl
      · cases h
        exact opensNone_of_extends (modifyPosition_extends s.ledger positionId
          (.given mod.newStopLoss) (.given mod.newTakeProfit)) rfl

theorem takeByRef_kept (s : LiveTradeExecutor RawResult) (brokerRef : Option String) :
    (takeByRef s brokerRef).1.ledger.portfolio = s.ledger.portfolio ∧
      (takeByRef s brokerRef).1.market = s.market := by
  rcases takeByRef_cases s brokerRef with htake | ⟨_, _, -, -, htake⟩
  · rw [htake]
    exact ⟨rfl, rfl⟩
  · rw [htake]
    exact ⟨rfl, rfl⟩

/-- A status of an order in transit that is not a fill leaves the portfolio alone. -/
theorem polled_portfolio {ref : String} {response : BrokerResponse RawResult}
    (hfilled : response.status ≠ .filled) (h : Polled cfg s ref response s') :
    s'.ledger.portfolio = s.ledger.portfolio := by
  cases h with
  | idle _ _ => rfl
  | unmatched _ => exact (takeByRef_kept s (some ref)).1
  | filled hstatus _ _ => exact absurd hstatus hfilled
  | rejected _ _ =>
      have hkept := (takeByRef_kept s (some ref)).1
      exact hkept

theorem polled_executes {ref : String} {raw : RawResult}
    (h : Polled cfg s ref (parseQueryResponse raw ref) s') :
    Executes cfg s s' (pollFill s ref raw) := by
  have hindexed : (takeByRef s (some ref)).2 = indexed s ref := by
    rw [indexed]
    cases hindex : s.brokerRefIndex.get? ref with
    | none => simp only [takeByRef, hindex]
    | some orderId => rw [takeByRef_of_get? hindex]
  obtain ⟨hportfolio, hmarket⟩ := takeByRef_kept s (some ref)
  rw [pollFill, ← hindexed]
  by_cases hclosed : reportedStatus raw ref = .filled
  · cases h with
    | idle hfilled _ => exact absurd hclosed hfilled
    | unmatched hnone =>
        rw [hnone]
        exact opensNone_of_eq hportfolio
    | rejected hrejected _ =>
        have hne : reportedStatus raw ref ≠ .filled := by
          rw [show reportedStatus raw ref = .rejected from hrejected]
          simp
        exact absurd hclosed hne
    | @filled order _ _ htaken hfill =>
        rw [htaken]
        rw [parseQueryResponse_fillPrice hclosed] at hfill
        cases haction : order.orderAction with
        | openOrder =>
            have hopen : order.isOpen = true := by rw [PendingOrder.isOpen, haction]; rfl
            rw [haction] at hfill
            simp only [if_pos (And.intro hopen hclosed)]
            exact ⟨recordOutcome (takeByRef s (some ref)).1 order .filled, .market, hportfolio,
              hmarket, hfill⟩
        | closeOrder =>
            have hopen : ¬order.isOpen = true := by rw [PendingOrder.isOpen, haction]; simp
            rw [haction] at hfill
            simp only [if_neg (fun hboth : _ ∧ _ => hopen hboth.1)]
            obtain ⟨ledger, hledger, hpure⟩ := bind_eq_ok.mp hfill
            cases hpure
            obtain ⟨_, _, _, hkeep⟩ := fillCloseOrder_extends hledger
            exact fun k hk => hportfolio ▸ hkeep k hk
  · have hnone : (match (takeByRef s (some ref)).2 with
        | none => none
        | some order =>
            if order.isOpen = true ∧ reportedStatus raw ref = .filled then
              some (⟨order, reportedPrice raw ref, .market⟩ : Fill)
            else none) = none := by
      split
      · rfl
      · exact if_neg fun hboth => hclosed hboth.2
    rw [hnone]
    exact opensNone_of_eq (polled_portfolio hclosed h)

end Handlers

section Steps

variable {cfg : LiveConfig RawResult} {pairs : List PairConfig} {t : Tracked RawResult}
  {s s' : LiveTradeExecutor RawResult} {op : LiveOp RawResult}

theorem stepped_opensNone (h : Stepped cfg s op s') (hdrain : op ≠ .drain)
    (hpoll : ∀ answer, op ≠ .poll answer) : OpensNone s.ledger.portfolio s'.ledger.portfolio := by
  cases h with
  | quiet hquiet => exact opensNone_of_extends hquiet.ledger rfl
  | guarded hquiet => exact opensNone_of_extends hquiet.ledger rfl
  | refused request => exact fun k hk => hk
  | enqueued _ hquiet => exact opensNone_of_extends hquiet.ledger rfl
  | registered request _ => exact fun k hk => hk
  | rested request _ _ => exact fun k hk => hk
  | closing _ => exact opensNone_of_eq rfl
  | startedModify mod _ _ _ _ => exact opensNone_of_eq rfl
  | startedCancel _ _ _ => exact opensNone_of_eq rfl
  | requestedCancel _ _ => exact opensNone_of_eq rfl
  | scheduled => exact opensNone_of_eq rfl
  | drained _ _ => exact absurd rfl hdrain
  | polled _ _ _ _ => exact absurd rfl (hpoll _)
  | @expired pending rest _ =>
      have hkept := (takeByRef_kept (recordOutcome { s with expiring := rest } pending .timedOut)
        pending.brokerRef).1
      exact opensNone_of_eq hkept
  | ended _ _ _ _ hextends hevents =>
      refine opensNone_of_extends hextends (List.filterMap_eq_nil_iff.mpr fun event hevent => ?_)
      rcases hevents event hevent with ⟨result, rfl, -⟩ | hclose | ⟨pending, rfl⟩
      · rfl
      · exact filledId_of_isCloseRecord hclose
      · rfl

theorem drain_executes (h : Originated (overKraken cfg pairs) t)
    (hstep : step (overKraken cfg pairs) t.executor .drain = .ok s') :
    Executes (overKraken cfg pairs) t.executor s' (fillOf pairs t .drain) := by
  cases horigins : t.origins with
  | nil =>
      have hinbox := h.inbox
      rw [horigins] at hinbox
      rw [step, drain, hinbox] at hstep
      cases hstep
      simp only [fillOf, horigins]
      exact opensNone_of_eq rfl
  | cons origin rest =>
      obtain ⟨job, answer⟩ := origin
      obtain ⟨inbox, hdrain⟩ := drain_of_origin h horigins
      rw [hdrain] at hstep
      have hnone : OpensNone t.executor.ledger.portfolio s'.ledger.portfolio →
          fillOf pairs t .drain = none →
          Executes (overKraken cfg pairs) t.executor s' (fillOf pairs t .drain) := by
        intro hopens hfill
        rw [hfill]
        exact hopens
      cases job with
      | submit orderId action orderType payload =>
          refine hnone (opensNone_of_eq ?_) (by simp only [fillOf, horigins])
          refine handleSubmitResponse_portfolio (s := popped t.executor inbox) ?_ hstep
          cases answer <;> rfl
      | edit orderId ref symbol price stopLoss takeProfit =>
          refine hnone (opensNone_of_eq ?_) (by simp only [fillOf, horigins])
          exact handleModifyResponse_portfolio (s := popped t.executor inbox) hstep
      | cancel orderId ref =>
          refine hnone (opensNone_of_eq ?_) (by simp only [fillOf, horigins])
          exact handleCancelResponse_portfolio (s := popped t.executor inbox) hstep
      | positionModify positionId symbol stopLoss takeProfit =>
          refine hnone ?_ (by simp only [fillOf, horigins])
          exact handlePositionModifyResponse_opensNone (s := popped t.executor inbox) hstep
      | query orderId ref =>
          cases answer with
          | error text =>
              refine hnone (opensNone_of_eq ?_) (by simp only [fillOf, horigins])
              exact handleQueryResponse_portfolio (s := popped t.executor inbox) hstep
          | ok raw =>
              simp only [fillOf, horigins]
              exact handleQueryResponse_executes (s := popped t.executor inbox) hstep
      | tradesQuery orderId ref =>
          cases answer with
          | error text =>
              refine hnone (opensNone_of_eq ?_) (by simp only [fillOf, horigins])
              cases hstep
              rfl
          | ok raw =>
              simp only [fillOf, horigins]
              exact handleTradesResponse_executes (s := popped t.executor inbox) hstep

theorem poll_executes {answer : Except String RawResult}
    (hstep : step (overKraken cfg pairs) t.executor (.poll answer) = .ok s') :
    Executes (overKraken cfg pairs) t.executor s' (fillOf pairs t (.poll answer)) := by
  rcases poll_cases hstep with ⟨hnil, rfl⟩ | ⟨pending, rest, hpolling, hvisited⟩
  · have hnone : fillOf pairs t (.poll answer) = none := by
      cases answer with
      | error text => rfl
      | ok raw => simp only [fillOf, hnil]
    rw [hnone]
    exact opensNone_of_eq rfl
  · rcases hvisited with ⟨href, rfl⟩ | ⟨ref, response, href, hquery, hpolled⟩
    · have hnone : fillOf pairs t (.poll answer) = none := by
        cases answer with
        | error text => rfl
        | ok raw => simp only [fillOf, hpolling, href]
      rw [hnone]
      exact opensNone_of_eq rfl
    · rcases queryOrderSync_eq_ok hquery with ⟨text, rfl, rfl⟩ | ⟨raw, rfl, hparse⟩
      · have hfailed : (transportFailure ref text : BrokerResponse RawResult).status ≠ .filled := by
          simp [transportFailure]
        exact opensNone_of_eq
          (polled_portfolio (s := visited t.executor rest) hfailed hpolled)
      · cases hparse
        simp only [fillOf, hpolling, href]
        exact polled_executes (s := visited t.executor rest) hpolled

/-- Every step hands the fill of the reply it processes to the executor, or opens no position. -/
theorem step_executes (h : Originated (overKraken cfg pairs) t)
    (hstep : step (overKraken cfg pairs) t.executor op = .ok s') :
    Executes (overKraken cfg pairs) t.executor s' (fillOf pairs t op) := by
  by_cases hdrain : op = .drain
  · subst hdrain
    exact drain_executes h hstep
  · by_cases hpoll : ∃ answer, op = .poll answer
    · obtain ⟨answer, rfl⟩ := hpoll
      exact poll_executes hstep
    · have hnone : fillOf pairs t op = none := by
        cases op with
        | drain => exact absurd rfl hdrain
        | poll answer => exact absurd ⟨answer, rfl⟩ hpoll
        | _ => rfl
      rw [hnone]
      exact stepped_opensNone (step_stepped h.sound hstep) hdrain
        fun answer heq => hpoll ⟨answer, heq⟩

def affordable (cfg : LiveConfig RawResult) (s : LiveTradeExecutor RawResult) (fill : Fill) : Bool :=
  affords cfg.executor s.market s.ledger.portfolio fill.order (some fill.price) fill.entryType

/-- A fill opens the position of its order when the account can pay for it. -/
theorem executes_opens {fill? : Option Fill} (h : Executes cfg s s' fill?) :
    match fill?.filter (affordable cfg s) with
    | some fill => OpensOne s.ledger.portfolio s'.ledger.portfolio fill.order.pendingOrderId
        fill.order.lots
    | none => OpensNone s.ledger.portfolio s'.ledger.portfolio := by
  cases fill? with
  | none => exact h
  | some fill =>
      obtain ⟨filling, fillType, hportfolio, hmarket, hfill⟩ := h
      obtain ⟨ledger, hledger, hpure⟩ := bind_eq_ok.mp hfill
      cases hpure
      have hopens := fillOpenOrder_opens hledger
      rw [hportfolio, hmarket, ← affordable] at hopens
      rw [Option.filter_some]
      cases haffords : affordable cfg s fill with
      | true =>
          rw [haffords, if_pos rfl] at hopens
          exact hopens
      | false =>
          rw [haffords, if_neg Bool.false_ne_true] at hopens
          exact hopens

end Steps

section Monitor

/-- What the broker has said of the OPEN orders: the last reference each was known under, the
largest executed volume reported of it, and whether its end was reported; and the lots that its
position was opened with. -/
structure Monitored where
  tracked : Tracked RawResult
  refs : String → Option String := fun _ => none
  executed : String → ℚ := fun _ => 0
  ended : String → Bool := fun _ => false
  opened : String → Option ℚ := fun _ => none

/-- What a reply says of one OPEN order. -/
structure Report where
  orderId : String
  volume : ℚ
  ended : Bool

def knownRef (s : LiveTradeExecutor RawResult) (orderId : String) : Option String :=
  match findOrder s.activeLimitOrders orderId with
  | some order => order.brokerRef
  | none =>
      match s.pendingOrders.get? orderId with
      | none => none
      | some order => if order.isOpen then order.brokerRef else none

def statusReport (orderId brokerRef : String) (raw : RawResult) : Report where
  orderId := orderId
  volume := volExec raw brokerRef
  ended := decide (reportedStatus raw brokerRef ≠ .pending)

/-- The report in the reply that an operation processes. An accepted cancel ends its order; so
does a reply with trades that the executor takes for the fill of the order. -/
def report (pairs : List PairConfig) (m : Monitored) : LiveOp RawResult → Option Report
  | .drain =>
      match m.tracked.origins with
      | (.query orderId ref, .ok raw) :: _ =>
          if m.refs orderId = some ref then some (statusReport orderId ref raw) else none
      | (.tradesQuery orderId ref, .ok raw) :: _ =>
          if m.refs orderId = some ref then
            some ⟨orderId, tradesVolume raw,
              (tradesFill pairs m.tracked.executor orderId ref raw).isSome⟩
          else none
      | (.cancel orderId _, .ok _) :: _ => some ⟨orderId, 0, true⟩
      | _ => none
  | .poll (.ok raw) =>
      match m.tracked.executor.polling with
      | [] => none
      | pending :: _ =>
          match pending.confirmedRef with
          | none => none
          | some ref =>
              let order := (indexed m.tracked.executor ref).getD pending
              if order.isOpen then some (statusReport order.pendingOrderId ref raw) else none
  | _ => none

def observed (m : Monitored) (report? : Option Report) (tracked : Tracked RawResult) :
    Monitored where
  tracked := tracked
  refs orderId := (knownRef tracked.executor orderId).or (m.refs orderId)
  executed orderId :=
    match report? with
    | none => m.executed orderId
    | some r =>
        if orderId = r.orderId then max (m.executed orderId) r.volume else m.executed orderId
  ended orderId :=
    match report? with
    | none => m.ended orderId
    | some r => if orderId = r.orderId then m.ended orderId || r.ended else m.ended orderId
  opened orderId := (m.opened orderId).or
    ((tracked.executor.ledger.portfolio.getPosition orderId).map (·.lots))

variable (cfg : LiveConfig RawResult) (pairs : List PairConfig)

def monitoredStep (m : Monitored) (op : LiveOp RawResult) : Except PyError Monitored := do
  let tracked ← trackedStep (overKraken cfg pairs) m.tracked op
  return observed m (report pairs m op) tracked

def monitoredStart : Monitored where
  tracked := start (overKraken cfg pairs)

/-- The lots to hold for an executed volume. -/
def held (executed : ℚ) : Option ℚ := if 0 < executed then some executed else none

/-- Every OPEN order whose end the broker has reported was opened with exactly the executed
volume, and not at all if nothing was executed. -/
def Conserved (m : Monitored) : Prop :=
  ∀ orderId, m.ended orderId = true → m.opened orderId = held (m.executed orderId)

/-- The fill of the reply that the account can pay for. -/
def opening (m : Monitored) (op : LiveOp RawResult) : Option Fill :=
  (fillOf pairs m.tracked op).filter (affordable cfg m.tracked.executor)

/-- The executed volume is what the order was opened with before, or all of its lots where the
reply fills it, and nothing where it is not filled. -/
def Matches (executed : ℚ) : Option ℚ → Option Fill → Prop
  | some lots, _ => 0 < executed ∧ lots = executed
  | none, some fill => 0 < executed ∧ fill.order.lots = executed
  | none, none => executed ≤ 0

instance decidableMatches (executed : ℚ) :
    ∀ lots? fill?, Decidable (Matches executed lots? fill?)
  | some lots, _ => inferInstanceAs (Decidable (0 < executed ∧ lots = executed))
  | none, some fill => inferInstanceAs (Decidable (0 < executed ∧ fill.order.lots = executed))
  | none, none => inferInstanceAs (Decidable (executed ≤ 0))

def AccountedBy (m : Monitored) (fill? : Option Fill) : Option Report → Prop
  | none => True
  | some r => r.ended = true ∨ m.ended r.orderId = true →
      Matches (max (m.executed r.orderId) r.volume) (m.opened r.orderId) fill?

instance decidableAccountedBy (m : Monitored) (fill? : Option Fill) :
    ∀ report?, Decidable (AccountedBy m fill? report?)
  | none => .isTrue trivial
  | some _ => inferInstanceAs (Decidable (_ → _))

def Accounted (m : Monitored) (op : LiveOp RawResult) : Prop :=
  AccountedBy m (opening cfg pairs m op) (report pairs m op)

instance decidableAccounted (m : Monitored) (op : LiveOp RawResult) :
    Decidable (Accounted cfg pairs m op) :=
  decidableAccountedBy m (opening cfg pairs m op) (report pairs m op)

/-- The monitor keeps up with the executor. -/
structure Monitoring (m : Monitored) : Prop where
  originated : Originated (overKraken cfg pairs) m.tracked
  refs : ∀ orderId ref, knownRef m.tracked.executor orderId = some ref →
    m.refs orderId = some ref
  opened : ∀ orderId, m.tracked.executor.ledger.portfolio.getPosition orderId ≠ none →
    m.opened orderId ≠ none

end Monitor

section Conservation

variable {cfg : LiveConfig RawResult} {pairs : List PairConfig} {m m' : Monitored}
  {op : LiveOp RawResult}

theorem monitoredStart_monitoring (cfg : LiveConfig RawResult) (pairs : List PairConfig) :
    Monitoring cfg pairs (monitoredStart cfg pairs) where
  originated := start_originated (overKraken cfg pairs)
  refs orderId ref h := by cases h
  opened orderId h := absurd rfl h

theorem monitoredStep_eq_ok (h : monitoredStep cfg pairs m op = .ok m') :
    ∃ tracked, trackedStep (overKraken cfg pairs) m.tracked op = .ok tracked ∧
      m' = observed m (report pairs m op) tracked := by
  obtain ⟨tracked, htracked, hpure⟩ := bind_eq_ok.mp h
  cases hpure
  exact ⟨tracked, htracked, rfl⟩

theorem monitoredStep_monitoring (h : Monitoring cfg pairs m)
    (hstep : monitoredStep cfg pairs m op = .ok m') : Monitoring cfg pairs m' := by
  obtain ⟨tracked, htracked, rfl⟩ := monitoredStep_eq_ok hstep
  refine ⟨trackedStep_originated h.originated htracked, ?_, ?_⟩
  · intro orderId ref href
    show (knownRef tracked.executor orderId).or (m.refs orderId) = some ref
    have hknown : knownRef tracked.executor orderId = some ref := href
    rw [hknown]
    rfl
  · intro orderId hposition
    show (m.opened orderId).or _ ≠ none
    rw [Ne, Option.or_eq_none_iff, Option.map_eq_none_iff]
    exact fun hboth => hposition hboth.2

def openedLots (fill? : Option Fill) (orderId : String) : Option ℚ :=
  match fill? with
  | none => none
  | some fill => if orderId = fill.order.pendingOrderId then some fill.order.lots else none

theorem monitoredStep_opened (h : Monitoring cfg pairs m)
    (hstep : monitoredStep cfg pairs m op = .ok m') (orderId : String) :
    m'.opened orderId = (m.opened orderId).or (openedLots (opening cfg pairs m op) orderId) := by
  obtain ⟨tracked, htracked, rfl⟩ := monitoredStep_eq_ok hstep
  obtain ⟨executor, hexecutor, hpure⟩ := bind_eq_ok.mp htracked
  cases hpure
  have hopens := executes_opens (step_executes h.originated hexecutor)
  show (m.opened orderId).or ((executor.ledger.portfolio.getPosition orderId).map (·.lots)) = _
  have hbefore : (executor.ledger.portfolio.getPosition orderId ≠ none →
      m.tracked.executor.ledger.portfolio.getPosition orderId ≠ none) →
      (m.opened orderId).or ((executor.ledger.portfolio.getPosition orderId).map (·.lots)) =
        m.opened orderId := by
    intro hopen
    cases hafter : executor.ledger.portfolio.getPosition orderId with
    | none => rw [Option.map_none, Option.or_none]
    | some position =>
        obtain ⟨lots, hlots⟩ := Option.ne_none_iff_exists'.mp
          (h.opened orderId (hopen (by rw [hafter]; simp)))
        rw [hlots]
        rfl
  cases hopening : opening cfg pairs m op with
  | none =>
      have hnone : OpensNone m.tracked.executor.ledger.portfolio executor.ledger.portfolio := by
        have hfiltered : (fillOf pairs m.tracked op).filter
            (affordable (overKraken cfg pairs) m.tracked.executor) = none := hopening
        rw [hfiltered] at hopens
        exact hopens
      rw [hbefore (hnone orderId), openedLots, Option.or_none]
  | some fill =>
      have hone : OpensOne m.tracked.executor.ledger.portfolio executor.ledger.portfolio
          fill.order.pendingOrderId fill.order.lots := by
        have hfiltered : (fillOf pairs m.tracked op).filter
            (affordable (overKraken cfg pairs) m.tracked.executor) = some fill := hopening
        rw [hfiltered] at hopens
        exact hopens
      rw [openedLots]
      by_cases hid : orderId = fill.order.pendingOrderId
      · rw [hid, hone.1, if_pos rfl]
      · rw [hbefore (hone.2 orderId hid), if_neg hid, Option.or_none]

theorem queryFill_eq_some {s : LiveTradeExecutor RawResult} {orderId ref : String}
    {raw : RawResult} {fill : Fill} (h : queryFill s orderId ref raw = some fill) :
    ∃ order, findOrder s.activeLimitOrders orderId = some order ∧ order.brokerRef = some ref ∧
      reportedStatus raw ref = .filled ∧ fill.order = clearQuery order := by
  rw [queryFill] at h
  split at h
  · cases h
  · next order hfind =>
      split at h
      · next hboth =>
          cases h
          exact ⟨order, hfind, hboth.1, hboth.2, rfl⟩
      · cases h

theorem tradesFill_eq_some {s : LiveTradeExecutor RawResult} {orderId ref : String}
    {raw : RawResult} {fill : Fill} (h : tradesFill pairs s orderId ref raw = some fill) :
    ∃ order, findOrder s.activeLimitOrders orderId = some order ∧ order.brokerRef = some ref ∧
      fill.order.pendingOrderId = order.pendingOrderId := by
  rw [tradesFill] at h
  split at h
  · cases h
  · next order hfind =>
      simp only at h
      split at h
      · next hboth =>
          cases h
          exact ⟨order, hfind, hboth.1, rfl⟩
      · cases h

theorem pollFill_eq_some {s : LiveTradeExecutor RawResult} {ref : String} {raw : RawResult}
    {fill : Fill} (h : pollFill s ref raw = some fill) :
    indexed s ref = some fill.order ∧ fill.order.isOpen = true ∧
      reportedStatus raw ref = .filled := by
  rw [pollFill] at h
  split at h
  · cases h
  · next order hindexed =>
      split at h
      · next hboth =>
          cases h
          exact ⟨hindexed, hboth.1, hboth.2⟩
      · cases h

theorem Monitoring.ref_of_resting (h : Monitoring cfg pairs m) {orderId ref : String}
    {order : PendingOrder}
    (hfind : findOrder m.tracked.executor.activeLimitOrders orderId = some order)
    (href : order.brokerRef = some ref) : m.refs orderId = some ref := by
  refine h.refs orderId ref ?_
  rw [knownRef, hfind]
  exact href

theorem statusReport_ended {orderId ref : String} {raw : RawResult}
    (hclosed : reportedStatus raw ref = .filled) : (statusReport orderId ref raw).ended = true := by
  rw [statusReport, hclosed]
  rfl

theorem opening_report (h : Monitoring cfg pairs m) {fill : Fill}
    (hopening : opening cfg pairs m op = some fill) :
    ∃ r, report pairs m op = some r ∧ r.orderId = fill.order.pendingOrderId ∧ r.ended = true := by
  have hfill : fillOf pairs m.tracked op = some fill := (Option.filter_eq_some_iff.mp hopening).1
  cases op with
  | drain =>
      simp only [fillOf] at hfill
      split at hfill
      · next orderId ref raw rest horigins =>
          obtain ⟨order, hfind, href, hclosed, horder⟩ := queryFill_eq_some hfill
          refine ⟨statusReport orderId ref raw, ?_, ?_, statusReport_ended hclosed⟩
          · simp only [report, horigins, if_pos (h.ref_of_resting hfind href)]
          · rw [horder]
            exact (findOrder_id hfind).symm
      · next orderId ref raw rest horigins =>
          obtain ⟨order, hfind, href, horder⟩ := tradesFill_eq_some hfill
          refine ⟨⟨orderId, tradesVolume raw, true⟩, ?_, ?_, rfl⟩
          · simp only [report, horigins, if_pos (h.ref_of_resting hfind href), hfill,
              Option.isSome_some]
          · rw [horder]
            exact (findOrder_id hfind).symm
      · cases hfill
  | poll answer =>
      cases answer with
      | error text => cases hfill
      | ok raw =>
          simp only [fillOf] at hfill
          split at hfill
          · cases hfill
          · next pending rest hpolling =>
              split at hfill
              · cases hfill
              · next ref href =>
                  obtain ⟨hindexed, hopen, hclosed⟩ := pollFill_eq_some hfill
                  refine ⟨statusReport fill.order.pendingOrderId ref raw, ?_, rfl,
                    statusReport_ended hclosed⟩
                  simp only [report, hpolling, href, hindexed, Option.getD_some, if_pos hopen]
  | _ => cases hfill

theorem held_eq_some {lots executed : ℚ} : some lots = held executed ↔ 0 < executed ∧ lots = executed := by
  rw [held]
  split
  · next hpositive => simp [hpositive]
  · next hnone => simp [hnone]

theorem held_eq_none {executed : ℚ} : none = held executed ↔ executed ≤ 0 := by
  rw [held]
  split
  · next hpositive => simp [hpositive]
  · next hnone => simpa using hnone

/-- A step that returns leaves the volumes conserved exactly when its report accounts for the
lots. -/
theorem conserved_iff_accounted (h : Monitoring cfg pairs m) (hgood : Conserved m)
    (hstep : monitoredStep cfg pairs m op = .ok m') :
    Conserved m' ↔ Accounted cfg pairs m op := by
  have hopened := monitoredStep_opened h hstep
  obtain ⟨tracked, -, hobserved⟩ := monitoredStep_eq_ok hstep
  have hother : ∀ orderId, (∀ r, report pairs m op = some r → orderId ≠ r.orderId) →
      m'.ended orderId = m.ended orderId ∧ m'.executed orderId = m.executed orderId ∧
        m'.opened orderId = m.opened orderId := by
    intro orderId hid
    have hlots : openedLots (opening cfg pairs m op) orderId = none := by
      cases hopening : opening cfg pairs m op with
      | none => rfl
      | some fill =>
          obtain ⟨r, hreport, hsame, -⟩ := opening_report h hopening
          exact if_neg (hsame ▸ hid r hreport)
    rw [hopened, hlots, Option.or_none, hobserved, observed]
    cases hreport : report pairs m op with
    | none => exact ⟨rfl, rfl, rfl⟩
    | some r => exact ⟨if_neg (hid r hreport), if_neg (hid r hreport), rfl⟩
  rw [Accounted]
  cases hreport : report pairs m op with
  | none =>
      refine iff_of_true (fun orderId hended => ?_) trivial
      obtain ⟨hsame, hexecuted, hlots⟩ := hother orderId fun r hr => by rw [hreport] at hr; cases hr
      rw [hexecuted, hlots]
      exact hgood orderId (hsame ▸ hended)
  | some r =>
      have hended : m'.ended r.orderId = (m.ended r.orderId || r.ended) := by
        rw [hobserved, observed, hreport]
        exact if_pos rfl
      have hexecuted : m'.executed r.orderId = max (m.executed r.orderId) r.volume := by
        rw [hobserved, observed, hreport]
        exact if_pos rfl
      have hlots : m'.opened r.orderId = held (max (m.executed r.orderId) r.volume) ↔
          Matches (max (m.executed r.orderId) r.volume) (m.opened r.orderId)
            (opening cfg pairs m op) := by
        rw [hopened]
        cases hbefore : m.opened r.orderId with
        | some lots => exact held_eq_some
        | none =>
            rw [Option.none_or]
            cases hopening : opening cfg pairs m op with
            | none => exact held_eq_none
            | some fill =>
                obtain ⟨r', hreport', hsame, -⟩ := opening_report h hopening
                rw [hreport] at hreport'
                cases hreport'
                rw [openedLots, if_pos hsame]
                exact held_eq_some
      constructor
      · intro hconserved hend
        refine hlots.mp ?_
        rw [← hexecuted]
        refine hconserved r.orderId ?_
        rw [hended, Bool.or_eq_true]
        exact hend.symm
      · intro haccounted orderId hend
        by_cases hid : orderId = r.orderId
        · subst hid
          rw [hended, Bool.or_eq_true] at hend
          rw [hexecuted]
          exact hlots.mpr (haccounted hend.symm)
        · obtain ⟨hsame, hvolume, hopen⟩ := hother orderId fun r' hr' => by
            rw [hreport] at hr'
            cases hr'
            exact hid
          rw [hvolume, hopen]
          exact hgood orderId (hsame ▸ hend)

end Conservation

section Runs

variable {cfg : LiveConfig RawResult} {pairs : List PairConfig}

/-- The volumes are conserved in every state of a run over Kraken's parsers exactly when every
reply of the run accounts for the lots of its order. -/
theorem executed_volume_conserved {ops : List (LiveOp RawResult)} {m : Monitored}
    (hrun : run (monitoredStep cfg pairs) (monitoredStart cfg pairs) ops = .ok m) :
    (∀ n u, run (monitoredStep cfg pairs) (monitoredStart cfg pairs) (ops.take n) = .ok u →
        Conserved u) ↔
      StepsAll (monitoredStep cfg pairs) (Accounted cfg pairs) (monitoredStart cfg pairs) ops := by
  refine reached_iff_stepsAll (A := fun _ => True) (fun m op m' h _ hgood hstep => ?_)
    (fun _ _ => trivial) (monitoredStart_monitoring cfg pairs) (fun _ hended => ?_) hrun
  · exact ⟨monitoredStep_monitoring h hstep, conserved_iff_accounted h hgood hstep⟩
  · cases hended

/-- A resting limit order of two lots is polled, and the broker answers. -/
def polledLimit (status : String) (volume : ℚ) : List (LiveOp RawResult) :=
  restingLimit ++ [.wallClock 10000000, .processActiveOrders] ++
    answered (reported "OID-1" status 1500 volume) ++ [.drain]

theorem closed_limit_runs :
    (run (monitoredStep krakenSession []) (monitoredStart krakenSession [])
      (polledLimit "closed" 2)).map (fun m => (m.ended "pos_ethusd_1", m.executed "pos_ethusd_1",
        m.opened "pos_ethusd_1")) = .ok (true, 2, some 2) := by
  decide +kernel

theorem closed_limit_conserved :
    ∃ m, run (monitoredStep krakenSession []) (monitoredStart krakenSession [])
        (polledLimit "closed" 2) = .ok m ∧
      ∀ n u, run (monitoredStep krakenSession []) (monitoredStart krakenSession [])
        ((polledLimit "closed" 2).take n) = .ok u → Conserved u := by
  obtain ⟨m, hrun, -⟩ := exists_of_map_eq_ok closed_limit_runs
  exact ⟨m, hrun, (executed_volume_conserved hrun).mpr (by decide +kernel)⟩

theorem canceled_limit_runs :
    (run (monitoredStep krakenSession []) (monitoredStart krakenSession [])
      (polledLimit "canceled" (1 / 2))).map (fun m => (m.ended "pos_ethusd_1",
        m.executed "pos_ethusd_1", m.opened "pos_ethusd_1")) = .ok (true, 1 / 2, none) := by
  decide +kernel

/-- Half a lot of the cancelled order was executed, and no position is opened. -/
theorem canceled_limit_loses_volume :
    ¬∀ n u, run (monitoredStep krakenSession []) (monitoredStart krakenSession [])
      ((polledLimit "canceled" (1 / 2)).take n) = .ok u → Conserved u := by
  intro hall
  obtain ⟨m, hrun, hfacts⟩ := exists_of_map_eq_ok canceled_limit_runs
  have hended : m.ended "pos_ethusd_1" = true := congrArg Prod.fst hfacts
  have hexecuted : m.executed "pos_ethusd_1" = 1 / 2 := congrArg (·.2.1) hfacts
  have hopened : m.opened "pos_ethusd_1" = none := congrArg (·.2.2) hfacts
  have hconserved : Conserved m := by
    refine hall (polledLimit "canceled" (1 / 2)).length m ?_
    rw [List.take_length]
    exact hrun
  have hheld := hconserved "pos_ethusd_1" hended
  rw [hopened, hexecuted] at hheld
  have hnothing : (1 / 2 : ℚ) ≤ 0 := held_eq_none.mp hheld
  norm_num at hnothing

end Runs

end Finiex.LiveVolumes
