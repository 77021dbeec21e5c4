import Finiex.ExecutorFills
import Finiex.PortfolioFrames

namespace Finiex.AuditTrail

open Finiex.Types
open Finiex.Lib
open Finiex.Lib.Run
open Finiex.Positions
open Finiex.Orders
open Finiex.Portfolio
open Finiex.Portfolio.PortfolioManager
open Finiex.PortfolioRefresh
open Finiex.PortfolioLedger
open Finiex.PortfolioFrames
open Finiex.Executor
open Finiex.ExecutorFills

section Views

def acceptedId : AuditEvent → Option String
  | .orderReceived pending => if pending.isOpen then some pending.pendingOrderId else none
  | _ => none

def filledId : AuditEvent → Option String
  | .result .fill r =>
      if r.status = .executed ∧ r.action = some .openAction then some r.orderId else none
  | _ => none

def rejectedId : AuditEvent → Option String
  | .result .fill r => if r.status = .rejected then some r.orderId else none
  | .result .stressTest r => some r.orderId
  | _ => none

def cancelledId : AuditEvent → Option String
  | .orderCancelled orderId _ => some orderId
  | _ => none

def refusedId : AuditEvent → Option String
  | .result .submission r => if r.status = .rejected then some r.orderId else none
  | _ => none

def guardedId : AuditEvent → Option String
  | .result .orderGuard r => some r.orderId
  | _ => none

def acceptedIds (ledger : ExecutionLedger) : List String := ledger.log.filterMap acceptedId

def filledIds (ledger : ExecutionLedger) : List String := ledger.log.filterMap filledId

def rejectedIds (ledger : ExecutionLedger) : List String := ledger.log.filterMap rejectedId

def cancelledIds (ledger : ExecutionLedger) : List String := ledger.log.filterMap cancelledId

def refusedIds (ledger : ExecutionLedger) : List String := ledger.log.filterMap refusedId

def guardRejections (ledger : ExecutionLedger) : List String := ledger.log.filterMap guardedId

end Views

/-- The ledger moves by these acceptances, fills and rejections of accepted orders, refused
requests and guard rejections; nothing is cancelled, and no position appears that was not
filled. -/
structure Moves (ledger ledger' : ExecutionLedger)
    (accepted filled rejected refused guarded : List String) : Prop where
  acceptedIds_eq : acceptedIds ledger' = acceptedIds ledger ++ accepted
  filledIds_eq : filledIds ledger' = filledIds ledger ++ filled
  rejectedIds_eq : rejectedIds ledger' = rejectedIds ledger ++ rejected
  cancelledIds_eq : cancelledIds ledger' = cancelledIds ledger
  refusedIds_eq : refusedIds ledger' = refusedIds ledger ++ refused
  guardRejections_eq : guardRejections ledger' = guardRejections ledger ++ guarded
  sent : ledger'.ordersSent = ledger.ordersSent + accepted.length + refused.length
  executed : ledger'.ordersExecuted = ledger.ordersExecuted + filled.length
  rejected : ledger'.ordersRejected =
    ledger.ordersRejected + rejected.length + refused.length + guarded.length
  counter : ledger.portfolio.positionCounter ≤ ledger'.portfolio.positionCounter
  positions : ∀ k, ledger'.portfolio.getPosition k ≠ none →
    ledger.portfolio.getPosition k ≠ none ∨ k ∈ filled

/-- Accepted orders end as filled or rejected, and nothing else happens. -/
abbrev Ends (ledger ledger' : ExecutionLedger) (filled rejected : List String) : Prop :=
  Moves ledger ledger' [] filled rejected [] []

/-- A ledger whose log grows by one batch of events moves by what the views read in it. -/
theorem moves_of_log {ledger ledger' : ExecutionLedger} (events : List AuditEvent)
    (hlog : ledger'.log = ledger.log ++ events)
    (hcancelled : events.filterMap cancelledId = [])
    (hsent : ledger'.ordersSent = ledger.ordersSent + (events.filterMap acceptedId).length +
      (events.filterMap refusedId).length)
    (hexecuted : ledger'.ordersExecuted =
      ledger.ordersExecuted + (events.filterMap filledId).length)
    (hrejected : ledger'.ordersRejected = ledger.ordersRejected +
      (events.filterMap rejectedId).length + (events.filterMap refusedId).length +
      (events.filterMap guardedId).length)
    (hcounter : ledger.portfolio.positionCounter ≤ ledger'.portfolio.positionCounter)
    (hpositions : ∀ k, ledger'.portfolio.getPosition k ≠ none →
      ledger.portfolio.getPosition k ≠ none ∨ k ∈ events.filterMap filledId) :
    Moves ledger ledger' (events.filterMap acceptedId) (events.filterMap filledId)
      (events.filterMap rejectedId) (events.filterMap refusedId)
      (events.filterMap guardedId) := by
  have hviews : ∀ view : AuditEvent → Option String,
      ledger'.log.filterMap view = ledger.log.filterMap view ++ events.filterMap view := by
    intro view
    rw [hlog, List.filterMap_append]
  refine ⟨hviews acceptedId, hviews filledId, hviews rejectedId, ?_, hviews refusedId,
    hviews guardedId, hsent, hexecuted, hrejected, hcounter, hpositions⟩
  have hview := hviews cancelledId
  rw [hcancelled, List.append_nil] at hview
  exact hview

section Fills

variable {cfg : ExecutorConfig} {market : MarketState}

/-- An open fill ends its order once: filled, or rejected for lack of funds. -/
theorem fillOpenOrder_ends {ledger ledger' : ExecutionLedger} {pending : PendingOrder}
    {fillPrice : Option ℚ} {entryType : EntryType} {fillType : FillType}
    (h : fillOpenOrder cfg market ledger pending fillPrice entryType fillType = .ok ledger') :
    Ends ledger ledger' [pending.pendingOrderId] [] ∨
      Ends ledger ledger' [] [pending.pendingOrderId] := by
  obtain ⟨tick, spec, entryPrice, pm, -, -, -, -, hpm, hend⟩ := fillOpenOrder_eq_ok h
  obtain ⟨hcounter, hpositions⟩ := funds_frame hpm
  rcases hend with ⟨reason, message, rfl⟩ |
      ⟨tickValue, bid, ask, entryFee, trades, seq, pm', now, -, -, hopen, rfl⟩
  · let rejection := createRejectionResult pending.pendingOrderId reason message
    refine .inr (moves_of_log [.result .fill rejection,
      .notified pending.direction rejection (some pending.pendingOrderId)] ?_ rfl rfl rfl rfl
      hcounter.ge fun k hk => .inl (hpositions k hk))
    exact List.append_assoc _ [_] [_]
  · obtain ⟨now', costs, balances, -, rfl⟩ := openPosition_eq_ok hopen
    let result := openOrderResult market pending entryPrice entryFee fillType now
    refine .inl (moves_of_log [.result .fill result,
      .notified pending.direction result (some pending.pendingOrderId)] ?_ rfl rfl rfl rfl
      hcounter.ge fun k hk => ?_)
    · exact List.append_assoc _ [_] [_]
    · by_cases hkey : k = pending.pendingOrderId
      · rw [hkey]
        exact .inr List.mem_cons_self
      · refine .inl (hpositions k fun hnone => hk ?_)
        exact (Dict.get?_set_ne _ _ hkey).trans hnone

theorem closeInPortfolio_frame {pm pm' : PortfolioManager} {args : CloseArgs}
    {closing : Option ℚ} {pnl : ℚ}
    (h : closeInPortfolio cfg market pm args closing = .ok (pm', pnl)) :
    pm'.positionCounter = pm.positionCounter ∧
      ∀ k, pm'.getPosition k ≠ none → pm.getPosition k ≠ none := by
  cases closing with
  | none =>
      obtain ⟨hcounter, -, hkeep⟩ := closePositionPortfolio_frame h
      exact ⟨hcounter, hkeep.open_before⟩
  | some lots =>
      obtain ⟨hcounter, hkeep⟩ := partialClosePosition_frame h
      exact ⟨hcounter, hkeep.open_before⟩

theorem fillCloseOrder_ends {ledger ledger' : ExecutionLedger} {pending : PendingOrder}
    {fillPrice : Option ℚ} {closeReason : CloseReason}
    (h : fillCloseOrder cfg market ledger pending fillPrice closeReason = .ok ledger') :
    Ends ledger ledger' [] [] := by
  obtain ⟨tick, -, ⟨rfl, -⟩ | ⟨position, spec, closePrice, exitTickValue, closing, seq, trades, pm,
    pnl, now, result, -, -, -, -, -, -, -, hclose, rfl, rfl⟩⟩ := fillCloseOrder_eq_ok h
  · exact moves_of_log [.fillCloseOrder pending closeReason] rfl rfl rfl rfl rfl le_rfl
      fun k hk => .inl hk
  · have hframe := closeInPortfolio_frame hclose
    let result := closeOrderResult pending position closePrice closing pnl now
    let fill : CloseFill :=
      ⟨pending, fillPrice, closeReason, tick, position, refreshQuote ledger.portfolio position,
        result⟩
    cases closing with
    | none =>
        exact moves_of_log [.fillCloseOrder pending closeReason, .closeFilled fill,
          .result .fill result] (List.append_nil _) rfl rfl rfl rfl hframe.1.ge
          fun k hk => .inl (hframe.2 k hk)
    | some lots =>
        exact moves_of_log [.fillCloseOrder pending closeReason, .closeFilled fill,
          .result .fill result, .partialClose pending.pendingOrderId lots (position.lots - lots)
            closePrice] (List.append_assoc _ _ _) rfl rfl rfl rfl hframe.1.ge
          fun k hk => .inl (hframe.2 k hk)

/-- What a fill leaves in the log beside the note that it was called. -/
def isFillRecord : AuditEvent → Bool
  | .closeFilled _ | .result _ _ | .notified _ _ _ | .partialClose _ _ _ _ => true
  | _ => false

theorem fillOpenOrder_log {ledger ledger' : ExecutionLedger} {pending : PendingOrder}
    {fillPrice : Option ℚ} {entryType : EntryType} {fillType : FillType}
    (h : fillOpenOrder cfg market ledger pending fillPrice entryType fillType = .ok ledger') :
    ∃ records, ledger'.log = ledger.log ++ records ∧
      ∀ event ∈ records, isFillRecord event = true := by
  obtain ⟨tick, spec, entryPrice, pm, -, -, -, -, -, ⟨reason, message, rfl⟩ |
    ⟨tickValue, bid, ask, entryFee, trades, seq, pm', now, -, -, -, rfl⟩⟩ := fillOpenOrder_eq_ok h
  · exact ⟨[.result .fill _, .notified _ _ _], List.append_assoc _ [_] [_], by simp [isFillRecord]⟩
  · exact ⟨[.result .fill _, .notified _ _ _], List.append_assoc _ [_] [_], by simp [isFillRecord]⟩

theorem fillCloseOrder_log {ledger ledger' : ExecutionLedger} {pending : PendingOrder}
    {fillPrice : Option ℚ} {closeReason : CloseReason}
    (h : fillCloseOrder cfg market ledger pending fillPrice closeReason = .ok ledger') :
    ∃ records, ledger'.log = ledger.log ++ .fillCloseOrder pending closeReason :: records ∧
      ∀ event ∈ records, isFillRecord event = true := by
  obtain ⟨tick, -, ⟨rfl, -⟩ | ⟨position, spec, closePrice, exitTickValue, closing, seq, trades, pm,
    pnl, now, result, -, -, -, -, -, -, -, -, -, rfl⟩⟩ := fillCloseOrder_eq_ok h
  · exact ⟨[], rfl, by simp⟩
  · refine ⟨_, List.append_assoc _ _ _, ?_⟩
    cases closing <;> simp [isFillRecord]

end Fills

end Finiex.AuditTrail
