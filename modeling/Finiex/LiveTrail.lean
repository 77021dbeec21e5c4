import Finiex.AuditTrail
import Finiex.Live

namespace Finiex.LiveTrail

open Finiex.Types
open Finiex.Lib
open Finiex.Lib.Run
open Finiex.Positions
open Finiex.Orders
open Finiex.Portfolio
open Finiex.Portfolio.PortfolioManager
open Finiex.PortfolioLedger
open Finiex.PortfolioFrames
open Finiex.Executor
open Finiex.ExecutorFills
open Finiex.AuditTrail
open Finiex.Live

/-- The event goes with an increment of `orders_executed` or `orders_rejected`. -/
def isCounted : AuditEvent → Bool
  | .result .expiry _ => false
  | .result .submission r => decide (r.status = .rejected)
  | .result .fill r => decide (r.action ≠ some .closeAction)
  | .result _ _ => true
  | _ => false

/-- The ledger moves by these events. -/
structure Extends (ledger ledger' : ExecutionLedger) (events : List AuditEvent) : Prop where
  log : ledger'.log = ledger.log ++ events
  counted : ledger'.ordersExecuted + ledger'.ordersRejected =
    ledger.ordersExecuted + ledger.ordersRejected + events.countP isCounted
  counter : ledger.portfolio.positionCounter ≤ ledger'.portfolio.positionCounter
  positions : ∀ k, ledger'.portfolio.getPosition k ≠ none →
    ledger.portfolio.getPosition k ≠ none ∨ k ∈ events.filterMap filledId

theorem Extends.refl (ledger : ExecutionLedger) : Extends ledger ledger [] where
  log := (List.append_nil _).symm
  counted := rfl
  counter := le_rfl
  positions _ hk := .inl hk

theorem Extends.trans {ledger ledger' ledger'' : ExecutionLedger} {events events' : List AuditEvent}
    (h : Extends ledger ledger' events) (h' : Extends ledger' ledger'' events') :
    Extends ledger ledger'' (events ++ events') where
  log := by rw [h'.log, h.log, List.append_assoc]
  counted := by
    rw [h'.counted, h.counted, List.countP_append]
    omega
  counter := h.counter.trans h'.counter
  positions k hk := by
    rw [List.filterMap_append, List.mem_append]
    rcases h'.positions k hk with hold | hnew
    · rcases h.positions k hold with hold | hnew
      · exact .inl hold
      · exact .inr (.inl hnew)
    · exact .inr (.inr hnew)

theorem extends_portfolio (ledger : ExecutionLedger) {pm : PortfolioManager}
    (hcounter : ledger.portfolio.positionCounter ≤ pm.positionCounter)
    (hpositions : ∀ k, pm.getPosition k ≠ none → ledger.portfolio.getPosition k ≠ none) :
    Extends ledger { ledger with portfolio := pm } [] where
  log := (List.append_nil _).symm
  counted := rfl
  counter := hcounter
  positions k hk := .inl (hpositions k hk)

theorem modifyPosition_extends (ledger : ExecutionLedger) (positionId : String)
    (stopLoss takeProfit : Setting (Option ℚ)) :
    Extends ledger { ledger with
      portfolio := (ledger.portfolio.modifyPosition positionId stopLoss takeProfit).1 } [] := by
  obtain ⟨positions, hframe, hkeep⟩ :=
    modifyPosition_frame ledger.portfolio positionId stopLoss takeProfit
  rw [hframe]
  refine extends_portfolio ledger le_rfl fun k hk => ?_
  obtain ⟨position, hposition⟩ := Option.ne_none_iff_exists'.mp hk
  obtain ⟨before, hbefore, -⟩ := hkeep k position hposition
  rw [hbefore]
  simp

section Fills

variable {cfg : ExecutorConfig} {market : MarketState} {ledger ledger' : ExecutionLedger}
  {pending : PendingOrder} {fillPrice : Option ℚ}

/-- An open fill records and announces one result of its order, and opens its position when
that result is an execution. -/
theorem fillOpenOrder_extends {entryType : EntryType} {fillType : FillType}
    (h : fillOpenOrder cfg market ledger pending fillPrice entryType fillType = .ok ledger') :
    ∃ result : OrderResult, result.orderId = pending.pendingOrderId ∧
      result.action ≠ some .closeAction ∧ result.status ≠ .pending ∧
      Extends ledger ledger' [.result .fill result,
        .notified pending.direction result (some pending.pendingOrderId)] := by
  obtain ⟨tick, spec, entryPrice, pm, -, -, -, -, hpm, hend⟩ := fillOpenOrder_eq_ok h
  obtain ⟨hcounter, hpositions⟩ := funds_frame hpm
  rcases hend with ⟨reason, message, rfl⟩ |
      ⟨tickValue, bid, ask, entryFee, trades, seq, pm', now, -, -, hopen, rfl⟩
  · refine ⟨createRejectionResult pending.pendingOrderId reason message, rfl, by
      simp [createRejectionResult], by simp [createRejectionResult], ?_, ?_, hcounter.ge,
      fun k hk => .inl (hpositions k hk)⟩
    · exact List.append_assoc _ [_] [_]
    · exact (Nat.add_assoc _ _ _).symm
  · obtain ⟨now', costs, balances, -, rfl⟩ := openPosition_eq_ok hopen
    refine ⟨openOrderResult market pending entryPrice entryFee fillType now, rfl, by
      simp [openOrderResult], by simp [openOrderResult], ?_, ?_, hcounter.ge, fun k hk => ?_⟩
    · exact List.append_assoc _ [_] [_]
    · exact Nat.add_right_comm _ _ _
    · by_cases hkey : k = pending.pendingOrderId
      · rw [hkey]
        exact .inr List.mem_cons_self
      · refine .inl (hpositions k fun hnone => hk ?_)
        exact (Dict.get?_set_ne _ _ hkey).trans hnone

def isCloseRecord : AuditEvent → Bool
  | .fillCloseOrder _ _ | .closeFilled _ | .partialClose _ _ _ _ => true
  | .result .fill r => decide (r.action = some .closeAction)
  | _ => false

theorem fillCloseOrder_extends {closeReason : CloseReason}
    (h : fillCloseOrder cfg market ledger pending fillPrice closeReason = .ok ledger') :
    ∃ events, (∀ event ∈ events, isCloseRecord event = true) ∧ Extends ledger ledger' events ∧
      ∀ k, ledger'.portfolio.getPosition k ≠ none → ledger.portfolio.getPosition k ≠ none := by
  obtain ⟨tick, -, ⟨rfl, -⟩ | ⟨position, spec, closePrice, exitTickValue, closing, seq, trades, pm,
    pnl, now, result, -, -, -, -, -, -, -, hclose, rfl, rfl⟩⟩ := fillCloseOrder_eq_ok h
  · refine ⟨[.fillCloseOrder pending closeReason], by simp [isCloseRecord],
      ⟨rfl, rfl, le_rfl, fun k hk => .inl hk⟩, fun k hk => hk⟩
  · have hframe := closeInPortfolio_frame hclose
    refine ⟨_, ?_, ⟨List.append_assoc _ _ _, ?_, hframe.1.ge, fun k hk => .inl (hframe.2 k hk)⟩,
      hframe.2⟩
    · intro event hevent
      cases closing <;> simp at hevent <;> rcases hevent with rfl | rfl | rfl | rfl <;>
        simp [isCloseRecord, closeOrderResult]
    · cases closing <;> rfl

end Fills

end Finiex.LiveTrail
