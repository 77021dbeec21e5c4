import Finiex.LiveOutcomes

namespace Finiex.LiveLoop

open Finiex.Types
open Finiex.Lib
open Finiex.Lib.Run
open Finiex.Orders
open Finiex.OrderBooks
open Finiex.Executor
open Finiex.AuditTrail (filledId)
open Finiex.LiveTrail
open Finiex.Live
open Finiex.LiveSteps
open Finiex.LiveOutcomes

variable {Raw : Type} {cfg : LiveConfig Raw} {s s' : LiveTradeExecutor Raw}

section Turns

theorem drainInbox_eq (s : LiveTradeExecutor Raw) :
    drainInbox cfg s = run (step cfg) s (s.requests.inbox.map fun _ => .drain) :=
  foldlM_step (step cfg) (fun _ => .drain) _ s

theorem pollPending_eq (s : LiveTradeExecutor Raw) (answer : String → Except String Raw) :
    pollPending cfg s answer = run (step cfg) s
      (.beginPoll :: s.pendingOrders.values.map fun pending =>
        .poll (answer (pending.confirmedRef.getD ""))) :=
  foldlM_step (step cfg) (fun pending : PendingOrder => .poll (answer (pending.confirmedRef.getD "")))
    _ (beginPoll s)

theorem handleTimeouts_eq (s : LiveTradeExecutor Raw) :
    run (step cfg) s (.beginExpire :: (checkTimeouts s).map fun _ => .expire) =
      .ok (handleTimeouts cfg s) := by
  refine (foldlM_step (step cfg) (fun _ : PendingOrder => .expire) (checkTimeouts s)
    (beginExpire s)).symm.trans ?_
  rw [handleTimeouts]
  exact List.foldlM_pure

theorem serviced_run (cfg : LiveConfig Raw) (s : LiveTradeExecutor Raw) :
    ∃ ops, run (step cfg) s ops = .ok (processActiveOrders cfg (handleTimeouts cfg s)) :=
  ⟨_ ++ [.processActiveOrders], run_append_eq_ok.mpr ⟨_, handleTimeouts_eq s, rfl⟩⟩

theorem heartbeat_run (h : heartbeat cfg s = .ok s') : ∃ ops, run (step cfg) s ops = .ok s' := by
  obtain ⟨drained, hdrained, hpure⟩ := bind_eq_ok.mp h
  cases hpure
  rw [drainInbox_eq] at hdrained
  obtain ⟨ops, hops⟩ := serviced_run cfg drained
  exact ⟨_, run_append_eq_ok.mpr ⟨drained, hdrained, hops⟩⟩

theorem processPendingOrders_run {answer : String → Except String Raw}
    (h : processPendingOrders cfg s answer = .ok s') :
    ∃ ops, run (step cfg) s ops = .ok s' := by
  obtain ⟨drained, hdrained, h⟩ := bind_eq_ok.mp h
  obtain ⟨polled, hpolled, hpure⟩ := bind_eq_ok.mp h
  cases hpure
  rw [drainInbox_eq] at hdrained
  rw [pollPending_eq] at hpolled
  obtain ⟨ops, hops⟩ := serviced_run cfg polled
  exact ⟨_, run_append_eq_ok.mpr ⟨drained, hdrained,
    run_append_eq_ok.mpr ⟨polled, hpolled, hops⟩⟩⟩

theorem onTick_run {tick : TickData} {answer : String → Except String Raw}
    (h : onTick cfg s tick answer = .ok s') : ∃ ops, run (step cfg) s ops = .ok s' := by
  obtain ⟨ops, hops⟩ := processPendingOrders_run h
  exact ⟨.receiveTick tick :: ops, run_cons_eq_ok.mpr ⟨_, rfl, hops⟩⟩

end Turns

section Sessions

/-- What happens to the executor next: a tick with the broker's answers to the status queries, a
heartbeat, or a single operation of the worker thread or of the trading API. -/
inductive LoopTurn (Raw : Type)
  | tick (tick : TickData) (answer : String → Except String Raw)
  | heartbeat
  | operation (op : LiveOp Raw)

def loopStep (cfg : LiveConfig Raw) (s : LiveTradeExecutor Raw) :
    LoopTurn Raw → Except PyError (LiveTradeExecutor Raw)
  | .tick tick answer => onTick cfg s tick answer
  | .heartbeat => Live.heartbeat cfg s
  | .operation op => step cfg s op

theorem loop_run {turns : List (LoopTurn Raw)} (hrun : run (loopStep cfg) s turns = .ok s') :
    ∃ ops, run (step cfg) s ops = .ok s' := by
  refine exists_run_of_controller ?_ hrun
  intro s turn s' hturn
  cases turn with
  | tick tick answer => exact onTick_run hturn
  | heartbeat => exact heartbeat_run hturn
  | operation op => exact ⟨[op], run_cons_eq_ok.mpr ⟨s', hturn, rfl⟩⟩

theorem ends_of_filled {event : AuditEvent} {id : String} (h : filledId event = some id) :
    ends event = some id := by
  cases event with
  | result source result =>
      cases source with
      | fill =>
          rw [filledId] at h
          split at h
          · next hopened =>
              rw [ends, hopened.2]
              simpa using h
          · cases h
      | _ => cases h
  | _ => cases h

open Finiex.Kraken

def filledSession : List (LoopTurn RawResult) :=
  [.tick (ethusdTick 1600 1601 1000) fun _ => .error "", .operation (.openOrder marketLong),
    .operation (.openOrder limitLong)] ++
  (answered (accepted "OID-1") ++ answered (accepted "OID-2")).map .operation ++
  [.heartbeat, .tick (ethusdTick 1600 1601 2000) fun ref => .ok (reported ref "closed" 1601 2)]

end Sessions

end Finiex.LiveLoop
