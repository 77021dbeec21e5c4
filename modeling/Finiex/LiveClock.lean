import Finiex.LiveSteps

namespace Finiex.LiveClock

open Finiex.Types
open Finiex.Lib.Run
open Finiex.Orders
open Finiex.Portfolio
open Finiex.Executor
open Finiex.LiveTypes
open Finiex.Live
open Finiex.LiveSpecs
open Finiex.LiveSteps

variable {Raw : Type} {cfg : LiveConfig Raw} {s s' t : LiveTradeExecutor Raw}

def clockOp : LiveOp Raw → Option Instant
  | .setCurrentTime now => some now
  | .receiveTick tick => some tick.timestamp
  | _ => none

section Frames

theorem takeByRef_market (s : LiveTradeExecutor Raw) (brokerRef : Option String) :
    (takeByRef s brokerRef).1.market = s.market := by
  unfold takeByRef
  split
  · rfl
  · split <;> rfl

theorem fillOpen_market {pending : PendingOrder} {fillPrice : Option ℚ} {entryType : EntryType}
    {fillType : FillType} (h : fillOpen cfg s pending fillPrice entryType fillType = .ok s') :
    s'.market = s.market := by
  obtain ⟨ledger, -, hpure⟩ := bind_eq_ok.mp h
  cases hpure
  rfl

theorem fillByAction_market {action : PendingOrderAction} {pending : PendingOrder}
    {fillPrice : Option ℚ} (h : fillByAction cfg s action pending fillPrice = .ok s') :
    s'.market = s.market := by
  cases action with
  | openOrder => exact fillOpen_market h
  | closeOrder =>
      obtain ⟨ledger, -, hpure⟩ := bind_eq_ok.mp h
      cases hpure
      rfl

theorem swapBrokerRef_market (s : LiveTradeExecutor Raw) (pending : PendingOrder)
    (newRef : String) : (swapBrokerRef s pending newRef).1.market = s.market := by
  unfold swapBrokerRef
  split
  · unfold updateBrokerRef
    split
    · rfl
    · split <;> rfl
  · rfl

theorem handled_market {response : Response Raw} (h : Handled cfg s response s') :
    s'.market = s.market := by
  cases h with
  | marketFilled htype hpending href hfill =>
      rw [fillByAction_market hfill]
      exact takeByRef_market _ _
  | limitFilled order hid hmem hfill =>
      rw [fillOpen_market hfill]
      rfl
  | modified hfind => exact swapBrokerRef_market _ _ _
  | _ => rfl

theorem polled_market {ref : String} {response : BrokerResponse Raw}
    (h : Polled cfg s ref response s') : s'.market = s.market := by
  cases h with
  | idle hfilled hrejected => rfl
  | unmatched hnone => exact takeByRef_market _ _
  | filled hstatus htake hfill =>
      rw [fillByAction_market hfill]
      exact takeByRef_market _ _
  | rejected hstatus htake => exact takeByRef_market _ _

/-- The clock shows what an operation sets it to, and otherwise what it showed before. -/
theorem step_clockTime {op : LiveOp Raw} (hsound : LiveSound s) (h : step cfg s op = .ok s') :
    s'.market.clockTime = (clockOp op).or s.market.clockTime := by
  cases op with
  | drain =>
      rw [step, drain] at h
      split at h
      · cases h
        rfl
      · next response rest hinbox =>
          have hhandled : Handled cfg { s with requests := { s.requests with inbox := rest } }
            response s' := handleResponse_handled hsound.emptyRef h
          rw [handled_market hhandled]
          rfl
  | poll answer =>
      rcases poll_cases h with ⟨-, rfl⟩ | ⟨pending, rest, -, ⟨-, rfl⟩ | ⟨ref, response, -, -,
        hpolled⟩⟩
      · rfl
      · rfl
      · rw [polled_market hpolled]
        rfl
  | expire =>
      cases h
      rw [expire]
      split
      · rfl
      · exact congrArg MarketState.clockTime (takeByRef_market _ _)
  | openOrder request =>
      obtain ⟨⟨s₁, result⟩, hopen, rfl⟩ := map_eq_ok.mp h
      exact congrArg MarketState.clockTime (openOrder_callFrame hopen).market
  | closePosition positionId lots =>
      obtain ⟨⟨s₁, result⟩, hclose, rfl⟩ := map_eq_ok.mp h
      exact congrArg MarketState.clockTime (closePosition_callFrame hclose).market
  | modifyPosition positionId stopLoss takeProfit =>
      obtain ⟨⟨s₁, result⟩, hmodify, rfl⟩ := map_eq_ok.mp h
      exact congrArg MarketState.clockTime (modifyPosition_callFrame hmodify).market
  | modifyLimitOrder orderId price stopLoss takeProfit =>
      obtain ⟨⟨s₁, result⟩, hmodify, rfl⟩ := map_eq_ok.mp h
      exact congrArg MarketState.clockTime (modifyLimitOrder_callFrame hmodify).market
  | cancelLimitOrder orderId =>
      cases h
      exact congrArg MarketState.clockTime (cancelLimitOrder_callFrame s orderId).market
  | getAccountInfo direction =>
      obtain ⟨⟨pm, info⟩, -, hpure⟩ := bind_eq_ok.mp h
      cases hpure
      rfl
  | closeAllRemainingOrders =>
      obtain ⟨expired, -, h⟩ := bind_eq_ok.mp h
      obtain ⟨closed, -, h⟩ := bind_eq_ok.mp h
      cases h
      rfl
  | _ =>
      cases h
      rfl

theorem run_clockTime {ops : List (LiveOp Raw)} (hsound : LiveSound s)
    (h : run (step cfg) s ops = .ok t) :
    t.market.clockTime = (ops.filterMap clockOp).getLast?.or s.market.clockTime := by
  induction ops generalizing s with
  | nil =>
      cases h
      rfl
  | cons op ops ih =>
      obtain ⟨s₁, hstep, hrun⟩ := run_cons_eq_ok.mp h
      rw [ih (stepped_sound hsound (step_stepped hsound hstep)) hrun, step_clockTime hsound hstep]
      cases hop : clockOp op with
      | none => rw [List.filterMap_cons_none hop, Option.none_or]
      | some now =>
          rw [List.filterMap_cons_some hop, List.getLast?_cons]
          cases (ops.filterMap clockOp).getLast? <;> rfl

end Frames

section Sessions

/-- What wakes the tick loop: no tick within the heartbeat interval, or a tick; with the wall
clock at that moment. -/
inductive LoopTurn
  | idle (now : Instant)
  | onTick (tick : TickData) (now : Instant)

namespace LoopTurn

def wallClock : LoopTurn → Instant
  | idle now => now
  | onTick _ now => now

def clock : LoopTurn → Instant
  | idle now => now
  | onTick tick _ => tick.timestamp

def ops : LoopTurn → List (LiveOp Raw)
  | idle now => [.wallClock now, .setCurrentTime now]
  | onTick tick now => [.wallClock now, .receiveTick tick]

/-- Two ticks come with their event times in order. -/
def TicksInOrder : LoopTurn → LoopTurn → Prop
  | onTick tick _, onTick later _ => tick.timestamp ≤ later.timestamp
  | _, _ => True

instance : DecidableRel TicksInOrder := fun a b =>
  match a, b with
  | onTick _ _, onTick _ _ => inferInstanceAs (Decidable (_ ≤ _))
  | onTick _ _, idle _ => inferInstanceAs (Decidable True)
  | idle _, onTick _ _ => inferInstanceAs (Decidable True)
  | idle _, idle _ => inferInstanceAs (Decidable True)

def NotOvertaken : LoopTurn → LoopTurn → Prop
  | idle now, onTick tick _ => now ≤ tick.timestamp
  | _, _ => True

instance : DecidableRel NotOvertaken := fun a b =>
  match a, b with
  | idle _, onTick _ _ => inferInstanceAs (Decidable (_ ≤ _))
  | idle _, idle _ => inferInstanceAs (Decidable True)
  | onTick _ _, onTick _ _ => inferInstanceAs (Decidable True)
  | onTick _ _, idle _ => inferInstanceAs (Decidable True)

end LoopTurn

/-- The turns of a live session: the wall clock and the event times go forward, and no tick is
stamped later than it is processed. -/
structure Timely (turns : List LoopTurn) : Prop where
  wallClock : turns.Pairwise fun earlier later => earlier.wallClock ≤ later.wallClock
  ticks : turns.Pairwise LoopTurn.TicksInOrder
  received : ∀ turn ∈ turns, turn.clock ≤ turn.wallClock

/-- A turn with the calls that follow it: responses, orders, queries. -/
structure SessionTurn (Raw : Type) where
  turn : LoopTurn
  calls : List (LiveOp Raw)
  clockFree : calls.filterMap clockOp = []

def sessionOps (session : List (SessionTurn Raw)) : List (LiveOp Raw) :=
  session.flatMap fun turn => turn.turn.ops ++ turn.calls

/-- However a session with these turns goes on, the clock never goes back. -/
def ClockForward (cfg : LiveConfig Raw) (turns : List LoopTurn) : Prop :=
  ∀ session : List (SessionTurn Raw), session.map SessionTurn.turn = turns →
    ∀ before after, before ++ after <+: sessionOps session →
      ∀ s t, run (step cfg) (Live.new cfg) before = .ok s → run (step cfg) s after = .ok t →
        ∀ earlier ∈ s.market.clockTime, ∀ later ∈ t.market.clockTime, earlier ≤ later

variable {turns : List LoopTurn} {turn : LoopTurn} {session : List (SessionTurn Raw)}

theorem turn_clockOps (turn : LoopTurn) :
    (turn.ops : List (LiveOp Raw)).filterMap clockOp = [turn.clock] := by
  cases turn <;> rfl

theorem session_clockOps (session : List (SessionTurn Raw)) :
    (sessionOps session).filterMap clockOp = (session.map SessionTurn.turn).map LoopTurn.clock := by
  induction session with
  | nil => rfl
  | cons turn session ih =>
      rw [sessionOps, List.flatMap_cons, List.filterMap_append, List.filterMap_append,
        turn_clockOps, turn.clockFree]
      exact congrArg _ ih

/-- The readings of a session whose turns set the clock forward only. -/
theorem clockForward_of_pairwise
    (h : turns.Pairwise fun earlier later => earlier.clock ≤ later.clock) :
    ClockForward cfg turns := by
  rintro session rfl before after hinitial s t hbefore hafter earlier hearlier later hlater
  have hsorted : ((before ++ after).filterMap clockOp).Pairwise (· ≤ ·) := by
    refine List.Pairwise.sublist (hinitial.sublist.filterMap clockOp) ?_
    rw [session_clockOps]
    exact List.pairwise_map.mpr h
  rw [List.filterMap_append] at hsorted
  obtain ⟨-, -, hacross⟩ := List.pairwise_append.mp hsorted
  have hsound := (run_sound_invariant (P := fun _ => True) (fun _ _ _ _ _ _ => trivial)
    (new_sound cfg) trivial hbefore).1
  have hs := run_clockTime (new_sound cfg) hbefore
  have ht := run_clockTime hsound hafter
  have hnew : (Live.new cfg).market.clockTime = none := rfl
  rw [hnew, Option.or_none] at hs
  cases hlast : (after.filterMap clockOp).getLast? with
  | none =>
      rw [hlast, Option.none_or] at ht
      rw [ht] at hlater
      exact (Option.mem_unique hearlier hlater).le
  | some now =>
      rw [hlast, Option.some_or] at ht
      rw [ht] at hlater
      rw [hs] at hearlier
      rw [← Option.mem_some_iff.mp hlater]
      exact hacross earlier (List.mem_of_mem_getLast? hearlier) now
        (List.mem_of_mem_getLast? hlast)

def bareSession (turns : List LoopTurn) : List (SessionTurn Raw) :=
  turns.map fun turn => { turn := turn, calls := [], clockFree := rfl }

theorem bareSession_turns (turns : List LoopTurn) :
    (bareSession turns : List (SessionTurn Raw)).map SessionTurn.turn = turns := by
  rw [bareSession, List.map_map]
  exact List.map_id turns

theorem bareSession_runs (cfg : LiveConfig Raw) (turns : List LoopTurn)
    (s : LiveTradeExecutor Raw) :
    ∃ t, run (step cfg) s (sessionOps (bareSession turns)) = .ok t := by
  induction turns generalizing s with
  | nil => exact ⟨s, rfl⟩
  | cons turn turns ih =>
      cases turn with
      | idle now => exact ih _
      | onTick tick now => exact ih _

theorem sessionOps_append (session rest : List (SessionTurn Raw)) :
    sessionOps (session ++ rest) = sessionOps session ++ sessionOps rest := List.flatMap_append

theorem bareSession_append (turns rest : List LoopTurn) :
    (bareSession (turns ++ rest) : List (SessionTurn Raw)) =
      bareSession turns ++ bareSession rest := List.map_append

theorem bareSession_clock (cfg : LiveConfig Raw) {s : LiveTradeExecutor Raw}
    (hsound : LiveSound s) (turns : List LoopTurn) (turn : LoopTurn) :
    ∃ t, run (step cfg) s (sessionOps (bareSession (turns ++ [turn]))) = .ok t ∧ LiveSound t ∧
      t.market.clockTime = some turn.clock := by
  obtain ⟨t, hrun⟩ := bareSession_runs cfg (turns ++ [turn]) s
  refine ⟨t, hrun, (run_sound_invariant (P := fun _ => True) (fun _ _ _ _ _ _ => trivial)
    hsound trivial hrun).1, ?_⟩
  rw [run_clockTime hsound hrun, session_clockOps, bareSession_turns, List.map_append,
    List.map_singleton, List.getLast?_concat, Option.some_or]

theorem pairwise_of_clockForward (h : ClockForward cfg turns) :
    turns.Pairwise fun earlier later => earlier.clock ≤ later.clock := by
  rw [List.pairwise_iff_forall_sublist]
  intro earlier later hsublist
  obtain ⟨front, rest, rfl, hearlier, hlater⟩ := List.cons_sublist_iff.mp hsublist
  obtain ⟨first, middle, rfl⟩ := List.append_of_mem hearlier
  obtain ⟨gap, last, rfl⟩ := List.append_of_mem (List.singleton_sublist.mp hlater)
  obtain ⟨s, hbefore, hsound, hs⟩ := bareSession_clock cfg (new_sound cfg) first earlier
  obtain ⟨t, hafter, -, ht⟩ := bareSession_clock cfg hsound (middle ++ gap) later
  refine h (bareSession (first ++ earlier :: middle ++ (gap ++ later :: last)))
    (bareSession_turns _) _ _ ?_ s t hbefore hafter earlier.clock ?_ later.clock ?_
  · rw [← sessionOps_append, ← bareSession_append]
    refine ⟨sessionOps (bareSession last), ?_⟩
    rw [← sessionOps_append, ← bareSession_append]
    simp
  · exact hs
  · exact ht

theorem clock_le_iff (hturns : Timely turns) :
    (turns.Pairwise fun earlier later => earlier.clock ≤ later.clock) ↔
      turns.Pairwise LoopTurn.NotOvertaken := by
  constructor
  · intro h
    refine h.imp fun hle => ?_
    rename_i earlier later
    cases earlier with
    | idle now => cases later with
      | idle later => trivial
      | onTick tick later => exact hle
    | onTick tick now => cases later <;> trivial
  · intro h
    have hall := (hturns.wallClock.and hturns.ticks).and h
    refine hall.imp_of_mem fun hearlier hlater hpair => ?_
    rename_i earlier later
    obtain ⟨⟨hwall, hticks⟩, hnot⟩ := hpair
    have hreceived := hturns.received earlier hearlier
    cases earlier with
    | idle now => cases later with
      | idle later => exact hwall
      | onTick tick later => exact hnot
    | onTick tick now => cases later with
      | idle later => exact hreceived.trans hwall
      | onTick tick' later => exact hticks

/-- The clock of every session over these turns goes forward exactly if no idle heartbeat
overtakes a tick. -/
theorem session_clock_forward_iff (cfg : LiveConfig Raw) {turns : List LoopTurn}
    (hturns : Timely turns) :
    ClockForward cfg turns ↔ turns.Pairwise LoopTurn.NotOvertaken := by
  rw [← clock_le_iff hturns]
  exact ⟨pairwise_of_clockForward, clockForward_of_pairwise⟩

end Sessions

section Examples

theorem prompt_tick_forward :
    ClockForward krakenSession [.onTick (ethusdTick 1600 1601 1000) 1000000, .idle 2000000,
      .onTick (ethusdTick 1600 1601 2100) 2200000] :=
  (session_clock_forward_iff krakenSession ⟨by decide, by decide, by decide⟩).mpr (by decide)

/-- A tick that was on its way during a heartbeat turns the clock back. -/
theorem delayed_tick_turns_back :
    Timely [.onTick (ethusdTick 1600 1601 1000) 1000000, .idle 2000000,
        .onTick (ethusdTick 1600 1601 1900) 2100000] ∧
      ¬ClockForward krakenSession [.onTick (ethusdTick 1600 1601 1000) 1000000, .idle 2000000,
        .onTick (ethusdTick 1600 1601 1900) 2100000] := by
  refine ⟨⟨by decide, by decide, by decide⟩, fun h => ?_⟩
  have hforward := pairwise_of_clockForward h
  exact absurd hforward (by decide)

end Examples

end Finiex.LiveClock
